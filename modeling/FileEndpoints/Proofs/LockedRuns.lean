import FileEndpoints.Endpoint.BuiltIn
import FileEndpoints.Proofs.Locks

namespace FileEndpoints

/-- An operation in a sequence: one that all endpoints have, or one that endpoints of some kind have
of their own, such as changing the set of files where that is not fixed. -/
inductive SharedUse (σ : Type) where
  | common (operation : LockedOperation)
  | own (operate : Services → σ → Outcome σ LockedAnswer)

section

variable {σ : Type} [Endpoint σ]

/-- The operation on an endpoint that is not behind a lock. -/
def LockedOperation.direct (s : Services) (e : σ) : LockedOperation → Outcome σ LockedAnswer
  | .name => { answer := .ok (.text (Endpoint.name e)), state := e }
  | .readme => { answer := .ok (.text (Endpoint.readme e)), state := e }
  | .validate document => { answer := (Endpoint.validate e document).map fun _ => .done, state := e }
  | .use (.configure document) => (Endpoint.configure s e document).mapAnswer fun _ => .done
  | .use .shutdown => (Endpoint.shutdown s e).mapAnswer fun _ => .done
  | .use (.stat path) =>
    { answer := (Endpoint.stat s e path).map fun i => .plain (.record i), state := e }
  | .use (.list path) =>
    { answer := (Endpoint.list s e path).map fun i => .plain (.records i), state := e }
  | .use (.read path offset size) =>
    (Endpoint.read s e path offset size).mapAnswer fun data => .plain (.content data)
  | .use (.write path data) => (Endpoint.write s e path data).mapAnswer fun _ => .done
  | .begin path data => (Endpoint.beginWrite s e path data).mapAnswer .step
  | .finish call reply => (Endpoint.finishWrite s e call reply).mapAnswer fun _ => .done
  | .changeStructure change path =>
    { answer := (Endpoint.changeStructure e change path).map fun _ => .done, state := e }

def SharedUse.direct (e : σ) (u : Services × SharedUse σ) : Outcome σ LockedAnswer :=
  match u.2 with
  | .common operation => operation.direct u.1 e
  | .own operate => operate u.1 e

/-- An operation of the endpoint's own holds the lock alone. -/
def SharedUse.locked (l : Locked σ) (u : Services × SharedUse σ) :
    Outcome (Locked σ) LockedAnswer :=
  match u.2 with
  | .common operation => l.perform u.1 operation
  | .own operate => l.act (operate u.1)

end

theorem Outcome.mapAnswer_crashed {σ α β : Type} {f : α → β} {o : Outcome σ α}
    (h : (o.mapAnswer f).answer ≠ .error .crashed) : o.answer ≠ .error .crashed := by
  intro hcrash
  apply h
  simp only [mapAnswer, hcrash, Except.map]

namespace Locked

variable {σ α : Type}

def around (e : σ) : Locked σ :=
  { endpoint := e }

theorem act_around {e : σ} {operate : σ → Outcome σ α}
    (h : (operate e).answer ≠ .error .crashed) :
    (around e).act operate = (operate e).mapState around := by
  simp only [act, around, Bool.false_eq_true, ↓reduceIte]
  cases ha : (operate e).answer with
  | ok a => rfl
  | error err =>
    cases err with
    | crashed => exact absurd ha h
    | _ => rfl

variable [Endpoint σ] {s : Services} {e : σ}

/-- Between the two halves of a write the lock is free, but nobody takes it. -/
theorem write_around {path : String} {data : Bytes}
    (h : (Endpoint.write s e path data).answer ≠ .error .crashed) :
    (around e).write s path data = (Endpoint.write s e path data).mapState around := by
  have hbegun : (Endpoint.beginWrite s e path data).answer ≠ .error .crashed := by
    intro hcrash
    apply h
    simp only [Endpoint.write, hcrash]
  have hlocked : (around e).beginWrite s path data =
      (Endpoint.beginWrite s e path data).mapState around := act_around hbegun
  simp only [write, Endpoint.write, hlocked, Outcome.mapState] at h ⊢
  cases ha : (Endpoint.beginWrite s e path data).answer with
  | error err => rfl
  | ok step =>
    cases step with
    | done => rfl
    | remote call =>
      simp only [ha] at h ⊢
      have hfinished : (around _).act (fun e : σ => Endpoint.finishWrite s e call _) = _ :=
        act_around h
      simp only [around, Outcome.mapState] at hfinished ⊢
      simp only [finishWrite, hfinished]

theorem perform_around {operation : LockedOperation}
    (h : (operation.direct s e).answer ≠ .error .crashed) :
    (around e).perform s operation = (operation.direct s e).mapState around := by
  have hact {α : Type} {f : α → LockedAnswer} {operate : σ → Outcome σ α}
      (h : ((operate e).mapAnswer f).answer ≠ .error .crashed) :
      ((around e).act operate).mapAnswer f = ((operate e).mapAnswer f).mapState around := by
    rw [act_around (Outcome.mapAnswer_crashed h)]
    rfl
  cases operation with
  | name => rfl
  | readme => rfl
  | validate document => rfl
  | changeStructure change path => rfl
  | begin path data => exact hact h
  | finish call reply => exact hact h
  | use operation =>
    cases operation with
    | stat path => rfl
    | list path => rfl
    | configure document => exact hact h
    | shutdown => exact hact h
    | read path offset size => exact hact h
    | write path data =>
      have hwrite : (around e).write s path data = _ :=
        write_around (Outcome.mapAnswer_crashed h)
      simp only [perform, hwrite]
      rfl

end Locked

theorem SharedUse.locked_around {σ : Type} [Endpoint σ] {e : σ} {u : Services × SharedUse σ}
    (h : (direct e u).answer ≠ .error .crashed) :
    locked (.around e) u = (direct e u).mapState .around := by
  obtain ⟨s, use⟩ := u
  cases use with
  | common operation => exact Locked.perform_around h
  | own operate => exact Locked.act_around h

theorem account_around {σ : Type} [Endpoint σ] (e : σ) (uses : List (Services × SharedUse σ))
    (hcalm : ∀ entry ∈ (account SharedUse.direct e uses).entries, entry.1 ≠ .error .crashed) :
    account SharedUse.locked (.around e) uses =
      { entries := (account SharedUse.direct e uses).entries
        state := .around (account SharedUse.direct e uses).state } := by
  -- The lock stays around the state that the plain run is in.
  induction uses generalizing e with
  | nil => rfl
  | cons u uses ih =>
    have hhead := hcalm _ (List.mem_cons_self ..)
    have hstep := SharedUse.locked_around hhead
    have htail := ih (SharedUse.direct e u).state fun entry hentry =>
      hcalm entry (List.mem_cons_of_mem _ hentry)
    simp only [account, hstep, Outcome.mapState, htail]

/-- Operations of which none crashes give the same answers, ask the same of the surroundings in the
same order and end in the same state, with a lock or without. So does each write for itself. -/
theorem lock_goes_unnoticed (σ : Type) [Endpoint σ] (e : σ) :
    (∀ uses : List (Services × SharedUse σ),
      let direct := account SharedUse.direct e uses
      (∀ entry ∈ direct.entries, entry.1 ≠ .error .crashed) →
        account SharedUse.locked (.around e) uses =
          { entries := direct.entries, state := .around direct.state }) ∧
    ∀ (s : Services) (path : String) (data : Bytes),
      (Endpoint.write s e path data).answer ≠ .error .crashed →
        (Locked.around e).write s path data =
          (Endpoint.write s e path data).mapState .around := by
  constructor
  · intro uses direct hcalm
    exact account_around e uses hcalm
  · intro s path data hcalm
    exact Locked.write_around hcalm

/-- A search that makes its call, a reading of the reply, an operation on the set of files, and one
that only this endpoint has. -/
theorem locked_search_answers :
    let s := Services.steady ⟨0⟩ (.ok "\x7b\x7d") .crashed
    let forget : Services → SearchEndpoint → Outcome SearchEndpoint LockedAnswer := fun _ e =>
      { answer := .ok .done, state := { e with cache := {} } }
    let uses : List (Services × SharedUse SearchEndpoint) :=
      [(s, .common (.use (.write "/request" [97]))),
        (s, .common (.use (.read "/response.json" 0 9))),
        (s, .common (.changeStructure .mkdir "/x")), (s, .own forget)]
    let locked := account SharedUse.locked (.around (Eager.create : SearchEndpoint)) uses
    locked.entries.map Prod.fst =
        [.ok .done, .ok (.plain (.content [123, 125])), .error (.unsupported .mkdir), .ok .done] ∧
      locked.entries.map (fun entry => entry.2.length) = [1, 0, 0, 0] ∧
      locked.state.endpoint.cache = {} ∧
      ((Locked.around (Eager.create : SearchEndpoint)).write s "/request" [97]).answer = .ok () := by
  intro s forget uses locked
  obtain ⟨hruns, hwrites⟩ := lock_goes_unnoticed SearchEndpoint Eager.create
  have hanswers : (account SharedUse.direct (Eager.create : SearchEndpoint) uses).entries.map
      Prod.fst = [.ok .done, .ok (.plain (.content [123, 125])), .error (.unsupported .mkdir),
        .ok .done] := rfl
  have hcalm : ∀ entry ∈ (account SharedUse.direct (Eager.create : SearchEndpoint) uses).entries,
      entry.1 ≠ .error .crashed := by
    intro entry hentry
    have hmem := List.mem_map_of_mem (f := Prod.fst) hentry
    rw [hanswers] at hmem
    simp only [List.mem_cons, List.not_mem_nil, or_false] at hmem
    rcases hmem with h | h | h | h <;> rw [h] <;> nofun
  have hlocked : locked = _ := hruns uses hcalm
  have hwritten : (Endpoint.write s (Eager.create : SearchEndpoint) "/request" [97]).answer =
      .ok () := rfl
  have hwrite := hwrites s "/request" [97] (by rw [hwritten]; nofun)
  rw [hlocked, hwrite]
  exact ⟨hanswers, rfl, rfl, hwritten⟩

end FileEndpoints

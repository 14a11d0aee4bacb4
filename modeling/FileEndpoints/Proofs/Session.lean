import FileEndpoints.Endpoint.Basic
import FileEndpoints.Remote.SearchResults

namespace FileEndpoints

/-- An endpoint that is embedded in another type, with all that a write consists of, is written to
there as it is by itself. -/
theorem Endpoint.write_embedded {σ τ : Type} [Endpoint σ] [Endpoint τ] {f : σ → τ} {s : Services}
    {e : σ} {path : String} {data : Bytes}
    (hbegin : Endpoint.beginWrite s (f e) path data =
      (Endpoint.beginWrite s e path data).mapState f)
    (hconnected : ∀ e, Endpoint.connected (f e) = Endpoint.connected e)
    (hfinish : ∀ e call reply, Endpoint.finishWrite s (f e) call reply =
      (Endpoint.finishWrite s e call reply).mapState f) :
    Endpoint.write s (f e) path data = (Endpoint.write s e path data).mapState f := by
  simp only [Endpoint.write, hbegin, Outcome.mapState, hconnected, hfinish]
  cases (Endpoint.beginWrite s e path data).answer with
  | error err => rfl
  | ok step => cases step <;> rfl

inductive Operation where
  | configure (document : Option String)
  | shutdown
  | stat (path : String)
  | list (path : String)
  | read (path : String) (offset size : Int)
  | write (path : String) (data : Bytes)
deriving DecidableEq, Repr

inductive Answer where
  | done
  | record (info : Option FileInfo)
  | records (infos : List FileInfo)
  | content (data : Bytes)
deriving DecidableEq, Repr

/-- The same result with an answer of another form. -/
def Outcome.mapAnswer {σ α β : Type} (f : α → β) (o : Outcome σ α) : Outcome σ β :=
  { answer := o.answer.map f, state := o.state, effects := o.effects }

/-- What comes of operations made one after another: the answer of each with what it asked of its
surroundings, and the state at the end. -/
structure Account (σ α : Type) where
  entries : List (Except Error α × List Effect)
  state : σ

def account {σ ι α : Type} (perform : σ → ι → Outcome σ α) (e : σ) : List ι → Account σ α
  | [] => { entries := [], state := e }
  | i :: later =>
    let o := perform e i
    let rest := account perform o.state later
    { rest with entries := (o.answer, o.effects) :: rest.entries }

/-- Surroundings at one moment, with a secret for searches: every remote call gets the same reply,
and every skill run ends the same way at once. -/
def Services.steady (time : Time.Instant) (reply : Reply) (outcome : RunOutcome) : Services where
  now := .ok time
  clock := .ok time
  env name := if name = WebSearch.secretVariable then some "k" else none
  post _ := reply
  run _ := { outcome, elapsed := 0, endedAt := time }

variable {σ : Type} [Endpoint σ]

def Operation.perform (s : Services) (e : σ) : Operation → Outcome σ Answer
  | .configure document => (Endpoint.configure s e document).mapAnswer fun _ => .done
  | .shutdown => (Endpoint.shutdown s e).mapAnswer fun _ => .done
  | .stat path => { answer := (Endpoint.stat s e path).map .record, state := e }
  | .list path => { answer := (Endpoint.list s e path).map .records, state := e }
  | .read path offset size => (Endpoint.read s e path offset size).mapAnswer .content
  | .write path data => (Endpoint.write s e path data).mapAnswer fun _ => .done

/-- An operation with what the surroundings answer while it lasts. -/
structure Use where
  services : Services
  operation : Operation

def Use.perform (u : Use) (e : σ) : Outcome σ Answer :=
  u.operation.perform u.services e

/-- The call that the beginning of a write asks for. -/
def Outcome.call? {σ : Type} (o : Outcome σ WriteStep) : Option PendingCall :=
  match o.answer with
  | .ok (.remote call) => some call
  | _ => none

/-- What a host can do that takes writes apart. Calls are known by their number. -/
inductive Move where
  | use (operation : Operation)
  | begin (path : String) (data : Bytes)
  | finish (number : Nat) (reply : Reply)

/-- An endpoint in use, with the calls that its host has been handed, the earliest first. -/
structure Session (σ : Type) where
  endpoint : σ
  calls : List PendingCall := []

namespace Session

def start (e : σ) : Session σ :=
  { endpoint := e }

/-- One move. Finishing a call that was never handed out does nothing. -/
def step (w : Session σ) (s : Services) : Move → Session σ
  | .use operation => { w with endpoint := (operation.perform s w.endpoint).state }
  | .begin path data =>
    let begun := Endpoint.beginWrite s w.endpoint path data
    { endpoint := begun.state, calls := w.calls ++ begun.call?.toList }
  | .finish number reply =>
    match w.calls[number]? with
    | none => w
    | some call => { w with endpoint := (Endpoint.finishWrite s w.endpoint call reply).state }

/-- Moves in turn, each with what the surroundings answer while it lasts. -/
def run (w : Session σ) (moves : List (Services × Move)) : Session σ :=
  moves.foldl (fun w m => w.step m.1 m.2) w

@[simp] theorem run_nil (w : Session σ) : w.run [] = w := rfl

@[simp] theorem run_cons (w : Session σ) (m : Services × Move) (moves : List (Services × Move)) :
    w.run (m :: moves) = (w.step m.1 m.2).run moves := rfl

/-- What every move preserves holds of the endpoint after all moves. -/
theorem run_preserves {P : σ → Prop} {w : Session σ} (h : P w.endpoint)
    {moves : List (Services × Move)}
    (hstep : ∀ v : Session σ, ∀ m ∈ moves, P v.endpoint → P (v.step m.1 m.2).endpoint) :
    P (w.run moves).endpoint := by
  induction moves generalizing w with
  | nil => exact h
  | cons m moves ih =>
    rw [run_cons]
    apply ih
    · exact hstep w m (List.mem_cons_self ..) h
    · intro v m' hm
      exact hstep v m' (List.mem_cons_of_mem _ hm)

theorem calls_step (w : Session σ) (s : Services) (m : Move) :
    ∃ fresh, (w.step s m).calls = w.calls ++ fresh := by
  cases m with
  | use operation => exact ⟨[], (List.append_nil _).symm⟩
  | begin path data => exact ⟨_, rfl⟩
  | finish number reply =>
    refine ⟨[], ?_⟩
    simp only [step, List.append_nil]
    split <;> rfl

theorem calls_run (w : Session σ) (moves : List (Services × Move)) :
    ∃ fresh, (w.run moves).calls = w.calls ++ fresh := by
  induction moves generalizing w with
  | nil => exact ⟨[], (List.append_nil _).symm⟩
  | cons m moves ih =>
    obtain ⟨later, hl⟩ := ih (w.step m.1 m.2)
    obtain ⟨fresh, hf⟩ := w.calls_step m.1 m.2
    exact ⟨fresh ++ later, by rw [run_cons, hl, hf, List.append_assoc]⟩

theorem call_run {w : Session σ} {number : Nat} {call : PendingCall}
    (h : w.calls[number]? = some call) (moves : List (Services × Move)) :
    (w.run moves).calls[number]? = some call := by
  obtain ⟨fresh, hf⟩ := w.calls_run moves
  have hn : number < w.calls.length := (List.getElem?_eq_some_iff.1 h).1
  rw [hf, List.getElem?_append_left hn, h]

end Session

end FileEndpoints

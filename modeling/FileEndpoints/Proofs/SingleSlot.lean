import FileEndpoints.Proofs.EagerSteps

namespace FileEndpoints

open Time (Instant)

def Move.accepted (S : Type) [RemoteService S] : Move → Bool
  | .use (.write path data) | .begin path data => Eager.accepts S path data
  | _ => false

/-- What one move can do to the slot and to the calls handed out, by whether it has a payload
recorded and which reply it puts into the response files. -/
inductive SlotStep (S : Type) [RemoteService S] (c : ResponseCache) (calls : List PendingCall) :
    Bool → Option Install → ResponseCache → List PendingCall → Prop
  | idle : SlotStep S c calls false none c calls
  | recorded (data : Bytes) : SlotStep S c calls true none (c.submit data) calls
  | begun (data : Bytes) (call : PendingCall) (hg : call.generation = c.generation + 1)
      (hc : Eager.Composed S call) :
      SlotStep S c calls true none (c.submit data) (calls ++ [call])
  | finished (i : Install) (settings : S) (hi : i.call ∈ calls)
      (hg : i.call.generation = c.generation) :
      SlotStep S c calls false (some i)
        (c.install (some (Text.encode i.body))
          (RemoteService.summarize settings i.call.resultLimit (Text.encode i.body)) i.time) calls
  | written (data : Bytes) (i : Install) (settings : S)
      (hg : i.call.generation = c.generation + 1) (hc : Eager.Composed S i.call) :
      SlotStep S c calls true (some i)
        ((c.submit data).install (some (Text.encode i.body))
          (RemoteService.summarize settings i.call.resultLimit (Text.encode i.body)) i.time) calls

theorem SlotStep.generation {S : Type} [RemoteService S] {c c' : ResponseCache}
    {calls calls' : List PendingCall} {accepted : Bool} {taken : Option Install}
    (h : SlotStep S c calls accepted taken c' calls') :
    c'.generation = c.generation + accepted.toNat := by
  cases h <;> rfl

namespace Session

variable {S : Type} [RemoteService S]

def fresh (S : Type) [RemoteService S] : Session (Eager S) :=
  { endpoint := Eager.create }

/-- The reply that a move puts into the response files. -/
def taken (w : Session (Eager S)) (s : Services) : Move → Option Install
  | .use (.write path data) =>
    let begun := w.endpoint.beginWrite s path data
    begun.call?.bind fun call => begun.state.taken s call (s.post call.request)
  | .finish number reply => w.calls[number]?.bind fun call => w.endpoint.taken s call reply
  | _ => none

/-- The replies that moves in turn put into the response files, the earliest first. -/
def installs (w : Session (Eager S)) : List (Services × Move) → List Install
  | [] => []
  | m :: moves => (w.taken m.1 m.2).toList ++ (w.step m.1 m.2).installs moves

theorem step_finish (w : Session (Eager S)) (s : Services) (number : Nat) (reply : Reply) :
    (w.step s (.finish number reply)).endpoint =
      match w.taken s (.finish number reply) with
      | none => w.endpoint
      | some i => w.endpoint.install i.time i.call.resultLimit i.body := by
  simp only [step, taken]
  cases w.calls[number]? with
  | none => rfl
  | some call => exact w.endpoint.finishWrite_state s call reply

theorem slotStep_begin (w : Session (Eager S)) (s : Services) (path : String) (data : Bytes) :
    SlotStep S w.endpoint.cache w.calls (Eager.accepts S path data) none
      (w.step s (.begin path data)).endpoint.cache (w.step s (.begin path data)).calls := by
  change SlotStep S _ _ _ _ (w.endpoint.beginWrite s path data).state.cache
    (w.calls ++ (w.endpoint.beginWrite s path data).call?.toList)
  cases ha : Eager.accepts S path data with
  | false =>
    obtain ⟨err, hb⟩ := Eager.beginWrite_refused ha s w.endpoint
    simpa only [hb, Outcome.call?, Option.toList, List.append_nil] using SlotStep.idle
  | true =>
    rw [Eager.beginWrite_state, ha, if_pos rfl]
    cases hc : (w.endpoint.beginWrite s path data).call? with
    | none => simpa only [Option.toList, List.append_nil] using SlotStep.recorded data
    | some call =>
      obtain ⟨-, hg, hcomposed⟩ := Eager.beginWrite_call hc
      exact .begun data call hg hcomposed

theorem slotStep_write (w : Session (Eager S)) (s : Services) (path : String) (data : Bytes) :
    SlotStep S w.endpoint.cache w.calls (Eager.accepts S path data)
      (w.taken s (.use (.write path data)))
      (Endpoint.write s w.endpoint path data).state.cache w.calls := by
  rw [Eager.write_state]
  simp only [taken]
  cases hc : (w.endpoint.beginWrite s path data).call? with
  | none =>
    rw [Eager.beginWrite_state]
    cases Eager.accepts S path data with
    | false => exact .idle
    | true => exact .recorded data
  | some call =>
    obtain ⟨ha, hg, hcomposed⟩ := Eager.beginWrite_call hc
    simp only [Option.bind_some, Eager.finishWrite_state]
    rw [Eager.beginWrite_state, ha, if_pos rfl]
    cases ht : Eager.taken s _ call (s.post call.request) with
    | none => exact .recorded data
    | some i =>
      obtain ⟨rfl, -, -, -⟩ := Eager.taken_eq_some.1 ht
      exact .written data i w.endpoint.settings hg hcomposed

theorem slotStep (w : Session (Eager S)) (s : Services) (m : Move) :
    SlotStep S w.endpoint.cache w.calls (m.accepted S) (w.taken s m)
      (w.step s m).endpoint.cache (w.step s m).calls := by
  cases m with
  | begin path data => exact w.slotStep_begin s path data
  | finish number reply =>
    have he := w.step_finish s number reply
    simp only [step, taken] at he ⊢
    cases hn : w.calls[number]? with
    | none => exact .idle
    | some call =>
      simp only [hn, Option.bind_some] at he ⊢
      cases ht : w.endpoint.taken s call reply with
      | none =>
        simp only [he, ht]
        exact .idle
      | some i =>
        simp only [he, ht]
        obtain ⟨hi, -, -, hg⟩ := Eager.taken_eq_some.1 ht
        exact .finished i w.endpoint.settings (hi ▸ List.mem_of_getElem? hn) (hi ▸ hg)
  | use operation =>
    cases operation with
    | write path data => exact w.slotStep_write s path data
    | configure document =>
      change SlotStep S _ _ _ _ (w.endpoint.configure document).state.cache _
      simp only [Eager.configure]
      split <;> exact .idle
    | shutdown => exact .idle
    | stat path => exact .idle
    | list path => exact .idle
    | read path offset size => exact .idle

theorem generation_run (w : Session (Eager S)) (moves : List (Services × Move)) :
    (w.run moves).endpoint.cache.generation =
      w.endpoint.cache.generation + moves.countP fun m => m.2.accepted S := by
  induction moves generalizing w with
  | nil => rfl
  | cons m moves ih =>
    rw [run_cons, ih, (w.slotStep m.1 m.2).generation, List.countP_cons]
    cases m.2.accepted S <;>
      simp only [Bool.toNat_true, Bool.toNat_false, Bool.false_eq_true, ↓reduceIte] <;> omega

theorem step_begin {w : Session (Eager S)} {s : Services} {path : String} {data : Bytes}
    {call : PendingCall} (h : (w.endpoint.beginWrite s path data).call? = some call) :
    w.step s (.begin path data) =
      { endpoint := { w.endpoint with cache := w.endpoint.cache.submit data }
        calls := w.calls ++ [call] } := by
  change Session.mk (w.endpoint.beginWrite s path data).state
    (w.calls ++ (w.endpoint.beginWrite s path data).call?.toList) = _
  rw [h, Eager.beginWrite_state, (Eager.beginWrite_call h).1, if_pos rfl, Option.toList_some]

/-- A reply to a call is put in exactly if no payload has been recorded since that of the call. -/
theorem taken_finish {w : Session (Eager S)} {s : Services} {path : String} {data : Bytes}
    {call : PendingCall} (h : (w.endpoint.beginWrite s path data).call? = some call)
    (between : List (Services × Move)) (later : Services) (reply : Reply) (i : Install) :
    (w.run ((s, .begin path data) :: between)).taken later (.finish w.calls.length reply) =
        some i ↔
      i.call = call ∧ reply = .ok i.body ∧ later.now = .ok i.time ∧
        ∀ m ∈ between, m.2.accepted S = false := by
  have hn : (w.step s (.begin path data)).calls[w.calls.length]? = some call := by
    rw [step_begin h, List.getElem?_concat_length]
  have hg : (w.step s (.begin path data)).endpoint.cache.generation = call.generation := by
    rw [step_begin h]
    exact (Eager.beginWrite_call h).2.1.symm
  have hcount := (w.step s (.begin path data)).generation_run between
  rw [run_cons]
  simp only [taken, call_run hn between, Option.bind_some, Eager.taken_eq_some]
  apply and_congr_right; intro _
  apply and_congr_right; intro _
  apply and_congr_right; intro _
  rw [hcount, hg]
  constructor
  · intro he m hm
    have hz : between.countP (fun m => m.2.accepted S) = 0 := by omega
    exact Bool.eq_false_iff.2 (List.countP_eq_zero.1 hz m hm)
  · intro hb
    have hz : between.countP (fun m => m.2.accepted S) = 0 :=
      List.countP_eq_zero.2 fun m hm => Bool.eq_false_iff.1 (hb m hm)
    omega

end Session

/-- A slot shows the given reply, or nothing at all. -/
def ShowsLatest (S : Type) [RemoteService S] [SelfContained S] (c : ResponseCache) :
    Option Install → Prop
  | none => c.raw = none ∧ c.summary = none ∧ c.executedAt = none
  | some i => ∃ text, SelfContained.Renders S i.call.resultLimit (Text.encode i.body) text ∧
      c.raw = some (Text.encode i.body) ∧ c.summary = some text ∧ c.executedAt = some i.time

/-- How the slot, the calls handed out and the replies put in so far fit together. -/
structure Ledger (S : Type) [RemoteService S] [SelfContained S] (c : ResponseCache)
    (calls : List PendingCall) (done : List Install) : Prop where
  ordered : calls.Pairwise fun a b => a.generation < b.generation
  recorded : ∀ call ∈ calls, call.generation ≤ c.generation ∧ Eager.Composed S call
  passed : ∀ i ∈ done, i.call.generation ≤ c.generation
  repeated : ∀ i ∈ done, ∀ call ∈ calls, i.call.generation = call.generation → i.call = call
  advancing : done.Pairwise fun i j => i.call.generation < j.call.generation ∨ i.call = j.call
  latest : ShowsLatest S c done.getLast?

section

variable {S : Type} [RemoteService S] [SelfContained S]

omit [RemoteService S] [SelfContained S] in
theorem eq_of_generation {calls : List PendingCall}
    (h : calls.Pairwise fun a b => a.generation < b.generation) {a b : PendingCall}
    (ha : a ∈ calls) (hb : b ∈ calls) (he : a.generation = b.generation) : a = b := by
  have hd : calls.Pairwise fun a b => a.generation = b.generation → a = b :=
    h.imp fun hlt heq => absurd heq (Nat.ne_of_lt hlt)
  have hf : calls.Pairwise fun a b => b.generation = a.generation → b = a :=
    hd.imp fun hab heq => (hab heq.symm).symm
  exact hd.forall_of_forall_of_flip (fun _ _ _ => rfl) hf ha hb he

theorem ShowsLatest.submit {c : ResponseCache} {i : Option Install} (h : ShowsLatest S c i)
    (data : Bytes) : ShowsLatest S (c.submit data) i := by
  cases i <;> exact h

theorem Ledger.submit {c : ResponseCache} {calls : List PendingCall} {done : List Install}
    (h : Ledger S c calls done) (data : Bytes) : Ledger S (c.submit data) calls done where
  ordered := h.ordered
  recorded call hc := ⟨Nat.le_succ_of_le (h.recorded call hc).1, (h.recorded call hc).2⟩
  passed i hi := Nat.le_succ_of_le (h.passed i hi)
  repeated := h.repeated
  advancing := h.advancing
  latest := h.latest.submit data

theorem Ledger.handOut {c : ResponseCache} {calls : List PendingCall} {done : List Install}
    (h : Ledger S c calls done) {call : PendingCall} (hg : call.generation = c.generation)
    (hc : Eager.Composed S call) (hcalls : ∀ a ∈ calls, a.generation < call.generation)
    (hdone : ∀ i ∈ done, i.call.generation < call.generation) :
    Ledger S c (calls ++ [call]) done where
  ordered := by
    apply List.pairwise_append.2 ⟨h.ordered, List.pairwise_singleton _ _, ?_⟩
    intro a ha b hb
    rw [List.mem_singleton.1 hb]
    exact hcalls a ha
  recorded a ha := by
    rcases List.mem_append.1 ha with ha | ha
    · exact h.recorded a ha
    · rw [List.mem_singleton.1 ha]
      exact ⟨Nat.le_of_eq hg, hc⟩
  passed := h.passed
  repeated i hi a ha he := by
    rcases List.mem_append.1 ha with ha | ha
    · exact h.repeated i hi a ha he
    · rw [List.mem_singleton.1 ha] at he
      exact absurd he (Nat.ne_of_lt (hdone i hi))
  advancing := h.advancing
  latest := h.latest

theorem Ledger.install {c : ResponseCache} {calls : List PendingCall} {done : List Install}
    (h : Ledger S c calls done) {i : Install} (settings : S)
    (hg : i.call.generation = c.generation) (hc : Eager.Composed S i.call)
    (hcalls : ∀ a ∈ calls, i.call.generation = a.generation → i.call = a)
    (hdone : ∀ j ∈ done, j.call.generation < i.call.generation ∨ j.call = i.call) :
    Ledger S (c.install (some (Text.encode i.body))
      (RemoteService.summarize settings i.call.resultLimit (Text.encode i.body)) i.time)
      calls (done ++ [i]) where
  ordered := h.ordered
  recorded := h.recorded
  passed j hj := by
    rcases List.mem_append.1 hj with hj | hj
    · exact h.passed j hj
    · rw [List.mem_singleton.1 hj]
      exact Nat.le_of_eq hg
  repeated j hj a ha he := by
    rcases List.mem_append.1 hj with hj | hj
    · exact h.repeated j hj a ha he
    · rw [List.mem_singleton.1 hj] at he ⊢
      exact hcalls a ha he
  advancing := by
    apply List.pairwise_append.2 ⟨h.advancing, List.pairwise_singleton _ _, ?_⟩
    intro j hj k hk
    rw [List.mem_singleton.1 hk]
    exact hdone j hj
  latest := by
    rw [List.getLast?_concat]
    exact ⟨_, hc.renders settings _, rfl, rfl, rfl⟩

theorem Ledger.step {c c' : ResponseCache} {calls calls' : List PendingCall} {done : List Install}
    {accepted : Bool} {taken : Option Install} (h : Ledger S c calls done)
    (hs : SlotStep S c calls accepted taken c' calls') :
    Ledger S c' calls' (done ++ taken.toList) := by
  cases hs with
  | idle => simpa only [Option.toList, List.append_nil] using h
  | recorded data => simpa only [Option.toList, List.append_nil] using h.submit data
  | begun data call hg hc =>
    simp only [Option.toList, List.append_nil]
    apply (h.submit data).handOut hg hc
    · intro a ha
      exact hg ▸ Nat.lt_succ_of_le (h.recorded a ha).1
    · intro i hi
      exact hg ▸ Nat.lt_succ_of_le (h.passed i hi)
  | finished i settings hi hg =>
    apply h.install settings hg (h.recorded i.call hi).2
    · intro a ha he
      exact eq_of_generation h.ordered hi ha he
    · intro j hj
      rcases Nat.lt_or_eq_of_le (hg ▸ h.passed j hj) with hlt | heq
      · exact .inl hlt
      · exact .inr (h.repeated j hj i.call hi heq)
  | written data i settings hg hc =>
    apply (h.submit data).install settings hg hc
    · intro a ha he
      have hle := (h.recorded a ha).1
      omega
    · intro j hj
      exact .inl (hg ▸ Nat.lt_succ_of_le (h.passed j hj))

theorem ledger_fresh : Ledger S (Session.fresh S).endpoint.cache (Session.fresh S).calls [] where
  ordered := List.Pairwise.nil
  recorded _ h := nomatch h
  passed _ h := nomatch h
  repeated _ h := nomatch h
  advancing := List.Pairwise.nil
  latest := ⟨rfl, rfl, rfl⟩

theorem Ledger.run {w : Session (Eager S)} {done : List Install}
    (h : Ledger S w.endpoint.cache w.calls done) (moves : List (Services × Move)) :
    Ledger S (w.run moves).endpoint.cache (w.run moves).calls (done ++ w.installs moves) := by
  -- The replies put in so far are part of what each move goes on from.
  induction moves generalizing w done with
  | nil => simpa only [Session.run_nil, Session.installs, List.append_nil] using h
  | cons m moves ih =>
    have hm := ih (h.step (w.slotStep m.1 m.2))
    simpa only [Session.run_cons, Session.installs, List.append_assoc] using hm

/-- What holds of the slot of an eager endpoint in every session. -/
structure SingleSlot (S : Type) [RemoteService S] [SelfContained S] : Prop where
  /-- A reply that comes while no payload has been accepted since that of its call replaces raw
  response, readable response and time together. -/
  installed : ∀ (before between : List (Services × Move)) (s later : Services) (path : String)
    (data : Bytes) (call : PendingCall) (body : String) (time : Instant),
    let opened := (Session.fresh S).run before
    let w := opened.run ((s, .begin path data) :: between)
    let finish := Move.finish opened.calls.length (.ok body)
    (opened.endpoint.beginWrite s path data).call? = some call → later.now = .ok time →
    (∀ m ∈ between, m.2.accepted S = false) →
      w.taken later finish = some { call, body, time } ∧
      ∃ text, SelfContained.Renders S call.resultLimit (Text.encode body) text ∧
        (w.step later finish).endpoint =
          { w.endpoint with
            cache := w.endpoint.cache.install (some (Text.encode body)) text time }
  /-- Otherwise the endpoint stays as it is: after a failed call, after a payload accepted in the
  meantime, and where the clock cannot tell the time. -/
  dropped : ∀ (before between : List (Services × Move)) (s later : Services) (path : String)
    (data : Bytes) (call : PendingCall) (reply : Reply),
    let opened := (Session.fresh S).run before
    let w := opened.run ((s, .begin path data) :: between)
    let finish := Move.finish opened.calls.length reply
    (opened.endpoint.beginWrite s path data).call? = some call →
    ((∀ body, reply ≠ .ok body) ∨ (∃ m ∈ between, m.2.accepted S = true) ∨
      (∀ time, later.now ≠ .ok time)) →
      w.taken later finish = none ∧ (w.step later finish).endpoint = w.endpoint
  /-- The slot shows the reply put in last, whole, or nothing. -/
  shown : ∀ moves : List (Services × Move),
    ShowsLatest S ((Session.fresh S).run moves).endpoint.cache
      ((Session.fresh S).installs moves).getLast?
  /-- From one reply put in to any later one the generation grows, unless the call is the same. -/
  advancing : ∀ moves : List (Services × Move),
    ((Session.fresh S).installs moves).Pairwise fun i j =>
      i.call.generation < j.call.generation ∨ i.call = j.call

theorem singleSlot : SingleSlot S where
  installed before between s later path data call body time := by
    intro opened w finish hcall hnow hbetween
    have ht : w.taken later finish = some { call, body, time } :=
      (Session.taken_finish hcall between later (.ok body) _).2 ⟨rfl, rfl, hnow, hbetween⟩
    obtain ⟨-, -, hcomposed⟩ := Eager.beginWrite_call hcall
    have he : (w.step later finish).endpoint =
        w.endpoint.install time call.resultLimit body := by
      rw [Session.step_finish, ht]
    exact ⟨ht, _, hcomposed.renders w.endpoint.settings _, he⟩
  dropped before between s later path data call reply := by
    intro opened w finish hcall hlost
    have ht : w.taken later finish = none := by
      apply Option.eq_none_iff_forall_ne_some.2
      intro i hi
      obtain ⟨-, hbody, htime, hbetween⟩ :=
        (Session.taken_finish hcall between later reply i).1 hi
      rcases hlost with h | ⟨m, hm, h⟩ | h
      · exact h _ hbody
      · exact absurd h (Bool.eq_false_iff.1 (hbetween m hm))
      · exact h _ htime
    apply And.intro ht
    rw [Session.step_finish, ht]
  shown moves := (ledger_fresh.run moves).latest
  advancing moves := (ledger_fresh.run moves).advancing

end

/-- Raw and readable response of a search or summary endpoint come from one and the same reply, and
a reply is dropped exactly if it has been overtaken. -/
theorem eager_single_slot : SingleSlot SearchSettings ∧ SingleSlot SummarySettings :=
  ⟨singleSlot, singleSlot⟩

/-- Of two searches begun one after the other, the first one is overtaken: its reply changes nothing
even if it comes first, and that of the second one is put in. -/
theorem overtaken_search_changes_nothing :
    let s := Services.steady ⟨0⟩ (.ok "\x7b\x7d") .crashed
    let first : Session SearchEndpoint :=
      (Session.fresh SearchSettings).run [(s, .begin "/request" [97])]
    let w := first.run [(s, .begin "/request" [98])]
    (w.step s (.finish 0 (.ok "\x7b\x7d"))).endpoint = w.endpoint ∧
      (w.step s (.finish 1 (.ok "\x7b\x7d"))).endpoint.cache.raw = some [123, 125] := by
  intro s first w
  obtain ⟨a, ha⟩ : ∃ call, ((Session.fresh SearchSettings).endpoint.beginWrite s "/request"
    [97]).call? = some call := ⟨_, rfl⟩
  obtain ⟨b, hb⟩ : ∃ call, (first.endpoint.beginWrite s "/request" [98]).call? = some call :=
    ⟨_, rfl⟩
  obtain ⟨-, hdropped⟩ := eager_single_slot.1.dropped [] [(s, .begin "/request" [98])] s s
    "/request" [97] a (.ok "\x7b\x7d") ha (.inr (.inl ⟨_, List.mem_singleton.2 rfl, rfl⟩))
  obtain ⟨-, text, -, hinstalled⟩ := eager_single_slot.1.installed [(s, .begin "/request" [97])]
    [] s s "/request" [98] b "\x7b\x7d" ⟨0⟩ hb rfl fun _ hm => nomatch hm
  exact ⟨hdropped, congrArg (fun e : SearchEndpoint => e.cache.raw) hinstalled⟩

end FileEndpoints

import FileEndpoints.Proofs.EagerSteps
import FileEndpoints.Proofs.Locks

namespace FileEndpoints

inductive WriteStage where
  | calling (call : PendingCall)
  | returned (answer : Except Error Unit)
  /-- Over; `overtaken` tells whether a later payload had been accepted before the reply came. -/
  | replied (call : PendingCall) (reply : Reply) (answer : Except Error Unit) (overtaken : Bool)

structure Writing where
  data : Bytes
  stage : WriteStage

namespace Writing

def path : String := "/request"

def accepted (S : Type) [RemoteService S] (x : Writing) : Bool :=
  Eager.accepts S path x.data

/-- What the writer has been told, if the write is over. -/
def answer? (x : Writing) : Option (Except Error Unit) :=
  match x.stage with
  | .calling _ => none
  | .returned answer | .replied _ _ answer _ => some answer

def isOver (x : Writing) : Bool :=
  match x.answer? with
  | none | some (.error .crashed) => false
  | some _ => true

/-- The call and the response of a write that succeeded. -/
def success? (x : Writing) : Option (PendingCall × String) :=
  match x.stage with
  | .replied call (.ok body) (.ok ()) _ => some (call, body)
  | _ => none

/-- The call and the response of a write that succeeded before it was overtaken. -/
def timely? (x : Writing) : Option (PendingCall × String) :=
  match x.stage with
  | .replied call (.ok body) (.ok ()) false => some (call, body)
  | _ => none

end Writing

/-- A step of one of the writers. Writes are known by their number in the order of their
beginnings. -/
inductive WriteMove where
  | begin (data : Bytes)
  | finish (number : Nat)

/-- A shared endpoint with all writes begun so far, the earliest first. -/
structure Overlap (S : Type) where
  shared : Locked (Eager S)
  writes : List Writing := []

namespace Overlap

variable {S : Type} [RemoteService S]

def stageOf : Except Error WriteStep → WriteStage
  | .error err => .returned (.error err)
  | .ok .done => .returned (.ok ())
  | .ok (.remote call) => .calling call

/-- One step. The reply to a call is what the transport gives when the write goes on. -/
def step (w : Overlap S) (s : Services) : WriteMove → Overlap S
  | .begin data =>
    let begun := w.shared.beginWrite s Writing.path data
    { shared := begun.state, writes := w.writes ++ [{ data, stage := stageOf begun.answer }] }
  | .finish number =>
    match w.writes[number]? with
    | some { data, stage := .calling call } =>
      let reply := (dispatch s (Endpoint.connected w.shared.endpoint) call).1
      let finished := w.shared.finishWrite s call reply
      let overtaken := (w.writes.drop (number + 1)).any (Writing.accepted S)
      let stage := WriteStage.replied call reply finished.answer overtaken
      { shared := finished.state, writes := w.writes.set number { data, stage } }
    | _ => w

/-- Steps in turn, each with what the surroundings answer while it lasts. -/
def run (w : Overlap S) (moves : List (Services × WriteMove)) : Overlap S :=
  moves.foldl (fun w m => w.step m.1 m.2) w

def start (e : Eager S) : Overlap S :=
  { shared := { endpoint := e } }

theorem write_alone (w : Overlap S) (s : Services) (data : Bytes) :
    let alone := (w.step s (.begin data)).step s (.finish w.writes.length)
    let o := w.shared.write s Writing.path data
    alone.shared = o.state ∧
      (alone.writes[w.writes.length]?).bind Writing.answer? = some o.answer := by
  simp only [Locked.write]
  cases hb : (w.shared.beginWrite s Writing.path data).answer with
  | error err =>
    simp only [step, hb, stageOf, List.getElem?_concat_length, Option.bind_some, true_and]
    rfl
  | ok begun =>
    cases begun with
    | done =>
      simp only [step, hb, stageOf, List.getElem?_concat_length, Option.bind_some, true_and]
      rfl
    | remote call =>
      simp only [step, hb, stageOf, List.getElem?_concat_length, true_and]
      rw [List.getElem?_set_self (by simp only [List.length_append, List.length_cons,
        List.length_nil, Nat.lt_succ_self]), Option.bind_some]
      rfl

def payloads (w : Overlap S) : List Bytes :=
  w.writes.map Writing.data

/-- The number of payloads that are recorded when they come. -/
def recorded (S : Type) [RemoteService S] (payloads : List Bytes) : Nat :=
  payloads.countP (Eager.accepts S Writing.path)

theorem map_data_set {writes : List Writing} {n : Nat} {x y : Writing}
    (hx : writes[n]? = some x) (hy : y.data = x.data) :
    (writes.set n y).map Writing.data = writes.map Writing.data := by
  apply List.ext_getElem?
  intro m
  rw [List.map_set, hy]
  by_cases hm : n = m
  · subst hm
    obtain ⟨hlt, rfl⟩ := List.getElem?_eq_some_iff.1 hx
    rw [List.getElem?_set_self (by simpa only [List.length_map] using hlt), List.getElem?_map, hx]
    rfl
  · rw [List.getElem?_set_ne hm]

theorem overtaken_eq_false (w : Overlap S) (number : Nat) :
    (w.writes.drop (number + 1)).any (Writing.accepted S) = false ↔
      recorded S w.payloads = recorded S (w.payloads.take (number + 1)) := by
  have hsplit : recorded S w.payloads = recorded S (w.payloads.take (number + 1)) +
      recorded S (w.payloads.drop (number + 1)) := by
    simp only [recorded]
    rw [← List.countP_append, List.take_append_drop]
  have hdrop : (w.writes.drop (number + 1)).any (Writing.accepted S) = false ↔
      recorded S (w.payloads.drop (number + 1)) = 0 := by
    simp only [recorded, payloads, ← List.map_drop, List.countP_map, List.countP_eq_zero,
      List.any_eq_false]
    rfl
  rw [hdrop]
  omega

end Overlap

/-- What the response files show after some writes: the given response, or else what they showed
before. -/
def ShowsTimely (S : Type) [RemoteService S] [SelfContained S] (before after : ResponseCache) :
    Option (PendingCall × String) → Prop
  | none => after.raw = before.raw ∧ after.summary = before.summary
  | some (call, body) => ∃ text,
      SelfContained.Renders S call.resultLimit (Text.encode body) text ∧
        after.raw = some (Text.encode body) ∧ after.summary = some text

/-- How writes and slot fit together while nothing has crashed: payloads are numbered by the
generations that the slot had when they were recorded. -/
structure Tally {S : Type} [RemoteService S] [SelfContained S] (e : Eager S) (w : Overlap S) :
    Prop where
  counted : w.shared.endpoint.cache.generation =
    e.cache.generation + Overlap.recorded S w.payloads
  numbered : ∀ n data call, w.writes[n]? = some ⟨data, .calling call⟩ →
    call.generation = e.cache.generation + Overlap.recorded S (w.payloads.take (n + 1)) ∧
      Writing.accepted S ⟨data, .calling call⟩ = true ∧ Eager.Composed S call
  timely : ∀ x ∈ w.writes, x.timely? ≠ none → x.accepted S = true
  shown : ShowsTimely S e.cache w.shared.endpoint.cache
    (w.writes.filterMap Writing.timely?).getLast?

section

variable {S : Type} [RemoteService S] [SelfContained S] {e : Eager S} {w : Overlap S}

omit [SelfContained S] in
theorem Overlap.recorded_concat (payloads : List Bytes) (data : Bytes) :
    recorded S (payloads ++ [data]) =
      recorded S payloads + (Eager.accepts S Writing.path data).toNat := by
  simp only [recorded, List.countP_append, List.countP_singleton]
  cases Eager.accepts S Writing.path data <;> rfl

theorem Overlap.timely_stageOf (data : Bytes) (answer : Except Error WriteStep) :
    Writing.timely? ⟨data, stageOf answer⟩ = none := by
  cases answer with
  | error err => rfl
  | ok begun => cases begun <;> rfl

omit [RemoteService S] [SelfContained S] in
theorem Overlap.call_of_stageOf {o : Outcome (Eager S) WriteStep} {call : PendingCall}
    (h : stageOf o.answer = .calling call) : o.call? = some call := by
  simp only [Outcome.call?]
  cases ha : o.answer with
  | error err => simp only [ha, stageOf, reduceCtorEq] at h
  | ok begun =>
    cases begun with
    | done => simp only [ha, stageOf, reduceCtorEq] at h
    | remote c =>
      simp only [ha, stageOf, WriteStage.calling.injEq] at h
      rw [h]

theorem ShowsTimely.submit {before after : ResponseCache} {last : Option (PendingCall × String)}
    (h : ShowsTimely S before after last) (data : Bytes) :
    ShowsTimely S before (after.submit data) last := by
  cases last <;> exact h

theorem Tally.begin (h : Tally e w) (hp : w.shared.poisoned = false) (s : Services)
    (data : Bytes) : Tally e (w.step s (.begin data)) := by
  obtain ⟨hanswer, hstate, -⟩ :=
    Locked.act_eq hp fun e => Endpoint.beginWrite s e Writing.path data
  have hbegun : (w.step s (.begin data)).shared.endpoint =
      if Eager.accepts S Writing.path data then
        { w.shared.endpoint with cache := w.shared.endpoint.cache.submit data }
      else w.shared.endpoint :=
    hstate.trans (w.shared.endpoint.beginWrite_state s Writing.path data)
  have hwrites : (w.step s (.begin data)).writes = w.writes ++
      [⟨data, Overlap.stageOf (w.shared.endpoint.beginWrite s Writing.path data).answer⟩] :=
    congrArg (fun a => w.writes ++ [Writing.mk data (Overlap.stageOf a)]) hanswer
  have hpayloads : (w.step s (.begin data)).payloads = w.payloads ++ [data] := by
    simp only [Overlap.payloads, hwrites, List.map_append, List.map_cons, List.map_nil]
  refine ⟨?_, fun n d call hn => ?_, fun x hx ht => ?_, ?_⟩
  · have hc := h.counted
    rw [hpayloads, Overlap.recorded_concat, hbegun]
    cases Eager.accepts S Writing.path data with
    | false => exact hc
    | true => exact congrArg (· + 1) hc
  · rw [hwrites] at hn
    rw [hpayloads]
    rcases Nat.lt_or_ge n w.writes.length with hlt | hge
    · rw [List.getElem?_append_left hlt] at hn
      rw [List.take_append_of_le_length (by simpa only [Overlap.payloads, List.length_map])]
      exact h.numbered n d call hn
    · -- This is the write that has just begun, and its payload is the last one.
      have hlt := (List.getElem?_eq_some_iff.1 hn).1
      rw [List.length_append, List.length_singleton] at hlt
      obtain rfl : n = w.writes.length := by omega
      rw [List.getElem?_concat_length, Option.some.injEq, Writing.mk.injEq] at hn
      obtain ⟨rfl, hstage⟩ := hn
      obtain ⟨hacc, hg, hc⟩ := Eager.beginWrite_call (Overlap.call_of_stageOf hstage)
      apply And.intro ?_ ⟨hacc, hc⟩
      rw [List.take_of_length_le (by simp only [Overlap.payloads, List.length_append,
        List.length_map, List.length_singleton, Nat.le_refl]), Overlap.recorded_concat, hacc, hg,
        h.counted]
      rfl
  · rw [hwrites] at hx
    rcases List.mem_append.1 hx with hx | hx
    · exact h.timely x hx ht
    · rw [List.mem_singleton.1 hx, Overlap.timely_stageOf] at ht
      exact absurd rfl ht
  · rw [hwrites, hbegun, List.filterMap_append, List.filterMap_cons, Overlap.timely_stageOf,
      List.filterMap_nil, List.append_nil]
    split
    · exact h.shown.submit data
    · exact h.shown

theorem Overlap.filterMap_set {writes : List Writing} {n : Nat} {x : Writing}
    (hx : writes[n]? = some x) (ht : x.timely? = none) (y : Writing) :
    (writes.set n y).filterMap Writing.timely? =
        (writes.take n).filterMap Writing.timely? ++ y.timely?.toList ++
          (writes.drop (n + 1)).filterMap Writing.timely? ∧
      writes.filterMap Writing.timely? =
        (writes.take n).filterMap Writing.timely? ++
          (writes.drop (n + 1)).filterMap Writing.timely? := by
  obtain ⟨hlt, rfl⟩ := List.getElem?_eq_some_iff.1 hx
  constructor
  · rw [List.set_eq_take_append_cons_drop, if_pos hlt, List.filterMap_append,
      List.filterMap_cons]
    cases y.timely? <;>
      simp only [Option.toList, List.append_nil, List.append_assoc, List.cons_append,
        List.nil_append]
  · conv => lhs; rw [← List.take_append_drop n writes, List.drop_eq_getElem_cons hlt]
    rw [List.filterMap_append, List.filterMap_cons, ht]

/-- A write has been overtaken exactly if the slot has moved on from its generation. -/
theorem Tally.overtaken_eq_false (h : Tally e w) {n : Nat} {data : Bytes} {call : PendingCall}
    (hx : w.writes[n]? = some ⟨data, .calling call⟩) :
    (w.writes.drop (n + 1)).any (Writing.accepted S) = false ↔
      call.generation = w.shared.endpoint.cache.generation := by
  have hc := h.counted
  have hn := (h.numbered n data call hx).1
  rw [Overlap.overtaken_eq_false]
  omega

theorem Tally.timely_eq (h : Tally e w) {n : Nat} {data : Bytes} {call : PendingCall}
    (hx : w.writes[n]? = some ⟨data, .calling call⟩) (s : Services) (reply : Reply) :
    Writing.timely? ⟨data, .replied call reply (w.shared.endpoint.finishWrite s call reply).answer
        ((w.writes.drop (n + 1)).any (Writing.accepted S))⟩ =
      (w.shared.endpoint.taken s call reply).map fun i => (call, i.body) := by
  have ho := h.overtaken_eq_false hx
  cases reply with
  | error err => rfl
  | ok body =>
    simp only [Eager.finishWrite_answer, Eager.taken, Eager.isCurrent, beq_iff_eq]
    by_cases hg : w.shared.endpoint.cache.generation = call.generation
    · rw [if_pos hg, if_pos hg, ho.2 hg.symm]
      cases s.now <;> rfl
    · rw [if_neg hg, if_neg hg]
      cases hany : (w.writes.drop (n + 1)).any (Writing.accepted S) with
      | false => exact absurd (ho.1 hany).symm hg
      | true => rfl

/-- Finishing a write that another one has overtaken, or whose call failed, changes nothing; else
the response files show its reply. -/
theorem Tally.shown_finish (h : Tally e w) {n : Nat} {data : Bytes} {call : PendingCall}
    (hx : w.writes[n]? = some ⟨data, .calling call⟩) (s : Services) (reply : Reply) {y : Writing}
    (hy : y.timely? = (w.shared.endpoint.taken s call reply).map fun i => (call, i.body)) :
    (w.shared.endpoint.finishWrite s call reply).state.cache.generation =
        w.shared.endpoint.cache.generation ∧
      ShowsTimely S e.cache (w.shared.endpoint.finishWrite s call reply).state.cache
        ((w.writes.set n y).filterMap Writing.timely?).getLast? := by
  obtain ⟨hafter, hbefore⟩ := Overlap.filterMap_set hx rfl y
  rw [hafter, hy, Eager.finishWrite_state]
  cases ht : w.shared.endpoint.taken s call reply with
  | none =>
    apply And.intro rfl
    rw [Option.map_none, Option.toList_none, List.append_nil, ← hbefore]
    exact h.shown
  | some i =>
    obtain ⟨rfl, -, -, hg⟩ := Eager.taken_eq_some.1 ht
    -- Nothing has been recorded since, so none of the writes begun later is among the timely ones.
    have hlater : (w.writes.drop (n + 1)).filterMap Writing.timely? = [] := by
      apply List.filterMap_eq_nil_iff.2
      intro x hmem
      apply Decidable.byContradiction
      intro hne
      have hacc := h.timely x (List.mem_of_mem_drop hmem) hne
      exact List.any_eq_false.1 ((h.overtaken_eq_false hx).2 hg) x hmem hacc
    apply And.intro rfl
    rw [hlater, List.append_nil, Option.map_some, Option.toList_some, List.getLast?_concat]
    exact ⟨_, (h.numbered n data i.call hx).2.2.renders _ _, rfl, rfl⟩

theorem Tally.finish (h : Tally e w) (hp : w.shared.poisoned = false) (s : Services) (n : Nat) :
    Tally e (w.step s (.finish n)) := by
  simp only [Overlap.step]
  split
  case h_2 => exact h
  case h_1 data call hx =>
    generalize (dispatch s (Endpoint.connected w.shared.endpoint) call).1 = reply
    obtain ⟨hanswer, hstate, -⟩ := Locked.act_eq hp fun e => Endpoint.finishWrite s e call reply
    change (w.shared.finishWrite s call reply).answer =
      (w.shared.endpoint.finishWrite s call reply).answer at hanswer
    change (w.shared.finishWrite s call reply).state.endpoint =
      (w.shared.endpoint.finishWrite s call reply).state at hstate
    rw [hanswer]
    obtain ⟨hgeneration, hshown⟩ := h.shown_finish hx s reply (h.timely_eq hx s reply)
    have hpayloads := Overlap.map_data_set hx (y := ⟨data, .replied call reply
      (w.shared.endpoint.finishWrite s call reply).answer
      ((w.writes.drop (n + 1)).any (Writing.accepted S))⟩) rfl
    refine ⟨?_, fun m d c hm => ?_, fun x hmem ht => ?_, ?_⟩
    · rw [hstate, hgeneration, Overlap.payloads, hpayloads]
      exact h.counted
    · rw [Overlap.payloads, hpayloads]
      by_cases hnm : n = m
      · subst hnm
        rw [List.getElem?_set_self (List.getElem?_eq_some_iff.1 hx).1] at hm
        cases hm
      · rw [List.getElem?_set_ne hnm] at hm
        exact h.numbered m d c hm
    · rcases List.mem_or_eq_of_mem_set hmem with hmem | rfl
      · exact h.timely x hmem ht
      · exact (h.numbered n data call hx).2.1
    · rw [hstate]
      exact hshown

/-- Nothing has crashed and the tally holds, or some write has crashed. -/
def Tallied (e : Eager S) (w : Overlap S) : Prop :=
  (w.shared.poisoned = false ∧ Tally e w) ∨ ∃ x ∈ w.writes, x.answer? = some (.error .crashed)

omit [RemoteService S] [SelfContained S] in
theorem Overlap.answer_stageOf {data : Bytes} {answer : Except Error WriteStep}
    (h : answer = .error .crashed) :
    Writing.answer? ⟨data, stageOf answer⟩ = some (.error .crashed) := by
  rw [h]
  rfl

theorem Tallied.begin (h : Tallied e w) (s : Services) (data : Bytes) :
    Tallied e (w.step s (.begin data)) := by
  rcases h with ⟨hp, h⟩ | ⟨x, hx, hcrashed⟩
  · obtain ⟨hanswer, -, hpoisoned⟩ :=
      Locked.act_eq hp fun e => Endpoint.beginWrite s e Writing.path data
    cases hlater : (w.step s (.begin data)).shared.poisoned with
    | false => exact .inl ⟨hlater, h.begin hp s data⟩
    | true =>
      have ha := hanswer.trans (hpoisoned.1 hlater)
      exact .inr ⟨_, List.mem_append_right _ (List.mem_singleton.2 rfl),
        Overlap.answer_stageOf ha⟩
  · exact .inr ⟨x, List.mem_append_left _ hx, hcrashed⟩

theorem Tallied.finish (h : Tallied e w) (s : Services) (n : Nat) :
    Tallied e (w.step s (.finish n)) := by
  rcases h with ⟨hp, h⟩ | ⟨x, hx, hcrashed⟩
  · have hn := h.finish hp s n
    simp only [Overlap.step] at hn ⊢
    split at hn
    case h_2 => exact .inl ⟨hp, h⟩
    case h_1 data call hx =>
      generalize (dispatch s (Endpoint.connected w.shared.endpoint) call).1 = reply at hn ⊢
      obtain ⟨hanswer, -, hpoisoned⟩ :=
        Locked.act_eq hp fun e => Endpoint.finishWrite s e call reply
      cases hlater : (w.shared.finishWrite s call reply).state.poisoned with
      | false => exact .inl ⟨hlater, hn⟩
      | true =>
        have ha := hanswer.trans (hpoisoned.1 hlater)
        exact .inr ⟨_, List.mem_set (List.getElem?_eq_some_iff.1 hx).1 _, congrArg some ha⟩
  · simp only [Overlap.step]
    split
    case h_2 => exact .inr ⟨x, hx, hcrashed⟩
    case h_1 data call hcalling =>
      -- The write that crashed is another one, since this one was not over yet.
      obtain ⟨m, hm⟩ := List.mem_iff_getElem?.1 hx
      have hne : n ≠ m := by
        rintro rfl
        rw [hcalling, Option.some.injEq] at hm
        rw [← hm] at hcrashed
        cases hcrashed
      rw [← List.getElem?_set_ne hne] at hm
      exact .inr ⟨x, List.mem_of_getElem? hm, hcrashed⟩

theorem Tallied.run (h : Tallied e w) (moves : List (Services × WriteMove)) :
    Tallied e (w.run moves) := by
  induction moves generalizing w with
  | nil => exact h
  | cons m moves ih =>
    obtain ⟨s, m⟩ := m
    cases m with
    | begin data => exact ih (h.begin s data)
    | finish n => exact ih (h.finish s n)

theorem tallied_start (e : Eager S) : Tallied e (Overlap.start e) := by
  apply Or.inl
  constructor
  · rfl
  · exact ⟨rfl, fun _ _ _ hn => (nomatch hn), fun _ hx => (nomatch hx), rfl, rfl⟩

theorem Tallied.over (h : Tallied e w) (hover : ∀ x ∈ w.writes, x.isOver = true) :
    w.shared.poisoned = false ∧ Tally e w := by
  rcases h with h | ⟨x, hx, hcrashed⟩
  · exact h
  · have hx := hover x hx
    simp only [Writing.isOver, hcrashed, Bool.false_eq_true] at hx

omit [SelfContained S] in
def ReadsAs (l : Locked (Eager S)) (path : String) (content : Bytes) : Prop :=
  ∀ (s : Services) (offset size : Int),
    (l.read s path offset size).answer = .ok (readWindow content offset size)

omit [SelfContained S] in
theorem readsAs {l : Locked (Eager S)} (hp : l.poisoned = false) {path : String} {f : EagerFile}
    (hf : (RemoteService.profile S).tree.readable path = .ok f) :
    ReadsAs l path ((RemoteService.profile S).content l.endpoint.cache f) := by
  intro s offset size
  obtain ⟨hanswer, -, -⟩ := Locked.act_eq hp fun e => Endpoint.read s e path offset size
  apply hanswer.trans
  change ((RemoteService.profile S).tree.readable path).map _ = _
  rw [hf]
  rfl

/-- The response files show the given response, or else what they showed at first. -/
def Overlap.Shows (e : Eager S) (w : Overlap S) : Option (PendingCall × String) → Prop
  | none =>
    ReadsAs w.shared "/response.json" (e.profile.content e.cache .responseJson) ∧
      ReadsAs w.shared "/response.txt" (e.profile.content e.cache .responseTxt)
  | some (call, body) => ∃ text,
    SelfContained.Renders S call.resultLimit (Text.encode body) text ∧
      ReadsAs w.shared "/response.json" (Text.encode body) ∧
      ReadsAs w.shared "/response.txt" (Text.encode text)

/-- Once all of any number of overlapping writes are over, the response files show the reply of the
write begun last among those that succeeded before they were overtaken. -/
def OverlapsSafely (S : Type) [RemoteService S] [SelfContained S] : Prop :=
  ∀ (e : Eager S) (moves : List (Services × WriteMove)),
    let w := (Overlap.start e).run moves
    (∀ x ∈ w.writes, x.isOver = true) → w.Shows e (w.writes.filterMap Writing.timely?).getLast?

theorem overlapsSafely
    (hraw : (RemoteService.profile S).tree.readable "/response.json" = .ok .responseJson)
    (htext : (RemoteService.profile S).tree.readable "/response.txt" = .ok .responseTxt) :
    OverlapsSafely S := by
  intro e moves w hover
  obtain ⟨hp, htally⟩ := ((tallied_start e).run moves).over hover
  have hjson := readsAs hp hraw
  have htxt := readsAs hp htext
  have hshown := htally.shown
  cases hlast : (w.writes.filterMap Writing.timely?).getLast? with
  | none =>
    rw [hlast] at hshown
    obtain ⟨hr, hs⟩ := hshown
    simp only [EagerProfile.content] at hjson htxt
    rw [hr] at hjson
    rw [hs] at htxt
    exact ⟨hjson, htxt⟩
  | some last =>
    rw [hlast] at hshown
    obtain ⟨text, hrenders, hr, hs⟩ := hshown
    simp only [EagerProfile.content] at hjson htxt
    rw [hr] at hjson
    rw [hs] at htxt
    exact ⟨text, hrenders, hjson, htxt⟩

end

/-- No reply is lost among overlapping writes unless it has been overtaken. -/
theorem overlapping_writes_show_latest :
    OverlapsSafely SearchSettings ∧ OverlapsSafely SummarySettings :=
  ⟨overlapsSafely rfl rfl, overlapsSafely rfl rfl⟩

/-- Two writes with the moment at which the first one is finished open: the first one succeeds and
the second one fails. -/
def Overlap.pair (late : Bool) : List (Services × WriteMove) :=
  let answered := Services.steady ⟨0⟩ (.ok "\x7b\x7d") .crashed
  let failed := Services.steady ⟨0⟩ (.error (.transport "down")) .crashed
  let finish := (answered, WriteMove.finish 0)
  let second := (failed, WriteMove.begin [98])
  [(answered, .begin [97])] ++ (if late then [second, finish] else [finish, second]) ++
    [(failed, .finish 1)]

/-- A write that is over before the next one begins is not overtaken. -/
theorem consecutive_writes_show_first :
    let w : Overlap SearchSettings := (Overlap.start Eager.create).run (Overlap.pair false)
    (∀ x ∈ w.writes, x.isOver = true) ∧ (w.writes.filterMap Writing.timely?).length = 1 ∧
      w.Shows Eager.create (w.writes.filterMap Writing.timely?).getLast? :=
  ⟨List.all_eq_true.1 rfl, rfl,
    overlapping_writes_show_latest.1 Eager.create (Overlap.pair false) (List.all_eq_true.1 rfl)⟩

/-- The reply of the write that succeeded last need not be shown: one that fails can have overtaken
it. -/
theorem overtaken_reply_is_lost :
    ¬ ∀ (e : Eager SearchSettings) (moves : List (Services × WriteMove)),
      let w := (Overlap.start e).run moves
      (∀ x ∈ w.writes, x.isOver = true) → ∀ last,
        (w.writes.filterMap Writing.success?).getLast? = some last → w.Shows e (some last) := by
  intro h
  obtain ⟨text, -, hjson, -⟩ := h Eager.create (Overlap.pair true) (List.all_eq_true.1 rfl) _ rfl
  have hread := hjson (Services.steady ⟨0⟩ (.ok "") .crashed) 0 100
  have hempty : (Except.ok (Text.encode "No response yet\n") : Except Error Bytes) =
      .ok (Text.encode "\x7b\x7d") := hread
  cases hempty

end FileEndpoints

import FileEndpoints.Endpoint.Search
import FileEndpoints.Endpoint.Summary
import FileEndpoints.Proofs.Session

namespace FileEndpoints

open Time (Instant)

theorem EagerProfile.accept_eq (p : EagerProfile) (c : ResponseCache) (path : String)
    (data : Bytes) (missing : String) :
    p.accept c path data missing = (p.accept {} path data missing).map fun _ => c.submit data := by
  simp only [EagerProfile.accept]
  cases p.tree.writable path with
  | error err => rfl
  | ok f => cases isBlankPayload data <;> rfl

/-- Remote services whose calls capture all that the readable form of their replies depends on. -/
class SelfContained (S : Type) [RemoteService S] where
  /-- The readable form of a response to a call with the given limit. -/
  Renders : Option Int → Bytes → String → Prop
  /-- Settings that change after the call was composed make no difference. -/
  renders_summarize : ∀ (composed later : S) (env : Environment) (data raw : Bytes)
    (request : Request) (limit : Option Int),
    RemoteService.compose composed env data = .ok (request, limit) →
      Renders limit raw (RemoteService.summarize later limit raw)

theorem SearchSettings.compose_ok {s : SearchSettings} {env : Environment} {data : Bytes}
    {request : Request} {limit : Option Int} (h : s.compose env data = .ok (request, limit)) :
    ∃ query count, s.parse data = .ok (query, count) ∧
      request.body = (WebSearch.body query count).canonical ∧ limit = some count := by
  simp only [compose] at h
  cases hp : s.parse data with
  | error err => simp only [hp, bind, Except.bind, reduceCtorEq] at h
  | ok parsed =>
    cases hr : s.secret.resolve env with
    | error err => simp only [hp, hr, bind, Except.bind, reduceCtorEq] at h
    | ok bearer =>
      simp only [hp, hr, bind, Except.bind, pure, Except.pure, Except.ok.injEq,
        Prod.mk.injEq] at h
      obtain ⟨rfl, rfl⟩ := h
      exact ⟨_, _, rfl, rfl, rfl⟩

instance : SelfContained SearchSettings where
  Renders limit raw text := ∃ n, limit = some n ∧ text = WebSearch.format raw n
  renders_summarize _ _ _ _ _ _ _ h := by
    obtain ⟨-, n, -, -, rfl⟩ := SearchSettings.compose_ok h
    exact ⟨n, rfl, rfl⟩

instance : SelfContained SummarySettings where
  Renders _ raw text := text = Chat.summary raw
  renders_summarize _ _ _ _ _ _ _ _ := rfl

structure Install where
  call : PendingCall
  body : String
  time : Instant

namespace Eager

variable {S : Type} [RemoteService S]

/-- Whether a write is recorded as a request, whatever comes of it afterwards. -/
def accepts (S : Type) [RemoteService S] (path : String) (data : Bytes) : Bool :=
  ((RemoteService.profile S).accept {} path data (RemoteService.missing S)).isOk

theorem beginWrite_refused {path : String} {data : Bytes} (h : accepts S path data = false)
    (s : Services) (e : Eager S) :
    ∃ err, e.beginWrite s path data = { answer := .error err, state := e } := by
  simp only [beginWrite, profile, EagerProfile.accept_eq _ e.cache]
  cases ha : (RemoteService.profile S).accept {} path data (RemoteService.missing S) with
  | error err => exact ⟨err, rfl⟩
  | ok c => simp only [accepts, ha, Except.isOk, Except.toBool, reduceCtorEq] at h

theorem beginWrite_accepted {path : String} {data : Bytes} (h : accepts S path data = true)
    (s : Services) (e : Eager S) :
    e.beginWrite s path data =
      { answer := (RemoteService.compose e.settings s.env data).map fun (request, resultLimit) =>
          WriteStep.remote { request, resultLimit, generation := e.cache.generation + 1 }
        state := { e with cache := e.cache.submit data } } := by
  simp only [beginWrite, profile, EagerProfile.accept_eq _ e.cache]
  cases ha : (RemoteService.profile S).accept {} path data (RemoteService.missing S) with
  | error err => simp only [accepts, ha, Except.isOk, Except.toBool, Bool.false_eq_true] at h
  | ok c => rfl

theorem beginWrite_state (s : Services) (e : Eager S) (path : String) (data : Bytes) :
    (e.beginWrite s path data).state =
      if accepts S path data then { e with cache := e.cache.submit data } else e := by
  cases h : accepts S path data with
  | false =>
    obtain ⟨err, hb⟩ := beginWrite_refused h s e
    rw [hb]
    rfl
  | true =>
    rw [beginWrite_accepted h s e]
    rfl

/-- Whether a call was composed from a payload, with some settings in some environment. -/
def Composed (S : Type) [RemoteService S] (call : PendingCall) : Prop :=
  ∃ (settings : S) (env : Environment) (data : Bytes),
    RemoteService.compose settings env data = .ok (call.request, call.resultLimit)

theorem Composed.renders [SelfContained S] {call : PendingCall} (h : Composed S call)
    (settings : S) (raw : Bytes) : SelfContained.Renders S call.resultLimit raw
      (RemoteService.summarize settings call.resultLimit raw) := by
  obtain ⟨composed, env, data, hc⟩ := h
  exact SelfContained.renders_summarize composed settings env data raw call.request
    call.resultLimit hc

/-- A call is composed from the payload that has just been written, and bears its generation. -/
theorem call_composed {s : Services} {e : Eager S} {path : String} {data : Bytes}
    {call : PendingCall} (h : (e.beginWrite s path data).call? = some call) :
    accepts S path data = true ∧ call.generation = e.cache.generation + 1 ∧
      RemoteService.compose e.settings s.env data = .ok (call.request, call.resultLimit) := by
  cases ha : accepts S path data with
  | false =>
    obtain ⟨err, hb⟩ := beginWrite_refused ha s e
    simp only [hb, Outcome.call?, reduceCtorEq] at h
  | true =>
    rw [beginWrite_accepted ha s e] at h
    cases hc : RemoteService.compose e.settings s.env data with
    | error err => simp only [hc, Outcome.call?, Except.map, reduceCtorEq] at h
    | ok composed =>
      simp only [hc, Outcome.call?, Except.map, Option.some.injEq] at h
      subst h
      exact ⟨rfl, rfl, rfl⟩

theorem beginWrite_call {s : Services} {e : Eager S} {path : String} {data : Bytes}
    {call : PendingCall} (h : (e.beginWrite s path data).call? = some call) :
    accepts S path data = true ∧ call.generation = e.cache.generation + 1 ∧ Composed S call := by
  obtain ⟨haccepts, hgeneration, hcompose⟩ := call_composed h
  exact ⟨haccepts, hgeneration, e.settings, s.env, data, hcompose⟩

/-- What becomes of the reply to a call: it is put into the response files if it is not a failure,
if no payload has been recorded since that of the call, and if the clock can tell the time. -/
def taken (s : Services) (e : Eager S) (call : PendingCall) : Reply → Option Install
  | .error _ => none
  | .ok body =>
    if isCurrent e.cache call.generation then
      match s.now with
      | .ok time => some { call, body, time }
      | .error _ => none
    else none

theorem finishWrite_state (s : Services) (e : Eager S) (call : PendingCall) (reply : Reply) :
    (e.finishWrite s call reply).state =
      match e.taken s call reply with
      | none => e
      | some i => e.install i.time i.call.resultLimit i.body := by
  cases reply with
  | error err => rfl
  | ok body =>
    simp only [finishWrite, taken]
    split
    · simp only [Outcome.timed]
      cases s.now <;> rfl
    · rfl

omit [RemoteService S] in
theorem taken_eq_some {s : Services} {e : Eager S} {call : PendingCall} {reply : Reply}
    {i : Install} : e.taken s call reply = some i ↔
      i.call = call ∧ reply = .ok i.body ∧ s.now = .ok i.time ∧
        call.generation = e.cache.generation := by
  obtain ⟨c, body, time⟩ := i
  cases reply with
  | error err => simp only [taken, reduceCtorEq, false_and, and_false]
  | ok b =>
    simp only [taken, isCurrent, beq_iff_eq, Except.ok.injEq]
    cases s.now with
    | error err => simp only [ite_self, reduceCtorEq, false_and, and_false]
    | ok t =>
      simp only [Except.ok.injEq, Option.ite_none_right_eq_some, Option.some.injEq,
        Install.mk.injEq]
      constructor
      · rintro ⟨hg, rfl, rfl, rfl⟩
        exact ⟨rfl, rfl, rfl, hg.symm⟩
      · rintro ⟨rfl, rfl, rfl, hg⟩
        exact ⟨hg.symm, rfl, rfl, rfl⟩

theorem finishWrite_answer (s : Services) (e : Eager S) (call : PendingCall) (body : String) :
    (e.finishWrite s call (.ok body)).answer =
      if isCurrent e.cache call.generation then s.now.map fun _ => () else .ok () := by
  simp only [finishWrite]
  split
  · simp only [Outcome.timed]
    cases s.now <;> rfl
  · rfl

/-- A write made in one go is a write begun and finished with the reply that comes at once. -/
theorem write_state (s : Services) (e : Eager S) (path : String) (data : Bytes) :
    (Endpoint.write s e path data).state =
      match (e.beginWrite s path data).call? with
      | none => (e.beginWrite s path data).state
      | some call =>
        ((e.beginWrite s path data).state.finishWrite s call (s.post call.request)).state := by
  simp only [Endpoint.write, Endpoint.beginWrite, Outcome.call?]
  cases (e.beginWrite s path data).answer with
  | error err => rfl
  | ok step => cases step <;> rfl

theorem beginWrite_settings (s : Services) (e : Eager S) (path : String) (data : Bytes) :
    (e.beginWrite s path data).state.settings = e.settings := by
  rw [beginWrite_state]
  split <;> rfl

theorem finishWrite_settings (s : Services) (e : Eager S) (call : PendingCall) (reply : Reply) :
    (e.finishWrite s call reply).state.settings = e.settings := by
  rw [finishWrite_state]
  split <;> rfl

theorem write_settings (s : Services) (e : Eager S) (path : String) (data : Bytes) :
    (Endpoint.write s e path data).state.settings = e.settings := by
  rw [write_state]
  split
  · exact e.beginWrite_settings s path data
  · rw [finishWrite_settings]
    exact e.beginWrite_settings s path data

theorem configure_refused {e : Eager S} {document : Option String} {err : Error}
    (h : Patch.parse document = .error err) :
    e.configure document = { answer := .error err, state := e } := by
  simp only [configure, h]

theorem configure_merged {e : Eager S} {document : Option String} {p : Patch}
    (h : Patch.parse document = .ok p) :
    e.configure document =
      { answer := .ok ()
        state := { e with settings := RemoteService.merge e.settings p, active := true } } := by
  simp only [configure, h]

end Eager

end FileEndpoints

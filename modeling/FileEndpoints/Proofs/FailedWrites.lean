import FileEndpoints.Proofs.RemoteCalls

namespace FileEndpoints

/-- Why a write is refused before anything is recorded. -/
inductive Refused (refusal path : String) (data : Bytes) : Error → Prop
  | noSuchPath (h : path ∉ ["/request", "/response.json", "/response.txt"]) :
      Refused refusal path data (.noSuchPath path)
  | notWritable (h : path ∈ ["/response.json", "/response.txt"]) :
      Refused refusal path data (.notWritable path)
  | blank (hp : path = "/request") (hd : isBlankPayload data = true) :
      Refused refusal path data (.invalidPayload refusal)

/-- Why no call can be made for a payload that has been recorded. -/
inductive CallPlan.Stranded {S : Type} (c : CallPlan S) (r : S) (env : Environment)
    (path : String) (data : Bytes) : Error → Prop
  | unasked (hp : path = "/request") (hd : isBlankPayload data = false)
      (h : ∀ body, ¬ c.Asks r data body) : Stranded c r env path data (.invalidPayload c.refusal)
  | unset (hp : path = "/request") (hd : isBlankPayload data = false) (body : Json)
      (h : c.Asks r data body)
      (hs : ∀ bearer, ¬ FirstNonEmpty ((c.secret r).candidates c.builtIn env) bearer) :
      Stranded c r env path data (.missingSecret c.unset)

theorem refused_or_solid (refusal path : String) (data : Bytes) :
    (∃ err, Refused refusal path data err) ∨ path = "/request" ∧ isBlankPayload data = false := by
  by_cases hreq : path = "/request"
  · cases hd : isBlankPayload data with
    | true => exact .inl ⟨_, .blank hreq hd⟩
    | false => exact .inr ⟨hreq, rfl⟩
  · left
    by_cases hresp : path ∈ ["/response.json", "/response.txt"]
    · exact ⟨_, .notWritable hresp⟩
    · refine ⟨_, .noSuchPath fun hmem => ?_⟩
      rcases List.mem_cons.1 hmem with h | h
      · exact hreq h
      · exact hresp h

theorem Refused.accept {refusal path : String} {data : Bytes} {err : Error}
    (h : Refused refusal path data err) (p : EagerProfile) (c : ResponseCache) :
    p.accept c path data refusal = .error err := by
  simp only [EagerProfile.accept, EagerProfile.writable_eq]
  cases h with
  | noSuchPath h =>
    simp only [List.mem_cons, List.not_mem_nil, or_false, not_or] at h
    simp only [h, or_self, ↓reduceIte]
  | notWritable h =>
    simp only [List.mem_cons, List.not_mem_nil, or_false] at h
    have hreq : path ≠ "/request" := by
      rintro rfl
      exact absurd h (by decide)
    simp only [hreq, h, ↓reduceIte]
  | blank hp hd => simp only [hp, hd, ↓reduceIte]

theorem CallPlan.Stranded.solid {S : Type} {c : CallPlan S} {r : S} {env : Environment}
    {path : String} {data : Bytes} {err : Error} (h : c.Stranded r env path data err) :
    path = "/request" ∧ isBlankPayload data = false := by
  cases h with
  | unasked hp hd _ => exact ⟨hp, hd⟩
  | unset hp hd _ _ _ => exact ⟨hp, hd⟩

namespace Eager

variable {S : Type} [RemoteService S]

/-- An endpoint that shows the same response, with the same settings and in the same use. -/
structure SameResponse (e e' : Eager S) : Prop where
  raw : e'.cache.raw = e.cache.raw
  summary : e'.cache.summary = e.cache.summary
  executedAt : e'.cache.executedAt = e.cache.executedAt
  settings : e'.settings = e.settings
  active : e'.active = e.active
  read : ∀ (s : Services) (path : String) (offset size : Int),
    (Endpoint.read s e' path offset size).answer = (Endpoint.read s e path offset size).answer

theorem SameResponse.refl (e : Eager S) : SameResponse e e :=
  ⟨rfl, rfl, rfl, rfl, rfl, fun _ _ _ _ => rfl⟩

theorem content_submit (p : EagerProfile) (c : ResponseCache) (data : Bytes) :
    p.content (c.submit data) = p.content c := by
  funext f
  cases f <;> rfl

theorem SameResponse.submit (e : Eager S) (data : Bytes) :
    SameResponse e { e with cache := e.cache.submit data } := by
  refine ⟨rfl, rfl, rfl, rfl, rfl, fun s path offset size => ?_⟩
  have hcontent := content_submit e.profile e.cache data
  change e.profile.read (e.cache.submit data) path offset size = e.profile.read e.cache path _ _
  simp only [EagerProfile.read, hcontent]

theorem SameResponse.begin (s : Services) (e : Eager S) (path : String) (data : Bytes) :
    e.SameResponse (e.beginWrite s path data).state := by
  rw [beginWrite_state]
  split
  · exact .submit e data
  · exact .refl e

theorem beginWrite_of_refused {e : Eager S} {path : String} {data : Bytes} {err : Error}
    (h : Refused (RemoteService.missing S) path data err) (s : Services) :
    e.beginWrite s path data = { answer := .error err, state := e } := by
  simp only [beginWrite, h.accept]

theorem beginWrite_uncomposed {e : Eager S} {data : Bytes} (hd : isBlankPayload data = false)
    {s : Services} {err : Error} (hc : RemoteService.compose e.settings s.env data = .error err) :
    e.beginWrite s "/request" data =
      { answer := .error err, state := { e with cache := e.cache.submit data } } := by
  simp only [beginWrite, e.accept_request hd, hc, Except.map]

theorem compose_of_beginWrite {e : Eager S} {data : Bytes} (hd : isBlankPayload data = false)
    {s : Services} {err : Error} (h : (e.beginWrite s "/request" data).answer = .error err) :
    RemoteService.compose e.settings s.env data = .error err := by
  simp only [beginWrite, e.accept_request hd] at h
  cases hc : RemoteService.compose e.settings s.env data with
  | error failure =>
    rw [hc] at h
    exact congrArg Except.error (Except.error.inj h)
  | ok composed =>
    rw [hc] at h
    cases h

theorem finishWrite_failed {s : Services} {e : Eager S} {call : PendingCall} {reply : Reply}
    {err : Error} (h : (e.finishWrite s call reply).answer = .error err) :
    (e.finishWrite s call reply).state = e := by
  rw [finishWrite_state]
  cases reply with
  | error failure => rfl
  | ok body =>
    cases htaken : e.taken s call (.ok body) with
    | none => rfl
    | some i =>
      obtain ⟨-, -, hnow, hcurrent⟩ := taken_eq_some.1 htaken
      simp only [finishWrite_answer, isCurrent, hcurrent, beq_self_eq_true, hnow, Except.map,
        ↓reduceIte, reduceCtorEq] at h

end Eager

/-- What is fixed about a secret, whatever the settings. -/
def CallPlan.Fixed {S : Type} (c : CallPlan S) (r : S) : Prop :=
  (c.secret r).defaultVariable = c.builtIn ∧ (c.secret r).missing = c.unset

theorem CallPlan.Kept.compose_error_iff {S : Type} [RemoteService S] {c : CallPlan S} (hc : c.Kept)
    {r : S} (hr : c.Fixed r) {data : Bytes} (hd : isBlankPayload data = false)
    (env : Environment) (err : Error) :
    RemoteService.compose r env data = .error err ↔ c.Stranded r env "/request" data err := by
  rcases hc.composed r data (ne_nil_of_solid hd) with
    ⟨wait, limit, -, body, hbody, hcompose⟩ | ⟨hnone, hcompose⟩
  · have hresolve := (c.secret r).resolve_eq env
    rw [hcompose, hresolve, hr.1, hr.2]
    cases hfirst : ((c.secret r).candidates c.builtIn env).findSome? nonEmpty? with
    | some bearer =>
      have hbearer := (firstNonEmpty_iff _ _).1 hfirst
      constructor
      · intro h
        cases h
      · rintro (⟨-, -, hno⟩ | ⟨-, -, -, -, hno⟩)
        · exact absurd ((hbody body).2 rfl) (hno body)
        · exact absurd hbearer (hno bearer)
    | none =>
      have hno : ∀ bearer, ¬ FirstNonEmpty ((c.secret r).candidates c.builtIn env) bearer := by
        intro bearer hbearer
        cases hfirst.symm.trans ((firstNonEmpty_iff _ _).2 hbearer)
      constructor
      · intro h
        cases h
        exact .unset rfl hd body ((hbody body).2 rfl) hno
      · rintro (⟨-, -, hnothing⟩ | -)
        · exact absurd ((hbody body).2 rfl) (hnothing body)
        · rfl
  · rw [hcompose]
    constructor
    · intro h
      cases h
      exact .unasked rfl hd hnone
    · rintro (- | ⟨-, -, body, hasks, -⟩)
      · rfl
      · exact absurd hasks (hnone body)

structure FailsCleanly {S : Type} [RemoteService S] (c : CallPlan S) (e : Eager S) : Prop where
  reasons : ∀ (s : Services) (path : String) (data : Bytes) (err : Error),
    (e.beginWrite s path data).answer = .error err ↔
      Refused c.refusal path data err ∨ c.Stranded e.settings s.env path data err
  refused : ∀ (s : Services) (path : String) (data : Bytes) (err : Error),
    Refused c.refusal path data err → (e.beginWrite s path data).state = e
  stranded : ∀ (s : Services) (path : String) (data : Bytes) (err : Error),
    c.Stranded e.settings s.env path data err →
      let e' := (e.beginWrite s path data).state
      e'.cache.payload = some data ∧ e'.cache.pending = true ∧
        e'.cache.generation = e.cache.generation + 1
  begun : ∀ (s : Services) (path : String) (data : Bytes),
    e.SameResponse (e.beginWrite s path data).state
  finished : ∀ (s : Services) (call : PendingCall) (reply : Reply) (err : Error),
    (e.finishWrite s call reply).answer = .error err → (e.finishWrite s call reply).state = e
  called : ∀ (s : Services) (call : PendingCall) (err : Error),
    e.finishWrite s call (.error err) = { answer := .error err, state := e }
  /-- A write in one go fails at its beginning or at its end. -/
  written : ∀ (s : Services) (path : String) (data : Bytes) (err : Error),
    (Endpoint.write s e path data).answer = .error err →
      e.SameResponse (Endpoint.write s e path data).state

theorem Eager.SameResponse.write {S : Type} [RemoteService S] {s : Services} {e : Eager S}
    {path : String} {data : Bytes} {err : Error}
    (h : (Endpoint.write s e path data).answer = .error err) :
    e.SameResponse (Endpoint.write s e path data).state := by
  have hbegun := SameResponse.begin s e path data
  simp only [Endpoint.write, Endpoint.beginWrite] at h ⊢
  cases ha : (e.beginWrite s path data).answer with
  | error failure => exact hbegun
  | ok step =>
    cases step with
    | done => exact hbegun
    | remote call =>
      simp only [ha, Endpoint.finishWrite] at h ⊢
      rw [finishWrite_failed h]
      exact hbegun

theorem CallPlan.Kept.failsCleanly {S : Type} [RemoteService S] {c : CallPlan S} (hc : c.Kept)
    {e : Eager S} (hfixed : c.Fixed e.settings) : FailsCleanly c e := by
  have hrefused {path : String} {data : Bytes} {err : Error}
      (h : Refused c.refusal path data err) (s : Services) :
      e.beginWrite s path data = { answer := .error err, state := e } :=
    Eager.beginWrite_of_refused (hc.refusal ▸ h) s
  have hstranded {s : Services} {path : String} {data : Bytes} {err : Error}
      (h : c.Stranded e.settings s.env path data err) : e.beginWrite s path data =
        { answer := .error err, state := { e with cache := e.cache.submit data } } := by
    obtain ⟨rfl, hd⟩ := h.solid
    exact Eager.beginWrite_uncomposed hd ((hc.compose_error_iff hfixed hd s.env err).2 h)
  have hreason {s : Services} {path : String} {data : Bytes} {err : Error}
      (h : (e.beginWrite s path data).answer = .error err) :
      Refused c.refusal path data err ∨ c.Stranded e.settings s.env path data err := by
    rcases refused_or_solid c.refusal path data with ⟨failure, hr⟩ | ⟨rfl, hd⟩
    · rw [hrefused hr s] at h
      exact .inl (Except.error.inj h ▸ hr)
    · have hcompose := Eager.compose_of_beginWrite hd h
      exact .inr ((hc.compose_error_iff hfixed hd s.env err).1 hcompose)
  constructor
  case reasons =>
    intro s path data err
    constructor
    · exact hreason
    · rintro (h | h)
      · rw [hrefused h s]
      · rw [hstranded h]
  case refused =>
    intro s path data err h
    rw [hrefused h s]
  case stranded =>
    intro s path data err h e'
    have he' : e' = { e with cache := e.cache.submit data } := congrArg Outcome.state (hstranded h)
    rw [he']
    exact ⟨rfl, rfl, rfl⟩
  case begun => exact fun s path data => .begin s e path data
  case finished => exact fun s call reply err h => Eager.finishWrite_failed h
  case called => exact fun s call err => rfl
  case written => exact fun s path data err h => .write h

/-- However an endpoint has been used, a write that fails keeps the response that is shown. -/
theorem failed_writes_keep_response :
    (∀ moves : List (Services × Move),
      FailsCleanly SearchSettings.plan ((Session.fresh SearchSettings).run moves).endpoint) ∧
    ∀ moves : List (Services × Move),
      FailsCleanly SummarySettings.plan ((Session.fresh SummarySettings).run moves).endpoint := by
  constructor
  · intro moves
    have hfixed := Session.settings_preserved (P := SearchSettings.plan.Fixed) ⟨rfl, rfl⟩
      (fun _ _ h => h) moves
    exact SearchSettings.plan_kept.failsCleanly hfixed
  · intro moves
    have hfixed := Session.settings_preserved (P := SummarySettings.plan.Fixed) ⟨rfl, rfl⟩
      (fun _ _ h => h) moves
    exact SummarySettings.plan_kept.failsCleanly hfixed

/-- After a search that went well: a blank query leaves no trace, an object without a query and a
query without a secret leave their payloads, and the response stays through all of it. -/
theorem failed_searches_keep_response :
    let s := Services.steady ⟨0⟩ (.ok "\x7b\x7d") .crashed
    let bare := { s with env := fun _ => none }
    let moves : List (Services × Move) := [(s, .use (.write "/request" [97]))]
    let e := ((Session.fresh SearchSettings).run moves).endpoint
    let request : Request := { url := "u", bearer := "k", body := .null, timeout := 1 }
    let call : PendingCall := { request, resultLimit := some 3, generation := 1 }
    e.cache.raw = some [123, 125] ∧
      (e.beginWrite s "/request" [32]).state = e ∧
      (e.beginWrite s "/request" [91, 93]).state.cache.payload = some [91, 93] ∧
      (e.beginWrite s "/request" [91, 93]).state.cache.raw = some [123, 125] ∧
      (e.beginWrite bare "/request" [98]).state.cache.generation = 2 ∧
      (e.finishWrite s call (.error (.transport "down"))).state = e := by
  intro s bare moves e request call
  have he := failed_writes_keep_response.1 moves
  have hraw : e.cache.raw = some [123, 125] := rfl
  have hblank : Refused SearchSettings.plan.refusal "/request" [32] (.invalidPayload _) :=
    .blank rfl rfl
  have hnothing : SearchSettings.plan.Stranded e.settings s.env "/request" [91, 93]
      (.invalidPayload SearchSettings.plan.refusal) := by
    refine .unasked rfl rfl ?_
    rintro body ⟨q, n, hq, -⟩
    cases (SearchSettings.query_iff (by decide) q).2 hq
  have hunset : SearchSettings.plan.Stranded e.settings bare.env "/request" [98]
      (.missingSecret SearchSettings.plan.unset) := by
    have hasks : SearchSettings.plan.Asks e.settings [98]
        (.obj [("max_results", .num (.int 3)), ("query", .str "b")]) := by
      refine ⟨"b", 3, .plain rfl, .inr ⟨?_, rfl⟩, rfl⟩
      rintro k ⟨root, hroot, -⟩
      cases hroot
    refine .unset rfl rfl _ hasks fun bearer h => ?_
    cases (firstNonEmpty_iff _ _).2 h
  refine ⟨hraw, he.refused s _ _ _ hblank, (he.stranded s _ _ _ hnothing).1, ?_,
    (he.stranded bare _ _ _ hunset).2.2, ?_⟩
  · rw [(he.begun s "/request" [91, 93]).raw, hraw]
  · exact he.finished s call _ _ (congrArg Outcome.answer (he.called s call (.transport "down")))

end FileEndpoints

import FileEndpoints.Proofs.RequestBodies
import FileEndpoints.Proofs.SettingsHistory
import FileEndpoints.Proofs.SingleSlot
import FileEndpoints.Proofs.TreePaths

namespace FileEndpoints

/-- The first of several values that is there and not empty. -/
inductive FirstNonEmpty : List (Option String) → String → Prop
  | here {s rest} (h : s ≠ "") : FirstNonEmpty (some s :: rest) s
  | later {o rest s} (ho : ∀ t, o = some t → t = "") (h : FirstNonEmpty rest s) :
      FirstNonEmpty (o :: rest) s

theorem FirstNonEmpty.ne_empty {values : List (Option String)} {s : String}
    (h : FirstNonEmpty values s) : s ≠ "" := by
  induction h with
  | here h => exact h
  | later _ _ ih => exact ih

theorem firstNonEmpty_iff (values : List (Option String)) (s : String) :
    values.findSome? nonEmpty? = some s ↔ FirstNonEmpty values s := by
  induction values with
  | nil =>
    constructor
    · intro h
      cases h
    · intro h
      cases h
  | cons o rest ih =>
    rw [List.findSome?_cons]
    cases ho : nonEmpty? o with
    | none =>
      have hempty : ∀ t, o = some t → t = "" := by
        intro t ht
        refine Decidable.byContradiction fun hne => ?_
        cases ho.symm.trans (nonEmpty?_eq_some.2 ⟨ht, hne⟩)
      rw [ih]
      constructor
      · exact .later hempty
      · rintro (hne | ⟨-, h⟩)
        · exact absurd (hempty s rfl) hne
        · exact h
    | some t =>
      obtain ⟨rfl, hne⟩ := nonEmpty?_eq_some.1 ho
      constructor
      · intro h
        obtain rfl := Option.some.inj h
        exact .here hne
      · rintro (- | ⟨hempty, -⟩)
        · rfl
        · exact absurd (hempty t rfl) hne

namespace SecretSource

/-- The values that can be the secret: the configured one, that of the configured variable if its
name is not empty, and that of the built-in variable. -/
def candidates (s : SecretSource) (builtIn : String) (env : Environment) : List (Option String) :=
  [s.explicit, s.variableName.bind fun name => if name = "" then none else env name, env builtIn]

theorem resolve_eq (s : SecretSource) (env : Environment) :
    s.resolve env = match (s.candidates s.defaultVariable env).findSome? nonEmpty? with
      | some secret => .ok secret
      | none => .error (.missingSecret s.missing) := by
  have hnamed : (nonEmpty? s.variableName).bind env =
      s.variableName.bind fun name => if name = "" then none else env name := by
    cases s.variableName with
    | none => rfl
    | some name =>
      rw [Option.bind_some]
      by_cases hname : name = ""
      · rw [if_pos hname, hname]
        rfl
      · rw [if_neg hname, nonEmpty?_eq_some.2 ⟨rfl, hname⟩]
        rfl
  simp only [resolve, candidates, hnamed, List.findSome?_cons, List.findSome?_nil]
  cases nonEmpty? s.explicit with
  | some secret => rfl
  | none =>
    cases nonEmpty? (s.variableName.bind fun name => if name = "" then none else env name) with
    | some secret => rfl
    | none => cases nonEmpty? (env s.defaultVariable) <;> rfl

theorem resolve_ok {s : SecretSource} {env : Environment} {secret : String}
    (h : FirstNonEmpty (s.candidates s.defaultVariable env) secret) :
    s.resolve env = .ok secret := by
  rw [resolve_eq, (firstNonEmpty_iff _ _).2 h]

theorem resolve_missing {s : SecretSource} {env : Environment}
    (h : ∀ secret, ¬ FirstNonEmpty (s.candidates s.defaultVariable env) secret) :
    s.resolve env = .error (.missingSecret s.missing) := by
  rw [resolve_eq]
  cases hfirst : (s.candidates s.defaultVariable env).findSome? nonEmpty? with
  | none => rfl
  | some secret => exact absurd ((firstNonEmpty_iff _ _).1 hfirst) (h secret)

end SecretSource

/-- What the calls of a remote service are made of. -/
structure CallPlan (S : Type) where
  secret : S → SecretSource
  url : S → String
  timeout : S → Int
  /-- How long to wait, in milliseconds, when the settings do not say. -/
  patience : Nat
  builtIn : String
  refusal : String
  unset : String
  Asks : S → Bytes → Json → Prop

namespace CallPlan

variable {S : Type}

/-- The configured time to wait if that is positive. -/
def Waits (c : CallPlan S) (r : S) (wait : Nat) : Prop :=
  0 < c.timeout r ∧ (wait : Int) = c.timeout r ∨ c.timeout r ≤ 0 ∧ wait = c.patience

structure Kept [RemoteService S] (c : CallPlan S) : Prop where
  patient : 0 < c.patience
  refusal : RemoteService.missing S = c.refusal
  composed : ∀ (r : S) (data : Bytes), data ≠ [] →
    (∃ wait limit, c.Waits r wait ∧ ∃ body, (∀ b, c.Asks r data b ↔ b = body) ∧
      ∀ env, RemoteService.compose r env data = ((c.secret r).resolve env).map fun bearer =>
        ({ url := c.url r, bearer, body, timeout := wait }, limit)) ∨
    (∀ b, ¬ c.Asks r data b) ∧
      ∀ env, RemoteService.compose r env data = .error (.invalidPayload c.refusal)

end CallPlan

theorem ne_nil_of_solid {data : Bytes} (h : isBlankPayload data = false) : data ≠ [] := by
  rintro rfl
  cases h

namespace Eager

variable {S : Type} [RemoteService S] {s : Services} {e : Eager S} {path : String} {data : Bytes}

theorem beginWrite_effects (s : Services) (e : Eager S) (path : String) (data : Bytes) :
    (e.beginWrite s path data).effects = [] := by
  simp only [beginWrite]
  split <;> rfl

theorem finishWrite_effects (s : Services) (e : Eager S) (call : PendingCall) (reply : Reply) :
    (e.finishWrite s call reply).effects = [] := by
  cases reply with
  | error err => rfl
  | ok body =>
    simp only [finishWrite]
    split
    · simp only [Outcome.timed]
      cases s.now <;> rfl
    · rfl

theorem quiet (s : Services) (e : Eager S) {operation : Operation}
    (h : ∀ path data, operation ≠ .write path data) : (operation.perform s e).effects = [] := by
  cases operation with
  | configure document =>
    change (e.configure document).effects = []
    simp only [configure]
    split <;> rfl
  | write path data => exact absurd rfl (h path data)
  | shutdown => rfl
  | stat path => rfl
  | list path => rfl
  | read path offset size => rfl

theorem accept_request (e : Eager S) (hd : isBlankPayload data = false) :
    e.profile.accept e.cache "/request" data (RemoteService.missing S) =
      .ok (e.cache.submit data) := by
  simp only [EagerProfile.accept, EagerProfile.writable_eq, hd, ↓reduceIte, Bool.false_eq_true]

theorem write_refused {err : Error}
    (h : e.profile.accept e.cache path data (RemoteService.missing S) = .error err) :
    Endpoint.write s e path data = { answer := .error err, state := e } := by
  simp only [Endpoint.write, Endpoint.beginWrite, beginWrite, h]

theorem write_uncomposed (hd : isBlankPayload data = false) {err : Error}
    (hc : RemoteService.compose e.settings s.env data = .error err) :
    (Endpoint.write s e "/request" data).answer = .error err ∧
      (Endpoint.write s e "/request" data).effects = [] := by
  simp only [Endpoint.write, Endpoint.beginWrite, beginWrite, e.accept_request hd, hc, Except.map,
    and_self]

theorem write_composed (hd : isBlankPayload data = false) {request : Request} {limit : Option Int}
    (hc : RemoteService.compose e.settings s.env data = .ok (request, limit)) :
    (Endpoint.write s e "/request" data).effects = [.posted request] := by
  simp only [Endpoint.write, Endpoint.beginWrite, beginWrite, e.accept_request hd, hc, Except.map,
    dispatch, Endpoint.connected, Endpoint.finishWrite, finishWrite_effects, ↓reduceIte,
    List.nil_append, List.append_nil]

end Eager

structure CallsOnce {S : Type} [RemoteService S] (c : CallPlan S) (e : Eager S) : Prop where
  quiet : ∀ (s : Services) (operation : Operation), (∀ path data, operation ≠ .write path data) →
    (operation.perform s e).effects = []
  parts : ∀ (s : Services) (path : String) (data : Bytes) (call : PendingCall) (reply : Reply),
    (e.beginWrite s path data).effects = [] ∧ (e.finishWrite s call reply).effects = []
  noSuchPath : ∀ (s : Services) (path : String) (data : Bytes),
    path ∉ ["/request", "/response.json", "/response.txt"] →
      Endpoint.write s e path data = { answer := .error (.noSuchPath path), state := e }
  notWritable : ∀ (s : Services) (path : String) (data : Bytes),
    path ∈ ["/response.json", "/response.txt"] →
      Endpoint.write s e path data = { answer := .error (.notWritable path), state := e }
  blank : ∀ (s : Services) (data : Bytes), isBlankPayload data = true →
    Endpoint.write s e "/request" data =
      { answer := .error (.invalidPayload c.refusal), state := e }
  unasked : ∀ (s : Services) (data : Bytes), isBlankPayload data = false →
    (∀ body, ¬ c.Asks e.settings data body) →
      let o := Endpoint.write s e "/request" data
      o.answer = .error (.invalidPayload c.refusal) ∧ o.effects = []
  unset : ∀ (s : Services) (data : Bytes) (body : Json), isBlankPayload data = false →
    c.Asks e.settings data body →
    (∀ bearer, ¬ FirstNonEmpty ((c.secret e.settings).candidates c.builtIn s.env) bearer) →
      let o := Endpoint.write s e "/request" data
      o.answer = .error (.missingSecret c.unset) ∧ o.effects = []
  posted : ∀ (s : Services) (data : Bytes) (body : Json) (bearer : String),
    isBlankPayload data = false → c.Asks e.settings data body →
    FirstNonEmpty ((c.secret e.settings).candidates c.builtIn s.env) bearer →
      ∃ wait, c.Waits e.settings wait ∧ 0 < wait ∧ bearer ≠ "" ∧
        (Endpoint.write s e "/request" data).effects =
          [.posted { url := c.url e.settings, bearer, body, timeout := wait }]

theorem CallPlan.Waits.pos {S : Type} {c : CallPlan S} {r : S} {wait : Nat}
    (h : c.Waits r wait) (hp : 0 < c.patience) : 0 < wait := by
  rcases h with ⟨hpos, hwait⟩ | ⟨-, rfl⟩
  · omega
  · exact hp

theorem CallPlan.Kept.callsOnce {S : Type} [RemoteService S] {c : CallPlan S} (hc : c.Kept)
    {e : Eager S}
    (hsecret : (c.secret e.settings).defaultVariable = c.builtIn)
    (hunset : (c.secret e.settings).missing = c.unset) : CallsOnce c e where
  quiet s operation h := Eager.quiet s e h
  parts s path data call reply :=
    ⟨e.beginWrite_effects s path data, e.finishWrite_effects s call reply⟩
  noSuchPath s path data h := by
    simp only [List.mem_cons, List.not_mem_nil, or_false, not_or] at h
    apply Eager.write_refused
    simp only [EagerProfile.accept, EagerProfile.writable_eq, h, or_self, ↓reduceIte]
  notWritable s path data h := by
    simp only [List.mem_cons, List.not_mem_nil, or_false] at h
    apply Eager.write_refused
    have hreq : path ≠ "/request" := by
      rintro rfl
      exact absurd h (by decide)
    simp only [EagerProfile.accept, EagerProfile.writable_eq, hreq, h, ↓reduceIte]
  blank s data h := by
    apply Eager.write_refused
    simp only [EagerProfile.accept, EagerProfile.writable_eq, h, ↓reduceIte, hc.refusal]
  unasked s data hd hnone := by
    rcases hc.composed e.settings data (ne_nil_of_solid hd) with
      ⟨_, _, -, body, hbody, -⟩ | ⟨-, hcompose⟩
    · exact absurd ((hbody body).2 rfl) (hnone body)
    · exact Eager.write_uncomposed hd (hcompose s.env)
  unset s data body hd hasks hnone := by
    rcases hc.composed e.settings data (ne_nil_of_solid hd) with
      ⟨_, _, -, _, -, hcompose⟩ | ⟨hno, -⟩
    · apply Eager.write_uncomposed hd
      rw [← hsecret] at hnone
      rw [hcompose, SecretSource.resolve_missing hnone, ← hunset]
      rfl
    · exact absurd hasks (hno body)
  posted s data body bearer hd hasks hbearer := by
    rcases hc.composed e.settings data (ne_nil_of_solid hd) with
      ⟨wait, limit, hwait, body', hbody, hcompose⟩ | ⟨hno, -⟩
    · obtain rfl := (hbody body).1 hasks
      refine ⟨wait, hwait, hwait.pos hc.patient, hbearer.ne_empty, ?_⟩
      apply Eager.write_composed hd
      rw [← hsecret] at hbearer
      rw [hcompose, SecretSource.resolve_ok hbearer]
      rfl
    · exact absurd hasks (hno body)

def SearchSettings.plan : CallPlan SearchSettings where
  secret := secret
  url := url
  timeout := timeout
  patience := 30000
  builtIn := "PERPLEXITY_API_KEY"
  refusal := "request missing query"
  unset := "PERPLEXITY_API_KEY is not set and no api_key provided"
  Asks := Asks

def SummarySettings.plan : CallPlan SummarySettings where
  secret := secret
  url := url
  timeout := timeout
  patience := 120000
  builtIn := "OPENAI_API_KEY"
  refusal := "request missing text"
  unset := "OpenAI API key not set (set OPENAI_API_KEY or openai_api_key(_env))"
  Asks := Asks

theorem CallPlan.waits_ite {S : Type} (c : CallPlan S) (r : S) :
    c.Waits r (if 0 < c.timeout r then (c.timeout r).toNat else c.patience) := by
  by_cases h : 0 < c.timeout r
  · rw [if_pos h]
    exact .inl ⟨h, Int.toNat_of_nonneg (Int.le_of_lt h)⟩
  · rw [if_neg h]
    exact .inr ⟨Int.not_lt.1 h, rfl⟩

theorem SearchSettings.plan_kept : plan.Kept where
  patient := by decide
  refusal := rfl
  composed r data hd := by
    rcases r.parse_asks hd with ⟨q, n, hparse, hasks⟩ | ⟨hparse, hnone⟩
    · exact .inl ⟨r.waitTime, some n, plan.waits_ite r, _, hasks, compose_parsed hparse⟩
    · refine .inr ⟨hnone, fun env => ?_⟩
      change r.compose env data = _
      simp only [compose, hparse, bind, Except.bind]
      rfl

theorem SummarySettings.plan_kept : plan.Kept where
  patient := by decide
  refusal := rfl
  composed r data hd := by
    obtain ⟨text, format, hparse, hasks⟩ := r.parse_asks hd
    exact .inl ⟨r.waitTime, none, plan.waits_ite r, _, hasks, compose_parsed hparse⟩

/-- However an endpoint has been used, it makes the call that a write asks for, and no other. A
payload of a summary always asks for one. -/
theorem one_call_per_write :
    (∀ moves : List (Services × Move),
      CallsOnce SearchSettings.plan ((Session.fresh SearchSettings).run moves).endpoint) ∧
    (∀ moves : List (Services × Move),
      CallsOnce SummarySettings.plan ((Session.fresh SummarySettings).run moves).endpoint) ∧
    ∀ (r : SummarySettings) (data : Bytes), isBlankPayload data = false →
      ∃ body, SummarySettings.plan.Asks r data body := by
  refine ⟨?_, ?_, ?_⟩
  · intro moves
    obtain ⟨hsecret, hunset⟩ := Session.settings_preserved (S := SearchSettings)
      (P := fun r => r.secret.defaultVariable = SearchSettings.plan.builtIn ∧
        r.secret.missing = SearchSettings.plan.unset) ⟨rfl, rfl⟩ (fun _ _ h => h) moves
    exact SearchSettings.plan_kept.callsOnce hsecret hunset
  · intro moves
    obtain ⟨hsecret, hunset⟩ := Session.settings_preserved (S := SummarySettings)
      (P := fun r => r.secret.defaultVariable = SummarySettings.plan.builtIn ∧
        r.secret.missing = SummarySettings.plan.unset) ⟨rfl, rfl⟩ (fun _ _ h => h) moves
    exact SummarySettings.plan_kept.callsOnce hsecret hunset
  · intro r data hd
    obtain ⟨text, format, -, hasks⟩ := r.parse_asks (ne_nil_of_solid hd)
    exact ⟨_, (hasks _).2 rfl⟩

/-- An empty configured key is passed over for the variable, and a payload that is no object asks
for nothing. -/
theorem search_called_with_variable :
    let s := Services.steady ⟨0⟩ (.error (.transport "down")) .crashed
    let bare := { s with env := fun _ => none }
    let document := some "\x7b\"api_key\":\"\",\"endpoint\":\"u\",\"timeout_ms\":5\x7d"
    let e := ((Session.fresh SearchSettings).run [(s, .use (.configure document))]).endpoint
    let body := Json.obj [("max_results", .num (.int 3)), ("query", .str "hi")]
    (Endpoint.write s e "/request" [104, 105]).effects =
        [.posted { url := "u", bearer := "k", body, timeout := 5 }] ∧
      (Endpoint.write bare e "/request" [104, 105]).answer =
        .error (.missingSecret "PERPLEXITY_API_KEY is not set and no api_key provided") ∧
      (Endpoint.write s e "/request" [91, 93]).answer =
        .error (.invalidPayload "request missing query") ∧
      (Endpoint.write s e "/request" [32]).effects = [] ∧
      Endpoint.write s e "/response.txt" [104] =
        { answer := .error (.notWritable "/response.txt"), state := e } ∧
      (Operation.perform s e (.read "/response.txt" 0 9)).effects = [] := by
  intro s bare document e body
  have he := one_call_per_write.1 [(s, .use (.configure document))]
  have hasks : SearchSettings.plan.Asks e.settings [104, 105] body := by
    refine ⟨"hi", 3, .plain rfl, .inr ⟨?_, rfl⟩, rfl⟩
    rintro k ⟨root, hroot, -⟩
    cases hroot
  have hbearer : FirstNonEmpty
      ((SearchSettings.plan.secret e.settings).candidates SearchSettings.plan.builtIn s.env) "k" :=
    .later (fun _ ht => (Option.some.inj ht).symm) (.later nofun (.here (by decide)))
  have hnobearer : ∀ bearer, ¬ FirstNonEmpty ((SearchSettings.plan.secret e.settings).candidates
      SearchSettings.plan.builtIn bare.env) bearer := by
    intro bearer h
    cases (firstNonEmpty_iff _ _).2 h
  have hnothing : ∀ b, ¬ SearchSettings.plan.Asks e.settings [91, 93] b := by
    rintro b ⟨q, n, hq, -⟩
    cases (SearchSettings.query_iff (by decide) q).2 hq
  refine ⟨?_, (he.unset bare _ body rfl hasks hnobearer).1, (he.unasked s _ rfl hnothing).1,
    congrArg Outcome.effects (he.blank s [32] rfl), he.notWritable s _ _ (by decide),
    he.quiet s _ nofun⟩
  obtain ⟨wait, hwait, -, -, hposted⟩ := he.posted s _ body "k" rfl hasks hbearer
  have hfive : wait = 5 := by
    rcases hwait with ⟨-, hconfigured⟩ | ⟨hnone, -⟩
    · exact Int.ofNat.inj hconfigured
    · exact absurd hnone (by decide)
  rw [hposted, hfive]
  rfl

end FileEndpoints

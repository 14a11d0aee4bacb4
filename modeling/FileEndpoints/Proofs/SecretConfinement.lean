import FileEndpoints.Proofs.RemoteCalls

namespace FileEndpoints

/-- Values of which both are unset, or both empty, or both neither. -/
inductive SameKind : Option String → Option String → Prop
  | unset : SameKind none none
  | empty : SameKind (some "") (some "")
  | given {a b : String} (ha : a ≠ "") (hb : b ≠ "") : SameKind (some a) (some b)

namespace SameKind

variable {a b a' b' : Option String}

theorem refl (o : Option String) : SameKind o o := by
  cases o with
  | none => exact .unset
  | some a =>
    by_cases ha : a = ""
    · exact ha ▸ .empty
    · exact .given ha ha

theorem or (h : SameKind a b) (h' : SameKind a' b') : SameKind (a.or a') (b.or b') := by
  cases h with
  | unset => exact h'
  | empty => exact .empty
  | given ha hb => exact .given ha hb

theorem nonEmpty? (h : SameKind a b) : SameKind (nonEmpty? a) (nonEmpty? b) := by
  cases h with
  | unset => exact .unset
  | empty => exact .unset
  | given ha hb =>
    rw [nonEmpty?_eq_some.2 ⟨rfl, ha⟩, nonEmpty?_eq_some.2 ⟨rfl, hb⟩]
    exact .given ha hb

end SameKind

/-- Environments whose variables are of the same kind, each for itself. -/
def AlikeEnvironments (env env' : Environment) : Prop :=
  ∀ name, SameKind (env name) (env' name)

/-- Sources that differ in the explicit secret only, which is of the same kind. -/
structure SecretSource.Alike (a b : SecretSource) : Prop where
  explicit : SameKind a.explicit b.explicit
  rest : b = { a with explicit := b.explicit }

theorem SecretSource.resolve_alike {a b : SecretSource} (h : a.Alike b) {env env' : Environment}
    (henv : AlikeEnvironments env env') :
    (∃ secret secret', a.resolve env = .ok secret ∧ b.resolve env' = .ok secret') ∨
      ∃ err, a.resolve env = .error err ∧ b.resolve env' = .error err := by
  have hname : b.variableName = a.variableName := by rw [h.rest]
  have hdefault : b.defaultVariable = a.defaultVariable := by rw [h.rest]
  have hmissing : b.missing = a.missing := by rw [h.rest]
  have hnamed : SameKind ((nonEmpty? a.variableName).bind env)
      ((nonEmpty? b.variableName).bind env') := by
    rw [hname]
    cases nonEmpty? a.variableName with
    | none => exact .unset
    | some name => exact henv name
  have hfound := h.explicit.nonEmpty?.or
    (hnamed.nonEmpty?.or (henv a.defaultVariable).nonEmpty?)
  simp only [resolve, hdefault, hmissing]
  generalize (nonEmpty? a.explicit).or _ = found at hfound ⊢
  generalize (nonEmpty? b.explicit).or _ = found' at hfound ⊢
  cases hfound with
  | unset => exact .inr ⟨_, rfl, rfl⟩
  | empty => exact .inl ⟨_, _, rfl, rfl⟩
  | given _ _ => exact .inl ⟨_, _, rfl, rfl⟩

def Request.unsigned (r : Request) : Request :=
  { r with bearer := "" }

def PendingCall.unsigned (c : PendingCall) : PendingCall :=
  { c with request := c.request.unsigned }

def WriteStep.unsigned : WriteStep → WriteStep
  | .done => .done
  | .remote call => .remote call.unsigned

theorem WriteStep.cases_of_unsigned {a a' : Except Error WriteStep}
    (h : a.map unsigned = a'.map unsigned) :
    (∃ err, a = .error err ∧ a' = .error err) ∨ (a = .ok .done ∧ a' = .ok .done) ∨
      ∃ c c', a = .ok (.remote c) ∧ a' = .ok (.remote c') ∧ c.unsigned = c'.unsigned := by
  cases a with
  | error err =>
    cases a' with
    | error err' => exact .inl ⟨err, rfl, congrArg Except.error (Except.error.inj h).symm⟩
    | ok step' => cases h
  | ok step =>
    cases a' with
    | error err' => cases h
    | ok step' =>
      have hstep : step.unsigned = step'.unsigned := Except.ok.inj h
      cases step with
      | done =>
        cases step' with
        | done => exact .inr (.inl ⟨rfl, rfl⟩)
        | remote c' => cases hstep
      | remote c =>
        cases step' with
        | done => cases hstep
        | remote c' => exact .inr (.inr ⟨c, c', rfl, rfl, WriteStep.remote.inj hstep⟩)

def Effect.unsigned : Effect → Effect
  | .posted request => .posted request.unsigned
  | .ran invocation => .ran invocation

/-- Remote services that need a secret for nothing but the bearer of a call. -/
class Discreet (S : Type) [RemoteService S] where
  /-- Settings that differ in the explicit secret only, which is of the same kind. -/
  Alike : S → S → Prop
  merge : ∀ (r r' : S) (p : Patch), Alike r r' →
    Alike (RemoteService.merge r p) (RemoteService.merge r' p)
  compose : ∀ (r r' : S) (env env' : Environment) (data : Bytes), Alike r r' →
    AlikeEnvironments env env' →
      (RemoteService.compose r env data).map (fun call => (call.1.unsigned, call.2)) =
        (RemoteService.compose r' env' data).map fun call => (call.1.unsigned, call.2)
  summarize : ∀ (r r' : S) (limit : Option Int) (raw : Bytes), Alike r r' →
    RemoteService.summarize r limit raw = RemoteService.summarize r' limit raw

structure SearchSettings.Alike (r r' : SearchSettings) : Prop where
  secret : r.secret.Alike r'.secret
  rest : r' = { r with secret := r'.secret }

structure SummarySettings.Alike (r r' : SummarySettings) : Prop where
  secret : r.secret.Alike r'.secret
  rest : r' = { r with secret := r'.secret }

theorem SecretSource.Alike.merge {a b : SecretSource} (h : a.Alike b)
    (explicit variableName : Option String) :
    Alike { a with explicit := explicit.or a.explicit
                   variableName := variableName.or a.variableName }
      { b with explicit := explicit.or b.explicit
               variableName := variableName.or b.variableName } := by
  constructor
  · exact (SameKind.refl explicit).or h.explicit
  · rw [h.rest]

instance : Discreet SearchSettings where
  Alike := SearchSettings.Alike
  merge r r' p h := by
    constructor
    · exact h.secret.merge _ _
    · rw [h.rest]
      rfl
  compose r r' env env' data h henv := by
    change (r.compose env data).map _ = (r'.compose env' data).map _
    have hparse : r'.parse data = r.parse data := by rw [h.rest]; rfl
    have hwait : r'.waitTime = r.waitTime := by rw [h.rest]; rfl
    have hurl : r'.url = r.url := by rw [h.rest]
    simp only [SearchSettings.compose, hparse]
    cases r.parse data with
    | error err => rfl
    | ok asked =>
      rcases SecretSource.resolve_alike h.secret henv with
        ⟨secret, secret', hs, hs'⟩ | ⟨err, hs, hs'⟩
      · simp only [hs, hs', bind, Except.bind, pure, Except.pure, Except.map, Request.unsigned,
          hwait, hurl]
      · simp only [hs, hs', bind, Except.bind, Except.map]
  summarize r r' limit raw h := by
    rw [h.rest]
    rfl

instance : Discreet SummarySettings where
  Alike := SummarySettings.Alike
  merge r r' p h := by
    constructor
    · exact h.secret.merge _ _
    · rw [h.rest]
      rfl
  compose r r' env env' data h henv := by
    change (r.compose env data).map _ = (r'.compose env' data).map _
    have hbody (text : String) (format : Option String) :
        r'.conversation text format = r.conversation text format := by rw [h.rest]; rfl
    have hwait : r'.waitTime = r.waitTime := by rw [h.rest]; rfl
    have hurl : r'.url = r.url := by rw [h.rest]
    simp only [SummarySettings.compose]
    cases SummarySettings.parse data with
    | error err => rfl
    | ok asked =>
      rcases SecretSource.resolve_alike h.secret henv with
        ⟨secret, secret', hs, hs'⟩ | ⟨err, hs, hs'⟩
      · simp only [hs, hs', bind, Except.bind, pure, Except.pure, Except.map, Request.unsigned,
          hwait, hurl, hbody]
      · simp only [hs, hs', bind, Except.bind, Except.map]
  summarize r r' limit raw _ := rfl

inductive Report where
  | answer (a : Answer)
  | begun (step : WriteStep)

def Report.unsigned : Report → Report
  | .answer a => .answer a
  | .begun step => .begun step.unsigned

/-- A move with what it answers and what it asks of the surroundings. -/
def Session.outcome {σ : Type} [Endpoint σ] (w : Session σ) (m : Services × Move) :
    Outcome (Session σ) Report :=
  match m.2 with
  | .use operation =>
    ((operation.perform m.1 w.endpoint).mapAnswer .answer).mapState fun endpoint =>
      { w with endpoint }
  | .begin path data =>
    let begun := Endpoint.beginWrite m.1 w.endpoint path data
    (begun.mapAnswer .begun).mapState fun endpoint =>
      { endpoint, calls := w.calls ++ begun.call?.toList }
  | .finish number reply =>
    match w.calls[number]? with
    | none => { answer := .ok (.answer .done), state := w }
    | some call =>
      ((Endpoint.finishWrite m.1 w.endpoint call reply).mapAnswer fun _ => .answer .done).mapState
        fun endpoint => { w with endpoint }

structure Twin where
  move : Move
  one : Services
  other : Services

def Twin.first (t : Twin) : Services × Move := (t.one, t.move)

def Twin.second (t : Twin) : Services × Move := (t.other, t.move)

/-- Surroundings that an eager endpoint can tell apart by secrets and by the replies to calls. -/
structure Services.Alike (s s' : Services) : Prop where
  now : s'.now = s.now
  env : AlikeEnvironments s.env s'.env

/-- The calls that a move makes get the same reply in both runs. -/
def SameReply {σ α : Type} (s s' : Services) (o o' : Outcome σ α) : Prop :=
  ∀ r r', .posted r ∈ o.effects → .posted r' ∈ o'.effects → s.post r = s'.post r'

def AnsweredAlike {σ : Type} [Endpoint σ] (w w' : Session σ) : List Twin → Prop
  | [] => True
  | t :: later =>
    SameReply t.one t.other (w.outcome t.first) (w'.outcome t.second) ∧
      AnsweredAlike (w.outcome t.first).state (w'.outcome t.second).state later

section

variable {S : Type} [RemoteService S] [Discreet S]

/-- Endpoints that differ in the explicit secret only, which is of the same kind. -/
structure Eager.Alike (e e' : Eager S) : Prop where
  settings : Discreet.Alike e.settings e'.settings
  cache : e'.cache = e.cache
  active : e'.active = e.active

/-- Sessions whose endpoints are alike and whose calls differ in their bearers only. -/
structure Session.Alike (w w' : Session (Eager S)) : Prop where
  endpoint : w.endpoint.Alike w'.endpoint
  calls : w.calls.map PendingCall.unsigned = w'.calls.map PendingCall.unsigned

/-- Results of operations that differ in the bearers of calls only. -/
structure Outcome.Alike {α : Type} (o o' : Outcome (Eager S) α) : Prop where
  answer : o.answer = o'.answer
  effects : o.effects.map Effect.unsigned = o'.effects.map Effect.unsigned
  state : o.state.Alike o'.state

namespace Eager

variable {s s' : Services} {e e' : Eager S}

theorem Alike.submit (h : e.Alike e') (data : Bytes) :
    Alike { e with cache := e.cache.submit data } { e' with cache := e'.cache.submit data } :=
  ⟨h.settings, congrArg (ResponseCache.submit · data) h.cache, h.active⟩

theorem Alike.install (h : e.Alike e') (now : Time.Instant) (limit : Option Int) (body : String) :
    (e.install now limit body).Alike (e'.install now limit body) := by
  refine ⟨h.settings, ?_, h.active⟩
  simp only [Eager.install, Discreet.summarize _ _ _ _ h.settings, h.cache]

theorem Alike.configure (h : e.Alike e') (document : Option String) :
    Outcome.Alike (e.configure document) (e'.configure document) := by
  cases hp : Patch.parse document with
  | error err =>
    rw [configure_refused hp, configure_refused hp]
    exact ⟨rfl, rfl, h⟩
  | ok p =>
    rw [configure_merged hp, configure_merged hp]
    exact ⟨rfl, rfl, Discreet.merge _ _ p h.settings, h.cache, rfl⟩

theorem Alike.beginWrite (h : e.Alike e') (hs : s.Alike s') (path : String) (data : Bytes) :
    Outcome.Alike ((e.beginWrite s path data).mapAnswer WriteStep.unsigned)
      ((e'.beginWrite s' path data).mapAnswer WriteStep.unsigned) := by
  have hstep (composed : Except Error (Request × Option Int)) (generation : Nat) :
      (composed.map fun call => WriteStep.remote
          { request := call.1, resultLimit := call.2, generation }).map WriteStep.unsigned =
        (composed.map fun call => (call.1.unsigned, call.2)).map fun call =>
          WriteStep.remote { request := call.1, resultLimit := call.2, generation } := by
    cases composed <;> rfl
  have hcompose := Discreet.compose _ _ _ _ data h.settings hs.env
  simp only [Eager.beginWrite, profile, EagerProfile.accept_eq _ e.cache,
    EagerProfile.accept_eq _ e'.cache]
  cases (RemoteService.profile S).accept {} path data (RemoteService.missing S) with
  | error err => exact ⟨rfl, rfl, h⟩
  | ok cache =>
    refine ⟨?_, rfl, h.submit data⟩
    change ((RemoteService.compose _ s.env data).map _).map _ =
      ((RemoteService.compose _ s'.env data).map _).map _
    rw [hstep, hstep, h.cache, hcompose]

theorem Alike.finishWrite (h : e.Alike e') (hs : s.Alike s') {call call' : PendingCall}
    (hcall : call.unsigned = call'.unsigned) (reply : Reply) :
    Outcome.Alike (e.finishWrite s call reply) (e'.finishWrite s' call' reply) := by
  have hgeneration : call'.generation = call.generation :=
    (congrArg PendingCall.generation hcall).symm
  have hlimit : call'.resultLimit = call.resultLimit :=
    (congrArg PendingCall.resultLimit hcall).symm
  cases reply with
  | error err => exact ⟨rfl, rfl, h⟩
  | ok body =>
    simp only [Eager.finishWrite, h.cache, hgeneration, hlimit, hs.now]
    split
    · cases s.now with
      | error err => exact ⟨rfl, rfl, h⟩
      | ok now => exact ⟨rfl, rfl, h.install now _ body⟩
    · exact ⟨rfl, rfl, h⟩

theorem Alike.write (h : e.Alike e') (hs : s.Alike s') (path : String) (data : Bytes)
    (hreply : SameReply s s' (Endpoint.write s e path data) (Endpoint.write s' e' path data)) :
    Outcome.Alike (Endpoint.write s e path data) (Endpoint.write s' e' path data) := by
  have hbegun := h.beginWrite hs path data
  have heffects := e.beginWrite_effects s path data
  have heffects' := e'.beginWrite_effects s' path data
  simp only [Endpoint.write, Endpoint.beginWrite] at hreply ⊢
  -- Both writes fail, or both are done, or both call; only then a reply comes in.
  rcases WriteStep.cases_of_unsigned hbegun.answer with
    ⟨err, ha, ha'⟩ | ⟨ha, ha'⟩ | ⟨call, call', ha, ha', hcall⟩
  · rw [ha, ha']
    exact ⟨rfl, hbegun.effects, hbegun.state⟩
  · rw [ha, ha']
    exact ⟨rfl, hbegun.effects, hbegun.state⟩
  · simp only [ha, ha', heffects, heffects', dispatch, Endpoint.connected, Endpoint.finishWrite,
      finishWrite_effects, ↓reduceIte, List.nil_append, List.append_nil] at hreply ⊢
    have hpost : s.post call.request = s'.post call'.request :=
      hreply _ _ (List.mem_singleton.2 rfl) (List.mem_singleton.2 rfl)
    have hfinished := hbegun.state.finishWrite hs hcall (s.post call.request)
    rw [← hpost]
    have hsent : Effect.unsigned (.posted call.request) = .unsigned (.posted call'.request) :=
      congrArg (fun c : PendingCall => Effect.posted c.request) hcall
    exact ⟨hfinished.answer, congrArg (fun sent => [sent]) hsent, hfinished.state⟩

theorem Alike.perform (h : e.Alike e') (hs : s.Alike s') (operation : Operation)
    (hreply : SameReply s s' (operation.perform s e) (operation.perform s' e')) :
    Outcome.Alike (operation.perform s e) (operation.perform s' e') := by
  have hmap {α : Type} {f : α → Answer} {o o' : Outcome (Eager S) α}
      (ho : Outcome.Alike o o') : Outcome.Alike (o.mapAnswer f) (o'.mapAnswer f) :=
    ⟨congrArg (Except.map f) ho.answer, ho.effects, ho.state⟩
  cases operation with
  | configure document => exact hmap (h.configure document)
  | shutdown => exact ⟨rfl, rfl, h.settings, h.cache, rfl⟩
  | write path data => exact hmap (h.write hs path data hreply)
  | stat path =>
    refine ⟨?_, rfl, h⟩
    simp only [Operation.perform, Endpoint.stat, profile, h.cache, hs.now]
  | list path =>
    refine ⟨?_, rfl, h⟩
    simp only [Operation.perform, Endpoint.list, profile, h.cache, hs.now]
  | read path offset size =>
    refine ⟨?_, rfl, h⟩
    simp only [Operation.perform, Endpoint.read, Outcome.mapAnswer, profile, h.cache]

end Eager

namespace Session

variable {s s' : Services} {w w' : Session (Eager S)}

/-- What a move shows, apart from the bearers of calls. -/
structure ShowsAlike (o o' : Outcome (Session (Eager S)) Report) : Prop where
  answer : o.answer.map Report.unsigned = o'.answer.map Report.unsigned
  effects : o.effects.map Effect.unsigned = o'.effects.map Effect.unsigned
  state : o.state.Alike o'.state

theorem Alike.begin (h : w.Alike w') (hs : s.Alike s') (path : String) (data : Bytes) :
    ShowsAlike (w.outcome (s, .begin path data)) (w'.outcome (s', .begin path data)) := by
  have hbegun := h.endpoint.beginWrite hs path data
  have hcalls : (w.endpoint.beginWrite s path data).call?.toList.map PendingCall.unsigned =
      (w'.endpoint.beginWrite s' path data).call?.toList.map PendingCall.unsigned := by
    simp only [Outcome.call?]
    rcases WriteStep.cases_of_unsigned hbegun.answer with
      ⟨err, ha, ha'⟩ | ⟨ha, ha'⟩ | ⟨call, call', ha, ha', hcall⟩
    · rw [ha, ha']
    · rw [ha, ha']
    · rw [ha, ha']
      exact congrArg (fun c => [c]) hcall
  have hreport (answer : Except Error WriteStep) : (answer.map Report.begun).map Report.unsigned =
      (answer.map WriteStep.unsigned).map Report.begun := by cases answer <;> rfl
  constructor
  · have hanswer : (w.endpoint.beginWrite s path data).answer.map WriteStep.unsigned = _ :=
      hbegun.answer
    change ((w.endpoint.beginWrite s path data).answer.map Report.begun).map Report.unsigned =
      ((w'.endpoint.beginWrite s' path data).answer.map Report.begun).map Report.unsigned
    rw [hreport, hreport, hanswer]
    rfl
  · exact hbegun.effects
  · refine ⟨hbegun.state, ?_⟩
    change (w.calls ++ _).map _ = (w'.calls ++ _).map _
    rw [List.map_append, List.map_append, h.calls]
    exact congrArg _ hcalls

theorem Alike.call (h : w.Alike w') (number : Nat) :
    w.calls[number]?.map PendingCall.unsigned = w'.calls[number]?.map PendingCall.unsigned := by
  rw [← List.getElem?_map, ← List.getElem?_map, h.calls]

theorem Alike.finish (h : w.Alike w') (hs : s.Alike s') (number : Nat) (reply : Reply) :
    ShowsAlike (w.outcome (s, .finish number reply)) (w'.outcome (s', .finish number reply)) := by
  have hcall := h.call number
  simp only [outcome]
  cases hn : w.calls[number]? with
  | none =>
    cases hn' : w'.calls[number]? with
    | none => exact ⟨rfl, rfl, h⟩
    | some call' =>
      rw [hn, hn'] at hcall
      cases hcall
  | some call =>
    cases hn' : w'.calls[number]? with
    | none =>
      rw [hn, hn'] at hcall
      cases hcall
    | some call' =>
      rw [hn, hn'] at hcall
      have hfinished := h.endpoint.finishWrite hs (Option.some.inj hcall) reply
      refine ⟨?_, hfinished.effects, hfinished.state, h.calls⟩
      exact congrArg (fun a => (a.map fun _ => Report.answer .done).map Report.unsigned)
        hfinished.answer

theorem Alike.outcome {t : Twin} (h : w.Alike w') (hs : t.one.Alike t.other)
    (hreply : SameReply t.one t.other (w.outcome t.first) (w'.outcome t.second)) :
    ShowsAlike (w.outcome t.first) (w'.outcome t.second) := by
  obtain ⟨move, s, s'⟩ := t
  cases move with
  | begin path data => exact h.begin hs path data
  | finish number reply => exact h.finish hs number reply
  | use operation =>
    have hperformed := h.endpoint.perform hs operation hreply
    refine ⟨?_, hperformed.effects, hperformed.state, h.calls⟩
    exact congrArg (fun a => (a.map Report.answer).map Report.unsigned) hperformed.answer

end Session

def unsignedEntry (entry : Except Error Report × List Effect) :
    Except Error Report × List Effect :=
  (entry.1.map Report.unsigned, entry.2.map Effect.unsigned)

theorem Session.Alike.run {w w' : Session (Eager S)} (h : w.Alike w') {twins : List Twin}
    (hs : ∀ t ∈ twins, t.one.Alike t.other) (hreply : AnsweredAlike w w' twins) :
    let one := account Session.outcome w (twins.map Twin.first)
    let other := account Session.outcome w' (twins.map Twin.second)
    one.entries.map unsignedEntry = other.entries.map unsignedEntry ∧
      one.state.Alike other.state := by
  intro one other
  -- A move that both runs make keeps the sessions alike and shows the same.
  induction twins generalizing w w' with
  | nil => exact ⟨rfl, h⟩
  | cons t twins ih =>
    have hstep := h.outcome (hs t (List.mem_cons_self ..)) hreply.1
    have htail := ih hstep.state (fun t' ht' => hs t' (List.mem_cons_of_mem _ ht')) hreply.2
    have hentry : unsignedEntry ((w.outcome t.first).answer, (w.outcome t.first).effects) =
        unsignedEntry ((w'.outcome t.second).answer, (w'.outcome t.second).effects) :=
      Prod.ext hstep.answer hstep.effects
    exact ⟨List.cons_eq_cons.2 ⟨hentry, htail.1⟩, htail.2⟩

/-- What two accounts share if nobody can tell them apart by anything but bearers. -/
structure ShowSame (one other : Account (Session (Eager S)) Report) : Prop where
  entries : one.entries.map unsignedEntry = other.entries.map unsignedEntry
  cache : one.state.endpoint.cache = other.state.endpoint.cache
  active : one.state.endpoint.active = other.state.endpoint.active
  calls : one.state.calls.map PendingCall.unsigned = other.state.calls.map PendingCall.unsigned
  name : Endpoint.name one.state.endpoint = Endpoint.name other.state.endpoint
  readme : Endpoint.readme one.state.endpoint = Endpoint.readme other.state.endpoint
  validate : ∀ document, Endpoint.validate one.state.endpoint document =
    Endpoint.validate other.state.endpoint document
  changeStructure : ∀ change path, Endpoint.changeStructure one.state.endpoint change path =
    Endpoint.changeStructure other.state.endpoint change path

/-- Endpoints that show the same as long as they are used in the same way. -/
def SecretConfined (e e' : Eager S) : Prop :=
  ∀ twins : List Twin, (∀ t ∈ twins, t.one.Alike t.other) →
    AnsweredAlike (.start e) (.start e') twins →
      ShowSame (account Session.outcome (.start e) (twins.map Twin.first))
        (account Session.outcome (.start e') (twins.map Twin.second))

theorem Eager.Alike.confined {e e' : Eager S} (h : e.Alike e') : SecretConfined e e' := by
  intro twins hs hreply
  have hstart : (Session.start e).Alike (Session.start e') := ⟨h, rfl⟩
  obtain ⟨hentries, hstate⟩ := hstart.run hs hreply
  constructor
  case entries => exact hentries
  case cache => exact hstate.endpoint.cache.symm
  case active => exact hstate.endpoint.active.symm
  case calls => exact hstate.calls
  -- What an endpoint says of itself and what it refuses depend on its kind alone.
  case name => rfl
  case readme => rfl
  case validate => exact fun _ => rfl
  case changeStructure => exact fun _ _ => rfl

end

/-- The secret of a search or summary endpoint can be told from nothing but the bearers of its
calls. -/
theorem secret_reaches_bearer_only :
    (∀ e e' : SearchEndpoint, e.Alike e' → SecretConfined e e') ∧
      ∀ e e' : SummaryEndpoint, e.Alike e' → SecretConfined e e' := by
  constructor
  · intro e e' h
    exact h.confined
  · intro e e' h
    exact h.confined

/-- Two keys, each with a transport that takes no other one: the calls are signed with them, and
all else is the same. -/
theorem search_keys_not_shown :
    let keyed (key : String) : SearchEndpoint :=
      { settings := { secret := { ({} : SearchSettings).secret with explicit := some key } } }
    let serving (key : String) : Services :=
      { Services.steady ⟨0⟩ (.ok "\x7b\x7d") .crashed with
        post := fun r => if r.bearer = key then .ok "\x7b\x7d" else .error .noTransport }
    let twin (move : Move) : Twin := { move, one := serving "a", other := serving "bb" }
    let twins := [twin (.use (.write "/request" [97])), twin (.begin "/request" [98]),
      twin (.finish 0 (.error (.transport "down"))), twin (.use (.read "/response.json" 0 9))]
    let one := account Session.outcome (.start (keyed "a")) (twins.map Twin.first)
    let other := account Session.outcome (.start (keyed "bb")) (twins.map Twin.second)
    one.entries.map unsignedEntry = other.entries.map unsignedEntry ∧
      one.state.endpoint.cache = other.state.endpoint.cache ∧
      one.state.calls.map (fun call => call.request.bearer) = ["a"] ∧
      other.state.calls.map (fun call => call.request.bearer) = ["bb"] := by
  intro keyed serving twin twins one other
  have hkeyed : (keyed "a").Alike (keyed "bb") :=
    ⟨⟨⟨.given (by decide) (by decide), rfl⟩, rfl⟩, rfl, rfl⟩
  have hserving : ∀ t ∈ twins, t.one.Alike t.other := by
    have htwin (move : Move) : (twin move).one.Alike (twin move).other :=
      ⟨rfl, fun name => .refl _⟩
    simp only [twins, List.forall_mem_cons, htwin, List.not_mem_nil, false_implies, implies_true,
      and_self]
  have hanswered : AnsweredAlike (.start (keyed "a")) (.start (keyed "bb")) twins := by
    refine ⟨?_, ?_, ?_, ?_, trivial⟩
    · intro r r' hr hr'
      obtain rfl := Effect.posted.inj (List.mem_singleton.1 hr)
      obtain rfl := Effect.posted.inj (List.mem_singleton.1 hr')
      rfl
    all_goals exact fun r r' hr => nomatch hr
  have hsame := secret_reaches_bearer_only.1 _ _ hkeyed twins hserving hanswered
  exact ⟨hsame.entries, hsame.cache, rfl, rfl⟩

end FileEndpoints

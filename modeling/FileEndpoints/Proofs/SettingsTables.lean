import FileEndpoints.Proofs.SettingsHistory
import FileEndpoints.Proofs.SkillSteps

namespace FileEndpoints

open Time (Instant)

theorem Patch.firstString?_singleton (p : Patch) (key : String) :
    p.firstString? [key] = p.string? key :=
  p.first?_singleton Json.asString? key

theorem or_eq_getD {α : Type} (o : Option α) (a : Option α) : o.or a = (o.map some).getD a := by
  cases o <;> rfl

/-- The settings of the search endpoint. No document changes where the built-in variable is. -/
def SearchSettings.table : List (Setting SearchSettings) :=
  [{ view r := r.secret.explicit, first := none, keys := ["api_key"], Reads := IsText some },
    { view r := r.secret.variableName, first := none, keys := ["api_key_env"]
      Reads := IsText some },
    { view r := r.url, first := "https://api.perplexity.ai/search", keys := ["endpoint"]
      Reads := IsText id },
    { view r := r.maxResults, first := 3, keys := ["default_max_results"], Reads := IsWhole id },
    { view r := r.timeout, first := 30000, keys := ["timeout_ms"], Reads := IsWhole id },
    { view r := r.secret.defaultVariable, first := "PERPLEXITY_API_KEY", keys := []
      Reads _ _ := False },
    { view r := r.secret.missing
      first := "PERPLEXITY_API_KEY is not set and no api_key provided", keys := []
      Reads _ _ := False }]

/-- The settings of the summary endpoint. Of two keys the first one that holds a string counts. -/
def SummarySettings.table : List (Setting SummarySettings) :=
  [{ view r := r.model, first := "gpt-4o-mini", keys := ["model", "openai_model"]
     Reads := IsText id },
    { view r := r.url, first := "https://api.openai.com/v1/chat/completions"
      keys := ["openai_endpoint", "endpoint"], Reads := IsText id },
    { view r := r.timeout, first := 120000, keys := ["timeout_ms"], Reads := IsWhole id },
    { view r := r.temperature, first := 0.2, keys := ["temperature"], Reads := IsNumber },
    { view r := r.systemPrompt, first := none, keys := ["system_prompt"], Reads := IsText some },
    { view r := r.secret.explicit, first := none, keys := ["openai_api_key", "api_key"]
      Reads := IsText some },
    { view r := r.secret.variableName, first := none
      keys := ["openai_api_key_env", "api_key_env"], Reads := IsText some },
    { view r := r.secret.defaultVariable, first := "OPENAI_API_KEY", keys := []
      Reads _ _ := False },
    { view r := r.secret.missing
      first := "OpenAI API key not set (set OPENAI_API_KEY or openai_api_key(_env))", keys := []
      Reads _ _ := False }]

/-- What documents and writes can set of a skill endpoint. -/
structure SkillSettings where
  skillName : String
  metadata : Bytes
  instructions : Bytes
  ttl : Nat

def Skill.settings (k : Skill) : SkillSettings :=
  { skillName := k.skillName, metadata := k.metadata, instructions := k.instructions, ttl := k.ttl }

/-- The settings of a skill endpoint. Two of them are files as well. -/
def SkillSettings.table : List (Setting SkillSettings) :=
  [{ view := skillName, first := "skillfs-mvp", keys := ["skill_name"], Reads := IsText id },
    { view := metadata, first := Text.encode "owner=unknown", keys := ["metadata"]
      Reads := IsText Text.encode
      Writes path data a := path = "/metadata" ∧ a = data },
    { view := instructions
      first := Text.encode "Describe how to process incoming payloads.", keys := ["instructions"]
      Reads := IsText Text.encode
      Writes path data a := path = "/instructions" ∧ a = data },
    { view := ttl, first := 3600, keys := ["cache_ttl_seconds"]
      Reads := IsWhole fun n => (max n 0).toNat }]

theorem SearchSettings.table_merged (p : Patch) (r : SearchSettings) :
    ∀ x ∈ table, x.Merged p r (merge r p) := by
  simp only [table, List.forall_mem_cons, List.not_mem_nil, false_implies, implies_true, and_true]
  refine ⟨?_, ?_, ?_, ?_, ?_, ?_, ?_⟩
  · exact Setting.merged_text rfl (or_eq_getD ..)
  · exact Setting.merged_text rfl (or_eq_getD ..)
  · apply Setting.merged_text rfl
    rw [Patch.firstString?_singleton, Option.map_id]
    rfl
  · exact Setting.merged_whole rfl rfl (by rw [Option.map_id]; rfl)
  · exact Setting.merged_whole rfl rfl (by rw [Option.map_id]; rfl)
  · exact Setting.merged_fixed rfl rfl rfl
  · exact Setting.merged_fixed rfl rfl rfl

theorem SummarySettings.table_merged (p : Patch) (r : SummarySettings) :
    ∀ x ∈ table, x.Merged p r (merge r p) := by
  simp only [table, List.forall_mem_cons, List.not_mem_nil, false_implies, implies_true, and_true]
  refine ⟨?_, ?_, ?_, ?_, ?_, ?_, ?_, ?_, ?_⟩
  · exact Setting.merged_text rfl (by rw [Option.map_id]; rfl)
  · exact Setting.merged_text rfl (by rw [Option.map_id]; rfl)
  · exact Setting.merged_whole rfl rfl (by rw [Option.map_id]; rfl)
  · refine ⟨Float, Json.asFloat?, id, isNumber_iff, ?_⟩
    rw [Patch.first?_singleton, Option.map_id]
    rfl
  · exact Setting.merged_text rfl (or_eq_getD ..)
  · exact Setting.merged_text rfl (or_eq_getD ..)
  · exact Setting.merged_text rfl (or_eq_getD ..)
  · exact Setting.merged_fixed rfl rfl rfl
  · exact Setting.merged_fixed rfl rfl rfl

theorem SkillSettings.table_merged (p : Patch) (k : Skill) :
    ∀ x ∈ table, x.Merged p k.settings (k.merge p).settings := by
  simp only [table, List.forall_mem_cons, List.not_mem_nil, false_implies, implies_true, and_true]
  refine ⟨?_, ?_, ?_, ?_⟩
  · apply Setting.merged_text rfl
    rw [Patch.firstString?_singleton, Option.map_id]
    rfl
  · apply Setting.merged_text rfl
    rw [Patch.firstString?_singleton]
    rfl
  · apply Setting.merged_text rfl
    rw [Patch.firstString?_singleton]
    rfl
  · refine Setting.merged_whole rfl rfl ?_
    have hmax : (fun n : Int => (max n 0).toNat) = Int.toNat := by
      funext n
      omega
    rw [hmax]
    rfl

namespace Skill

/-- What a write leaves of the settings of a skill endpoint. -/
inductive Edited (r : SkillSettings) (path : String) (data : Bytes) : SkillSettings → Prop
  | metadata (hp : path = "/metadata") : Edited r path data { r with metadata := data }
  | instructions (hp : path = "/instructions") : Edited r path data { r with instructions := data }
  | other (hm : path ≠ "/metadata") (hi : path ≠ "/instructions") : Edited r path data r

theorem beginWrite_edited (s : Services) (k : Skill) (path : String) (data : Bytes) :
    Edited k.settings path data (k.beginWrite s path data).state.settings := by
  simp only [beginWrite]
  cases hf : tree.writable path with
  | error err =>
    apply Edited.other
    · rintro rfl
      cases hf
    · rintro rfl
      cases hf
  | ok f =>
    obtain ⟨hpath, -⟩ := Tree.path_of_writable hf
    cases f with
    | metadata =>
      simp only [Outcome.timed]
      cases s.clock <;> exact .metadata hpath
    | instructions =>
      simp only [Outcome.timed]
      cases s.clock <;> exact .instructions hpath
    | _ =>
      have hqueue : (k.queue s data).state.settings = k.settings := by
        simp only [queue, Outcome.timed]
        cases isBlankPayload data with
        | true => rfl
        | false => cases s.clock <;> rfl
      simp only [hqueue]
      apply Edited.other <;> exact hpath ▸ by decide

theorem configure_refused {document : Option String} {err : Error}
    (h : Patch.parse document = .error err) (s : Services) (k : Skill) :
    k.configure s document = { answer := .error err, state := k } := by
  simp only [configure, h]

theorem configure_settings {document : Option String} {p : Patch}
    (h : Patch.parse document = .ok p) (s : Services) (k : Skill) :
    (k.configure s document).state.settings = (k.merge p).settings := by
  simp only [configure, h, Outcome.timed]
  cases s.clock <;> rfl

theorem configure_answer {document : Option String} {p : Patch}
    (h : Patch.parse document = .ok p) {s : Services} {now : Instant} (hc : s.clock = .ok now)
    (k : Skill) : (k.configure s document).answer = .ok () := by
  simp only [configure, h, hc, Outcome.timed]

theorem shutdown_settings (s : Services) (k : Skill) :
    (k.shutdown s).state.settings = k.settings := by
  simp only [shutdown, Outcome.timed]
  cases s.clock <;> rfl

theorem runOn_settings (s : Services) (k : Skill) (now : Instant) (data : Bytes) :
    (k.runOn s now data).state.settings = k.settings := by
  simp only [runOn]
  split <;> rfl

theorem currentResult_settings (s : Services) (k : Skill) :
    (k.currentResult s).state.settings = k.settings := by
  simp only [currentResult]
  split
  · rfl
  · simp only [Outcome.timed]
    cases s.clock with
    | error err => rfl
    | ok now =>
      simp only
      split
      · rfl
      · exact runOn_settings s k now _

theorem read_settings (s : Services) (k : Skill) (path : String) (offset size : Int) :
    (k.read s path offset size).state.settings = k.settings := by
  simp only [read]
  split
  · rfl
  · rename_i f _
    cases f with
    | result => exact k.currentResult_settings s
    | execute => exact k.currentResult_settings s
    | _ => rfl

end Skill

theorem SkillSettings.table_edited {r r' : SkillSettings} {path : String} {data : Bytes}
    (h : Skill.Edited r path data r') : ∀ x ∈ table, x.Follows (.begin path data) r r' := by
  simp only [table, List.forall_mem_cons, List.not_mem_nil, false_implies, implies_true, and_true]
  refine ⟨?_, ?_, ?_, ?_⟩
  · cases h <;> exact .inr ⟨rfl, fun _ => id⟩
  · cases h with
    | metadata hp => exact .inl ⟨hp, rfl⟩
    | instructions hp => exact .inr ⟨rfl, fun _ hw => absurd (hp.symm.trans hw.1) (by decide)⟩
    | other hm hi => exact .inr ⟨rfl, fun _ hw => hm hw.1⟩
  · cases h with
    | metadata hp => exact .inr ⟨rfl, fun _ hw => absurd (hp.symm.trans hw.1) (by decide)⟩
    | instructions hp => exact .inl ⟨hp, rfl⟩
    | other hm hi => exact .inr ⟨rfl, fun _ hw => hi hw.1⟩
  · cases h <;> exact .inr ⟨rfl, fun _ => id⟩

theorem Session.skill_follows {x : Setting SkillSettings} (hx : x ∈ SkillSettings.table)
    (w : Session Skill) (s : Services) (m : Move) :
    x.Follows m w.endpoint.settings (w.step s m).endpoint.settings := by
  have hkept {m : Move} {r' : SkillSettings} (hr : r' = w.endpoint.settings)
      (hm : ∀ a, ¬ x.Gives m a) : x.Follows m w.endpoint.settings r' :=
    .inr ⟨congrArg x.view hr, hm⟩
  rw [Session.skill_step]
  cases m with
  | begin path data =>
    exact SkillSettings.table_edited (w.endpoint.beginWrite_edited s path data) x hx
  | finish number reply => exact hkept rfl fun _ => id
  | use operation =>
    cases operation with
    | configure document =>
      change x.Follows _ _ (w.endpoint.configure s document).state.settings
      cases hp : Patch.parse document with
      | error err =>
        rw [Skill.configure_refused hp]
        exact Setting.follows_refused hp x _
      | ok p =>
        rw [Skill.configure_settings hp]
        exact Setting.follows_merged hp (SkillSettings.table_merged p w.endpoint x hx)
    | write path data =>
      exact SkillSettings.table_edited (w.endpoint.beginWrite_edited s path data) x hx
    | shutdown => exact hkept (w.endpoint.shutdown_settings s) fun _ => id
    | stat path => exact hkept rfl fun _ => id
    | list path => exact hkept rfl fun _ => id
    | read path offset size => exact hkept (w.endpoint.read_settings s path offset size) fun _ => id

/-- The settings that an endpoint holds are those of a table, and documents are merged into them one
after another. -/
structure MergesDocuments {σ R : Type} [Endpoint σ] (fresh : σ → Prop) (held : σ → R)
    (table : List (Setting R)) : Prop where
  /-- A malformed document is refused, and changes nothing at all. -/
  refused : ∀ (s : Services) (e : σ) (document : Option String), Malformed document →
    Endpoint.configure s e document = { answer := .error .malformedSettings, state := e }
  accepted : ∀ (s : Services) (e : σ) (document : Option String), ¬ Malformed document →
    (∃ now, s.clock = .ok now) → (Endpoint.configure s e document).answer = .ok ()
  settled : ∀ e, fresh e → ∀ moves : List (Services × Move), ∀ x ∈ table,
    Settled x.Gives x.first (moves.map Prod.snd)
      (x.view (held ((Session.start e).run moves).endpoint))
  /-- Keys that are not those of a setting leave it, and so do keys of another type. -/
  untouched : ∀ (s : Services) (e : σ) (document : Option String), ∀ x ∈ table,
    (∀ a, ¬ x.Gives (.use (.configure document)) a) →
      x.view (held (Endpoint.configure s e document).state) = x.view (held e)
  complete : ∀ r r', (∀ x ∈ table, x.view r = x.view r') → r = r'

/-- It is enough to look at one move at a time. -/
theorem MergesDocuments.of_follows {σ R : Type} [Endpoint σ] {fresh : σ → Prop} {held : σ → R}
    {table : List (Setting R)}
    (hrefused : ∀ (s : Services) (e : σ) (document : Option String) (err : Error),
      Patch.parse document = .error err →
        Endpoint.configure s e document = { answer := .error err, state := e })
    (haccepted : ∀ (s : Services) (e : σ) (document : Option String) (p : Patch),
      Patch.parse document = .ok p → (∃ now, s.clock = .ok now) →
        (Endpoint.configure s e document).answer = .ok ())
    (hfirst : ∀ e, fresh e → ∀ x ∈ table, x.view (held e) = x.first)
    (hstep : ∀ x ∈ table, ∀ (w : Session σ) (s : Services) (m : Move),
      x.Follows m (held w.endpoint) (held (w.step s m).endpoint))
    (hcomplete : ∀ r r', (∀ x ∈ table, x.view r = x.view r') → r = r') :
    MergesDocuments fresh held table where
  refused s e document hm := by
    have hparsed := Patch.parse_parsed document
    cases hp : Patch.parse document with
    | error err =>
      rw [hp] at hparsed
      cases hparsed
      exact hrefused s e document _ hp
    | ok p =>
      rw [hp] at hparsed
      cases hparsed with
      | blank hwell _ => exact absurd hm hwell
      | holds hwell _ _ => exact absurd hm hwell
  accepted s e document hm hc := by
    have hparsed := Patch.parse_parsed document
    cases hp : Patch.parse document with
    | error err =>
      rw [hp] at hparsed
      cases hparsed with
      | malformed h => exact absurd h hm
    | ok p => exact haccepted s e document p hp hc
  settled e he moves x hx := by
    have hrun := Setting.settled_run (hstep x hx) (Session.start e) moves
    rw [← hfirst e he x hx]
    exact hrun
  untouched s e document x hx hnone :=
    (hstep x hx (Session.start e) s (.use (.configure document))).kept hnone
  complete := hcomplete

theorem MergesDocuments.eager {S : Type} [RemoteService S] {table : List (Setting S)}
    (hmerged : ∀ (p : Patch) (r : S), ∀ x ∈ table, x.Merged p r (RemoteService.merge r p))
    (hwrites : ∀ x ∈ table, x.Writes = fun _ _ _ => False)
    (hfirst : ∀ x ∈ table, x.view (RemoteService.initial : S) = x.first)
    (hcomplete : ∀ r r', (∀ x ∈ table, x.view r = x.view r') → r = r') :
    MergesDocuments (fun e : Eager S => e = Eager.create) Eager.settings table := by
  apply MergesDocuments.of_follows
  · intro s e document err hp
    exact Eager.configure_refused hp
  · intro s e document p hp _
    exact congrArg Outcome.answer (Eager.configure_merged hp)
  · rintro e rfl
    exact hfirst
  · intro x hx w s m
    exact (w.settingsStep s m).follows (fun p => hmerged p _ x hx) (hwrites x hx)
  · exact hcomplete

theorem SearchSettings.mergesDocuments :
    MergesDocuments (fun e : SearchEndpoint => e = Eager.create) Eager.settings table := by
  apply MergesDocuments.eager table_merged
  · simp only [table, List.forall_mem_cons, List.not_mem_nil, false_implies, implies_true,
      and_self]
  · simp only [table, List.forall_mem_cons, List.not_mem_nil, false_implies, implies_true,
      and_true]
    exact ⟨rfl, rfl, rfl, rfl, rfl, rfl, rfl⟩
  · rintro ⟨⟨_, _, _, _⟩, _, _, _⟩ ⟨⟨_, _, _, _⟩, _, _, _⟩
    simp only [table, List.forall_mem_cons, List.not_mem_nil, false_implies, implies_true,
      and_true]
    rintro ⟨rfl, rfl, rfl, rfl, rfl, rfl, rfl⟩
    rfl

theorem SummarySettings.mergesDocuments :
    MergesDocuments (fun e : SummaryEndpoint => e = Eager.create) Eager.settings table := by
  apply MergesDocuments.eager table_merged
  · simp only [table, List.forall_mem_cons, List.not_mem_nil, false_implies, implies_true,
      and_self]
  · simp only [table, List.forall_mem_cons, List.not_mem_nil, false_implies, implies_true,
      and_true]
    exact ⟨rfl, rfl, rfl, rfl, rfl, rfl, rfl, rfl, rfl⟩
  · rintro ⟨_, _, _, _, _, ⟨_, _, _, _⟩⟩ ⟨_, _, _, _, _, ⟨_, _, _, _⟩⟩
    simp only [table, List.forall_mem_cons, List.not_mem_nil, false_implies, implies_true,
      and_true]
    rintro ⟨rfl, rfl, rfl, rfl, rfl, rfl, rfl, rfl, rfl⟩
    rfl

theorem SkillSettings.mergesDocuments :
    MergesDocuments (fun k : Skill => ∃ created, k = Skill.create created) Skill.settings
      table := by
  apply MergesDocuments.of_follows
  · intro s k document err hp
    exact Skill.configure_refused hp s k
  · rintro s k document p hp ⟨now, hc⟩
    exact Skill.configure_answer hp hc k
  · rintro k ⟨created, rfl⟩
    simp only [table, List.forall_mem_cons, List.not_mem_nil, false_implies, implies_true,
      and_true]
    exact ⟨rfl, rfl, rfl, rfl⟩
  · intro x hx
    exact Session.skill_follows hx
  · rintro ⟨_, _, _, _⟩ ⟨_, _, _, _⟩
    simp only [table, List.forall_mem_cons, List.not_mem_nil, false_implies, implies_true,
      and_true]
    rintro ⟨rfl, rfl, rfl, rfl⟩
    rfl

/-- However an endpoint has been used, each of its settings is what the last document to give it a
value has made of it. -/
theorem settings_follow_documents :
    MergesDocuments (fun e : SearchEndpoint => e = Eager.create) Eager.settings
      SearchSettings.table ∧
    MergesDocuments (fun e : SummaryEndpoint => e = Eager.create) Eager.settings
      SummarySettings.table ∧
    MergesDocuments (fun k : Skill => ∃ created, k = Skill.create created) Skill.settings
      SkillSettings.table :=
  ⟨SearchSettings.mergesDocuments, SummarySettings.mergesDocuments, SkillSettings.mergesDocuments⟩

/-- A number that needs more than 64 signed bits leaves the time to live, and a malformed document
leaves all. -/
theorem mistyped_keys_leave_settings :
    let s := Services.steady ⟨0⟩ (.error .noTransport) (.completed "")
    let negative := some "\x7b\"cache_ttl_seconds\":-5,\"metadata\":\"m\"\x7d"
    let mistyped := some "\x7b\"cache_ttl_seconds\":9223372036854775808,\"metadata\":7\x7d"
    let moves := [(s, Move.use (.configure negative)), (s, .begin "/metadata" [120]),
      (s, .use (.configure mistyped)), (s, .use (.configure (some "\x7b")))]
    let k := ((Session.start (Skill.create ⟨0⟩)).run moves).endpoint
    k.ttl = 0 ∧ k.metadata = [120] ∧
      (∀ x ∈ SkillSettings.table,
        Settled x.Gives x.first (moves.map Prod.snd) (x.view k.settings)) ∧
      Malformed (some "\x7b") ∧
      k.configure s (some "\x7b") = { answer := .error .malformedSettings, state := k } ∧
      ¬ Malformed mistyped ∧ (k.configure s mistyped).answer = .ok () ∧
      (k.configure s mistyped).state.ttl = 0 := by
  intro s negative mistyped moves k
  obtain ⟨-, -, hskill⟩ := settings_follow_documents
  have hmalformed : Malformed (some "\x7b") := ⟨"\x7b", rfl, rfl, rfl⟩
  have hparse : Patch.parse mistyped = .ok ⟨[("cache_ttl_seconds",
      .num (.int 9223372036854775808)), ("metadata", .num (.int 7))]⟩ := rfl
  have hwell : ¬ Malformed mistyped := by
    have hparsed := Patch.parse_parsed mistyped
    rw [hparse] at hparsed
    cases hparsed with
    | holds hwell _ _ => exact hwell
  have httl : ∀ a, ¬ ∃ root, Holds mistyped root ∧
      FirstReading (IsWhole fun n => (max n 0).toNat) root ["cache_ttl_seconds"] a := by
    intro a ha
    cases (Patch.first?_iff hparse (isWhole_iff _) _ a).2 ha
  have hkept := hskill.untouched s k mistyped
    { view := SkillSettings.ttl, first := 3600, keys := ["cache_ttl_seconds"]
      Reads := IsWhole fun n => (max n 0).toNat } (List.mem_of_getElem? (i := 3) rfl) httl
  refine ⟨rfl, rfl, hskill.settled _ ⟨_, rfl⟩ moves, hmalformed,
    hskill.refused s k _ hmalformed, hwell, hskill.accepted s k _ hwell ⟨_, rfl⟩, hkept⟩

end FileEndpoints

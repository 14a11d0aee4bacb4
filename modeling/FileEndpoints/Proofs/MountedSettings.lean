import FileEndpoints.Proofs.ConsoleLines
import FileEndpoints.Proofs.JsonRoundTrip
import FileEndpoints.Proofs.MemberOrder
import FileEndpoints.Proofs.MountAttempts

namespace FileEndpoints

theorem Json.exists_solid {n : Nat} {v : Json} (h : Plain n v) :
    ∃ c ∈ v.chars, Text.isBlank c = false := by
  have hhead {c : Char} {s : List Char} (hc : Text.isBlank c = false) :
      ∃ c' ∈ c :: s, Text.isBlank c' = false := ⟨c, List.mem_cons_self .., hc⟩
  cases h with
  | null => exact hhead rfl
  | bool =>
    rename_i b
    cases b <;> exact hhead rfl
  | int =>
    rename_i i _ _
    obtain ⟨hne, hsolid⟩ := Text.word_intChars i
    obtain ⟨c, hc⟩ := List.exists_mem_of_ne_nil _ hne
    exact ⟨c, hc, hsolid c hc⟩
  | str => exact hhead rfl
  | arr =>
    rename_i items _
    cases items <;> exact hhead rfl
  | obj =>
    rename_i members _ _
    cases members <;> exact hhead rfl

namespace Json.Same

variable {v w : Json}

theorem asString? (h : Same v w) : v.asString? = w.asString? := by
  cases h <;> rfl

theorem asInt? (h : Same v w) : v.asInt? = w.asInt? := by
  cases h <;> rfl

theorem asFloat? (h : Same v w) : v.asFloat? = w.asFloat? := by
  cases h <;> rfl

theorem names (h : Same v w) :
    ((Patch.ofJson w).fields.map Prod.fst).Perm ((Patch.ofJson v).fields.map Prod.fst) := by
  cases h with
  | obj hnames _ => exact hnames.symm
  | _ => exact .nil

theorem values (h : Same v w) (key : String) :
    Option.Rel Same ((Patch.ofJson v).get? key) ((Patch.ofJson w).get? key) := by
  cases h with
  | obj hnames hmembers =>
    rename_i ms ns
    simp only [Patch.ofJson, Patch.get?]
    have hnone : ms.lookup key = none ↔ ns.lookup key = none := by
      rw [lookup_eq_none, lookup_eq_none, hnames.mem_iff]
    cases hv : ms.lookup key with
    | none =>
      rw [hnone.1 hv]
      exact .none
    | some v =>
      cases hw : ns.lookup key with
      | none => exact absurd (hnone.2 hw) (by simp [hv])
      | some w => exact .some (hmembers key v w hv hw)
  | _ => exact .none

end Json.Same

namespace Patch

/-- The members of a document are those of a value. -/
structure Carries (p : Patch) (v : Json) : Prop where
  names : (p.fields.map Prod.fst).Perm ((ofJson v).fields.map Prod.fst)
  values : ∀ key, Option.Rel Json.Same ((ofJson v).get? key) (p.get? key)
  /-- Members that are in order already stay as they are, and so does all that is inside them. -/
  ordered : v.Ordered → p = ofJson v

theorem parse_render {v : Json} (h : Json.Plain Json.maxDepth v) :
    parse (some v.render) = .ok (ofJson v.canonical) := by
  have hsolid : v.render.toList.all Text.isBlank = false := by
    obtain ⟨c, hc, hblank⟩ := Json.exists_solid h
    rw [List.all_eq_false, Json.render, String.toList_ofList]
    exact ⟨c, hc, by rw [hblank]; exact Bool.false_ne_true⟩
  simp only [parse, hsolid, Bool.false_eq_true, ↓reduceIte, Json.parse?_render h]

theorem carries_canonical {n : Nat} {v : Json} (h : Json.Plain n v) :
    (ofJson v.canonical).Carries v where
  names := (Json.same_canonical h).names
  values := (Json.same_canonical h).values
  ordered ho := congrArg ofJson (Json.canonical_of_ordered ho)

namespace Carries

variable {p : Patch} {v : Json}

/-- Whatever is read alike from values that are the same is read alike from the members. -/
theorem reading {α : Type} {read : Json → Option α} (h : p.Carries v)
    (hread : ∀ {a b : Json}, a.Same b → read a = read b) (key : String) :
    (p.get? key).bind read = ((ofJson v).get? key).bind read := by
  have hvalue := h.values key
  generalize p.get? key = found at hvalue
  generalize (ofJson v).get? key = given at hvalue
  cases hvalue with
  | none => rfl
  | some hsame => exact (hread hsame).symm

theorem string? (h : p.Carries v) : p.string? = (ofJson v).string? :=
  funext (h.reading Json.Same.asString?)

theorem int? (h : p.Carries v) : p.int? = (ofJson v).int? :=
  funext (h.reading Json.Same.asInt?)

theorem number? (h : p.Carries v) : p.number? = (ofJson v).number? :=
  funext (h.reading Json.Same.asFloat?)

theorem merge_search (h : p.Carries v) (r : SearchSettings) : r.merge p = r.merge (ofJson v) := by
  simp only [SearchSettings.merge, firstString?, h.string?, h.int?]

theorem merge_summary (h : p.Carries v) (r : SummarySettings) :
    r.merge p = r.merge (ofJson v) := by
  simp only [SummarySettings.merge, firstString?, h.string?, h.int?, h.number?]

theorem merge_skill (h : p.Carries v) (k : Skill) : k.merge p = k.merge (ofJson v) := by
  simp only [Skill.merge, h.string?, h.int?]

end Carries

end Patch

/-- The settings of an endpoint are those of another one, into which the members of a document have
been merged. -/
inductive BuiltIn.Merged (p : Patch) : BuiltIn → BuiltIn → Prop
  | search {e e' : SearchEndpoint} (h : e'.settings = e.settings.merge p) :
      Merged p (.search e) (.search e')
  | summary {e e' : SummaryEndpoint} (h : e'.settings = e.settings.merge p) :
      Merged p (.summary e) (.summary e')
  | skill {k k' : Skill} (h : k'.settings = (k.merge p).settings) : Merged p (.skill k) (.skill k')

theorem BuiltIn.configure_carried {document : Option String} {p : Patch} {v : Json}
    (hparse : Patch.parse document = .ok p) (h : p.Carries v) (s : Services) (e : BuiltIn) :
    Merged (Patch.ofJson v) e (Endpoint.configure s e document).state := by
  cases e with
  | search e =>
    apply Merged.search
    rw [← h.merge_search]
    exact congrArg (fun o => o.state.settings) (Eager.configure_merged (e := e) hparse)
  | summary e =>
    apply Merged.summary
    rw [← h.merge_summary]
    exact congrArg (fun o => o.state.settings) (Eager.configure_merged (e := e) hparse)
  | skill k =>
    apply Merged.skill
    rw [← h.merge_skill]
    exact Skill.configure_settings hparse s k

namespace MountTable

theorem mountSpec_read {w : Surroundings} {t : MountTable} {spec : MountSpec} {p : Patch}
    {plugin : Plugin} {e : BuiltIn} {point : String} (hparse : Patch.parse spec.document = .ok p)
    (hplugin : Plugin.ofName spec.plugin = .ok plugin)
    (he : BuiltIn.create w.machine.clock plugin = .ok e)
    (hpoint : t.freePoint spec.path = .ok point) :
    t.mountSpec w spec = .ok
      { mounts := t.mounts ++ [{ path := point, slot := t.slots.length }]
        slots := t.slots ++ [{ endpoint := .around (Endpoint.configure w.machine e
          spec.document).state, origin := .made }] } := by
  have hwell : ¬ Malformed spec.document := by
    have hparsed := Patch.parse_parsed spec.document
    rw [hparse] at hparsed
    cases hparsed with
    | blank hm _ => exact hm
    | holds hm _ _ => exact hm
  rw [mountSpec_eq hplugin he, BuiltIn.configure_around he]
  simp only [Outcome.mapState, BuiltIn.configure_wellFormed hwell he, bind, Except.bind, mount,
    hpoint]
  rfl

/-- The settings that a plan gives reach the new endpoint unchanged. -/
theorem planned_settings_arrive (w : Surroundings) (t : MountTable) {spec : MountSpec} {v : Json}
    (hsettings : spec.settings = some v) (hplain : Json.Plain Json.maxDepth v) :
    (∃ p, Patch.parse spec.document = .ok p ∧ p.Carries v) ∧
      ∀ plugin e point, Plugin.ofName spec.plugin = .ok plugin →
        BuiltIn.create w.machine.clock plugin = .ok e → t.freePoint spec.path = .ok point →
        ∃ e', BuiltIn.Merged (Patch.ofJson v) e e' ∧
          t.mountSpec w spec = .ok
            { mounts := t.mounts ++ [{ path := point, slot := t.slots.length }]
              slots := t.slots ++ [{ endpoint := .around e', origin := .made }] } := by
  have hparse : Patch.parse spec.document = .ok (Patch.ofJson v.canonical) := by
    rw [MountSpec.document, hsettings]
    exact Patch.parse_render hplain
  have hcarries := Patch.carries_canonical hplain
  refine ⟨⟨_, hparse, hcarries⟩, ?_⟩
  intro plugin e point hplugin he hpoint
  exact ⟨_, BuiltIn.configure_carried hparse hcarries w.machine e,
    mountSpec_read hparse hplugin he hpoint⟩

/-- Escapes, a character beyond sixteen bits, the ends of the 64-bit range and members out of
order. -/
theorem awkward_settings_arrive :
    let s := Services.steady ⟨0⟩ (.error .noTransport) (.completed "")
    let key := "quote \" backslash \\ feed \n bell \x07 clef 𝄞"
    let limits := Json.arr [.ofInt (-0x8000000000000000), .ofInt 0xFFFFFFFFFFFFFFFF,
      .obj [("b", .null), ("a", .arr [])]]
    let v := Json.obj [("timeout_ms", .ofInt 0x7FFFFFFFFFFFFFFF), ("limits", limits),
      ("api_key", .str key)]
    let spec : MountSpec := { plugin := "search", path := "/s", settings := some v }
    Json.Plain Json.maxDepth v ∧ (∃ p, Patch.parse spec.document = .ok p ∧ p.Carries v) ∧
      ∃ e : SearchEndpoint,
        mountSpec { given := s, machine := s } {} spec = .ok
          { mounts := [{ path := "/s", slot := 0 }]
            slots := [{ endpoint := .around (.search e), origin := .made }] } ∧
        e.settings.secret.explicit = some key ∧ e.settings.timeout = 0x7FFFFFFFFFFFFFFF := by
  intro s key limits v spec
  have hplain : Json.Plain Json.maxDepth v := by
    have hlimits : Json.Plain 126 limits := by
      refine .arr ?_
      simp only [List.forall_mem_cons, List.not_mem_nil, false_implies, implies_true, and_true]
      refine ⟨.int (by decide) (by decide), .int (by decide) (by decide), .obj (by decide) ?_⟩
      simp only [List.forall_mem_cons, List.not_mem_nil, false_implies, implies_true, and_true]
      exact ⟨.null, .arr (by simp)⟩
    refine .obj (by decide) ?_
    simp only [List.forall_mem_cons, List.not_mem_nil, false_implies, implies_true, and_true]
    exact ⟨.int (by decide) (by decide), hlimits, .str⟩
  have hlower : Text.lowercase (String.ofList (Text.trim "search".toList)) = "search" := by decide
  have hplugin : Plugin.ofName "search" = .ok .search := by
    simp only [Plugin.ofName, hlower]
    rfl
  have hnormal : MountPath.normalize "/s" = "/s" := by decide
  have hshape : MountPath.isMountPoint "/s" = true := by decide
  have hpoint : freePoint {} "/s" = .ok "/s" := by
    simp only [freePoint, hnormal, hshape]
    rfl
  have hsettings : spec.settings = some v := rfl
  obtain ⟨hread, hmounted⟩ :=
    planned_settings_arrive { given := s, machine := s } {} hsettings hplain
  obtain ⟨e', hmerged, ht⟩ := hmounted .search (.search Eager.create) "/s" hplugin rfl hpoint
  cases hmerged with
  | search h =>
    refine ⟨hplain, hread, _, ht, ?_, ?_⟩
    · rw [h]
      rfl
    · rw [h]
      rfl

end MountTable

end FileEndpoints

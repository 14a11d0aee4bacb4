import FileEndpoints.Proofs.TreePaths
import Mathlib.Data.List.Nodup

namespace FileEndpoints

open Time (Instant Reading)

namespace Tree

variable {φ : Type} [TreeFile φ] {t : Tree φ} {path : String} {f : φ}

/-- A path that is a slash and the name of a file of the tree. -/
def Declares (t : Tree φ) (path : String) (f : φ) : Prop :=
  f ∈ t.files ∧ path = "/" ++ TreeFile.name f

/-- Trees whose files have distinct names that are not empty. -/
structure Proper (t : Tree φ) : Prop where
  named : ∀ f ∈ t.files, TreeFile.name f ≠ ""
  distinct : (t.files.map TreeFile.name).Nodup

theorem nameOf?_slash (name : String) : nameOf? ("/" ++ name) = some name := by
  have hchars : ("/" ++ name).toList = '/' :: name.toList := by
    rw [String.toList_append]
    rfl
  simp only [nameOf?, hchars, String.ofList_toList]

theorem Declares.of_find? (h : t.find? path = some f) : t.Declares path f := by
  obtain ⟨name, -, hfind⟩ := Option.bind_eq_some_iff.1 h
  exact ⟨List.mem_of_find?_eq_some hfind, path_of_find? h⟩

theorem Proper.find? (ht : t.Proper) (h : t.Declares path f) : t.find? path = some f := by
  obtain ⟨hf, rfl⟩ := h
  simp only [Tree.find?, nameOf?_slash, Option.bind_some]
  cases hfind : t.files.find? fun g => TreeFile.name g == TreeFile.name f with
  | none =>
    have hno := List.find?_eq_none.1 hfind f hf
    exact absurd (beq_self_eq_true _) hno
  | some g =>
    have hname := beq_iff_eq.1 (List.find?_some hfind :)
    have hg := List.mem_of_find?_eq_some hfind
    rw [List.inj_on_of_nodup_map ht.distinct hg hf hname]

theorem Proper.find?_iff (ht : t.Proper) : t.find? path = some f ↔ t.Declares path f :=
  ⟨.of_find?, ht.find?⟩

theorem Proper.find?_eq_none_iff (ht : t.Proper) :
    t.find? path = none ↔ ∀ f, ¬ t.Declares path f := by
  simp only [Option.eq_none_iff_forall_not_mem, Option.mem_def, ht.find?_iff]

theorem Proper.not_root (ht : t.Proper) (h : t.Declares path f) : isRoot path = false := by
  obtain ⟨hf, rfl⟩ := h
  simp only [isRoot, beq_eq_false_iff_ne]
  intro hroot
  have hlength := congrArg (List.length ∘ String.toList) hroot
  simp only [Function.comp_apply, String.toList_append, List.length_append] at hlength
  have hnil : (TreeFile.name f).toList = [] := by
    apply List.eq_nil_of_length_eq_zero
    change 1 + _ = 1 at hlength
    omega
  exact ht.named f hf (String.toList_eq_nil_iff.1 hnil)

/-- A check of paths that lets the files through, but for those of one kind of access. -/
structure Admits (t : Tree φ) (barred : Access) (refusal : String → Error)
    (check : String → Except Error φ) : Prop where
  unknown : ∀ path, check path = .error (.noSuchPath path) ↔ ∀ f, ¬ t.Declares path f
  refused : ∀ path, check path = .error (refusal path) ↔
    ∃ f, t.Declares path f ∧ TreeFile.access f = barred
  passed : ∀ path f, check path = .ok f ↔ t.Declares path f ∧ TreeFile.access f ≠ barred

theorem Proper.admits (ht : t.Proper) {barred : Access} {refusal : String → Error}
    {check : String → Except Error φ} (hrefusal : ∀ path, refusal path ≠ .noSuchPath path)
    (hcheck : ∀ path, check path = match t.find? path with
      | none => .error (.noSuchPath path)
      | some f => if TreeFile.access f = barred then .error (refusal path) else .ok f) :
    t.Admits barred refusal check := by
  have hcases (path : String) :
      (check path = .error (.noSuchPath path) ∧ ∀ f, ¬ t.Declares path f) ∨
        ∃ f, t.Declares path f ∧ (∀ g, t.Declares path g → g = f) ∧
          check path = if TreeFile.access f = barred then .error (refusal path) else .ok f := by
    rw [hcheck path]
    cases hfind : t.find? path with
    | none => exact .inl ⟨rfl, ht.find?_eq_none_iff.1 hfind⟩
    | some f =>
      right
      refine ⟨f, .of_find? hfind, fun g hg => ?_, rfl⟩
      exact Option.some.inj ((ht.find? hg).symm.trans hfind)
  constructor
  case unknown =>
    intro path
    rcases hcases path with ⟨hpath, hnone⟩ | ⟨f, hf, -, hpath⟩
    · exact iff_of_true hpath hnone
    · refine iff_of_false ?_ fun hnone => hnone f hf
      rw [hpath]
      split
      · exact fun h => hrefusal path (Except.error.inj h)
      · exact nofun
  case refused =>
    intro path
    rcases hcases path with ⟨hpath, hnone⟩ | ⟨f, hf, hunique, hpath⟩
    · apply iff_of_false
      · rw [hpath]
        exact fun h => hrefusal path (Except.error.inj h).symm
      · rintro ⟨f, hf, -⟩
        exact hnone f hf
    · rw [hpath]
      split
      case isTrue hbarred => exact iff_of_true rfl ⟨f, hf, hbarred⟩
      case isFalse hbarred =>
        refine iff_of_false nofun ?_
        rintro ⟨g, hg, haccess⟩
        exact hbarred (hunique g hg ▸ haccess)
  case passed =>
    intro path g
    rcases hcases path with ⟨hpath, hnone⟩ | ⟨f, hf, hunique, hpath⟩
    · refine iff_of_false ?_ fun h => hnone g h.1
      rw [hpath]
      exact nofun
    · rw [hpath]
      split
      case isTrue hbarred =>
        refine iff_of_false nofun ?_
        rintro ⟨hg, haccess⟩
        exact haccess (hunique g hg ▸ hbarred)
      case isFalse hbarred =>
        constructor
        · intro h
          exact Except.ok.inj h ▸ ⟨hf, hbarred⟩
        · rintro ⟨hg, -⟩
          rw [hunique g hg]

theorem Proper.readable_admits (ht : t.Proper) : t.Admits .trigger .notReadable t.readable := by
  apply ht.admits
  · intro path
    exact Error.noConfusion
  · intro path
    simp only [readable]
    cases t.find? path with
    | none => rfl
    | some f =>
      dsimp only
      cases TreeFile.access f <;> rfl

theorem Proper.writable_admits (ht : t.Proper) : t.Admits .readOnly .notWritable t.writable := by
  apply ht.admits
  · intro path
    exact Error.noConfusion
  · intro path
    simp only [writable]
    cases t.find? path with
    | none => rfl
    | some f =>
      dsimp only
      cases TreeFile.access f <;> rfl

theorem list_root (t : Tree φ) (size : φ → Nat) (now : Instant) :
    t.list (.ok now) size "/" =
      .ok (t.files.map fun f => .file now t.owner (TreeFile.name f) (size f)) :=
  List.mapM_pure

theorem Proper.stat_file (ht : t.Proper) (h : t.Declares path f) (size : φ → Nat) (now : Instant) :
    t.stat (.ok now) size path =
      .ok (some (.file now t.owner (TreeFile.name f) (size f))) := by
  simp only [stat, ht.not_root h, ht.find? h, Bool.false_eq_true, ↓reduceIte]
  rfl

/-- The answers of a tree about any path, whatever the sizes of its files are. -/
structure Answers (t : Tree φ) (size : φ → Nat) : Prop where
  stat : ∀ (now : Instant) (path : String), ∃ info, t.stat (.ok now) size path = .ok info ∧
    (info.isSome = true ↔ path = "/" ∨ ∃ f, t.Declares path f)
  /-- The root is listed in order, each file as a stat shows it in the same second. -/
  listed : ∀ now : Instant, ∃ infos, t.list (.ok now) size "/" = .ok infos ∧
    infos.map FileInfo.name = t.files.map TreeFile.name ∧
    ∀ info ∈ infos, ∀ later : Instant, later.seconds = now.seconds →
      t.stat (.ok later) size ("/" ++ info.name) = .ok (some info)
  unlisted : ∀ (now : Reading) (path : String), path ≠ "/" →
    t.list now size path = .error (.notADirectory path)
  readable : t.Admits .trigger .notReadable t.readable
  writable : t.Admits .readOnly .notWritable t.writable

theorem Proper.answers (ht : t.Proper) (size : φ → Nat) : t.Answers size where
  stat now path := by
    by_cases hroot : path = "/"
    · exact ⟨_, if_pos (beq_iff_eq.2 hroot), iff_of_true rfl (.inl hroot)⟩
    · cases hfind : t.find? path with
      | none =>
        refine ⟨none, ?_, iff_of_false Bool.false_ne_true ?_⟩
        · simp only [Tree.stat, isRoot, beq_eq_false_iff_ne.2 hroot, hfind, Bool.false_eq_true,
            ↓reduceIte]
          rfl
        · rintro (h | ⟨f, hf⟩)
          · exact hroot h
          · exact ht.find?_eq_none_iff.1 hfind f hf
      | some f =>
        have hf : t.Declares path f := .of_find? hfind
        exact ⟨_, ht.stat_file hf size now, iff_of_true rfl (.inr ⟨f, hf⟩)⟩
  listed now := by
    refine ⟨_, t.list_root size now, ?_, ?_⟩
    · rw [List.map_map]
      rfl
    · intro info hinfo later hsecond
      obtain ⟨f, hf, rfl⟩ := List.mem_map.1 hinfo
      have hdeclares : t.Declares ("/" ++ TreeFile.name f) f := ⟨hf, rfl⟩
      change t.stat (.ok later) size ("/" ++ TreeFile.name f) = _
      rw [ht.stat_file hdeclares size later]
      simp only [FileInfo.file, hsecond]
  unlisted now path h := if_neg fun hroot => h (beq_iff_eq.1 hroot)
  readable := ht.readable_admits
  writable := ht.writable_admits

end Tree

end FileEndpoints

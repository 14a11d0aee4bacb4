import FileEndpoints.Proofs.MountChanges
import Mathlib.Data.List.DropRight

namespace FileEndpoints

namespace MountPath

def EndsBlank (path : String) : Prop :=
  ∃ c, path.toList.getLast? = some c ∧ Text.isBlank c = true

theorem trim_cons_slash (rest : List Char) :
    Text.trim ('/' :: rest) = ('/' :: rest).rdropWhile Text.isBlank := by
  have hleft : Text.trimLeft ('/' :: rest) = '/' :: rest :=
    List.dropWhile_cons_of_neg (by decide)
  rw [Text.trim, hleft]
  rfl

/-- Of a path that starts with a slash, the normal form is a part in front. -/
theorem normalizeChars_cons_slash (rest : List Char) :
    normalizeChars ('/' :: rest) = ['/'] ∨
      normalizeChars ('/' :: rest) = dropSlashes (Text.trim ('/' :: rest)) := by
  have hprefix : dropSlashes (Text.trim ('/' :: rest)) <+: '/' :: rest := by
    rw [trim_cons_slash]
    exact (List.rdropWhile_prefix _ _).trans (List.rdropWhile_prefix _ _)
  simp only [normalizeChars]
  cases hchars : dropSlashes (Text.trim ('/' :: rest)) with
  | nil => exact .inl rfl
  | cons c chars =>
    rw [hchars] at hprefix
    obtain ⟨rfl, -⟩ := List.cons_prefix_cons.1 hprefix
    exact .inr rfl

theorem IsPoint.toList {point : String} (h : IsPoint point) : ∃ name, name ≠ [] ∧ '/' ∉ name ∧
    point.toList = '/' :: name := by
  obtain ⟨name, hname, hslash, rfl⟩ := h
  refine ⟨name.toList, ?_, hslash, ?_⟩
  · intro hempty
    exact hname (String.toList_inj.1 hempty)
  · rw [String.toList_append]
    rfl

theorem dropSlashes_point {name : List Char} (hname : name ≠ []) (hslash : '/' ∉ name) :
    dropSlashes ('/' :: name) = '/' :: name := by
  apply List.rdropWhile_eq_self_iff.2
  intro hne hlast
  rw [List.getLast_cons hname, beq_iff_eq] at hlast
  exact hslash (hlast ▸ List.getLast_mem hname)

theorem normalize_slashed {point : String} (h : IsPoint point) :
    normalize (point ++ "/") = point := by
  obtain ⟨name, hname, hslash, hpoint⟩ := h.toList
  have htrim : Text.trim ('/' :: (name ++ ['/'])) = '/' :: name ++ ['/'] := by
    rw [trim_cons_slash, ← List.cons_append]
    exact List.rdropWhile_concat_neg _ _ _ (by decide)
  have hdrop : dropSlashes ('/' :: name ++ ['/']) = '/' :: name := by
    have hlast : dropSlashes ('/' :: name ++ ['/']) = dropSlashes ('/' :: name) :=
      List.rdropWhile_concat_pos _ _ _ (by decide)
    rw [hlast, dropSlashes_point hname hslash]
  have hchars : (point ++ "/").toList = '/' :: (name ++ ['/']) := by
    rw [String.toList_append, hpoint]
    rfl
  rw [← String.toList_inj, normalize, String.toList_ofList, hchars, hpoint]
  simp only [normalizeChars, htrim, hdrop, ↓reduceIte]

theorem normalize_eq_self {point : String} (h : IsPoint point) (hsolid : ¬ EndsBlank point) :
    normalize point = point := by
  obtain ⟨name, hname, hslash, hpoint⟩ := h.toList
  have htrim : Text.trim ('/' :: name) = '/' :: name := by
    rw [trim_cons_slash]
    apply List.rdropWhile_eq_self_iff.2
    intro hne hblank
    apply hsolid
    rw [EndsBlank, hpoint]
    exact ⟨_, List.getLast?_eq_some_getLast hne, hblank⟩
  rw [← String.toList_inj, normalize, String.toList_ofList, hpoint]
  simp only [normalizeChars, htrim, dropSlashes_point hname hslash, ↓reduceIte]

/-- What ends in a blank is not normal: its normal form is shorter. -/
theorem normalize_shorter {point : String} (h : IsPoint point) (hblank : EndsBlank point) :
    (normalize point).toList.length < point.toList.length := by
  obtain ⟨name, hname, -, hpoint⟩ := h.toList
  obtain ⟨c, hc, hcblank⟩ := hblank
  obtain ⟨init, hinit⟩ : ∃ init, '/' :: name = init ++ [c] := by
    rw [hpoint] at hc
    exact List.getLast?_eq_some_iff.1 hc
  have htrim : Text.trim ('/' :: name) = init.rdropWhile Text.isBlank := by
    rw [trim_cons_slash, hinit]
    exact List.rdropWhile_concat_pos _ _ _ hcblank
  have hdropped : (dropSlashes (Text.trim ('/' :: name))).length ≤ init.length := by
    rw [htrim]
    exact ((List.rdropWhile_prefix _ _).trans (List.rdropWhile_prefix _ _)).length_le
  have hlength := congrArg List.length hinit
  have hpos := List.length_pos_iff.2 hname
  rw [List.length_append, List.length_singleton, List.length_cons] at hlength
  rw [normalize, String.toList_ofList, hpoint, List.length_cons]
  rcases normalizeChars_cons_slash name with hroot | hshort
  · rw [hroot, List.length_singleton]
    omega
  · rw [hshort]
    omega

theorem normalize_eq_self_iff {point : String} (h : IsPoint point) :
    normalize point = point ↔ ¬ EndsBlank point := by
  apply Iff.intro ?_ (normalize_eq_self h)
  intro hself hblank
  have hshorter := normalize_shorter h hblank
  rw [hself] at hshorter
  exact Nat.lt_irrefl _ hshorter

theorem IsPoint.parts {point : String} (h : IsPoint point) :
    firstPart point = point ∧ remainder point = "" := by
  obtain ⟨name, -, hslash, hpoint⟩ := h.toList
  have hall : ∀ c ∈ name, (c != '/') = true := by
    intro c hc
    rw [bne_iff_ne]
    intro hslashed
    exact hslash (hslashed ▸ hc)
  rw [← String.toList_inj, firstPart, remainder, String.toList_ofList, hpoint, List.drop_one,
    List.tail_cons, List.takeWhile_eq_self_iff.2 hall, List.dropWhile_eq_nil_iff.2 hall]
  exact ⟨rfl, rfl⟩

end MountPath

namespace MountTable

open MountPath (normalize EndsBlank)

/-- A path leads to a mount: the mount is found under it, and nothing else is taken away by it. -/
structure Addresses (t : MountTable) (path : String) (m : Mount) : Prop where
  resolve : t.resolve path = .ok (m, "/")
  endpoint : t.mount? path = some m
  unmount : ∀ w, Unmounts t w path m

/-- A path does not lead to a mount, and the mount cannot be taken away by it. -/
structure Misses (t : MountTable) (path : String) (m : Mount) : Prop where
  resolve : ∀ inner, t.resolve path ≠ .ok (m, inner)
  endpoint : t.mount? path ≠ some m
  unmount : ∀ w, m ∈ (t.unmount w path).state.mounts

theorem listMounts_paths (t : MountTable) :
    t.listMounts.map Prod.fst = t.mounts.map Mount.path := by
  simp only [listMounts, List.map_map]
  apply List.map_congr_left
  intro m _
  simp only [Function.comp]
  cases t.nameOf m <;> rfl

namespace Sound

variable {t : MountTable} {path : String} {m : Mount}

theorem addresses (h : Sound t) (hm : m ∈ t.mounts) (hpath : m.path = normalize path) :
    Addresses t path m := by
  obtain ⟨hfirst, hrest⟩ := (h.points m hm).parts
  have hresolve : t.resolve path = .ok (m, "/") := by
    apply (h.resolve_iff m "/").2
    rw [← hpath, hfirst, hrest]
    exact ⟨hm, rfl, rfl⟩
  exact ⟨hresolve, h.mount?_eq hm hpath, fun w => h.unmounts w hm hpath⟩

theorem mount?_path {t : MountTable} (hfind : t.mount? path = some m) :
    m ∈ t.mounts ∧ m.path = normalize path :=
  ⟨List.mem_of_find?_eq_some hfind, beq_iff_eq.1 (List.find?_some hfind :)⟩

theorem mem_unmount (h : Sound t) (hm : m ∈ t.mounts) (hpath : m.path ≠ normalize path)
    (w : Surroundings) : m ∈ (t.unmount w path).state.mounts := by
  cases hfind : t.mount? path with
  | none =>
    simp only [MountTable.unmount, hfind]
    exact hm
  | some n =>
    obtain ⟨hn, hsame⟩ := mount?_path hfind
    obtain ⟨before, after, hsplit, hleft, -⟩ := (h.unmounts w hn hsame).mounts
    rw [hleft]
    rw [hsplit, List.mem_append, List.mem_cons] at hm
    rcases hm with hm | rfl | hm
    · exact List.mem_append_left _ hm
    · exact absurd hsame hpath
    · exact List.mem_append_right _ hm

theorem misses_listed (h : Sound t) (hm : m ∈ t.mounts) (hblank : EndsBlank m.path) :
    Misses t m.path m := by
  have hshorter := MountPath.normalize_shorter (h.points m hm) hblank
  have hother : m.path ≠ normalize m.path := by
    intro hsame
    rw [← hsame] at hshorter
    exact Nat.lt_irrefl _ hshorter
  apply Misses.mk
  case endpoint =>
    intro hfind
    exact hother (mount?_path hfind).2
  case unmount => exact h.mem_unmount hm hother
  case resolve =>
    intro inner hr
    -- The first part of a path is no longer than the path.
    have hfirst := ((h.resolve_iff m inner).1 hr).2.1
    have hjoin := congrArg String.toList (MountPath.firstPart_append_remainder m.path)
    rw [← hfirst, String.toList_append] at hjoin
    have hlength := congrArg List.length hjoin
    rw [List.length_append] at hlength
    omega

end Sound

/-- What the path that a mount is listed under is good for. -/
structure ListedAt (t : MountTable) (m : Mount) : Prop where
  normal : normalize m.path = m.path ↔ ¬ EndsBlank m.path
  addressed : ¬ EndsBlank m.path → Addresses t m.path m
  missed : EndsBlank m.path → Misses t m.path m
  /-- With a slash after it, a listed path always leads to its mount. -/
  slashed : Addresses t (m.path ++ "/") m

/-- Mounts are listed under their paths, and such a path leads to its mount unless it ends in a
blank. -/
theorem listed_path_leads_iff (t : MountTable) (ht : Reachable t) :
    t.listMounts.map Prod.fst = t.mounts.map Mount.path ∧ ∀ m ∈ t.mounts, t.ListedAt m := by
  have hsound := ht.sound
  apply And.intro t.listMounts_paths
  intro m hm
  have hpoint := hsound.points m hm
  apply ListedAt.mk (MountPath.normalize_eq_self_iff hpoint)
  case addressed =>
    intro hsolid
    exact hsound.addresses hm (MountPath.normalize_eq_self hpoint hsolid).symm
  case missed => exact hsound.misses_listed hm
  case slashed => exact hsound.addresses hm (MountPath.normalize_slashed hpoint).symm

/-- Two mounts of one search, of which one was asked for with a blank before its last slash. -/
def spaced : MountTable where
  mounts := [⟨"/x ", 0⟩, ⟨"/y", 0⟩]
  slots := [{ endpoint := { endpoint := .search Eager.create }, origin := .given }]

theorem spaced_reachable : Reachable spaced := by
  let search : Slot := { endpoint := { endpoint := .search Eager.create }, origin := .given }
  let first : MountTable := { mounts := [⟨"/x ", 0⟩], slots := [search] }
  have hfirst : MountTable.mount {} "x /" search = .ok first := rfl
  have hagain : first.mountAgain "y" ⟨"/x ", 0⟩ = .ok spaced := rfl
  exact .mountedAgain (.mounted .empty hfirst) hagain

theorem spaced_paths : EndsBlank "/x " ∧ ¬ EndsBlank "/y" := by
  apply And.intro ⟨' ', rfl, by decide⟩
  intro h
  obtain ⟨c, hc, hblank⟩ := h
  obtain rfl : 'y' = c := Option.some.inj hc
  exact absurd hblank (by decide)

theorem spaced_mounts_listed :
    Reachable spaced ∧ Addresses spaced "/y" ⟨"/y", 0⟩ ∧ Misses spaced "/x " ⟨"/x ", 0⟩ ∧
      Addresses spaced "/x /" ⟨"/x ", 0⟩ := by
  obtain ⟨-, hlisted⟩ := listed_path_leads_iff spaced spaced_reachable
  have hx := hlisted ⟨"/x ", 0⟩ (List.mem_cons_self ..)
  have hy := hlisted ⟨"/y", 0⟩ (List.mem_cons_of_mem _ (List.mem_cons_self ..))
  exact ⟨spaced_reachable, hy.addressed spaced_paths.2, hx.missed spaced_paths.1, hx.slashed⟩

/-- A mount may be lost to the path that it is listed under. -/
theorem listed_path_may_miss :
    ¬ ∀ t, Reachable t → ∀ m ∈ t.mounts, Addresses t m.path m := by
  intro h
  have hx := h spaced spaced_reachable ⟨"/x ", 0⟩ (List.mem_cons_self ..)
  have hresolved : spaced.resolve "/x " = .error (.noSuchPath "/x") := rfl
  cases hresolved.symm.trans hx.resolve

end MountTable

end FileEndpoints

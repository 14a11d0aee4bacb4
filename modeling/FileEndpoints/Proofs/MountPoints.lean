import FileEndpoints.Mounts.Path
import Mathlib.Data.List.Nodup

namespace FileEndpoints.MountPath

/-- The first part of a path: a slash and all up to the next one or the end. -/
def firstPart (path : String) : String :=
  String.ofList ('/' :: (path.toList.drop 1).takeWhile fun c => c != '/')

def remainder (path : String) : String :=
  String.ofList ((path.toList.drop 1).dropWhile fun c => c != '/')

/-- The path inside an endpoint: the root if nothing is left. -/
def inside (left : String) : String :=
  if left = "" then "/" else left

/-- A slash and a name, which is not empty and has no slash. -/
def IsPoint (point : String) : Prop :=
  ∃ name : String, name ≠ "" ∧ '/' ∉ name.toList ∧ point = "/" ++ name

theorem normalizeChars_cons (s : List Char) : ∃ rest, normalizeChars s = '/' :: rest := by
  simp only [normalizeChars]
  split
  · exact ⟨_, rfl⟩
  · split
    · rename_i c rest _ hc
      exact ⟨rest, hc ▸ rfl⟩
    · exact ⟨_, rfl⟩

theorem normalize_toList (path : String) : ∃ rest, (normalize path).toList = '/' :: rest := by
  obtain ⟨rest, hrest⟩ := normalizeChars_cons path.toList
  exact ⟨rest, by rw [normalize, String.toList_ofList, hrest]⟩

theorem firstPart_append_remainder (path : String) :
    firstPart (normalize path) ++ remainder (normalize path) = normalize path := by
  obtain ⟨rest, hrest⟩ := normalize_toList path
  rw [← String.toList_inj, String.toList_append, firstPart, remainder, String.toList_ofList,
    String.toList_ofList, hrest, List.drop_one, List.tail_cons, List.cons_append,
    List.takeWhile_append_dropWhile]

theorem isPoint_of_isMountPoint {path : String} (h : isMountPoint (normalize path) = true) :
    IsPoint (normalize path) := by
  obtain ⟨rest, hrest⟩ := normalize_toList path
  simp only [isMountPoint, Bool.and_eq_true, bne_iff_ne, Bool.not_eq_true', hrest, List.drop_one,
    List.tail_cons] at h
  have heq : normalize path = "/" ++ String.ofList rest := by
    rw [← String.toList_inj, hrest, String.toList_append, String.toList_ofList (l := rest)]
    rfl
  refine ⟨String.ofList rest, ?_, ?_, heq⟩
  · intro hempty
    rw [hempty] at heq
    exact h.1 heq
  · rw [String.toList_ofList]
    intro hmem
    rw [List.contains_iff_mem.2 hmem] at h
    cases h.2

theorem isMountPoint_iff (path : String) :
    isMountPoint (normalize path) = true ↔ IsPoint (normalize path) := by
  apply Iff.intro isPoint_of_isMountPoint
  intro h
  obtain ⟨name, hname, hslash, hpoint⟩ := h
  have hchars : ("/" ++ name).toList = '/' :: name.toList := by
    rw [String.toList_append]
    rfl
  rw [hpoint, isMountPoint, hchars, List.drop_one, List.tail_cons, Bool.and_eq_true,
    bne_iff_ne, Bool.not_eq_true']
  apply And.intro
  · intro hroot
    have htail := congrArg String.toList hroot
    rw [hchars] at htail
    exact hname (String.toList_inj.1 (List.cons.inj htail).2)
  · rw [Bool.eq_false_iff]
    intro hmem
    exact hslash (List.contains_iff_mem.1 hmem)

theorem listedName_point {name : String} (h : '/' ∉ name.toList) :
    listedName ("/" ++ name) = name := by
  rw [← String.toList_inj, listedName, String.toList_ofList, String.toList_append]
  change (name.toList.dropWhile fun c => c == '/') = name.toList
  cases hname : name.toList with
  | nil => rfl
  | cons c rest =>
    rw [hname] at h
    have hc : c ≠ '/' := fun he => h (he ▸ List.mem_cons_self ..)
    rw [List.dropWhile_cons_of_neg]
    simpa using hc

theorem cut_iff {name left text : List Char} (hname : '/' ∉ name) :
    (name ++ left = text ∧ (left = [] ∨ ∃ rest, left = '/' :: rest)) ↔
      name = text.takeWhile (fun c => c != '/') ∧ left = text.dropWhile fun c => c != '/' := by
  constructor
  · rintro ⟨rfl, hleft⟩
    have hall : ∀ c ∈ name, (c != '/') = true := by
      intro c hc
      rw [bne_iff_ne]
      rintro rfl
      exact hname hc
    rw [List.takeWhile_append_of_pos hall, List.dropWhile_append_of_pos hall]
    rcases hleft with rfl | ⟨rest, rfl⟩
    · exact ⟨(List.append_nil name).symm, rfl⟩
    · exact ⟨(List.append_nil name).symm, rfl⟩
  · rintro ⟨rfl, rfl⟩
    refine ⟨List.takeWhile_append_dropWhile, ?_⟩
    have hhead := List.head?_dropWhile_not (fun c => c != '/') text
    cases hdrop : text.dropWhile fun c => c != '/' with
    | nil => exact .inl rfl
    | cons c rest =>
      simp only [hdrop, List.head?_cons, bne_eq_false_iff_eq] at hhead
      exact .inr ⟨rest, hhead ▸ rfl⟩

theorem below?_eq_some_iff (point path inner : String) :
    below? point path = some inner ↔ ∃ left, point.toList ++ left = path.toList ∧
      (left = [] ∨ ∃ rest, left = '/' :: rest) ∧ inner = inside (String.ofList left) := by
  have hslash (rest : List Char) : inside (String.ofList ('/' :: rest)) =
      String.ofList ('/' :: rest) := by
    rw [inside, if_neg]
    intro hempty
    cases String.toList_inj.2 hempty ▸ String.toList_ofList (l := '/' :: rest)
  simp only [below?, ← List.isPrefixOf?_eq_some_iff_append_eq]
  cases hprefix : point.toList.isPrefixOf? path.toList with
  | none =>
    constructor
    · intro h
      cases h
    · rintro ⟨left, h, -⟩
      cases h
  | some left =>
    simp only [Option.some.injEq, exists_eq_left']
    cases left with
    | nil =>
      constructor
      · intro h
        exact ⟨.inl rfl, (Option.some.inj h).symm⟩
      · rintro ⟨-, rfl⟩
        rfl
    | cons c rest =>
      by_cases hc : c = '/'
      · subst hc
        constructor
        · intro h
          exact ⟨.inr ⟨rest, rfl⟩, (Option.some.inj h).symm.trans (hslash rest).symm⟩
        · rintro ⟨-, rfl⟩
          exact congrArg some (hslash rest).symm
      · simp [hc]

/-- A normal path lies below a mount point exactly if that is its first part. -/
theorem below?_iff {point path inner : String} (hpoint : IsPoint point) :
    below? point (normalize path) = some inner ↔
      point = firstPart (normalize path) ∧ inner = inside (remainder (normalize path)) := by
  obtain ⟨name, -, hname, rfl⟩ := hpoint
  obtain ⟨text, htext⟩ := normalize_toList path
  have hpoint : ("/" ++ name).toList = '/' :: name.toList := by
    rw [String.toList_append]
    rfl
  have hfirst : "/" ++ name = firstPart (normalize path) ↔
      name.toList = text.takeWhile fun c => c != '/' := by
    rw [← String.toList_inj, hpoint, firstPart, String.toList_ofList, htext, List.drop_one,
      List.tail_cons, List.cons.injEq, eq_self, true_and]
  rw [below?_eq_some_iff, hfirst]
  simp only [hpoint, htext, List.cons_append, List.cons.injEq, true_and, remainder, List.drop_one,
    List.tail_cons]
  constructor
  · rintro ⟨left, happend, hleft, rfl⟩
    obtain ⟨hcut, rfl⟩ := (cut_iff hname).1 ⟨happend, hleft⟩
    exact ⟨hcut, rfl⟩
  · rintro ⟨hcut, rfl⟩
    obtain ⟨happend, hleft⟩ := (cut_iff hname).2 ⟨hcut, rfl⟩
    exact ⟨_, happend, hleft, rfl⟩

end FileEndpoints.MountPath

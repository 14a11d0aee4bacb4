import FileEndpoints.Proofs.JsonTokens
import Mathlib.Data.List.Perm.Basic

namespace FileEndpoints.Json

/-- Values whose objects have their members in ascending order, as the reader gives them. -/
inductive Ordered : Json → Prop
  | null : Ordered .null
  | bool {b} : Ordered (.bool b)
  | num {n} : Ordered (.num n)
  | str {s} : Ordered (.str s)
  | arr {items} (hitems : ∀ v ∈ items, Ordered v) : Ordered (.arr items)
  | obj {members} (hnames : (members.map Prod.fst).Pairwise (· < ·))
      (hmembers : ∀ m ∈ members, Ordered m.2) : Ordered (.obj members)

/-- Values that differ in the order of members at most. -/
inductive Same : Json → Json → Prop
  | null : Same .null .null
  | bool {b} : Same (.bool b) (.bool b)
  | num {n} : Same (.num n) (.num n)
  | str {s} : Same (.str s) (.str s)
  | arr {vs ws} (hlength : vs.length = ws.length)
      (hitems : ∀ (i : Nat) (v w : Json), vs[i]? = some v → ws[i]? = some w → Same v w) :
      Same (.arr vs) (.arr ws)
  | obj {ms ns} (hnames : (ms.map Prod.fst).Perm (ns.map Prod.fst))
      (hmembers : ∀ name v w, ms.lookup name = some v → ns.lookup name = some w → Same v w) :
      Same (.obj ms) (.obj ns)

variable {name key : String} {value : Json} {members sorted : List (String × Json)}

theorem insertMember_perm (h : name ∉ sorted.map Prod.fst) :
    (insertMember name value sorted).Perm ((name, value) :: sorted) := by
  induction sorted with
  | nil => exact .refl _
  | cons m sorted ih =>
    obtain ⟨hne, hrest⟩ : name ≠ m.1 ∧ name ∉ sorted.map Prod.fst := by
      rwa [List.map_cons, List.mem_cons, not_or] at h
    simp only [insertMember, if_neg hne]
    split
    · exact .refl _
    · exact ((ih hrest).cons m).trans (.swap ..)

theorem lookup_member (m : String × Json) (members : List (String × Json)) (key : String) :
    (m :: members).lookup key = if key = m.1 then some m.2 else members.lookup key := by
  rw [List.lookup_cons]
  by_cases h : key = m.1
  · rw [if_pos h, beq_iff_eq.2 h]
  · rw [if_neg h, beq_eq_false_iff_ne.2 h]

theorem lookup_eq_none {key : String} {members : List (String × Json)} :
    members.lookup key = none ↔ key ∉ members.map Prod.fst := by
  rw [List.lookup_eq_none_iff, List.mem_map]
  constructor
  · rintro h ⟨m, hm, rfl⟩
    exact bne_iff_ne.1 (h m hm) rfl
  · exact fun h m hm => bne_iff_ne.2 fun heq => h ⟨m, hm, heq.symm⟩

theorem lookup_insertMember (name key : String) (value : Json) (sorted : List (String × Json)) :
    (insertMember name value sorted).lookup key =
      if key = name then some value else sorted.lookup key := by
  induction sorted with
  | nil => exact lookup_member ..
  | cons m sorted ih =>
    simp only [insertMember]
    split
    · exact lookup_member ..
    · split
      case isTrue heq =>
        subst heq
        rw [lookup_member, lookup_member]
        split <;> rfl
      case isFalse hne =>
        rw [lookup_member, lookup_member, ih]
        by_cases hkey : key = name
        · subst hkey
          rw [if_neg hne, if_pos rfl, if_pos rfl]
        · rw [if_neg hkey, if_neg hkey]

theorem insertMember_last (h : ∀ n ∈ sorted.map Prod.fst, n < name) :
    insertMember name value sorted = sorted ++ [(name, value)] := by
  induction sorted with
  | nil => rfl
  | cons m sorted ih =>
    have hlt : m.1 < name := h _ (List.mem_cons_self ..)
    simp only [insertMember, if_neg (String.lt_asymm hlt), if_neg (String.ne_of_lt hlt).symm,
      List.cons_append, ih fun n hn => h n (List.mem_cons_of_mem _ hn)]

/-- Members that are put in one after another, in front of which others are in place already. -/
theorem insertEach_perm (sorted : List (String × Json))
    (h : ((sorted ++ members).map Prod.fst).Nodup) :
    (members.foldl (fun sorted m => insertMember m.1 m.2 sorted) sorted).Perm
      (sorted ++ members) := by
  -- Members pass from one list to the other, so no name may occur in both.
  induction members generalizing sorted with
  | nil => exact .of_eq (List.append_nil sorted).symm
  | cons m members ih =>
    have hmove : (m :: sorted ++ members).Perm (sorted ++ m :: members) := List.perm_middle.symm
    have hnodup := (hmove.map Prod.fst).nodup_iff.2 h
    have hinserted : (insertMember m.1 m.2 sorted).Perm (m :: sorted) := by
      apply insertMember_perm
      intro hmem
      apply (List.nodup_cons.1 hnodup).1
      exact List.map_subset _ (List.subset_append_left ..) hmem
    have hplaced := hinserted.append_right members
    exact (ih _ ((hplaced.map Prod.fst).nodup_iff.2 hnodup)).trans (hplaced.trans hmove)

theorem insertEach_lookup (sorted : List (String × Json)) (h : (members.map Prod.fst).Nodup) :
    (members.foldl (fun sorted m => insertMember m.1 m.2 sorted) sorted).lookup key =
      (members.lookup key).or (sorted.lookup key) := by
  induction members generalizing sorted with
  | nil => rfl
  | cons m members ih =>
    obtain ⟨hnew, hnodup⟩ := List.nodup_cons.1 h
    rw [List.foldl_cons, ih _ hnodup, lookup_insertMember, lookup_member]
    by_cases hkey : key = m.1
    · rw [if_pos hkey, if_pos hkey, lookup_eq_none.2 (hkey ▸ hnew)]
      rfl
    · rw [if_neg hkey, if_neg hkey]

theorem insertEach_sorted (sorted : List (String × Json))
    (h : ((sorted ++ members).map Prod.fst).Pairwise (· < ·)) :
    members.foldl (fun sorted m => insertMember m.1 m.2 sorted) sorted = sorted ++ members := by
  induction members generalizing sorted with
  | nil => exact (List.append_nil sorted).symm
  | cons m members ih =>
    have hlast : insertMember m.1 m.2 sorted = sorted ++ [m] := by
      apply insertMember_last
      intro n hn
      rw [List.map_append, List.pairwise_append] at h
      exact h.2.2 n hn m.1 (List.mem_cons_self ..)
    have hshift : sorted ++ m :: members = (sorted ++ [m]) ++ members := by
      rw [List.append_assoc, List.singleton_append]
    rw [List.foldl_cons, hlast, hshift]
    exact ih _ (hshift ▸ h)

theorem sortMembers_perm (h : (members.map Prod.fst).Nodup) :
    (sortMembers members).Perm members :=
  insertEach_perm [] h

theorem sortMembers_lookup (h : (members.map Prod.fst).Nodup) (key : String) :
    (sortMembers members).lookup key = members.lookup key :=
  (insertEach_lookup [] h).trans (Option.or_none ..)

theorem sortMembers_sorted (h : (members.map Prod.fst).Pairwise (· < ·)) :
    sortMembers members = members :=
  insertEach_sorted [] h

theorem canonicalItems_eq (items : List Json) : canonicalItems items = items.map canonical := by
  induction items with
  | nil => rfl
  | cons v vs ih => rw [canonicalItems, ih, List.map_cons]

theorem canonicalMembers_eq (members : List (String × Json)) :
    canonicalMembers members = members.map fun m => (m.1, m.2.canonical) := by
  induction members with
  | nil => rfl
  | cons m ms ih => rw [canonicalMembers, ih, List.map_cons]

theorem canonicalMembers_names (members : List (String × Json)) :
    (canonicalMembers members).map Prod.fst = members.map Prod.fst := by
  rw [canonicalMembers_eq, List.map_map]
  rfl

theorem canonicalMembers_lookup (members : List (String × Json)) (key : String) :
    (canonicalMembers members).lookup key = (members.lookup key).map canonical := by
  induction members with
  | nil => rfl
  | cons m ms ih =>
    rw [canonicalMembers, lookup_member, lookup_member, ih]
    split <;> rfl

theorem canonical_of_ordered {v : Json} (h : Ordered v) : v.canonical = v := by
  induction h with
  | null => rfl
  | bool => rfl
  | num => rfl
  | str => rfl
  | arr _ ih =>
    rw [canonical, canonicalItems_eq, List.map_congr_left ih, List.map_id']
  | obj hnames _ ih =>
    rename_i members _
    have hvalues : canonicalMembers members = members := by
      have hkept : ∀ m ∈ members, (m.1, m.2.canonical) = m := fun m hm => Prod.ext rfl (ih m hm)
      rw [canonicalMembers_eq, List.map_congr_left hkept, List.map_id']
    rw [canonical, ofMembers, hvalues, sortMembers_sorted hnames]

theorem same_canonical {n : Nat} {v : Json} (h : Plain n v) : Same v v.canonical := by
  induction h with
  | null => exact .null
  | bool => exact .bool
  | int => exact .num
  | str => exact .str
  | arr _ ih =>
    rw [canonical, canonicalItems_eq]
    apply Same.arr (List.length_map ..).symm
    intro i v w hv hw
    rw [List.getElem?_map, hv] at hw
    obtain rfl := Option.some.inj hw
    exact ih v (List.mem_of_getElem? hv)
  | obj hnames _ ih =>
    rename_i members _
    have hnodup : ((canonicalMembers members).map Prod.fst).Nodup := by
      rwa [canonicalMembers_names]
    rw [canonical, ofMembers]
    apply Same.obj
    · rw [← canonicalMembers_names members]
      exact ((sortMembers_perm hnodup).map Prod.fst).symm
    · intro name v w hv hw
      rw [sortMembers_lookup hnodup, canonicalMembers_lookup, hv] at hw
      obtain rfl := Option.some.inj hw
      obtain ⟨before, after, rfl, -⟩ := List.lookup_eq_some_iff.1 hv
      exact ih (name, v) (List.mem_append_right _ (List.mem_cons_self ..))

end FileEndpoints.Json

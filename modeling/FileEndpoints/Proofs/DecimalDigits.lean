import FileEndpoints.Json.Numeral
import FileEndpoints.Json.Writer
import Mathlib.Data.List.Induction
import Mathlib.Data.Option.Basic

namespace FileEndpoints

/-- The digits of a number in the order in which they are written. -/
structure Digits (n : Nat) (ds : List Nat) : Prop where
  chars : Nat.toDigits 10 n = ds.map Nat.digitChar
  small : ∀ d ∈ ds, d < 10
  value : ds.foldl (fun n d => 10 * n + d) 0 = n
  ne_nil : ds ≠ []
  lead : ds = [0] ∨ ds.head? ≠ some 0

theorem Digits.single {d : Nat} (h : d < 10) : Digits d [d] where
  chars := Nat.toDigits_of_lt_base h
  small e he := by
    rw [List.mem_singleton.1 he]
    exact h
  value := by simp only [List.foldl_cons, List.foldl_nil, Nat.mul_zero, Nat.zero_add]
  ne_nil := List.cons_ne_nil _ _
  lead := by
    by_cases hzero : d = 0
    · exact .inl (hzero ▸ rfl)
    · exact .inr fun hhead => hzero (Option.some.inj hhead)

theorem Digits.append {n d : Nat} {ds : List Nat} (h : Digits n ds) (hn : 0 < n) (hd : d < 10) :
    Digits (10 * n + d) (ds ++ [d]) where
  chars := by
    have hdiv : (10 * n + d) / 10 = n := by omega
    have hmod : (10 * n + d) % 10 = d := by omega
    rw [Nat.toDigits_of_base_le (by decide) (by omega), hdiv, hmod, h.chars, List.map_append]
    rfl
  small e he := by
    rcases List.mem_append.1 he with he | he
    · exact h.small e he
    · rw [List.mem_singleton.1 he]
      exact hd
  value := by
    rw [List.foldl_append, h.value]
    rfl
  ne_nil := List.append_ne_nil_of_left_ne_nil h.ne_nil _
  lead := by
    right
    rw [List.head?_append, Option.or_of_isSome (List.isSome_head?.2 h.ne_nil)]
    rcases h.lead with hzero | hlead
    · have hvalue := h.value
      rw [hzero] at hvalue
      exact absurd hvalue (Nat.ne_of_lt hn)
    · exact hlead

theorem exists_digits (n : Nat) : ∃ ds, Digits n ds := by
  induction n using Nat.strongRecOn with
  | ind n ih =>
    by_cases hn : n < 10
    · exact ⟨[n], .single hn⟩
    · obtain ⟨ds, hds⟩ := ih (n / 10) (by omega)
      refine ⟨ds ++ [n % 10], ?_⟩
      have happend := hds.append (d := n % 10) (by omega) (by omega)
      rwa [Nat.div_add_mod] at happend

theorem Digits.pos {n : Nat} {ds : List Nat} (h : Digits n ds) (hlead : ds.head? ≠ some 0) :
    0 < n := by
  apply Nat.pos_of_ne_zero
  rintro rfl
  have hzero : ∀ d < 10, Nat.digitChar d = '0' → d = 0 := by decide
  obtain ⟨d, rest, rfl, hd, -⟩ := List.map_eq_cons_iff.1 h.chars.symm
  exact hlead (congrArg some (hzero d (h.small d (List.mem_cons_self ..)) hd))

/-- Digits without a needless zero in front are those of the number that they are read as. -/
theorem digits_of_lead {ds : List Nat} (hne : ds ≠ []) (hsmall : ∀ d ∈ ds, d < 10)
    (hlead : ds.length = 1 ∨ ds.head? ≠ some 0) :
    Digits (ds.foldl (fun n d => 10 * n + d) 0) ds := by
  -- The last digit comes last, so only the first of all is ever in front of others.
  induction ds using List.reverseRecOn with
  | nil => exact absurd rfl hne
  | append_singleton ds d ih =>
    have hd : d < 10 := hsmall d (List.mem_append_right _ (List.mem_cons_self ..))
    cases ds with
    | nil => simpa only [List.nil_append, List.foldl_cons, List.foldl_nil, Nat.mul_zero,
        Nat.zero_add] using Digits.single hd
    | cons e ds =>
      have hhead : (e :: ds).head? ≠ some 0 := by
        rcases hlead with hone | hhead
        · simp only [List.length_append, List.length_cons] at hone
          omega
        · exact hhead
      have hfront := ih (List.cons_ne_nil _ _) (fun f hf => hsmall f (List.mem_append_left _ hf))
        (.inr hhead)
      rw [List.foldl_append]
      exact hfront.append (hfront.pos hhead) hd

namespace Text

theorem digit?_digitChar {d : Nat} (h : d < 10) : digit? (Nat.digitChar d) = some d := by
  have hall : ∀ d < 10, digit? (Nat.digitChar d) = some d := by decide
  exact hall d h

theorem digit?_eq_some {c : Char} {d : Nat} (h : digit? c = some d) :
    c = Nat.digitChar d ∧ d < 10 := by
  simp only [digit?, Option.ite_none_right_eq_some, Option.some.injEq] at h
  obtain ⟨⟨hlo, hhi⟩, hd⟩ := h
  have hlo' : 48 ≤ c.toNat := hlo
  have hhi' : c.toNat ≤ 57 := hhi
  have hzero : '0'.toNat = 48 := rfl
  have hsmall : d < 10 := by omega
  refine ⟨?_, hsmall⟩
  apply Char.toNat_inj.1
  rw [Nat.toNat_digitChar_of_lt_ten hsmall]
  omega

theorem foldlM_digits {ds : List Nat} (h : ∀ d ∈ ds, d < 10) (n : Nat) :
    (ds.map Nat.digitChar).foldlM (fun n c => (digit? c).map fun d => 10 * n + d) n =
      some (ds.foldl (fun n d => 10 * n + d) n) := by
  induction ds generalizing n with
  | nil => rfl
  | cons d ds ih =>
    rw [List.map_cons, List.foldlM_cons, digit?_digitChar (h d (List.mem_cons_self ..))]
    exact ih (fun e he => h e (List.mem_cons_of_mem _ he)) _

theorem natOfDigits?_eq_some {s : List Char} {n : Nat} : natOfDigits? s = some n ↔
    ∃ ds : List Nat, ds ≠ [] ∧ (∀ d ∈ ds, d < 10) ∧ s = ds.map Nat.digitChar ∧
      n = ds.foldl (fun n d => 10 * n + d) 0 := by
  have hfold (s : List Char) (k : Nat) :
      s.foldlM (fun n c => (digit? c).map fun d => 10 * n + d) k = some n ↔
        ∃ ds : List Nat, (∀ d ∈ ds, d < 10) ∧ s = ds.map Nat.digitChar ∧
          n = ds.foldl (fun n d => 10 * n + d) k := by
    constructor
    · intro h
      induction s generalizing k with
      | nil => exact ⟨[], nofun, rfl, (Option.some.inj h).symm⟩
      | cons c s ih =>
        rw [List.foldlM_cons, Option.bind_eq_bind, Option.bind_eq_some_iff] at h
        obtain ⟨k', hk, hs⟩ := h
        obtain ⟨d, hd, rfl⟩ := Option.map_eq_some_iff.1 hk
        obtain ⟨rfl, hsmall⟩ := digit?_eq_some hd
        obtain ⟨ds, hds, rfl, hn⟩ := ih _ hs
        exact ⟨d :: ds, List.forall_mem_cons.2 ⟨hsmall, hds⟩, rfl, hn⟩
    · rintro ⟨ds, hds, rfl, rfl⟩
      exact foldlM_digits hds k
  cases s with
  | nil =>
    constructor
    · intro h
      cases h
    · rintro ⟨ds, hne, -, hnil, -⟩
      exact absurd (List.map_eq_nil_iff.1 hnil.symm) hne
  | cons c s =>
    rw [natOfDigits?, hfold]
    · constructor
      · rintro ⟨ds, hds, hs, hn⟩
        refine ⟨ds, ?_, hds, hs, hn⟩
        rintro rfl
        cases hs
      · rintro ⟨ds, -, hds, hs, hn⟩
        exact ⟨ds, hds, hs, hn⟩
    · exact nofun

/-- A decimal numeral, with a sign or without, and its value. -/
inductive Numeral : List Char → Int → Prop
  | plain {ds : List Nat} (hne : ds ≠ []) (hds : ∀ d ∈ ds, d < 10) :
      Numeral (ds.map Nat.digitChar) (ds.foldl (fun n d => 10 * n + d) 0 : Nat)
  | plus {ds : List Nat} (hne : ds ≠ []) (hds : ∀ d ∈ ds, d < 10) :
      Numeral ('+' :: ds.map Nat.digitChar) (ds.foldl (fun n d => 10 * n + d) 0 : Nat)
  | minus {ds : List Nat} (hne : ds ≠ []) (hds : ∀ d ∈ ds, d < 10) :
      Numeral ('-' :: ds.map Nat.digitChar) (-(ds.foldl (fun n d => 10 * n + d) 0 : Nat))

/-- A number is read exactly from its numerals, if it has 64 signed bits. -/
theorem int64?_eq_some {s : List Char} {n : Int} :
    int64? s = some n ↔ Numeral s n ∧ minInt64 ≤ n ∧ n ≤ maxInt64 := by
  have hguard (value : Option Int) :
      (value.bind fun n =>
          (guard (minInt64 ≤ n ∧ n ≤ maxInt64) : Option Unit).bind fun _ => some n) = some n ↔
        value = some n ∧ minInt64 ≤ n ∧ n ≤ maxInt64 := by
    cases value with
    | none => exact iff_of_false nofun fun h => nomatch h.1
    | some m =>
      by_cases hm : minInt64 ≤ m ∧ m ≤ maxInt64
      · simp only [Option.bind_some, guard, if_pos hm, Option.pure_def, Option.some.injEq]
        constructor
        · rintro rfl
          exact ⟨rfl, hm⟩
        · exact And.left
      · simp only [Option.bind_some, guard, if_neg hm, Option.some.injEq]
        apply iff_of_false nofun
        rintro ⟨rfl, hn⟩
        exact hm hn
  constructor
  · intro h
    simp only [int64?] at h
    split at h
    all_goals
      obtain ⟨hvalue, hrange⟩ := (hguard _).1 h
      obtain ⟨value, hcast, rfl⟩ := Option.map_eq_some_iff.1 hvalue
      obtain ⟨m, hm, hcast⟩ := Option.bind_eq_some_iff.1 hcast
      obtain rfl := Option.some.inj hcast
      obtain ⟨ds, hne, hds, rfl, rfl⟩ := natOfDigits?_eq_some.1 hm
    · exact ⟨.minus hne hds, hrange⟩
    · exact ⟨.plus hne hds, hrange⟩
    · exact ⟨.plain hne hds, hrange⟩
  · rintro ⟨h, hrange⟩
    have hread {ds : List Nat} (hne : ds ≠ []) (hds : ∀ d ∈ ds, d < 10) :
        natOfDigits? (ds.map Nat.digitChar) = some (ds.foldl (fun n d => 10 * n + d) 0) :=
      natOfDigits?_eq_some.2 ⟨ds, hne, hds, rfl, rfl⟩
    cases h with
    | minus hne hds =>
      simp only [int64?, hread hne hds]
      exact (hguard _).2 ⟨rfl, hrange⟩
    | plus hne hds =>
      simp only [int64?, hread hne hds]
      exact (hguard _).2 ⟨rfl, hrange⟩
    | @plain ds hne hds =>
      have hsigns : ∀ d < 10, Nat.digitChar d ≠ '-' ∧ Nat.digitChar d ≠ '+' := by decide
      cases ds with
      | nil => exact absurd rfl hne
      | cons d ds =>
        obtain ⟨hminus, hplus⟩ := hsigns d (hds d (List.mem_cons_self ..))
        simp only [int64?]
        split
        · rename_i hs
          exact absurd (List.cons.inj hs).1 hminus
        · rename_i hs
          exact absurd (List.cons.inj hs).1 hplus
        · rw [hread hne hds]
          exact (hguard _).2 ⟨rfl, hrange⟩

theorem numeral_intChars (n : Int) : Numeral (Json.intChars n) n := by
  obtain ⟨ds, hds⟩ := exists_digits n.natAbs
  simp only [Json.intChars]
  split
  case isTrue hneg =>
    have hvalue : -(n.natAbs : Int) = n := by omega
    have hnumeral := Numeral.minus hds.ne_nil hds.small
    rwa [hds.value, ← hds.chars, hvalue] at hnumeral
  case isFalse hpos =>
    have hvalue : (n.natAbs : Int) = n := by omega
    have hnumeral := Numeral.plain hds.ne_nil hds.small
    rwa [hds.value, ← hds.chars, hvalue] at hnumeral

theorem int64?_intChars {n : Int} (hlo : minInt64 ≤ n) (hhi : n ≤ maxInt64) :
    int64? (Json.intChars n) = some n :=
  int64?_eq_some.2 ⟨numeral_intChars n, hlo, hhi⟩

end Text

theorem Json.toList_toString (n : Int) : (toString n).toList = Json.intChars n := by
  cases n with
  | ofNat n => exact Nat.toList_repr
  | negSucc n =>
    have htext : toString (Int.negSucc n) = "-" ++ Nat.repr (n + 1) := rfl
    rw [htext, String.toList_append, Nat.toList_repr, intChars, if_pos (Int.negSucc_lt_zero n)]
    rfl

end FileEndpoints

import FileEndpoints.Proofs.JsonTokens

namespace FileEndpoints

namespace Json.Numeral

def fractionChars : Option (List Nat) → List Char
  | none => []
  | some ds => '.' :: ds.map Nat.digitChar

def exponentChars : Option Int → List Char
  | none => []
  | some e => 'e' :: (if e < 0 then '-' else '+') :: Nat.toDigits 10 e.natAbs

def Parts.chars (p : Parts) : List Char :=
  (if p.negative then ['-'] else []) ++
    (p.whole.map Nat.digitChar ++ (fractionChars p.fraction ++ exponentChars p.exponent))

structure Parts.Sound (p : Parts) : Prop where
  whole : p.whole ≠ [] ∧ ∀ d ∈ p.whole, d < 10
  lead : p.whole.length = 1 ∨ p.whole.head? ≠ some 0
  fraction : ∀ ds, p.fraction = some ds → ds ≠ [] ∧ ∀ d ∈ ds, d < 10

theorem fraction?_chars {f : Option (List Nat)} {rest : List Char}
    (h : ∀ ds, f = some ds → ds ≠ [] ∧ ∀ d ∈ ds, d < 10)
    (hrest : ∀ c, rest.head? = some c → Text.digit? c = none ∧ c ≠ '.') :
    fraction? (fractionChars f ++ rest) = some (f, rest) := by
  cases f with
  | none =>
    simp only [fractionChars, List.nil_append, fraction?]
    split
    case h_1 => exact absurd rfl (hrest '.' rfl).2
    case h_2 => rfl
  | some ds =>
    obtain ⟨hne, hsmall⟩ := h ds rfl
    have hspan := spanDigits_append hsmall fun c hc => (hrest c hc).1
    simp only [fractionChars, List.cons_append, fraction?, hspan]

theorem exponent?_chars (e : Option Int) : exponent? (exponentChars e) = some (e, []) := by
  cases e with
  | none => rfl
  | some e =>
    obtain ⟨ds, hds⟩ := exists_digits e.natAbs
    have hvalue : natOfDigits ds = e.natAbs := hds.value
    have hspan := spanDigits_digits hds.small
    cases ds with
    | nil => exact absurd rfl hds.ne_nil
    | cons d ds =>
    by_cases hneg : e < 0
    · have hback : -(e.natAbs : Int) = e := by omega
      simp only [exponentChars, hds.chars, if_pos hneg, exponent?, hspan, hvalue, hback,
        true_or, ↓reduceIte]
    · have hback : (e.natAbs : Int) = e := by omega
      simp only [exponentChars, hds.chars, if_neg hneg, exponent?, hspan, hvalue, hback,
        true_or, Bool.false_eq_true, ↓reduceIte]

theorem head_exponentChars {e : Option Int} {c : Char} (h : (exponentChars e).head? = some c) :
    c = 'e' := by
  cases e with
  | none => cases h
  | some e => exact (Option.some.inj h).symm

theorem head_fractionChars {f : Option (List Nat)} {e : Option Int} {c : Char}
    (h : (fractionChars f ++ exponentChars e).head? = some c) : c = '.' ∨ c = 'e' := by
  cases f with
  | none => exact .inr (head_exponentChars h)
  | some ds => exact .inl (Option.some.inj h).symm

theorem unsigned?_chars {p : Parts} (h : p.Sound) :
    unsigned? p.negative (p.whole.map Nat.digitChar ++
      (fractionChars p.fraction ++ exponentChars p.exponent)) = some p := by
  have hmarks : Text.digit? '.' = none ∧ Text.digit? 'e' = none := by decide
  have hwhole := spanDigits_append h.whole.2 fun c hc =>
    (head_fractionChars (f := p.fraction) (e := p.exponent) hc).elim (· ▸ hmarks.1) (· ▸ hmarks.2)
  have hguard : (guard (p.whole ≠ [] ∧ (p.whole.length = 1 ∨ p.whole.head? ≠ some 0)) :
      Option Unit) = some () := if_pos ⟨h.whole.1, h.lead⟩
  have hrest : ∀ c, (exponentChars p.exponent).head? = some c →
      Text.digit? c = none ∧ c ≠ '.' := fun c hc => head_exponentChars hc ▸ ⟨hmarks.2, by decide⟩
  have hfraction := fraction?_chars h.fraction hrest
  simp only [unsigned?, hwhole, hguard, hfraction, exponent?_chars, Option.bind_eq_bind,
    Option.bind_some]
  rfl

theorem parts?_plain {s : List Char} (h : s.head? ≠ some '-') :
    parts? s = unsigned? false s := by
  cases s with
  | nil => rfl
  | cons c s =>
    unfold parts?
    split
    rename_i negative u hsign
    split at hsign
    case h_1 hminus => exact absurd (congrArg List.head? hminus) h
    case h_2 =>
      obtain ⟨rfl, rfl⟩ := Prod.mk.inj hsign
      rfl

/-- What is made of sound parts is a numeral of these parts. -/
theorem parts?_chars {p : Parts} (h : p.Sound) : parts? p.chars = some p := by
  have hunsigned := unsigned?_chars h
  rw [Parts.chars]
  cases hnegative : p.negative with
  | true =>
    rw [hnegative] at hunsigned
    exact hunsigned
  | false =>
    rw [hnegative] at hunsigned
    refine (parts?_plain ?_).trans hunsigned
    have hsigns : ∀ d < 10, Nat.digitChar d ≠ '-' := by decide
    cases hwhole : p.whole with
    | nil => exact absurd hwhole h.whole.1
    | cons d ds =>
      have hd : d < 10 := h.whole.2 d (hwhole ▸ List.mem_cons_self ..)
      exact fun hhead => hsigns d hd (Option.some.inj hhead)

section

open Token (isNumeralChar numeralChar_of_digits)

theorem numeralChar_of_fraction {f : Option (List Nat)}
    (h : ∀ ds, f = some ds → ds ≠ [] ∧ ∀ d ∈ ds, d < 10) :
    ∀ c ∈ fractionChars f, isNumeralChar c = true := by
  cases f with
  | none => exact nofun
  | some ds => exact List.forall_mem_cons.2 ⟨rfl, numeralChar_of_digits (h ds rfl).2⟩

theorem numeralChar_of_exponent (e : Option Int) :
    ∀ c ∈ exponentChars e, isNumeralChar c = true := by
  cases e with
  | none => exact nofun
  | some e =>
    obtain ⟨ds, hds⟩ := exists_digits e.natAbs
    rw [exponentChars, hds.chars]
    refine List.forall_mem_cons.2 ⟨rfl, List.forall_mem_cons.2 ⟨?_, ?_⟩⟩
    · split <;> rfl
    · exact numeralChar_of_digits hds.small

theorem Parts.chars_cons {p : Parts} (h : p.Sound) : ∃ c s, p.chars = c :: s ∧
    (c = '-' ∨ ∃ d < 10, c = Nat.digitChar d) ∧ ∀ d ∈ s, isNumeralChar d = true := by
  have hrest : ∀ c ∈ fractionChars p.fraction ++ exponentChars p.exponent,
      isNumeralChar c = true :=
    List.forall_mem_append.2
      ⟨numeralChar_of_fraction h.fraction, numeralChar_of_exponent p.exponent⟩
  have hwhole := numeralChar_of_digits h.whole.2
  rw [chars]
  cases p.negative with
  | true =>
    have hall := List.forall_mem_append.2 ⟨hwhole, hrest⟩
    exact ⟨'-', _, rfl, .inl rfl, hall⟩
  | false =>
    obtain ⟨hne, hsmall⟩ := h.whole
    cases hds : p.whole with
    | nil => exact absurd hds hne
    | cons d ds =>
      rw [hds] at hwhole hsmall
      have hd := hsmall d (List.mem_cons_self ..)
      have hall := List.forall_mem_append.2 ⟨(List.forall_mem_cons.1 hwhole).2, hrest⟩
      exact ⟨Nat.digitChar d, _, rfl, .inr ⟨d, hd, rfl⟩, hall⟩

end

/-- Digits are all taken as long as no number of as many is too great. -/
theorem absorb_all {n : Nat} {ds : List Nat} (hds : ∀ d ∈ ds, d < 10)
    (hfits : (n + 1) * Nat.pow 10 ds.length ≤ maxWord + 1) :
    ∃ m, m + 1 ≤ (n + 1) * Nat.pow 10 ds.length ∧ absorb n ds = (m, []) := by
  -- `(n + 1) * 10 ^ k` bounds every number that goes on from `n` with `k` digits.
  induction ds generalizing n with
  | nil => exact ⟨n, Nat.le_of_eq (Nat.mul_one _).symm, rfl⟩
  | cons d ds ih =>
    obtain ⟨hd, hrest⟩ := List.forall_mem_cons.1 hds
    have hgrown : (10 * n + d + 1) * Nat.pow 10 ds.length ≤
        (n + 1) * Nat.pow 10 (d :: ds).length :=
      calc (10 * n + d + 1) * Nat.pow 10 ds.length
          ≤ ((n + 1) * 10) * Nat.pow 10 ds.length := Nat.mul_le_mul_right _ (by omega)
        _ = (n + 1) * (Nat.pow 10 ds.length * 10) := by rw [Nat.mul_assoc, Nat.mul_comm 10]
    obtain ⟨m, hm, habsorb⟩ := ih hrest (Nat.le_trans hgrown hfits)
    have hfit : 10 * n + d ≤ maxWord := by
      have hpos : 0 < Nat.pow 10 ds.length := Nat.pow_pos (by decide)
      have hle := Nat.le_mul_of_pos_right (10 * n + d + 1) hpos
      omega
    refine ⟨m, Nat.le_trans hm hgrown, ?_⟩
    rw [absorb, if_pos hfit, habsorb]

theorem absorb_rest (n : Nat) (ds : List Nat) : (absorb n ds).2.length ≤ ds.length := by
  induction ds generalizing n with
  | nil => exact Nat.le_refl _
  | cons d ds ih =>
    rw [absorb]
    split
    · exact Nat.le_succ_of_le (ih _)
    · exact Nat.le_refl _

theorem scale_isSome {x : Float} {e : Int} (he : e < 0) : (scale x e).isSome = true := by
  fun_induction scale x e with
  | case1 => rfl
  | case2 => omega
  | case3 => omega
  | case4 => omega
  | case5 => rfl
  | case6 x e _ _ _ hlow ih => exact ih (by omega)

/-- Parts that scale a number of few digits down, by their fraction or by their exponent. -/
structure Parts.ScalesDown (p : Parts) : Prop where
  whole : p.whole.length ≤ 16
  down : p.exponent = none ∧ p.fraction.isSome = true ∨ ∃ e < 0, p.exponent = some e

theorem Parts.toNumber?_isSome {p : Parts} (h : p.Sound) (hdown : p.ScalesDown) :
    p.toNumber?.isSome = true := by
  have hpow : Nat.pow 10 p.whole.length ≤ Nat.pow 10 16 :=
    Nat.pow_le_pow_right (by decide) hdown.whole
  have hlimit : Nat.pow 10 16 * 10 ≤ maxWord := by decide
  obtain ⟨m, hm, hwhole⟩ := absorb_all (n := 0) h.whole.2 (by omega)
  have hrest := absorb_rest m (p.fraction.getD [])
  have hscale : (0 : Int) -
      ((p.fraction.getD []).length - (absorb m (p.fraction.getD [])).2.length) +
        p.exponent.getD 0 < 0 := by
    rcases hdown.down with ⟨hexponent, hfraction⟩ | ⟨e, he, hexponent⟩
    · obtain ⟨ds, hds⟩ := Option.isSome_iff_exists.1 hfraction
      obtain ⟨hne, hsmall⟩ := h.fraction ds hds
      rw [hexponent, hds, Option.getD_none, Option.getD_some]
      cases ds with
      | nil => exact absurd rfl hne
      | cons d ds =>
        have hd := hsmall d (List.mem_cons_self ..)
        have hfirst : 10 * m + d ≤ maxWord := by omega
        have hlater := absorb_rest (10 * m + d) ds
        rw [absorb, if_pos hfirst, List.length_cons]
        omega
    · rw [hexponent, Option.getD_some]
      omega
  have hfloat : p.toFloat?.isSome = true := by
    simp only [toFloat?, hwhole, List.length_nil, Option.bind_eq_bind, Option.isSome_bind,
      Option.any_eq_true_iff_get]
    exact ⟨scale_isSome hscale, rfl⟩
  rw [toNumber?]
  split
  · rfl
  · split
    · rfl
    · rw [Option.isSome_map]
      exact hfloat

end Json.Numeral

namespace Decimal

open Json (doubleLayout)
open Json.Numeral (Parts)

/-- The parts of a numeral that is read again, or has an exponent beyond those of positional
texts. -/
structure Legible (p : Parts) : Prop where
  sound : p.Sound
  read : p.ScalesDown ∨ ∃ e > doubleLayout.greatestPlain, p.exponent = some e

variable {d : Decimal} {ds : List Nat}

def Trimmed (d : Decimal) : Prop :=
  0 < d.digits ∨ d = ⟨0, 0⟩

theorem trimmed_lead (h : d.Trimmed) (hds : Digits d.digits ds) :
    ds = [0] ∧ d.exponent = 0 ∨ ds.head? ≠ some 0 := by
  rcases hds.lead with rfl | hlead
  · rcases h with hpos | rfl
    · exact absurd hds.value (Nat.ne_of_lt hpos)
    · exact .inl ⟨rfl, rfl⟩
  · exact .inr hlead

theorem replicate_zero_small (k : Nat) : ∀ e ∈ List.replicate k 0, e < 10 := by
  intro e he
  rw [List.eq_of_mem_replicate he]
  decide

theorem integral_legible (h : d.Trimmed) (hds : Digits d.digits ds) (hexponent : 0 ≤ d.exponent)
    (hplace : (ds.length : Int) + d.exponent ≤ 16) :
    Legible ⟨false, ds ++ List.replicate d.exponent.toNat 0, some [0], none⟩ := by
  refine ⟨⟨?_, ?_, ?_⟩, .inl ⟨?_, .inl ⟨rfl, rfl⟩⟩⟩
  · exact ⟨List.append_ne_nil_of_left_ne_nil hds.ne_nil _,
      List.forall_mem_append.2 ⟨hds.small, replicate_zero_small _⟩⟩
  · rcases trimmed_lead h hds with ⟨rfl, hnone⟩ | hlead
    · left
      rw [hnone]
      rfl
    · right
      rw [List.head?_append, Option.or_of_isSome (List.isSome_head?.2 hds.ne_nil)]
      exact hlead
  · rintro _ ⟨⟩
    exact ⟨List.cons_ne_nil _ _, List.forall_mem_singleton.2 (by decide)⟩
  · rw [List.length_append, List.length_replicate]
    omega

theorem pointed_legible (h : d.Trimmed) (hds : Digits d.digits ds) {n : Nat} (hn : 0 < n)
    (hlast : n < ds.length) (hplace : n ≤ 16) :
    Legible ⟨false, ds.take n, some (ds.drop n), none⟩ := by
  have hsmall : (∀ e ∈ ds.take n, e < 10) ∧ ∀ e ∈ ds.drop n, e < 10 := by
    have hall := hds.small
    rw [← List.take_append_drop n ds] at hall
    exact List.forall_mem_append.1 hall
  refine ⟨⟨⟨?_, hsmall.1⟩, ?_, ?_⟩, .inl ⟨?_, .inl ⟨rfl, rfl⟩⟩⟩
  · exact List.ne_nil_of_length_pos (by rw [List.length_take]; omega)
  · right
    rw [List.head?_take, if_neg (Nat.ne_of_gt hn)]
    rcases trimmed_lead h hds with ⟨rfl, -⟩ | hlead
    · rw [List.length_singleton] at hlast
      omega
    · exact hlead
  · rintro _ ⟨⟩
    exact ⟨List.ne_nil_of_length_pos (by rw [List.length_drop]; omega), hsmall.2⟩
  · rw [List.length_take]
    omega

theorem fractional_legible (hne : ds ≠ []) (hds : ∀ d ∈ ds, d < 10) (n : Nat) :
    Legible ⟨false, [0], some (List.replicate n 0 ++ ds), none⟩ := by
  have hone : 1 ≤ 16 := by decide
  refine ⟨⟨⟨List.cons_ne_nil _ _, List.forall_mem_singleton.2 (by decide)⟩, .inl rfl, ?_⟩,
    .inl ⟨hone, .inl ⟨rfl, rfl⟩⟩⟩
  rintro _ ⟨⟩
  exact ⟨List.append_ne_nil_of_right_ne_nil _ hne,
    List.forall_mem_append.2 ⟨replicate_zero_small _, hds⟩⟩

theorem scientific_legible {e : Nat} (hds : ∀ d ∈ e :: ds, d < 10) (exponent : Int)
    (hexponent : exponent < 0 ∨ 15 < exponent) :
    Legible ⟨false, [e], if ds = [] then none else some ds, some exponent⟩ := by
  obtain ⟨he, hrest⟩ := List.forall_mem_cons.1 hds
  have hone : 1 ≤ 16 := by decide
  refine ⟨⟨⟨List.cons_ne_nil _ _, List.forall_mem_singleton.2 he⟩, .inl rfl, ?_⟩, ?_⟩
  · intro fraction hfraction
    rw [Option.ite_none_left_eq_some] at hfraction
    obtain ⟨hne, ⟨⟩⟩ := hfraction
    exact ⟨hne, hrest⟩
  · rcases hexponent with hneg | hgreat
    · exact .inl ⟨hone, .inr ⟨exponent, hneg, rfl⟩⟩
    · exact .inr ⟨exponent, hgreat, rfl⟩

theorem scientific_chars (e : Nat) (ds : List Nat) (exponent : Int) :
    doubleLayout.scientific ((e :: ds).map Nat.digitChar) exponent =
      Parts.chars ⟨false, [e], if ds = [] then none else some ds, some exponent⟩ := by
  have hexponent : ('e' :: if exponent < 0 then ['-'] else if doubleLayout.plusSign then ['+']
      else []) ++ Nat.toDigits 10 exponent.natAbs =
        Json.Numeral.exponentChars (some exponent) := by
    rw [Json.Numeral.exponentChars]
    split <;> rfl
  cases ds with
  | nil =>
    simp only [Layout.scientific, List.map_cons, List.map_nil, List.append_assoc, hexponent]
    rfl
  | cons f ds =>
    simp only [Layout.scientific, List.map_cons, List.append_assoc, hexponent]
    rfl

theorem digitChar_zero : Nat.digitChar 0 = '0' := rfl

/-- Every layout of a decimal is a numeral. -/
theorem text_legible (h : d.Trimmed) :
    ∃ p : Parts, Legible p ∧ p.negative = false ∧ doubleLayout.text d = p.chars := by
  obtain ⟨ds, hds⟩ := exists_digits d.digits
  have hlength : 0 < ds.length := List.length_pos_iff.2 hds.ne_nil
  have hrange : doubleLayout.leastPlain = -5 ∧ doubleLayout.greatestPlain = 15 := ⟨rfl, rfl⟩
  simp only [Layout.text, hds.chars, List.length_map, hrange]
  split
  case isTrue hplain =>
    simp only [positional, List.length_map]
    split
    case isTrue hexponent =>
      refine ⟨_, integral_legible h hds hexponent (by omega), rfl, ?_⟩
      simp only [Parts.chars, Json.Numeral.fractionChars, Json.Numeral.exponentChars,
        Bool.false_eq_true, ↓reduceIte, List.nil_append, List.append_nil, List.map_append,
        List.map_replicate, digitChar_zero, List.map_cons, List.map_nil]
    case isFalse hexponent =>
    split
    case isTrue hpoint =>
      refine ⟨_, pointed_legible h hds (n := (ds.length + d.exponent).toNat) (by omega)
        (by omega) (by omega), rfl, ?_⟩
      simp only [Parts.chars, Json.Numeral.fractionChars, Json.Numeral.exponentChars,
        Bool.false_eq_true, ↓reduceIte, List.nil_append, List.append_nil, List.map_take,
        List.map_drop]
    case isFalse hpoint =>
      refine ⟨_, fractional_legible hds.ne_nil hds.small (-(ds.length + d.exponent)).toNat, rfl,
        ?_⟩
      simp only [Parts.chars, Json.Numeral.fractionChars, Json.Numeral.exponentChars,
        Bool.false_eq_true, ↓reduceIte, List.nil_append, List.append_nil, List.map_append,
        List.map_replicate, digitChar_zero, List.map_cons, List.map_nil, List.cons_append]
  case isFalse hplain =>
    cases ds with
    | nil => exact absurd rfl hds.ne_nil
    | cons e ds =>
      exact ⟨_, scientific_legible hds.small _ (by omega), rfl, scientific_chars e ds _⟩

theorem trim_pos {d : Decimal} (h : 0 < d.digits) : 0 < d.trim.digits := by
  fun_induction trim d with
  | case1 d hzero ih =>
    have hrest : 0 < d.digits / 10 := by omega
    exact ih hrest
  | case2 d hdone => exact h

theorem Binary.onGrid?_pos {b : Binary} {grid : Int} (h : b.onGrid? grid = some d) :
    0 < d.digits := by
  obtain ⟨c, hc, rfl⟩ := Option.map_eq_some_iff.1 h
  have hcovered := List.find?_some hc
  rw [Bool.and_eq_true, decide_eq_true_eq] at hcovered
  exact hcovered.1

theorem Binary.shortest_trimmed (b : Binary) : b.shortest.Trimmed := by
  rw [shortest]
  split
  case h_1 d hd =>
    obtain ⟨k, -, hgrid⟩ := List.exists_of_findSome?_eq_some hd
    exact .inl (trim_pos (onGrid?_pos hgrid))
  case h_2 => exact .inr rfl

theorem Legible.signed {p : Parts} (h : Legible p) : Legible { p with negative := true } := by
  obtain ⟨⟨hwhole, hlead, hfraction⟩, hread⟩ := h
  refine ⟨⟨hwhole, hlead, hfraction⟩, ?_⟩
  rcases hread with ⟨hshort, hdown⟩ | hgreat
  · exact .inl ⟨hshort, hdown⟩
  · exact .inr hgreat

/-- Every text of a double is a numeral. -/
theorem write_legible (x : Float) : ∃ p : Parts, Legible p ∧ doubleLayout.write x = p.chars := by
  have hunsigned : ∃ p : Parts, Legible p ∧ p.negative = false ∧
      (if x == 0 then ['0', '.', '0'] else doubleLayout.text (Binary.ofFloat x).shortest) =
        p.chars := by
    split
    · have hzero : ∀ d ∈ [0], d < 10 := by decide
      exact ⟨_, fractional_legible (List.cons_ne_nil 0 []) hzero 0, rfl, rfl⟩
    · exact text_legible (Binary.shortest_trimmed _)
  obtain ⟨p, hp, hplain, htext⟩ := hunsigned
  have hwrite : doubleLayout.write x =
      (if x.toBits.toNat < Nat.pow 2 63 then [] else ['-']) ++ p.chars := by
    rw [← htext, Layout.write]
    split <;> rfl
  rw [hwrite]
  split
  · exact ⟨p, hp, rfl⟩
  · refine ⟨_, hp.signed, ?_⟩
    simp only [Parts.chars, hplain, Bool.false_eq_true, ↓reduceIte, List.nil_append]

end Decimal

end FileEndpoints

import FileEndpoints.Json.Token
import FileEndpoints.Proofs.DecimalDigits

namespace FileEndpoints.Json

/-- Values without doubles, in which no object repeats a name, with at most `n` containers inside
each other. Whole numbers are those of 64 bits, with or without a sign. -/
inductive Plain : Nat → Json → Prop
  | null {n} : Plain n .null
  | bool {n b} : Plain n (.bool b)
  | int {n i} (hlo : -0x8000000000000000 ≤ i) (hhi : i ≤ 0xFFFFFFFFFFFFFFFF) :
      Plain n (.num (.int i))
  | str {n s} : Plain n (.str s)
  | arr {n items} (hitems : ∀ v ∈ items, Plain n v) : Plain (n + 1) (.arr items)
  | obj {n members} (hnames : (members.map Prod.fst).Nodup)
      (hmembers : ∀ m ∈ members, Plain n m.2) : Plain (n + 1) (.obj members)

namespace Numeral

theorem spanDigits_append {ds : List Nat} {rest : List Char} (h : ∀ d ∈ ds, d < 10)
    (hrest : ∀ c, rest.head? = some c → Text.digit? c = none) :
    spanDigits (ds.map Nat.digitChar ++ rest) = (ds, rest) := by
  induction ds with
  | nil =>
    cases rest with
    | nil => rfl
    | cons c rest => simp only [List.map_nil, List.nil_append, spanDigits, hrest c rfl]
  | cons d ds ih =>
    have htail := ih fun e he => h e (List.mem_cons_of_mem _ he)
    have hd := Text.digit?_digitChar (h d (List.mem_cons_self ..))
    simp only [List.map_cons, List.cons_append, spanDigits, hd, htail]

theorem spanDigits_digits {ds : List Nat} (h : ∀ d ∈ ds, d < 10) :
    spanDigits (ds.map Nat.digitChar) = (ds, []) := by
  have hend : ∀ c, ([] : List Char).head? = some c → Text.digit? c = none := nofun
  have hspan := spanDigits_append h hend
  rwa [List.append_nil] at hspan

theorem parts?_digits {n : Nat} {ds : List Nat} (h : Digits n ds) :
    parts? (ds.map Nat.digitChar) =
        some { negative := false, whole := ds, fraction := none, exponent := none } ∧
      parts? ('-' :: ds.map Nat.digitChar) =
        some { negative := true, whole := ds, fraction := none, exponent := none } := by
  have hwhole : ds ≠ [] ∧ (ds.length = 1 ∨ ds.head? ≠ some 0) := by
    refine ⟨h.ne_nil, ?_⟩
    rcases h.lead with hzero | hlead
    · exact .inl (congrArg List.length hzero)
    · exact .inr hlead
  have hguard : (guard (ds ≠ [] ∧ (ds.length = 1 ∨ ds.head? ≠ some 0)) : Option Unit) = some () :=
    if_pos hwhole
  have hspan := spanDigits_digits h.small
  have hsigns : ∀ d < 10, Nat.digitChar d ≠ '-' := by decide
  constructor
  · simp only [parts?]
    split
    · rename_i s hsign
      obtain ⟨d, ds', rfl, hd, -⟩ := List.map_eq_cons_iff.1 hsign
      exact absurd hd (hsigns d (h.small d (List.mem_cons_self ..)))
    · simp only [hspan, hguard]
      rfl
  · simp only [parts?, hspan, hguard]
    rfl

theorem read?_intChars {i : Int} (hlo : -0x8000000000000000 ≤ i) (hhi : i ≤ 0xFFFFFFFFFFFFFFFF) :
    read? (intChars i) = some (.int i) := by
  obtain ⟨ds, hds⟩ := exists_digits i.natAbs
  obtain ⟨hplain, hsigned⟩ := parts?_digits hds
  have hvalue : natOfDigits ds = i.natAbs := hds.value
  simp only [intChars, hds.chars]
  split
  case isTrue hneg =>
    have hrange : i.natAbs ≠ 0 ∧ i.natAbs ≤ Nat.pow 2 63 := by
      have hpow : Nat.pow 2 63 = 0x8000000000000000 := rfl
      omega
    have hback : -(i.natAbs : Int) = i := by omega
    simp only [read?, hsigned, Option.bind_some, Parts.toNumber?, hvalue, hrange, hback, ne_eq,
      not_false_eq_true]
    rfl
  case isFalse hpos =>
    have hrange : i.natAbs ≤ maxWord := by
      have hmax : maxWord = 0xFFFFFFFFFFFFFFFF := rfl
      omega
    have hback : (i.natAbs : Int) = i := by omega
    simp [read?, hplain, Parts.toNumber?, hvalue, hrange, hback]

theorem spanDigits_eq {s rest : List Char} {ds : List Nat} (h : spanDigits s = (ds, rest)) :
    s = ds.map Nat.digitChar ++ rest ∧ ∀ d ∈ ds, d < 10 := by
  induction s generalizing ds with
  | nil =>
    cases h
    exact ⟨rfl, fun _ hd => nomatch hd⟩
  | cons c s ih =>
    simp only [spanDigits] at h
    cases hc : Text.digit? c with
    | none =>
      simp only [hc, Prod.mk.injEq] at h
      obtain ⟨rfl, rfl⟩ := h
      exact ⟨rfl, fun _ hd => nomatch hd⟩
    | some d =>
      obtain ⟨rfl, hd⟩ := Text.digit?_eq_some hc
      simp only [hc, Prod.mk.injEq] at h
      obtain ⟨rfl, hrest⟩ := h
      obtain ⟨hs, hsmall⟩ := ih (Prod.ext rfl hrest)
      refine ⟨?_, List.forall_mem_cons.2 ⟨hd, hsmall⟩⟩
      rw [List.map_cons, List.cons_append, ← hs]

theorem fraction?_none {s rest : List Char} (h : fraction? s = some (none, rest)) : rest = s := by
  unfold fraction? at h
  split at h
  · split at h <;> cases h
  · cases h
    rfl

theorem exponent?_none {s rest : List Char} (h : exponent? s = some (none, rest)) : rest = s := by
  unfold exponent? at h
  split at h
  · cases h
    rfl
  · split at h
    · simp only at h
      split at h <;> cases h
    · cases h
      rfl

def unsigned? (negative : Bool) (s : List Char) : Option Parts := do
  let (whole, s) := spanDigits s
  guard (whole ≠ [] ∧ (whole.length = 1 ∨ whole.head? ≠ some 0))
  let (fraction, s) ← fraction? s
  let (exponent, s) ← exponent? s
  guard s.isEmpty
  return { negative, whole, fraction, exponent }

theorem parts?_signed {s : List Char} {p : Parts} (h : parts? s = some p) :
    (∃ u, s = '-' :: u ∧ unsigned? true u = some p) ∨ unsigned? false s = some p := by
  unfold parts? at h
  split at h
  rename_i negative u hsign
  split at hsign
  · obtain ⟨rfl, rfl⟩ := Prod.mk.inj hsign
    exact .inl ⟨_, rfl, h⟩
  · obtain ⟨rfl, rfl⟩ := Prod.mk.inj hsign
    exact .inr h

theorem unsigned?_whole {negative : Bool} {s : List Char} {p : Parts}
    (h : unsigned? negative s = some p) (hfraction : p.fraction = none)
    (hexponent : p.exponent = none) :
    p.negative = negative ∧ Digits (natOfDigits p.whole) p.whole ∧
      s = p.whole.map Nat.digitChar := by
  unfold unsigned? at h
  rcases hspan : spanDigits s with ⟨whole, afterWhole⟩
  simp only [hspan, Option.bind_eq_bind, Option.bind_eq_some_iff, Option.guard_eq_some'] at h
  obtain ⟨_, hwhole, ⟨fraction, afterFraction⟩, hfrac, ⟨exponent, afterExponent⟩, hexp, _, hend,
    hp⟩ := h
  cases hp
  dsimp only at *
  subst hfraction hexponent
  obtain rfl := fraction?_none hfrac
  obtain rfl := exponent?_none hexp
  obtain ⟨rfl, hsmall⟩ := spanDigits_eq hspan
  rw [List.isEmpty_iff.1 hend, List.append_nil]
  exact ⟨rfl, digits_of_lead hwhole.1 hsmall hwhole.2, rfl⟩

theorem Parts.toNumber?_eq_int {p : Parts} {i : Int} (h : p.toNumber? = some (.int i)) :
    p.fraction = none ∧ p.exponent = none ∧
      (p.negative = false ∧ i = natOfDigits p.whole ∧ i ≤ 0xFFFFFFFFFFFFFFFF ∨
        p.negative = true ∧ i = -(natOfDigits p.whole : Int) ∧
          -0x8000000000000000 ≤ i ∧ i < 0) := by
  have hmax : maxWord = 0xFFFFFFFFFFFFFFFF := rfl
  have hpow : Nat.pow 2 63 = 0x8000000000000000 := rfl
  simp only [toNumber?] at h
  split at h
  case isTrue hplain =>
    cases h
    simp only [Bool.and_eq_true, Option.isNone_iff_eq_none, Bool.not_eq_true',
      decide_eq_true_eq] at hplain
    exact ⟨hplain.1.1.1, hplain.1.1.2, .inl ⟨hplain.1.2, rfl, by omega⟩⟩
  case isFalse =>
  split at h
  case isTrue hsigned =>
    cases h
    simp only [Bool.and_eq_true, Option.isNone_iff_eq_none, decide_eq_true_eq,
      ne_eq] at hsigned
    exact ⟨hsigned.1.1.1.1, hsigned.1.1.1.2, .inr ⟨hsigned.1.1.2, rfl, by omega, by omega⟩⟩
  case isFalse =>
    obtain ⟨x, -, hx⟩ := Option.map_eq_some_iff.1 h
    cases hx

/-- Whole numbers of 64 bits are kept for their own numerals and for no others. -/
theorem read?_eq_int {s : List Char} {i : Int} : read? s = some (.int i) ↔
    s = intChars i ∧ -0x8000000000000000 ≤ i ∧ i ≤ 0xFFFFFFFFFFFFFFFF := by
  constructor
  · intro h
    obtain ⟨p, hp, hnumber⟩ := Option.bind_eq_some_iff.1 h
    obtain ⟨hfraction, hexponent, hsign⟩ := Parts.toNumber?_eq_int hnumber
    rcases parts?_signed hp with ⟨u, rfl, hu⟩ | hu
    · obtain ⟨hnegative, hdigits, rfl⟩ := unsigned?_whole hu hfraction hexponent
      rcases hsign with ⟨hpositive, -⟩ | ⟨-, hi, hlo, hhi⟩
      · cases hpositive.symm.trans hnegative
      · refine ⟨?_, hlo, by omega⟩
        rw [intChars, if_pos hhi, show i.natAbs = natOfDigits p.whole by omega, hdigits.chars]
    · obtain ⟨hnegative, hdigits, rfl⟩ := unsigned?_whole hu hfraction hexponent
      rcases hsign with ⟨-, hi, hhi⟩ | ⟨hnegative', -⟩
      · refine ⟨?_, by omega, hhi⟩
        rw [intChars, if_neg (by omega), show i.natAbs = natOfDigits p.whole by omega,
          hdigits.chars]
      · cases hnegative.symm.trans hnegative'
  · rintro ⟨rfl, hlo, hhi⟩
    exact read?_intChars hlo hhi

end Numeral

namespace Token

open Lexer

variable {out : List Token} {rest : List Char}

/-- What follows a numeral or a word and belongs to neither. -/
def Stops (rest : List Char) : Prop :=
  ∀ c, rest.head? = some c → isNumeralChar c = false ∧ c.isLower = false

theorem run_cons {l l' : Lexer} {c : Char} {ts : List Token} (h : l.step c = some (ts, l')) :
    l.run out (c :: rest) = l'.run (ts.reverse ++ out) rest := by
  simp only [Lexer.run, h]

theorem run_silent {l l' : Lexer} {c : Char} (h : l.step c = some ([], l')) :
    l.run out (c :: rest) = l'.run out rest :=
  run_cons h

theorem run_ended {l : Lexer} {t : Token} (hclose : l.close = some [t])
    (hstep : ∀ c, rest.head? = some c →
      l.step c = (begin c).map fun begun => (t :: begun.1, begun.2)) :
    l.run out rest = idle.run (t :: out) rest := by
  cases rest with
  | nil =>
    simp only [Lexer.run, hclose]
    rfl
  | cons c s =>
    have hidle : idle.step c = begin c := rfl
    simp only [Lexer.run, hstep c rfl, hidle]
    cases begin c with
    | none => rfl
    | some begun =>
      simp only [Option.map_some, List.reverse_cons, List.append_assoc, List.cons_append,
        List.nil_append]

theorem run_numeral {s done : List Char} (h : ∀ c ∈ s, isNumeralChar c = true) :
    (numeral done).run out (s ++ rest) = (numeral (s.reverse ++ done)).run out rest := by
  induction s generalizing done with
  | nil => rfl
  | cons c s ih =>
    have hstep : (numeral done).step c = some ([], numeral (c :: done)) := by
      simp only [step, h c (List.mem_cons_self ..), ↓reduceIte]
    rw [List.cons_append, run_silent hstep, ih fun d hd => h d (List.mem_cons_of_mem _ hd),
      List.reverse_cons, List.append_assoc]
    rfl

theorem numeralChar_of_digits {ds : List Nat} (h : ∀ d ∈ ds, d < 10) :
    ∀ c ∈ ds.map Nat.digitChar, isNumeralChar c = true := by
  have hall : ∀ d < 10, isNumeralChar (Nat.digitChar d) = true := by decide
  intro c hc
  obtain ⟨d, hd, rfl⟩ := List.mem_map.1 hc
  exact hall d (h d hd)

theorem intChars_cons (i : Int) : ∃ c s, intChars i = c :: s ∧
    (c = '-' ∨ ∃ d < 10, c = Nat.digitChar d) ∧ ∀ d ∈ s, isNumeralChar d = true := by
  obtain ⟨ds, hds⟩ := exists_digits i.natAbs
  have hdigits := numeralChar_of_digits hds.small
  simp only [intChars, hds.chars]
  split
  · exact ⟨'-', _, rfl, .inl rfl, hdigits⟩
  · cases ds with
    | nil => exact absurd rfl hds.ne_nil
    | cons d ds =>
      have hd := hds.small d (List.mem_cons_self ..)
      refine ⟨Nat.digitChar d, _, rfl, .inr ⟨d, hd, rfl⟩, fun c hc => ?_⟩
      exact hdigits c (List.mem_cons_of_mem _ hc)

theorem begin_numeral {c : Char} (h : c = '-' ∨ ∃ d < 10, c = Nat.digitChar d) :
    idle.step c = some ([], numeral [c]) := by
  rcases h with rfl | ⟨d, hd, rfl⟩
  · rfl
  · have hdigit : ∀ d < 10, isSpace (Nat.digitChar d) = false ∧ Nat.digitChar d ≠ '[' ∧
        Nat.digitChar d ≠ ']' ∧ Nat.digitChar d ≠ '\x7b' ∧ Nat.digitChar d ≠ '\x7d' ∧
        Nat.digitChar d ≠ ',' ∧ Nat.digitChar d ≠ ':' ∧ Nat.digitChar d ≠ '"' ∧
        (Nat.digitChar d).isDigit = true := by decide
    simp only [step, begin, hdigit d hd, or_true, Bool.false_eq_true, ↓reduceIte]

theorem run_number {c : Char} {s : List Char} (hc : c = '-' ∨ ∃ d < 10, c = Nat.digitChar d)
    (hs : ∀ d ∈ s, isNumeralChar d = true) (hrest : Stops rest) :
    idle.run out (c :: s ++ rest) =
      (Numeral.read? (c :: s)).bind fun n => idle.run (scalar (.num n) :: out) rest := by
  have hclose : (numeral (s.reverse ++ [c])).close =
      (Numeral.read? (c :: s)).map fun n => [scalar (.num n)] := by
    have hdone : (s.reverse ++ [c]).reverse = c :: s := by
      rw [List.reverse_append, List.reverse_reverse]
      rfl
    simp only [close, hdone]
  rw [List.cons_append, run_silent (begin_numeral hc), run_numeral hs]
  cases hread : Numeral.read? (c :: s) with
  | some n =>
    rw [hread] at hclose
    apply run_ended hclose
    intro d hd
    simp only [step, (hrest d hd).1, Bool.false_eq_true, ↓reduceIte, hclose, Option.map_some]
    cases begin d <;> rfl
  | none =>
    rw [hread] at hclose
    cases rest with
    | nil =>
      rw [Lexer.run, hclose]
      rfl
    | cons d rest =>
      have hstep : (numeral (s.reverse ++ [c])).step d = none := by
        simp only [step, (hrest d rfl).1, Bool.false_eq_true, ↓reduceIte, hclose, Option.map_none]
      rw [Lexer.run, hstep]
      rfl

theorem run_int {i : Int} (hlo : -0x8000000000000000 ≤ i) (hhi : i ≤ 0xFFFFFFFFFFFFFFFF)
    (hrest : Stops rest) :
    idle.run out (intChars i ++ rest) = idle.run (scalar (.num (.int i)) :: out) rest := by
  obtain ⟨c, s, hchars, hc, hs⟩ := intChars_cons i
  have hread := Numeral.read?_intChars hlo hhi
  rw [hchars] at hread ⊢
  rw [run_number hc hs hrest, hread]
  rfl

theorem run_word {w : List Char} {v : Json} (hw : literal? w = some v) (hrest : Stops rest) :
    idle.run out (w ++ rest) = idle.run (scalar v :: out) rest := by
  have hended (done : List Char) (hdone : literal? done.reverse = some v) :
      (word done).run out rest = idle.run (scalar v :: out) rest := by
    have hclose : (word done).close = some [scalar v] := by
      simp only [close, hdone, Option.map_some]
    apply run_ended hclose
    intro c hc
    simp only [step, (hrest c hc).2, Bool.false_eq_true, ↓reduceIte, hclose]
    cases begin c <;> rfl
  simp only [literal?] at hw
  split at hw
  · rename_i h
    subst h
    exact hended ['l', 'l', 'u', 'n'] hw
  · split at hw
    · rename_i h
      subst h
      exact hended ['e', 'u', 'r', 't'] hw
    · split at hw
      · rename_i h
        subst h
        exact hended ['e', 's', 'l', 'a', 'f'] hw
      · cases hw

/-- The three forms in which a character is written. -/
inductive Escaped (c : Char) : List Char → Prop
  | simple {d} (hd : d ≠ 'u') (he : simpleEscape? d = some c) : Escaped c ['\\', d]
  | control (hc : c.toNat < 0x20) :
      Escaped c ['\\', 'u', '0', '0', hexDigit (c.toNat / 16), hexDigit c.toNat]
  | plain (hquote : c ≠ '"') (hbackslash : c ≠ '\\') (hc : ¬ c.toNat < 0x20) : Escaped c [c]

theorem escapeChar_escaped (c : Char) : Escaped c (escapeChar c) := by
  have hsimple {d e : Char} (hd : d ≠ 'u') (he : simpleEscape? d = some e) (hc : c = e) :
      Escaped c ['\\', d] := .simple hd (hc ▸ he)
  simp only [escapeChar]
  split
  case isTrue hc => exact hsimple (by decide) rfl hc
  case isFalse hquote =>
  split
  case isTrue hc => exact hsimple (by decide) rfl hc
  case isFalse hbackslash =>
  split
  case isTrue hc => exact hsimple (by decide) rfl hc
  split
  case isTrue hc => exact hsimple (by decide) rfl hc
  split
  case isTrue hc => exact hsimple (by decide) rfl hc
  split
  case isTrue hc => exact hsimple (by decide) rfl hc
  split
  case isTrue hc => exact hsimple (by decide) rfl hc
  split
  case isTrue hc => exact .control hc
  case isFalse hc => exact .plain hquote hbackslash hc

theorem hexDigit?_hexDigit (n : Nat) : hexDigit? (hexDigit n) = some (n % 16) := by
  have hall : ∀ d < 16, hexDigit? (Nat.digitChar d) = some d := by decide
  exact hall (n % 16) (Nat.mod_lt _ (by decide))

theorem run_hex {done : List Char} {high : Option Nat} {value missing : Nat} (n : Nat) :
    (hex done high value (missing + 2)).run out (hexDigit n :: rest) =
      (hex done high (16 * value + n % 16) (missing + 1)).run out rest := by
  apply run_silent
  simp only [step, hexDigit?_hexDigit, Option.bind_some, show ¬ missing + 2 ≤ 1 by omega,
    ↓reduceIte]
  rfl

theorem run_lastHex {done : List Char} {value n : Nat} (h : 16 * value + n % 16 < 0xD800) :
    (hex done none value 1).run out (hexDigit n :: rest) =
      (string (Char.ofNat (16 * value + n % 16) :: done)).run out rest := by
  apply run_silent
  simp only [step, hexDigit?_hexDigit, Option.bind_some, Nat.le_refl, ↓reduceIte, closeHex]
  rw [if_neg (by omega), if_neg (by omega)]
  rfl

theorem run_escapeChar (c : Char) {done : List Char} :
    (string done).run out (escapeChar c ++ rest) = (string (c :: done)).run out rest := by
  have hescaped := escapeChar_escaped c
  generalize escapeChar c = s at hescaped ⊢
  cases hescaped with
  | simple hd he =>
    rename_i d
    have hstep : (escape done).step d = some ([], string (c :: done)) := by
      simp only [step, hd, he, Option.map_some, ↓reduceIte]
    exact run_silent hstep
  | control hc =>
    have hvalue : 16 * (c.toNat / 16 % 16) + c.toNat % 16 = c.toNat := by omega
    have hzeros : (string done).run out
        (['\\', 'u', '0', '0', hexDigit (c.toNat / 16), hexDigit c.toNat] ++ rest) =
          (hex done none 0 2).run out (hexDigit (c.toNat / 16) :: hexDigit c.toNat :: rest) := rfl
    rw [hzeros, run_hex, run_lastHex (by omega), Nat.mul_zero, Nat.zero_add, hvalue,
      Char.ofNat_toNat]
  | plain hquote hbackslash hc =>
    apply run_silent
    simp only [step, hquote, hbackslash, hc, ↓reduceIte]

theorem run_quoted (s : List Char) {done : List Char} :
    (string done).run out (s.flatMap escapeChar ++ '"' :: rest) =
      idle.run (text (String.ofList (done.reverse ++ s)) :: out) rest := by
  induction s generalizing done with
  | nil =>
    have hclose : (string done).step '"' = some ([text (String.ofList done.reverse)], idle) := rfl
    rw [List.append_nil]
    exact run_cons hclose
  | cons c s ih =>
    rw [List.flatMap_cons, List.append_assoc, run_escapeChar, ih, List.reverse_cons,
      List.append_assoc]
    rfl

theorem run_quoteChars (s : String) :
    idle.run out (quoteChars s.toList ++ rest) = idle.run (text s :: out) rest := by
  have hquote : idle.step '"' = some ([], string []) := rfl
  have hchars : quoteChars s.toList ++ rest =
      '"' :: (s.toList.flatMap escapeChar ++ '"' :: rest) := by
    simp only [quoteChars, List.cons_append, List.append_assoc, List.nil_append]
  rw [hchars, run_silent hquote, run_quoted, List.reverse_nil, List.nil_append,
    String.ofList_toList]

end Token

mutual

def tokens : Json → List Token
  | str s => [.text s]
  | arr [] => [.openArray, .closeArray]
  | arr (v :: vs) => .openArray :: tokens v ++ itemTokens vs
  | obj [] => [.openObject, .closeObject]
  | obj ((name, v) :: ms) => .openObject :: .text name :: .colon :: tokens v ++ memberTokens ms
  | v => [.scalar v]

/-- The tokens of the further items of an array, and of its end. -/
def itemTokens : List Json → List Token
  | [] => [.closeArray]
  | v :: vs => .comma :: tokens v ++ itemTokens vs

/-- The tokens of the further members of an object, and of its end. -/
def memberTokens : List (String × Json) → List Token
  | [] => [.closeObject]
  | (name, v) :: ms => .comma :: .text name :: .colon :: tokens v ++ memberTokens ms

end

namespace Token

open Lexer

variable {out : List Token} {rest : List Char}

/-- What is written for a value is taken for its tokens, wherever it stands. -/
def Lexes (v : Json) : Prop :=
  ∀ (out : List Token) (rest : List Char), Stops rest →
    idle.run out (v.chars ++ rest) = idle.run (v.tokens.reverse ++ out) rest

theorem stops_mark {c : Char} (hnumeral : isNumeralChar c = false) (hlower : c.isLower = false)
    (s : List Char) : Stops (c :: s) := by
  intro d hd
  rw [← Option.some.inj hd]
  exact ⟨hnumeral, hlower⟩

theorem stops_items (vs : List Json) (rest : List Char) : Stops (itemChars vs ++ rest) := by
  cases vs with
  | nil => exact stops_mark rfl rfl _
  | cons v vs => exact stops_mark rfl rfl _

theorem stops_members (ms : List (String × Json)) (rest : List Char) :
    Stops (memberChars ms ++ rest) := by
  cases ms with
  | nil => exact stops_mark rfl rfl _
  | cons m ms => exact stops_mark rfl rfl _

theorem run_items {vs : List Json} (h : ∀ v ∈ vs, Lexes v) (out : List Token) (rest : List Char) :
    idle.run out (itemChars vs ++ rest) = idle.run ((itemTokens vs).reverse ++ out) rest := by
  induction vs generalizing out with
  | nil => rfl
  | cons v vs ih =>
    have hcomma : idle.step ',' = some ([comma], idle) := rfl
    have hv := h v (List.mem_cons_self ..) (comma :: out) _ (stops_items vs rest)
    have htail := ih fun v' hv' => h v' (List.mem_cons_of_mem _ hv')
    simp only [itemChars, itemTokens, List.cons_append, List.append_assoc, List.reverse_cons,
      List.reverse_append, List.nil_append]
    rw [run_cons hcomma, ← htail]
    exact hv

theorem run_member (name : String) {v : Json} (hv : Lexes v) (ms : List (String × Json))
    (out : List Token) (rest : List Char) :
    idle.run out (quoteChars name.toList ++ ':' :: (v.chars ++ (memberChars ms ++ rest))) =
      idle.run (v.tokens.reverse ++ colon :: text name :: out) (memberChars ms ++ rest) := by
  have hcolon : idle.step ':' = some ([colon], idle) := rfl
  rw [run_quoteChars, run_cons hcolon]
  exact hv (colon :: text name :: out) _ (stops_members ms rest)

def frontTokens (ms : List (String × Json)) : List Token :=
  ms.flatMap fun (name, v) => comma :: text name :: colon :: v.tokens

theorem memberTokens_append (ms later : List (String × Json)) :
    memberTokens (ms ++ later) = frontTokens ms ++ memberTokens later := by
  induction ms with
  | nil => rfl
  | cons m ms ih =>
    simp only [List.cons_append, memberTokens, ih, frontTokens, List.flatMap_cons,
      List.append_assoc]

theorem run_front {ms : List (String × Json)} (h : ∀ m ∈ ms, Lexes m.2)
    (later : List (String × Json)) (out : List Token) (rest : List Char) :
    idle.run out (memberChars (ms ++ later) ++ rest) =
      idle.run ((frontTokens ms).reverse ++ out) (memberChars later ++ rest) := by
  induction ms generalizing out with
  | nil => rfl
  | cons m ms ih =>
    obtain ⟨name, v⟩ := m
    have hcomma : idle.step ',' = some ([comma], idle) := rfl
    have hv := run_member name (h _ (List.mem_cons_self ..)) (ms ++ later) (comma :: out) rest
    have htail := ih (fun m hm => h m (List.mem_cons_of_mem _ hm))
    simp only [memberChars, frontTokens, List.flatMap_cons, List.cons_append, List.append_assoc,
      List.reverse_cons, List.reverse_append, List.nil_append]
    rw [run_cons hcomma]
    exact hv.trans (htail _)

theorem run_members {ms : List (String × Json)} (h : ∀ m ∈ ms, Lexes m.2) (out : List Token)
    (rest : List Char) :
    idle.run out (memberChars ms ++ rest) = idle.run ((memberTokens ms).reverse ++ out) rest := by
  have hfront := run_front h [] out rest
  have htokens := memberTokens_append ms []
  rw [List.append_nil] at hfront htokens
  rw [hfront, htokens, List.reverse_append]
  rfl

theorem lexes_of_plain {n : Nat} {v : Json} (h : Plain n v) : Lexes v := by
  induction h with
  | null => exact fun out rest hrest => run_word rfl hrest
  | bool =>
    rename_i b
    cases b with
    | true => exact fun out rest hrest => run_word (w := ['t', 'r', 'u', 'e']) rfl hrest
    | false => exact fun out rest hrest => run_word (w := ['f', 'a', 'l', 's', 'e']) rfl hrest
  | int hlo hhi => exact fun out rest hrest => run_int hlo hhi hrest
  | str => exact fun out rest _ => run_quoteChars _
  | arr _ ih =>
    intro out rest hrest
    rename_i items _
    have hopen : idle.step '[' = some ([openArray], idle) := rfl
    cases items with
    | nil => rfl
    | cons v vs =>
      have hv := ih v (List.mem_cons_self ..) (openArray :: out) _ (stops_items vs rest)
      have htail := run_items (fun v' hv' => ih v' (List.mem_cons_of_mem _ hv'))
      simp only [chars, tokens, List.cons_append, List.append_assoc, List.reverse_cons,
        List.reverse_append, List.nil_append]
      rw [run_cons hopen, ← htail]
      exact hv
  | obj _ _ ih =>
    intro out rest hrest
    rename_i members _ _
    have hopen : idle.step '\x7b' = some ([openObject], idle) := rfl
    cases members with
    | nil => rfl
    | cons m ms =>
      obtain ⟨name, v⟩ := m
      have hv := run_member name (ih _ (List.mem_cons_self ..)) ms (openObject :: out) rest
      have htail := run_members (fun m hm => ih m (List.mem_cons_of_mem _ hm))
      simp only [chars, tokens, List.cons_append, List.append_assoc, List.reverse_cons,
        List.reverse_append, List.nil_append]
      rw [run_cons hopen, ← htail]
      exact hv

/-- The tokens of the text of a value are those of the value. -/
theorem ofChars?_chars {n : Nat} {v : Json} (h : Plain n v) : ofChars? v.chars = some v.tokens := by
  have hend : Stops [] := nofun
  have hrun := lexes_of_plain h [] [] hend
  simp only [List.append_nil] at hrun
  rw [ofChars?, hrun]
  simp only [Lexer.run, close, Option.map_some, List.reverse_nil, List.nil_append,
    List.reverse_reverse]

end Token

end FileEndpoints.Json

import FileEndpoints.Text.Utf8
import Mathlib.Tactic.SplitIfs

namespace FileEndpoints.Text

namespace Decoder

variable {value lo hi b : Nat}

theorem step_last (h : lo ≤ b ∧ b ≤ hi) :
    (within value 0 lo hi).step b = ([some (Char.ofNat (value * 0x40 + (b - 0x80)))], .ready) := by
  simp only [step, if_pos h]

theorem step_more {more : Nat} (h : lo ≤ b ∧ b ≤ hi) :
    (within value (more + 1) lo hi).step b =
      ([], .within (value * 0x40 + (b - 0x80)) more 0x80 0xBF) := by
  simp only [step, if_pos h]

theorem step_ascii (h : b < 0x80) : ready.step b = ([some (Char.ofNat b)], .ready) :=
  if_pos h

theorem step_two (hlo : 0xC2 ≤ b) (hhi : b < 0xE0) :
    ready.step b = ([], .within (b - 0xC0) 0 0x80 0xBF) := by
  simp only [step, start, if_neg (show ¬ b < 0x80 by omega), if_neg (show ¬ b < 0xC2 by omega),
    if_pos hhi]

/-- After the first of three bytes the second one is in range, since the shortest form is used and
surrogates are not characters. -/
theorem step_three {n : Nat} (hlo : 0x800 ≤ n) (hhi : n < 0x10000)
    (hsurrogate : n < 0xD800 ∨ 0xDFFF < n) :
    ∃ lo hi, ready.step (0xE0 + n / 0x1000) = ([], .within (n / 0x1000) 1 lo hi) ∧
      lo ≤ 0x80 + n / 0x40 % 0x40 ∧ 0x80 + n / 0x40 % 0x40 ≤ hi := by
  have hvalue : 0xE0 + n / 0x1000 - 0xE0 = n / 0x1000 := by omega
  simp only [step, start, if_neg (show ¬ 0xE0 + n / 0x1000 < 0x80 by omega),
    if_neg (show ¬ 0xE0 + n / 0x1000 < 0xC2 by omega),
    if_neg (show ¬ 0xE0 + n / 0x1000 < 0xE0 by omega)]
  split
  case isTrue hfirst =>
    have hzero : n / 0x1000 = 0 := by omega
    exact ⟨0xA0, 0xBF, by rw [hzero], by omega, by omega⟩
  case isFalse =>
    split
    case isTrue hfirst =>
      have hthirteen : n / 0x1000 = 0xD := by omega
      exact ⟨0x80, 0x9F, by rw [hthirteen], by omega, by omega⟩
    case isFalse =>
      rw [if_pos (by omega), hvalue]
      exact ⟨0x80, 0xBF, rfl, by omega, by omega⟩

theorem step_four {n : Nat} (hlo : 0x10000 ≤ n) (hhi : n < 0x110000) :
    ∃ lo hi, ready.step (0xF0 + n / 0x40000) = ([], .within (n / 0x40000) 2 lo hi) ∧
      lo ≤ 0x80 + n / 0x1000 % 0x40 ∧ 0x80 + n / 0x1000 % 0x40 ≤ hi := by
  have hvalue : 0xF0 + n / 0x40000 - 0xF0 = n / 0x40000 := by omega
  simp only [step, start, if_neg (show ¬ 0xF0 + n / 0x40000 < 0x80 by omega),
    if_neg (show ¬ 0xF0 + n / 0x40000 < 0xC2 by omega),
    if_neg (show ¬ 0xF0 + n / 0x40000 < 0xE0 by omega),
    if_neg (show ¬ 0xF0 + n / 0x40000 = 0xE0 by omega),
    if_neg (show ¬ 0xF0 + n / 0x40000 = 0xED by omega),
    if_neg (show ¬ 0xF0 + n / 0x40000 < 0xF0 by omega)]
  split
  case isTrue hfirst =>
    have hzero : n / 0x40000 = 0 := by omega
    exact ⟨0x90, 0xBF, by rw [hzero], by omega, by omega⟩
  case isFalse =>
    split
    case isTrue hfirst =>
      rw [hvalue]
      exact ⟨0x80, 0xBF, rfl, by omega, by omega⟩
    case isFalse =>
      have hfour : n / 0x40000 = 4 := by omega
      rw [if_pos (by omega), hfour]
      exact ⟨0x80, 0x8F, rfl, by omega, by omega⟩

end Decoder

theorem toNat_ofNat {n : Nat} (h : n < 0x100) : (UInt8.ofNat n).toNat = n :=
  UInt8.toNat_ofNat_of_lt' h

theorem Decoder.run_step {d next : Decoder} {n : Nat} {marks : List (Option Char)} (hn : n < 0x100)
    (h : d.step n = (marks, next)) (out : List (Option Char)) (rest : Bytes) :
    d.run out (UInt8.ofNat n :: rest) = next.run (marks.reverse ++ out) rest := by
  simp only [Decoder.run, toNat_ofNat hn, h]

theorem Decoder.run_tail {value n : Nat} (more : Nat) (out : List (Option Char)) (rest : Bytes) :
    (within value (more + 1) 0x80 0xBF).run out (UInt8.ofNat (0x80 + n % 0x40) :: rest) =
      (within (value * 0x40 + n % 0x40) more 0x80 0xBF).run out rest := by
  have hbyte : 0x80 + n % 0x40 - 0x80 = n % 0x40 := by omega
  rw [run_step (by omega) (step_more (by omega)), hbyte]
  rfl

theorem Decoder.run_last {value n : Nat} (out : List (Option Char)) (rest : Bytes) :
    (within value 0 0x80 0xBF).run out (UInt8.ofNat (0x80 + n % 0x40) :: rest) =
      ready.run (some (Char.ofNat (value * 0x40 + n % 0x40)) :: out) rest := by
  have hbyte : 0x80 + n % 0x40 - 0x80 = n % 0x40 := by omega
  rw [run_step (by omega) (step_last (by omega)), hbyte]
  rfl

theorem run_encodeChar (c : Char) (out : List (Option Char)) (rest : Bytes) :
    Decoder.ready.run out (encodeChar c ++ rest) = Decoder.ready.run (some c :: out) rest := by
  have hvalid : c.toNat < 0xD800 ∨ 0xDFFF < c.toNat ∧ c.toNat < 0x110000 := c.valid
  have hchar {n : Nat} (hn : n = c.toNat) : Char.ofNat n = c := by rw [hn, Char.ofNat_toNat]
  simp only [encodeChar]
  split
  case isTrue hone =>
    rw [List.singleton_append, Decoder.run_step (by omega) (Decoder.step_ascii hone), hchar rfl]
    rfl
  case isFalse hone =>
  split
  case isTrue htwo =>
    have hstart := Decoder.step_two (b := 0xC0 + c.toNat / 0x40) (by omega) (by omega)
    rw [List.cons_append, Decoder.run_step (by omega) hstart, List.singleton_append,
      Decoder.run_last, hchar (by omega)]
    rfl
  case isFalse htwo =>
  split
  case isTrue hthree =>
    obtain ⟨lo, hi, hstart, hlo, hhi⟩ :=
      Decoder.step_three (n := c.toNat) (by omega) hthree (by omega)
    rw [List.cons_append, Decoder.run_step (by omega) hstart, List.cons_append,
      Decoder.run_step (by omega) (Decoder.step_more ⟨hlo, hhi⟩), List.singleton_append,
      Decoder.run_last, hchar (by omega)]
    rfl
  case isFalse hthree =>
    obtain ⟨lo, hi, hstart, hlo, hhi⟩ :=
      Decoder.step_four (n := c.toNat) (by omega) (by omega)
    rw [List.cons_append, Decoder.run_step (by omega) hstart, List.cons_append,
      Decoder.run_step (by omega) (Decoder.step_more ⟨hlo, hhi⟩), List.cons_append,
      Decoder.run_tail, List.singleton_append, Decoder.run_last, hchar (by omega)]
    rfl

theorem run_encodeChars (s : List Char) (out : List (Option Char)) :
    Decoder.ready.run out (encodeChars s) = out.reverse ++ s.map some := by
  induction s generalizing out with
  | nil => simp only [encodeChars, List.flatMap_nil, Decoder.run, Decoder.finish, List.reverse_nil,
      List.nil_append, List.map_nil, List.append_nil]
  | cons c s ih =>
    have hcons : encodeChars (c :: s) = encodeChar c ++ encodeChars s := List.flatMap_cons
    rw [hcons, run_encodeChar, ih, List.reverse_cons, List.append_assoc]
    rfl

theorem decodeMarked_encode (s : String) : decodeMarked (encode s) = s.toList.map some :=
  run_encodeChars s.toList []

theorem decodeLossy_encode (s : String) : decodeLossy (encode s) = s := by
  rw [decodeLossy, decodeMarked_encode, List.map_map]
  have hsome : ((fun c : Option Char => c.getD replacement) ∘ some) = id := rfl
  rw [hsome, List.map_id, String.ofList_toList]

theorem ofNat_eq {b : UInt8} {n : Nat} (h : n = b.toNat) : UInt8.ofNat n = b := by
  rw [h, UInt8.ofNat_toNat]

theorem toNat_charOfNat {n : Nat} (h : n < 0xD800 ∨ 0xDFFF < n ∧ n < 0x110000) :
    (Char.ofNat n).toNat = n := by
  rw [Char.ofNat, dif_pos h]
  rfl

/-- With any bytes that an open sequence takes next, the bytes before them are a character. -/
def Completes (before : Bytes) (value : Nat) : Nat → Nat → Nat → Prop
  | 0, lo, hi => ∀ b : UInt8, lo ≤ b.toNat → b.toNat ≤ hi →
    encodeChar (Char.ofNat (value * 0x40 + (b.toNat - 0x80))) = before ++ [b]
  | more + 1, lo, hi => ∀ b : UInt8, lo ≤ b.toNat → b.toNat ≤ hi →
    Completes (before ++ [b]) (value * 0x40 + (b.toNat - 0x80)) more 0x80 0xBF

section

variable {b : UInt8} {lo hi : Nat}

theorem encodeChar_one (h : b.toNat < 0x80) : encodeChar (Char.ofNat b.toNat) = [b] := by
  have hchar : (Char.ofNat b.toNat).toNat = b.toNat := toNat_charOfNat (by omega)
  simp only [encodeChar, hchar]
  rw [if_pos h, ofNat_eq rfl]

theorem completes_two (hb : 0xC2 ≤ b.toNat ∧ b.toNat < 0xE0) :
    Completes [b] (b.toNat - 0xC0) 0 0x80 0xBF := by
  intro c hlo hhi
  have hchar : (Char.ofNat ((b.toNat - 0xC0) * 0x40 + (c.toNat - 0x80))).toNat =
      (b.toNat - 0xC0) * 0x40 + (c.toNat - 0x80) := toNat_charOfNat (by omega)
  simp only [encodeChar, hchar]
  rw [if_neg (by omega), if_pos (by omega), ofNat_eq (b := b) (by omega),
    ofNat_eq (b := c) (by omega)]
  rfl

theorem completes_three (hb : 0xE0 ≤ b.toNat ∧ b.toNat < 0xF0)
    (hlo : 0x80 ≤ lo ∧ (b.toNat = 0xE0 → 0xA0 ≤ lo))
    (hhi : hi ≤ 0xBF ∧ (b.toNat = 0xED → hi ≤ 0x9F)) :
    Completes [b] (b.toNat - 0xE0) 1 lo hi := by
  intro c hcl hch d hdl hdh
  generalize hn : ((b.toNat - 0xE0) * 0x40 + (c.toNat - 0x80)) * 0x40 + (d.toNat - 0x80) = n
  have hchar : (Char.ofNat n).toNat = n := toNat_charOfNat (by omega)
  simp only [encodeChar, hchar]
  rw [if_neg (by omega), if_neg (by omega), if_pos (by omega), ofNat_eq (b := b) (by omega),
    ofNat_eq (b := c) (by omega), ofNat_eq (b := d) (by omega)]
  rfl

theorem completes_four (hb : 0xF0 ≤ b.toNat ∧ b.toNat < 0xF5)
    (hlo : 0x80 ≤ lo ∧ (b.toNat = 0xF0 → 0x90 ≤ lo))
    (hhi : hi ≤ 0xBF ∧ (b.toNat = 0xF4 → hi ≤ 0x8F)) :
    Completes [b] (b.toNat - 0xF0) 2 lo hi := by
  intro c hcl hch d hdl hdh f hfl hfh
  generalize hn : (((b.toNat - 0xF0) * 0x40 + (c.toNat - 0x80)) * 0x40 + (d.toNat - 0x80)) * 0x40 +
    (f.toNat - 0x80) = n
  have hchar : (Char.ofNat n).toNat = n := toNat_charOfNat (by omega)
  simp only [encodeChar, hchar]
  rw [if_neg (by omega), if_neg (by omega), if_neg (by omega), ofNat_eq (b := b) (by omega),
    ofNat_eq (b := c) (by omega), ofNat_eq (b := d) (by omega), ofNat_eq (b := f) (by omega)]
  rfl

end

namespace Decoder

/-- The bytes taken since the last character are the start of the next one. -/
def Follows (before : Bytes) : Decoder → Prop
  | ready => before = []
  | within value more lo hi => Completes before value more lo hi

/-- What comes of bytes that are a character or the start of one. -/
inductive Takes (taken : Bytes) : List (Option Char) × Decoder → Prop
  | start {next} (h : Follows taken next) : Takes taken ([], next)
  | char {c} (h : encodeChar c = taken) : Takes taken ([some c], .ready)

theorem start_takes (b : UInt8) : none ∈ (start b.toNat).1 ∨ Takes [b] (start b.toNat) := by
  have hopen {value more lo hi : Nat} {known : Nat} (hvalue : b.toNat - known = value)
      (h : Completes [b] (b.toNat - known) more lo hi) :
      none ∈ ([] : List (Option Char)) ∨ Takes [b] ([], .within value more lo hi) :=
    .inr (.start (hvalue ▸ h))
  have hmark : none ∈ ([none] : List (Option Char)) := List.mem_singleton.2 rfl
  unfold start
  -- One case for each range of first bytes, in the order in which the decoder looks at them.
  split_ifs with h
  · exact .inr (.char (encodeChar_one h))
  · exact .inl hmark
  · exact hopen rfl (completes_two (by omega))
  · exact hopen (by omega) (completes_three (by omega) (by omega) (by omega))
  · exact hopen (by omega) (completes_three (by omega) (by omega) (by omega))
  · exact hopen rfl (completes_three (by omega) (by omega) (by omega))
  · exact hopen (by omega) (completes_four (by omega) (by omega) (by omega))
  · exact hopen rfl (completes_four (by omega) (by omega) (by omega))
  · exact hopen (by omega) (completes_four (by omega) (by omega) (by omega))
  · exact .inl hmark

theorem step_takes {d : Decoder} {before : Bytes} (h : d.Follows before) (b : UInt8) :
    none ∈ (d.step b.toNat).1 ∨ Takes (before ++ [b]) (d.step b.toNat) := by
  cases d with
  | ready =>
    obtain rfl : before = [] := h
    exact start_takes b
  | within value more lo hi =>
    simp only [step]
    split
    case isTrue hb =>
      cases more with
      | zero => exact .inr (.char (h b hb.1 hb.2))
      | succ more => exact .inr (.start (h b hb.1 hb.2))
    case isFalse => exact .inl (List.mem_cons_self ..)

theorem run_out (d : Decoder) (out : List (Option Char)) (bs : Bytes) :
    d.run out bs = out.reverse ++ d.run [] bs := by
  induction bs generalizing d out with
  | nil => simp only [run, List.reverse_append, List.reverse_reverse, List.append_nil]
  | cons b bs ih =>
    simp only [run]
    rw [ih _ (_ ++ out), ih _ (_ ++ [])]
    simp only [List.reverse_append, List.reverse_reverse, List.append_assoc, List.reverse_nil,
      List.nil_append]

/-- Bytes that decode without a mark are those of the characters that come out. -/
theorem run_exact {d : Decoder} {before bs : Bytes} {s : List Char} (h : d.Follows before)
    (hrun : d.run [] bs = s.map some) : before ++ bs = encodeChars s := by
  have hnone : none ∉ d.run [] bs := by
    rw [hrun]
    simp only [List.mem_map, reduceCtorEq, and_false, exists_false, not_false_eq_true]
  -- The bytes taken before are the start of a character, or there are none.
  induction bs generalizing d before s with
  | nil =>
    cases d with
    | ready =>
      obtain rfl := List.map_eq_nil_iff.1 hrun.symm
      rw [show before = [] from h]
      rfl
    | within value more lo hi => exact absurd (List.mem_singleton.2 rfl) hnone
  | cons b bs ih =>
    have hcons : d.run [] (b :: bs) =
        (d.step b.toNat).1 ++ (d.step b.toNat).2.run [] bs := by
      simp only [run]
      rw [run_out, List.append_nil, List.reverse_reverse]
    rw [hcons] at hrun hnone
    rcases step_takes h b with hmark | htakes
    · exact absurd (List.mem_append_left _ hmark) hnone
    · generalize d.step b.toNat = stepped at hrun hnone htakes
      cases htakes with
      | start hnext =>
        rw [← ih hnext hrun hnone, List.append_assoc, List.singleton_append]
      | char hc =>
        obtain ⟨c, s, rfl, hfirst, hrest⟩ := List.map_eq_cons_iff.1 hrun.symm
        obtain rfl := Option.some.inj hfirst
        have hready : Follows [] .ready := rfl
        have hbs := ih hready hrest.symm fun hmem => hnone (List.mem_append_right _ hmem)
        rw [encodeChars, List.flatMap_cons, hc, ← encodeChars, ← hbs, List.append_assoc]
        rfl

end Decoder

theorem mapM_id_eq_some {α : Type} {os : List (Option α)} {as : List α} :
    os.mapM id = some as ↔ os = as.map some := by
  induction os generalizing as with
  | nil => cases as <;> simp
  | cons o os ih =>
    simp only [List.mapM_cons, Option.bind_eq_bind, Option.bind_eq_some_iff, ih, Option.pure_def,
      Option.some.injEq]
    constructor
    · rintro ⟨a, rfl, as, rfl, rfl⟩
      rfl
    · intro h
      obtain ⟨a, as, rfl, rfl, rfl⟩ := List.map_eq_cons_iff.1 h.symm
      exact ⟨a, rfl, as, rfl, rfl⟩

/-- The bytes of a text, and no others, decode to it. -/
theorem decode?_eq_some {bs : Bytes} {t : String} : decode? bs = some t ↔ bs = encode t := by
  simp only [decode?, Option.map_eq_some_iff, mapM_id_eq_some]
  constructor
  · rintro ⟨s, hmarked, rfl⟩
    rw [encode, String.toList_ofList]
    have hready : Decoder.Follows [] .ready := rfl
    exact Decoder.run_exact hready hmarked
  · rintro rfl
    exact ⟨t.toList, decodeMarked_encode t, String.ofList_toList⟩

theorem encodeChar_eq (c : Char) : encodeChar c = String.utf8EncodeChar c := by
  have hvalid : c.toNat < 0xD800 ∨ 0xDFFF < c.toNat ∧ c.toNat < 0x110000 := c.valid
  have hval : c.val.toNat = c.toNat := rfl
  simp only [encodeChar, String.utf8EncodeChar, hval, Nat.add_comm _ (_ % _)]
  by_cases hone : c.toNat < 0x80
  · rw [if_pos hone, if_pos (show c.toNat ≤ 0x7F by omega)]
  rw [if_neg hone, if_neg (show ¬ c.toNat ≤ 0x7F by omega)]
  by_cases htwo : c.toNat < 0x800
  · rw [if_pos htwo, if_pos (show c.toNat ≤ 0x7FF by omega),
      Nat.mod_eq_of_lt (show c.toNat / 64 < 0x20 by omega), Nat.add_comm 0xC0]
  rw [if_neg htwo, if_neg (show ¬ c.toNat ≤ 0x7FF by omega)]
  by_cases hthree : c.toNat < 0x10000
  · rw [if_pos hthree, if_pos (show c.toNat ≤ 0xFFFF by omega),
      Nat.mod_eq_of_lt (show c.toNat / 4096 < 0x10 by omega), Nat.add_comm 0xE0]
  · rw [if_neg hthree, if_neg (show ¬ c.toNat ≤ 0xFFFF by omega),
      Nat.mod_eq_of_lt (show c.toNat / 262144 < 0x08 by omega), Nat.add_comm 0xF0]

theorem encode_eq (s : String) : encode s = s.toByteArray.data.toList := by
  have hbytes : encode s = s.toList.flatMap String.utf8EncodeChar := by
    rw [encode, encodeChars, funext encodeChar_eq]
  have hstring : s.toByteArray = s.toList.utf8Encode := by
    rw [← String.toByteArray_ofList, String.ofList_toList]
  rw [hbytes, hstring, List.utf8Encode, List.toList_data_toByteArray]

theorem encode_length (s : String) : (encode s).length = s.utf8ByteSize := by
  rw [encode_eq, ← String.size_toByteArray]
  rfl

end FileEndpoints.Text

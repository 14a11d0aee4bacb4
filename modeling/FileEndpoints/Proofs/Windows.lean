import FileEndpoints.Window
import Mathlib.Data.List.Basic

namespace FileEndpoints

/-- The number of bytes that a window takes from those that remain. -/
def windowLength (remaining : Nat) (size : Int) : Nat :=
  if 0 < size then min size.toNat remaining else remaining

def startWord (offset : Int64) : UInt64 :=
  (max offset 0).toUInt64

def lengthWord (remaining : UInt64) (size : Int64) : UInt64 :=
  if 0 < size then min size.toUInt64 remaining else remaining

/-- Where a window begins and ends, in words of 64 bits, unless it begins at or past the end of the
content. -/
def windowBounds? (length : UInt64) (offset size : Int64) : Option (UInt64 × UInt64) :=
  if length ≤ startWord offset then none
  else some (startWord offset, startWord offset + lengthWord (length - startWord offset) size)

/-- Windows that follow one another from an offset on and reach the length `n`. Only the last one
may ask for all that remains. -/
inductive Covers (n : Nat) : Int → List (Int × Int) → Prop
  | done {offset : Int} (h : (n : Int) ≤ offset) : Covers n offset []
  | rest {offset size} (hsize : size ≤ 0) : Covers n offset [(offset, size)]
  | next {offset size later} (hsize : 0 < size) (h : Covers n (offset + size) later) :
      Covers n offset ((offset, size) :: later)

inductive Bounded (v window : Bytes) (start : Nat) : Option (UInt64 × UInt64) → Prop
  | past (h : v.length ≤ start) (hwindow : window = []) : Bounded v window start none
  | within {first last} (hfirst : first.toNat = start)
      (hlast : last.toNat = start + window.length) (hfits : last.toNat ≤ v.length)
      (hwindow : window = v.extract first.toNat last.toNat) :
      Bounded v window start (some (first, last))

structure WindowLaw (v : Bytes) : Prop where
  past : ∀ offset size : Int, (v.length : Int) ≤ max offset 0 → readWindow v offset size = []
  inside : ∀ offset size : Int, max offset 0 < (v.length : Int) → ∃ before after,
    v = before ++ readWindow v offset size ++ after ∧ before.length = max offset 0 ∧
      (readWindow v offset size).length = windowLength (v.length - before.length) size
  bounds : v.length < UInt64.size → ∀ offset size : Int64,
    Bounded v (readWindow v offset.toInt size.toInt) offset.toInt.toNat
      (windowBounds? (UInt64.ofNat v.length) offset size)
  adjacent : ∀ offset m n : Int, 0 ≤ offset → 0 < m → 0 < n →
    readWindow v offset m ++ readWindow v (offset + m) n = readWindow v offset (m + n)
  covering : ∀ windows, Covers v.length 0 windows →
    (windows.flatMap fun w => readWindow v w.1 w.2) = v

section

variable (v : Bytes) {offset size m n : Int}

theorem readWindow_eq_take (offset size : Int) :
    readWindow v offset size =
      (v.drop offset.toNat).take (windowLength (v.length - offset.toNat) size) := by
  simp only [readWindow, windowLength]
  split
  · rw [← List.length_drop, List.take_eq_take_min]
  · rw [← List.length_drop, List.take_length]

theorem windowLength_le (remaining : Nat) (size : Int) :
    windowLength remaining size ≤ remaining := by
  simp only [windowLength]
  split
  · exact Nat.min_le_right ..
  · exact Nat.le_refl _

theorem length_readWindow (offset size : Int) :
    (readWindow v offset size).length = windowLength (v.length - offset.toNat) size := by
  rw [readWindow_eq_take, List.length_take, List.length_drop]
  exact Nat.min_eq_left (windowLength_le ..)

theorem readWindow_past (h : v.length ≤ offset.toNat) (size : Int) :
    readWindow v offset size = [] := by
  rw [readWindow_eq_take, List.drop_eq_nil_of_le h, List.take_nil]

theorem readWindow_inside (h : offset.toNat < v.length) (size : Int) : ∃ before after,
    v = before ++ readWindow v offset size ++ after ∧ before.length = offset.toNat := by
  refine ⟨v.take offset.toNat,
    (v.drop offset.toNat).drop (windowLength (v.length - offset.toNat) size), ?_, ?_⟩
  · rw [readWindow_eq_take, List.append_assoc, List.take_append_drop, List.take_append_drop]
  · exact List.length_take_of_le (Nat.le_of_lt h)

theorem readWindow_extract (offset size : Int) :
    readWindow v offset size =
      v.extract offset.toNat (offset.toNat + (readWindow v offset size).length) := by
  rw [length_readWindow, List.extract_eq_take_drop, Nat.add_sub_cancel_left, readWindow_eq_take]

/-- A window of some bytes, and the window of the rest that begins where it ends. -/
theorem readWindow_append (hoffset : 0 ≤ offset) (hm : 0 < m) (size : Int) :
    readWindow v offset m ++ readWindow v (offset + m) size =
      readWindow v offset (if 0 < size then m + size else size) := by
  have hstart : (offset + m).toNat = offset.toNat + m.toNat :=
    Int.toNat_add hoffset (Int.le_of_lt hm)
  have hrest : v.drop (offset + m).toNat = (v.drop offset.toNat).drop m.toNat := by
    rw [hstart, List.drop_drop]
  simp only [readWindow, hrest, if_pos hm]
  by_cases hsize : 0 < size
  · have hsum : (m + size).toNat = m.toNat + size.toNat :=
      Int.toNat_add (Int.le_of_lt hm) (Int.le_of_lt hsize)
    have hpos : 0 < m + size := Int.add_pos hm hsize
    simp only [if_pos hsize, if_pos hpos, hsum, List.take_add]
  · simp only [if_neg hsize, List.take_append_drop]

theorem Covers.flatten {windows : List (Int × Int)} (h : Covers v.length offset windows)
    (hoffset : 0 ≤ offset) :
    (windows.flatMap fun w => readWindow v w.1 w.2) = v.drop offset.toNat := by
  induction h with
  | done h => rw [List.flatMap_nil, List.drop_eq_nil_of_le (by omega)]
  | rest hsize =>
    have hnot := Int.not_lt.2 hsize
    rw [List.flatMap_singleton, readWindow, if_neg hnot]
  | @next offset size later hsize h ih =>
    have hlater := ih (by omega)
    have hwhole := readWindow_append v hoffset hsize 0
    rw [List.flatMap_cons, hlater]
    simpa only [readWindow, Int.lt_irrefl, ↓reduceIte] using hwhole

theorem toNat_startWord (offset : Int64) : (startWord offset).toNat = offset.toInt.toNat := by
  have hmax : max offset 0 = if offset ≤ 0 then 0 else offset := rfl
  rw [startWord, hmax]
  split
  case isTrue hneg =>
    rw [Int64.le_iff_toInt_le, Int64.toInt_zero] at hneg
    rw [Int.toNat_of_nonpos hneg]
    rfl
  case isFalse hpos =>
    have hle : 0 ≤ offset := Int64.le_of_lt (Int64.not_le.1 hpos)
    exact Int64.toNat_toUInt64_of_le hle

theorem toNat_lengthWord (remaining : UInt64) (size : Int64) :
    (lengthWord remaining size).toNat = windowLength remaining.toNat size.toInt := by
  have hmin (a b : UInt64) : (min a b).toNat = min a.toNat b.toNat := by
    have hcases : min a b = if a ≤ b then a else b := rfl
    simp only [hcases, Nat.min_def, UInt64.le_iff_toNat_le]
    split <;> rfl
  simp only [lengthWord, windowLength, Int64.lt_iff_toInt_lt, Int64.toInt_zero]
  split
  case isTrue hpos =>
    have hle : 0 ≤ size := Int64.le_of_lt (Int64.lt_iff_toInt_lt.2 hpos)
    rw [hmin, Int64.toNat_toUInt64_of_le hle]
    rfl
  case isFalse => rfl

theorem windowBounds?_bounded (hv : v.length < UInt64.size) (offset size : Int64) :
    Bounded v (readWindow v offset.toInt size.toInt) offset.toInt.toNat
      (windowBounds? (UInt64.ofNat v.length) offset size) := by
  have hstart := toNat_startWord offset
  have hlength : (UInt64.ofNat v.length).toNat = v.length := UInt64.toNat_ofNat_of_lt' hv
  have hcompare : UInt64.ofNat v.length ≤ startWord offset ↔ v.length ≤ offset.toInt.toNat := by
    rw [UInt64.le_iff_toNat_le, hlength, hstart]
  simp only [windowBounds?, hcompare]
  split
  case isTrue hpast => exact .past hpast (readWindow_past v hpast _)
  case isFalse hinside =>
    have hle : startWord offset ≤ UInt64.ofNat v.length := by
      rw [UInt64.le_iff_toNat_le, hlength, hstart]
      exact Nat.le_of_not_le hinside
    have htaken : (lengthWord (UInt64.ofNat v.length - startWord offset) size).toNat =
        (readWindow v offset.toInt size.toInt).length := by
      rw [toNat_lengthWord, UInt64.toNat_sub_of_le _ _ hle, hlength, hstart, length_readWindow]
    have hfits : offset.toInt.toNat + (readWindow v offset.toInt size.toInt).length ≤
        v.length := by
      have hshort := windowLength_le (v.length - offset.toInt.toNat) size.toInt
      rw [length_readWindow]
      omega
    -- The end is at most the length, which is a word, so the sum does not overflow.
    have hlast : (startWord offset + lengthWord (UInt64.ofNat v.length - startWord offset)
        size).toNat = offset.toInt.toNat + (readWindow v offset.toInt size.toInt).length := by
      rw [UInt64.toNat_add, hstart, htaken]
      exact Nat.mod_eq_of_lt (Nat.lt_of_le_of_lt hfits hv)
    apply Bounded.within hstart hlast (hlast ▸ hfits)
    rw [hlast, hstart]
    exact readWindow_extract v _ _

end

/-- Every window lies where its offset and its size say, its bounds are words, and windows put side
by side are one window. -/
theorem windows_fit_together (v : Bytes) : WindowLaw v := by
  have hstart (offset : Int) : ((offset.toNat : Nat) : Int) = max offset 0 := Int.ofNat_toNat offset
  apply WindowLaw.mk
  case past =>
    intro offset size hpast
    rw [← hstart, Int.ofNat_le] at hpast
    exact readWindow_past v hpast size
  case inside =>
    intro offset size hinside
    rw [← hstart, Int.ofNat_lt] at hinside
    obtain ⟨before, after, hv, hbefore⟩ := readWindow_inside v hinside size
    refine ⟨before, after, hv, ?_, ?_⟩
    · rw [hbefore, hstart]
    · rw [hbefore, length_readWindow]
  case bounds => exact windowBounds?_bounded v
  case adjacent =>
    intro offset m n hoffset hm hn
    rw [readWindow_append v hoffset hm, if_pos hn]
  case covering =>
    intro windows hcovers
    exact hcovers.flatten v (Int.le_refl 0)

/-- At the ends of the 64-bit range. -/
example : windowBounds? 3 Int64.minValue Int64.maxValue = some (0, 3) ∧
    windowBounds? 3 Int64.maxValue Int64.maxValue = none ∧
    windowBounds? 3 2 Int64.minValue = some (2, 3) := by decide

end FileEndpoints

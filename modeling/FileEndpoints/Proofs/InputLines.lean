import FileEndpoints.Console.Session
import FileEndpoints.Proofs.LogLines
import FileEndpoints.Proofs.Utf8RoundTrip

namespace FileEndpoints

namespace Text

theorem feed_mem_encodeChar {c : Char} : 10 ∈ encodeChar c ↔ c = '\n' := by
  have hbyte {n : Nat} : (10 : UInt8) = UInt8.ofNat n ↔ n % 256 = 10 := by
    rw [← UInt8.toNat_inj, UInt8.toNat_ofNat']
    exact eq_comm
  have hfeed : c = '\n' ↔ c.toNat = 10 := by
    rw [← Char.toNat_inj]
    rfl
  have hvalid : c.toNat < 0x110000 := c.valid.elim (fun h => Nat.lt_trans h (by decide)) And.right
  rw [encodeChar, hfeed]
  split
  · rw [List.mem_singleton, hbyte]
    omega
  · -- Every byte of a longer sequence has its highest bit set.
    apply iff_of_false ?_ (by omega)
    split
    · simp only [List.mem_cons, List.not_mem_nil, or_false, hbyte]
      omega
    · split
      · simp only [List.mem_cons, List.not_mem_nil, or_false, hbyte]
        omega
      · simp only [List.mem_cons, List.not_mem_nil, or_false, hbyte]
        omega

theorem feed_mem_encode {s : String} : 10 ∈ encode s ↔ '\n' ∈ s.toList := by
  simp only [encode, encodeChars, List.mem_flatMap, feed_mem_encodeChar, exists_eq_right]

theorem encode_append (s t : String) : encode (s ++ t) = encode s ++ encode t := by
  simp only [encode, encodeChars, String.toList_append, List.flatMap_append]

end Text

namespace Console

open Text (encode OneLine)

def startLine (p : Bytes) : List Bytes → List Bytes
  | [] => [p]
  | l :: ls => (p ++ l) :: ls

theorem lines_cons {b : UInt8} (h : b ≠ 10) (bs : Bytes) :
    lines (b :: bs) = startLine [b] (lines bs) := by
  rw [lines, if_neg h]
  cases lines bs <;> rfl

theorem lines_start {p : Bytes} (hne : p ≠ []) (hp : 10 ∉ p) (rest : Bytes) :
    lines (p ++ rest) = startLine p (lines rest) := by
  induction p with
  | nil => exact absurd rfl hne
  | cons b p ih =>
    have hb : b ≠ 10 := fun h => hp (h ▸ List.mem_cons_self ..)
    rw [List.cons_append, lines_cons hb]
    by_cases hnil : p = []
    · rw [hnil]
      rfl
    · rw [ih hnil fun h => hp (List.mem_cons_of_mem _ h)]
      cases lines rest <;> rfl

theorem lines_ne_nil (p : Bytes) : lines (p ++ [10]) ≠ [] := by
  cases p with
  | nil => nofun
  | cons b p =>
    by_cases hb : b = 10
    · rw [List.cons_append, lines, if_pos hb]
      nofun
    · rw [List.cons_append, lines_cons hb]
      cases lines (p ++ [10]) <;> nofun

theorem lines_append (p rest : Bytes) :
    lines (p ++ [10] ++ rest) = lines (p ++ [10]) ++ lines rest := by
  induction p with
  | nil => rfl
  | cons b p ih =>
    simp only [List.cons_append] at ih ⊢
    by_cases hb : b = 10
    · rw [lines, lines, if_pos hb, if_pos hb, ih, List.cons_append]
    · rw [lines_cons hb, lines_cons hb, ih]
      cases hlines : lines (p ++ [10]) with
      | nil => exact absurd hlines (lines_ne_nil p)
      | cons l ls => rfl

theorem lines_single {l : Bytes} (h : 10 ∉ l) : lines (l ++ [10]) = [l ++ [10]] := by
  by_cases hnil : l = []
  · rw [hnil]
    rfl
  · rw [lines_start hnil h]
    rfl

/-- No line of a text is cut within a character. -/
theorem text_of_mem_lines {s : String} {l : Bytes} (h : l ∈ lines (encode s)) :
    ∃ u : String, l = encode u := by
  have hchars (s : List Char) : ∀ l ∈ lines (Text.encodeChars s), ∃ u, l = Text.encodeChars u := by
    induction s with
    | nil => nofun
    | cons c s ih =>
      intro l hl
      rw [Text.encodeChars, List.flatMap_cons] at hl
      by_cases hc : c = '\n'
      · rw [hc] at hl
        rcases List.mem_cons.1 (show l ∈ [10] :: lines (Text.encodeChars s) from hl) with rfl | hl
        · exact ⟨['\n'], rfl⟩
        · exact ih l hl
      · rw [lines_start (Text.encodeChar_ne_nil c) (mt Text.feed_mem_encodeChar.1 hc)] at hl
        change l ∈ startLine _ (lines (Text.encodeChars s)) at hl
        cases hrest : lines (Text.encodeChars s) with
        | nil =>
          rw [hrest] at hl
          rw [List.mem_singleton.1 hl]
          exact ⟨[c], (List.append_nil _).symm⟩
        | cons first later =>
          rw [hrest] at hl ih
          rcases List.mem_cons.1 hl with rfl | hl
          · obtain ⟨u, rfl⟩ := ih first (List.mem_cons_self ..)
            exact ⟨c :: u, rfl⟩
          · exact ih l (List.mem_cons_of_mem _ hl)
  obtain ⟨u, rfl⟩ := hchars s.toList l h
  exact ⟨String.ofList u, by rw [encode, String.toList_ofList]⟩

def WholeLines (s : String) : Prop :=
  s = "" ∨ ∃ u, s = u ++ "\n"

theorem WholeLines.lines_append {s : String} (h : WholeLines s) (u : String) :
    lines (encode (s ++ u)) = lines (encode s) ++ lines (encode u) := by
  rw [Text.encode_append]
  rcases h with rfl | ⟨v, rfl⟩
  · rfl
  · rw [Text.encode_append]
    exact Console.lines_append _ _

theorem lines_of_oneLine {line : String} (h : OneLine line) :
    lines (encode (line ++ "\n")) = [encode (line ++ "\n")] := by
  rw [Text.encode_append]
  exact lines_single (mt Text.feed_mem_encode.1 h)

def Reads (turns : List Turn) (input : String) : Prop :=
  turns.map Turn.line = lines (encode input)

namespace Reads

variable {s u : String}

theorem append {first rest : List Turn} (hs : WholeLines s) (hfirst : Reads first s)
    (hrest : Reads rest u) : Reads (first ++ rest) (s ++ u) := by
  rw [Reads, List.map_append, hfirst, hrest, hs.lines_append]

theorem split {turns : List Turn} (hs : WholeLines s) (h : Reads turns (s ++ u)) :
    ∃ first rest, turns = first ++ rest ∧ Reads first s ∧ Reads rest u := by
  rw [Reads, hs.lines_append] at h
  obtain ⟨first, rest, rfl, hfirst, hrest⟩ := List.map_eq_append_iff.1 h
  exact ⟨first, rest, rfl, hfirst, hrest⟩

end Reads

end Console

end FileEndpoints

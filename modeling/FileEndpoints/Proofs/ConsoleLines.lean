import FileEndpoints.Console.Command
import FileEndpoints.Proofs.DecimalDigits
import Mathlib.Data.List.DropRight

namespace FileEndpoints

namespace Text

variable {w s : List Char}

def Word (w : List Char) : Prop :=
  w ≠ [] ∧ ∀ c ∈ w, isBlank c = false

instance (w : List Char) : Decidable (Word w) :=
  decidable_of_iff (w ≠ [] ∧ w.all (fun c => !isBlank c) = true) <| by
    simp only [Word, List.all_eq_true, Bool.not_eq_true']

/-- A text that neither starts nor ends with a blank, and is not empty. -/
structure Trimmed (s : List Char) : Prop where
  first : ∃ c, s.head? = some c ∧ isBlank c = false
  last : ∃ c, s.getLast? = some c ∧ isBlank c = false

theorem Word.trimLeft_append (h : Word w) (s : List Char) : trimLeft (w ++ s) = w ++ s := by
  obtain ⟨hne, hsolid⟩ := h
  cases w with
  | nil => exact absurd rfl hne
  | cons c w =>
    apply List.dropWhile_cons_of_neg
    rw [hsolid c (List.mem_cons_self ..)]
    exact Bool.false_ne_true

theorem Word.head (h : Word w) : ∃ c, w.head? = some c ∧ isBlank c = false := by
  obtain ⟨hne, hsolid⟩ := h
  exact ⟨w.head hne, List.head?_eq_some_head hne, hsolid _ (List.head_mem hne)⟩

theorem Word.last (h : Word w) : ∃ c, w.getLast? = some c ∧ isBlank c = false := by
  obtain ⟨hne, hsolid⟩ := h
  exact ⟨w.getLast hne, List.getLast?_eq_some_getLast hne, hsolid _ (List.getLast_mem hne)⟩

theorem Trimmed.trimLeft_eq (h : Trimmed s) : trimLeft s = s := by
  obtain ⟨c, hhead, hc⟩ := h.first
  cases s with
  | nil => cases hhead
  | cons d s =>
    obtain rfl := Option.some.inj hhead
    apply List.dropWhile_cons_of_neg
    rw [hc]
    exact Bool.false_ne_true

theorem Trimmed.trim_eq (h : Trimmed s) : trim s = s := by
  obtain ⟨c, hlast, hc⟩ := h.last
  rw [trim, h.trimLeft_eq]
  apply List.rdropWhile_eq_self_iff.2
  intro hne
  rw [List.getLast?_eq_some_getLast hne] at hlast
  rw [Option.some.inj hlast, hc]
  exact Bool.false_ne_true

theorem Word.trimmed (h : Word w) : Trimmed w := ⟨h.head, h.last⟩

theorem Word.trimmed_cons (hw : Word w) (hs : Trimmed s) : Trimmed (w ++ ' ' :: s) where
  first := by
    obtain ⟨c, hhead, hc⟩ := hw.head
    exact ⟨c, by rw [List.head?_append, hhead]; rfl, hc⟩
  last := by
    obtain ⟨c, hlast, hc⟩ := hs.last
    exact ⟨c, by rw [List.getLast?_append, List.getLast?_cons, hlast]; rfl, hc⟩

theorem trimLeft_space (s : List Char) : trimLeft (' ' :: s) = trimLeft s :=
  List.dropWhile_cons_of_pos rfl

theorem head?_space (s : List Char) : ∀ c, (' ' :: s).head? = some c → isBlank c = true := by
  intro c hc
  rw [← Option.some.inj hc]
  rfl

theorem Word.solid (h : Word w) : ∀ c ∈ w, (!isBlank c) = true := by
  intro c hc
  rw [h.2 c hc]
  rfl

theorem Word.cut (h : Word w) (hs : ∀ c, s.head? = some c → isBlank c = true) :
    (w ++ s).takeWhile (fun c => !isBlank c) = w ∧
      (w ++ s).dropWhile (fun c => !isBlank c) = s := by
  rw [List.takeWhile_append_of_pos h.solid, List.dropWhile_append_of_pos h.solid]
  cases s with
  | nil => exact ⟨List.append_nil w, rfl⟩
  | cons c s =>
    simp only [List.takeWhile_cons, List.dropWhile_cons, hs c rfl, Bool.not_true,
      Bool.false_eq_true, ↓reduceIte, List.append_nil, and_self]

theorem Word.splitWord_append (hw : Word w) (hs : ∀ c, s.head? = some c → isBlank c = true) :
    splitWord (w ++ s) = (w, trimLeft s) := by
  obtain ⟨htake, hdrop⟩ := hw.cut hs
  rw [Text.splitWord, hw.trimLeft_append, htake, hdrop]

theorem Word.splitWord (hw : Word w) (hs : Trimmed s) : splitWord (w ++ ' ' :: s) = (w, s) := by
  rw [hw.splitWord_append (head?_space s), trimLeft_space, hs.trimLeft_eq]

theorem words_nil : words [] = [] := by
  rw [words]
  rfl

theorem words_space (s : List Char) : words (' ' :: s) = words s := by
  rw [words, trimLeft_space, ← words]

theorem Word.words_append (hw : Word w) (hs : ∀ c, s.head? = some c → isBlank c = true) :
    words (w ++ s) = w :: words s := by
  obtain ⟨htake, hdrop⟩ := hw.cut hs
  have htrim := hw.trimLeft_append s
  cases w with
  | nil => exact absurd rfl hw.1
  | cons c w =>
    have hc := hw.solid c (List.mem_cons_self ..)
    simp only [List.cons_append, List.takeWhile_cons, List.dropWhile_cons, hc,
      ↓reduceIte] at htrim htake hdrop ⊢
    rw [words]
    split
    · rename_i hnil
      cases htrim.symm.trans hnil
    · rename_i d t hcons
      obtain ⟨rfl, rfl⟩ := List.cons.inj (htrim.symm.trans hcons)
      rw [htake, hdrop]

theorem Word.words_cons (hw : Word w) (s : List Char) : words (w ++ ' ' :: s) = w :: words s := by
  rw [hw.words_append (head?_space s), words_space]

theorem Word.words_eq (hw : Word w) : words w = [w] := by
  have hone := hw.words_append (s := []) nofun
  rwa [List.append_nil, words_nil] at hone

theorem word_toDigits (n : Nat) : Word (Nat.toDigits 10 n) := by
  obtain ⟨ds, hds⟩ := exists_digits n
  have hsolid : ∀ d < 10, isBlank (Nat.digitChar d) = false := by decide
  rw [hds.chars]
  constructor
  · exact fun hnil => hds.ne_nil (List.map_eq_nil_iff.1 hnil)
  · intro c hc
    obtain ⟨d, hd, rfl⟩ := List.mem_map.1 hc
    exact hsolid d (hds.small d hd)

theorem word_intChars (n : Int) : Word (Json.intChars n) := by
  have hdigits := word_toDigits n.natAbs
  simp only [Json.intChars]
  split
  · refine ⟨List.cons_ne_nil _ _, fun c hc => ?_⟩
    rcases List.mem_cons.1 hc with rfl | hc
    · rfl
    · exact hdigits.2 c hc
  · exact hdigits

end Text

namespace Console

open Text (Word Trimmed)

variable {path text : String}

theorem Command.parse_named {name rest : List Char} {line : String} (hname : Word name)
    (hcomment : name.head? ≠ some '#') (hrest : Trimmed rest)
    (hline : line.toList = name ++ ' ' :: rest) :
    parse line = (parseNamed (Text.lowercase (String.ofList name)) rest).map some := by
  have htrimmed := hname.trimmed_cons hrest
  have hsplit := hname.splitWord hrest
  cases name with
  | nil => exact absurd rfl hname.1
  | cons c name =>
    have hhash : c ≠ '#' := by
      rintro rfl
      exact hcomment rfl
    simp only [parse, hline, htrimmed.trim_eq]
    split
    · rename_i hnil
      cases hnil
    · rename_i hcons
      exact absurd (List.cons.inj hcons).1 hhash
    · rw [hsplit]

theorem parseCat_path (hp : Word path.toList) :
    parseCat path.toList = .ok (.cat path 0 (-1)) := by
  simp only [parseCat, hp.words_eq, String.ofList_toList]
  rfl

theorem numeric_intChars (default : Int) {n : Int} (hlo : Text.minInt64 ≤ n)
    (hhi : n ≤ Text.maxInt64) : numeric default (some (Json.intChars n)) = .ok n := by
  simp only [numeric, Text.int64?_intChars hlo hhi]

theorem parseCat_window (hp : Word path.toList) {offset size : Int}
    (hoffset : Text.minInt64 ≤ offset ∧ offset ≤ Text.maxInt64)
    (hsize : Text.minInt64 ≤ size ∧ size ≤ Text.maxInt64) :
    parseCat (path.toList ++ ' ' :: (Json.intChars offset ++ ' ' :: Json.intChars size)) =
      .ok (.cat path offset size) := by
  have hwords : Text.words (path.toList ++ ' ' :: (Json.intChars offset ++ ' ' ::
      Json.intChars size)) = [path.toList, Json.intChars offset, Json.intChars size] := by
    rw [hp.words_cons, (Text.word_intChars offset).words_cons, (Text.word_intChars size).words_eq]
  simp only [parseCat, hwords, List.getElem?_cons_zero, List.getElem?_cons_succ,
    numeric_intChars 0 hoffset.1 hoffset.2, numeric_intChars (-1) hsize.1 hsize.2,
    String.ofList_toList]
  rfl

theorem parseWrite_text (hp : Word path.toList) (ht : Trimmed text.toList) :
    parseWrite (path.toList ++ ' ' :: text.toList) = .ok (.write path text) := by
  simp only [parseWrite, hp.splitWord ht]
  split
  · rename_i hnil
    exact absurd (Prod.mk.inj hnil).1 hp.1
  · rename_i hboth
    obtain ⟨rfl, rfl⟩ := Prod.mk.inj hboth
    rw [String.ofList_toList, String.ofList_toList]

theorem Command.parse_write (hp : Word path.toList) (ht : Trimmed text.toList) :
    parse ("write " ++ path ++ " " ++ text) = .ok (some (.write path text)) := by
  have hname : Word "write".toList := by decide
  have hline : ("write " ++ path ++ " " ++ text).toList =
      "write".toList ++ ' ' :: (path.toList ++ ' ' :: text.toList) := by
    simp only [String.toList_append, List.append_assoc]
    rfl
  have hlower : Text.lowercase (String.ofList "write".toList) = "write" := by decide
  rw [parse_named hname (by decide) (hp.trimmed_cons ht) hline, hlower]
  simp only [parseNamed, parseWrite_text hp ht]
  rfl

theorem Command.parse_cat (hp : Word path.toList) :
    parse ("cat " ++ path) = .ok (some (.cat path 0 (-1))) := by
  have hname : Word "cat".toList := by decide
  have hline : ("cat " ++ path).toList = "cat".toList ++ ' ' :: path.toList := by
    rw [String.toList_append]
    rfl
  have hlower : Text.lowercase (String.ofList "cat".toList) = "cat" := by decide
  rw [parse_named hname (by decide) hp.trimmed hline, hlower]
  simp only [parseNamed, parseCat_path hp]
  rfl

theorem Command.parse_window (hp : Word path.toList) {offset size : Int}
    (hoffset : Text.minInt64 ≤ offset ∧ offset ≤ Text.maxInt64)
    (hsize : Text.minInt64 ≤ size ∧ size ≤ Text.maxInt64) :
    parse ("cat " ++ path ++ " " ++ toString offset ++ " " ++ toString size) =
      .ok (some (.cat path offset size)) := by
  have hname : Word "cat".toList := by decide
  have hline : ("cat " ++ path ++ " " ++ toString offset ++ " " ++ toString size).toList =
      "cat".toList ++ ' ' ::
        (path.toList ++ ' ' :: (Json.intChars offset ++ ' ' :: Json.intChars size)) := by
    simp only [String.toList_append, Json.toList_toString, List.append_assoc]
    rfl
  have hnumbers := (Text.word_intChars offset).trimmed_cons (Text.word_intChars size).trimmed
  have hlower : Text.lowercase (String.ofList "cat".toList) = "cat" := by decide
  rw [parse_named hname (by decide) (hp.trimmed_cons hnumbers) hline, hlower]
  simp only [parseNamed, parseCat_window hp hoffset hsize]
  rfl

end Console

end FileEndpoints

import FileEndpoints.Proofs.ListingLines
import FileEndpoints.Proofs.LogLines
import FileEndpoints.Proofs.Utf8RoundTrip

namespace FileEndpoints

namespace Text

/-- No run of the table of lowercase partners leads to a control character. -/
theorem lowercaseRuns_above : ∀ r ∈ lowercaseRuns, 0x20 < (r.1 : Int) + r.2.2.2 := by
  decide +kernel

theorem ofNat_feed {n : Nat} (h : Char.ofNat n = '\n') : n = 10 := by
  by_cases hvalid : n.isValidChar
  · exact (toNat_charOfNat hvalid).symm.trans (congrArg Char.toNat h)
  · rw [Char.ofNat, dif_neg hvalid] at h
    cases h

theorem lowerChar_feed {c : Char} (h : lowerChar c = '\n') : c = '\n' := by
  rw [lowerChar] at h
  split at h
  · rename_i hascii
    have hsmall : ∀ n < 0x80, (Char.ofNat n).toLower = '\n' → Char.ofNat n = '\n' := by decide
    rw [← Char.ofNat_toNat c] at h ⊢
    exact hsmall c.toNat hascii h
  · split at h
    · rename_i first last stride distance hfind
      have habove : 0x20 < (first : Int) + distance :=
        lowercaseRuns_above _ (List.mem_of_find?_eq_some hfind)
      have hwithin := List.find?_some hfind
      simp only [Bool.and_eq_true, decide_eq_true_eq] at hwithin
      have hfeed := ofNat_feed h
      omega
    · exact h

theorem lowercase_oneLine {s : List Char} (h : '\n' ∉ s) :
    OneLine (lowercase (String.ofList s)) := by
  have hfrom (before s : List Char) (h : '\n' ∉ s) : '\n' ∉ lowerFrom before s := by
    -- What stands before a character has a say in its form, but makes no line feed of it.
    induction s generalizing before with
    | nil => exact h
    | cons c after ih =>
      obtain ⟨hc, hafter⟩ := not_or.1 (mt List.mem_cons.2 h)
      intro hmem
      rcases List.mem_append.1 hmem with hmem | hmem
      · rw [lowerWithin] at hmem
        split at hmem
        · split at hmem <;> cases List.mem_singleton.1 hmem
        · split at hmem
          · revert hmem
            decide
          · exact hc (lowerChar_feed (List.mem_singleton.1 hmem).symm).symm
      · exact ih (c :: before) hafter hmem
  rw [OneLine, lowercase, String.toList_ofList, String.toList_ofList]
  exact hfrom [] s h

end Text

namespace Console

open Text (OneLine)

/-- What can be wrong with a line that holds no command. -/
inductive Complaint : LineError → Prop
  | usage (u : Usage) : Complaint (.usage u)
  | unknown {name : String} (h : OneLine name) : Complaint (.unknownCommand name)

theorem Complaint.oneLine {e : LineError} (h : Complaint e) : OneLine e.message := by
  cases h with
  | usage u => cases u <;> decide
  | unknown h =>
    have hmarks : OneLine "unknown command: " ∧ OneLine " (try help)" := by decide
    exact Text.oneLine_append.2 ⟨Text.oneLine_append.2 ⟨hmarks.1, h⟩, hmarks.2⟩

theorem Makes.complaint {rest : List Char} {name : String} {ws : List (List Char)}
    {r : Except LineError Command} (h : Makes rest name ws r) (hname : OneLine name)
    {e : LineError} (he : r = .error e) : Complaint e := by
  cases h with
  | unknown =>
    cases he
    exact .unknown hname
  | statNothing | readmeNothing | catNothing | catOddly | writeNothing =>
    cases he
    exact .usage _
  | _ => cases he

theorem parse_complaint {line : String} {e : LineError} (h : Command.parse line = .error e) :
    Complaint e := by
  have hgrammar := parse_iff.1 h
  generalize hr : Except.error e = r at hgrammar
  cases hgrammar with
  | blank => cases hr
  | comment => cases hr
  | command hruns hw hrest hmakes =>
    rename_i w ws rest r
    have hword : Text.Word w := hruns.word_mem w (List.mem_cons_self ..)
    apply hmakes.complaint (Text.lowercase_oneLine hword.one_line)
    cases r with
    | ok c => cases hr
    | error failure => exact congrArg Except.error (Except.error.inj hr).symm

/-- What is printed for a line that holds no command. -/
inductive Inert (line : String) : String → Prop
  | nothing (h : Command.parse line = .ok none) : Inert line ""
  | wrong {e : LineError} (h : Command.parse line = .error e) :
      Inert line ("error: " ++ e.message ++ "\n")

end Console

end FileEndpoints

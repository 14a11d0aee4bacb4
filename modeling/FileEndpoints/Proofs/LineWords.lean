import FileEndpoints.Proofs.ConsoleLines

namespace FileEndpoints

namespace Text

def Blanks (s : List Char) : Prop :=
  ∀ c ∈ s, isBlank c = true

/-- A text is cut into its maximal runs of characters that are not blank. -/
inductive Runs : List Char → List (List Char) → Prop
  | nil : Runs [] []
  | blank {c s ws} (hc : isBlank c = true) (h : Runs s ws) : Runs (c :: s) ws
  | word {w s ws} (hw : Word w) (hs : ∀ c, s.head? = some c → isBlank c = true) (h : Runs s ws) :
      Runs (w ++ s) (w :: ws)

/-- A text begins with a word, and the rest goes from the next word to the end of the last one. -/
inductive Cut : List Char → List Char → List Char → Prop
  | last {before w after} (hbefore : Blanks before) (hw : Word w) (hafter : Blanks after) :
      Cut (before ++ (w ++ after)) w []
  | cons {before w gap rest after} (hbefore : Blanks before) (hw : Word w) (hgap : Blanks gap)
      (hne : gap ≠ []) (hrest : Trimmed rest) (hafter : Blanks after) :
      Cut (before ++ (w ++ (gap ++ (rest ++ after)))) w rest

variable {s t w rest : List Char} {ws : List (List Char)}

theorem Blanks.trimLeft_append (h : Blanks s) (t : List Char) : trimLeft (s ++ t) = trimLeft t :=
  List.dropWhile_append_of_pos h

theorem Blanks.trimLeft_eq (h : Blanks s) : trimLeft s = [] :=
  List.dropWhile_eq_nil_iff.2 h

theorem Blanks.trimRight_append (h : Blanks t) (s : List Char) :
    trimRight (s ++ t) = trimRight s := by
  have hreverse : ∀ c ∈ t.reverse, isBlank c = true := fun c hc => h c (List.mem_reverse.1 hc)
  rw [trimRight, List.reverse_append, List.dropWhile_append_of_pos hreverse, ← trimRight]

theorem Trimmed.ne_nil (h : Trimmed s) : s ≠ [] := by
  obtain ⟨c, hc, -⟩ := h.first
  rintro rfl
  cases hc

theorem Trimmed.trimLeft_append (h : Trimmed s) (t : List Char) : trimLeft (s ++ t) = s ++ t := by
  obtain ⟨c, hhead, hc⟩ := h.first
  cases s with
  | nil => cases hhead
  | cons d s =>
    obtain rfl := Option.some.inj hhead
    apply List.dropWhile_cons_of_neg
    rw [hc]
    exact Bool.false_ne_true

theorem Trimmed.trim_between (h : Trimmed t) (hs : Blanks s) {after : List Char}
    (hafter : Blanks after) : trim (s ++ (t ++ after)) = t := by
  have htrim := h.trim_eq
  rw [trim, h.trimLeft_eq] at htrim
  rw [trim, hs.trimLeft_append, h.trimLeft_append, hafter.trimRight_append, htrim]

theorem Blanks.trim_eq (h : Blanks s) : trim s = [] := by
  rw [trim, h.trimLeft_eq]
  rfl

theorem Trimmed.append (hs : Trimmed s) (ht : Trimmed t) (gap : List Char) :
    Trimmed (s ++ (gap ++ t)) where
  first := by
    obtain ⟨c, hhead, hc⟩ := hs.first
    exact ⟨c, by rw [List.head?_append, hhead]; rfl, hc⟩
  last := by
    obtain ⟨c, hlast, hc⟩ := ht.last
    exact ⟨c, by rw [← List.append_assoc, List.getLast?_append, hlast]; rfl, hc⟩

theorem Blanks.head (h : Blanks s) : ∀ c, s.head? = some c → isBlank c = true :=
  fun c hc => h c (List.mem_of_head? hc)

theorem Blanks.head_append (h : Blanks s) (hne : s ≠ []) (t : List Char) :
    ∀ c, (s ++ t).head? = some c → isBlank c = true := by
  cases s with
  | nil => exact absurd rfl hne
  | cons d s =>
    intro c hc
    rw [← Option.some.inj hc]
    exact h d (List.mem_cons_self ..)

theorem words_blank {c : Char} (hc : isBlank c = true) (s : List Char) :
    words (c :: s) = words s := by
  have htrim : trimLeft (c :: s) = trimLeft s := List.dropWhile_cons_of_pos hc
  rw [words, htrim, ← words]

theorem Blanks.words_append (h : Blanks s) (t : List Char) : words (s ++ t) = words t := by
  induction s with
  | nil => rfl
  | cons c s ih =>
    obtain ⟨hc, hs⟩ := List.forall_mem_cons.1 h
    rw [List.cons_append, words_blank hc, ih hs]

theorem Blanks.words_eq (h : Blanks s) : words s = [] := by
  have hnil := h.words_append []
  rwa [List.append_nil, words_nil] at hnil

theorem Runs.words_eq (h : Runs s ws) : words s = ws := by
  induction h with
  | nil => exact words_nil
  | blank hc _ ih => rw [words_blank hc, ih]
  | word hw hs _ ih => rw [hw.words_append hs, ih]

theorem Runs.append_blanks (h : Runs s ws) (ht : Blanks t) : Runs (s ++ t) ws := by
  induction h with
  | nil =>
    induction t with
    | nil => exact .nil
    | cons c t ih =>
      obtain ⟨hc, ht⟩ := List.forall_mem_cons.1 ht
      exact .blank hc (ih ht)
  | blank hc _ ih => exact .blank hc ih
  | @word w s ws hw hs _ ih =>
    rw [List.append_assoc]
    apply Runs.word hw ?_ ih
    intro c hc
    cases s with
    | nil => exact ht.head c hc
    | cons d s => exact hs c hc

theorem head_dropWhile (p : Char → Bool) (s : List Char) :
    ∀ c, (s.dropWhile p).head? = some c → p c = false := by
  intro c hc
  have hhead := List.head?_dropWhile_not p s
  rw [hc] at hhead
  exact hhead

theorem blanks_or_solid (s : List Char) : Blanks s ∨
    ∃ before c t, Blanks before ∧ isBlank c = false ∧ s = before ++ c :: t := by
  cases hdrop : s.dropWhile isBlank with
  | nil => exact .inl (List.dropWhile_eq_nil_iff.1 hdrop)
  | cons c t =>
    refine .inr ⟨s.takeWhile isBlank, c, t, fun _ => List.mem_takeWhile_imp, ?_, ?_⟩
    · exact head_dropWhile isBlank s c (by rw [hdrop]; rfl)
    · rw [← hdrop, List.takeWhile_append_dropWhile]

theorem exists_word {c : Char} (hc : isBlank c = false) (t : List Char) :
    ∃ w after, Word w ∧ (∀ c, after.head? = some c → isBlank c = true) ∧ c :: t = w ++ after := by
  refine ⟨(c :: t).takeWhile (fun c => !isBlank c), (c :: t).dropWhile (fun c => !isBlank c),
    ⟨?_, ?_⟩, ?_, List.takeWhile_append_dropWhile.symm⟩
  · rw [List.takeWhile_cons_of_pos (by rw [hc]; rfl)]
    exact List.cons_ne_nil _ _
  · intro d hd
    have hsolid := List.mem_takeWhile_imp hd
    rwa [Bool.not_eq_true'] at hsolid
  · intro d hd
    have hhead := head_dropWhile _ _ d hd
    rwa [Bool.not_eq_false'] at hhead

theorem exists_trimmed {c : Char} (hc : isBlank c = false) (t : List Char) :
    ∃ rest after, Trimmed rest ∧ Blanks after ∧ c :: t = rest ++ after := by
  have hne : (c :: t).rdropWhile isBlank ≠ [] := by
    intro hnil
    have hall := List.rdropWhile_eq_nil_iff.1 hnil c (List.mem_cons_self ..)
    rw [hc] at hall
    cases hall
  refine ⟨(c :: t).rdropWhile isBlank, (c :: t).rtakeWhile isBlank, ⟨?_, ?_⟩,
    fun _ => List.mem_rtakeWhile_imp, List.rdropWhile_append_rtakeWhile.symm⟩
  · refine ⟨c, ?_, hc⟩
    obtain ⟨u, hu⟩ := List.rdropWhile_prefix isBlank (c :: t)
    cases hrest : (c :: t).rdropWhile isBlank with
    | nil => exact absurd hrest hne
    | cons d rest =>
      rw [hrest, List.cons_append] at hu
      rw [(List.cons.inj hu).1]
      rfl
  · exact ⟨_, List.getLast?_eq_some_getLast hne,
      Bool.eq_false_iff.2 (List.rdropWhile_last_not isBlank (c :: t) hne)⟩

theorem runs_words (s : List Char) : Runs s (words s) := by
  -- A word may be of any length, so the induction is on the length of what is left.
  induction hn : s.length using Nat.strongRecOn generalizing s with
  | ind n ih =>
    cases s with
    | nil =>
      rw [words_nil]
      exact .nil
    | cons c t =>
      cases hc : isBlank c with
      | true =>
        rw [words_blank hc]
        exact .blank hc (ih t.length (by rw [← hn]; exact Nat.lt_succ_self _) t rfl)
      | false =>
        obtain ⟨w, after, hw, hafter, hline⟩ := exists_word hc t
        have hlength := congrArg List.length hline
        have hpos := List.length_pos_iff.2 hw.1
        rw [List.length_append] at hlength
        rw [hline, hw.words_append hafter]
        exact .word hw hafter (ih after.length (by omega) after rfl)

theorem runs_iff : Runs s ws ↔ words s = ws := by
  constructor
  · exact Runs.words_eq
  · rintro rfl
    exact runs_words s

theorem exists_cut (h : words s = w :: ws) : ∃ rest, Cut s w rest ∧ words rest = ws := by
  rcases blanks_or_solid s with hs | ⟨before, c, t, hbefore, hc, rfl⟩
  · rw [hs.words_eq] at h
    cases h
  · obtain ⟨v, after, hv, hafter, hline⟩ := exists_word hc t
    rw [hline, hbefore.words_append, hv.words_append hafter] at h
    obtain ⟨rfl, hws⟩ := List.cons.inj h
    rw [hline]
    rcases blanks_or_solid after with hblank | ⟨gap, d, u, hgap, hd, rfl⟩
    · rw [hblank.words_eq] at hws
      exact ⟨[], .last hbefore hv hblank, words_nil.trans hws⟩
    · obtain ⟨rest, tail, hrest, htail, htext⟩ := exists_trimmed hd u
      have hne : gap ≠ [] := by
        rintro rfl
        have hblank := hafter d rfl
        rw [hd] at hblank
        cases hblank
      rw [hgap.words_append, htext] at hws
      rw [htext]
      refine ⟨rest, .cons hbefore hv hgap hne hrest htail, ?_⟩
      rw [← hws]
      exact ((runs_words rest).append_blanks htail).words_eq.symm

theorem Cut.words_eq (h : Cut s w rest) : words s = w :: words rest := by
  cases h with
  | last hbefore hw hafter =>
    rw [hbefore.words_append, hw.words_append hafter.head, hafter.words_eq, words_nil]
  | cons hbefore hw hgap hne hrest hafter =>
    rw [hbefore.words_append, hw.words_append (hgap.head_append hne _), hgap.words_append,
      ((runs_words _).append_blanks hafter).words_eq]

/-- The text between the blanks at both ends begins with the word, and splitting it off leaves the
rest. -/
theorem Cut.trim_split (h : Cut s w rest) :
    (∃ after, trim s = w ++ after) ∧ splitWord (trim s) = (w, rest) := by
  cases h with
  | last hbefore hw hafter =>
    have hsplit := hw.splitWord_append (s := []) nofun
    rw [List.append_nil] at hsplit
    rw [hw.trimmed.trim_between hbefore hafter]
    exact ⟨⟨[], (List.append_nil w).symm⟩, hsplit⟩
  | @cons before w gap rest after hbefore hw hgap hne hrest hafter =>
    have hline : before ++ (w ++ (gap ++ (rest ++ after))) =
        before ++ ((w ++ (gap ++ rest)) ++ after) := by
      simp only [List.append_assoc]
    rw [hline, (hw.trimmed.append hrest gap).trim_between hbefore hafter,
      hw.splitWord_append (hgap.head_append hne rest), hgap.trimLeft_append, hrest.trimLeft_eq]
    exact ⟨⟨_, rfl⟩, rfl⟩

theorem Cut.rest_trimmed (h : Cut s w rest) : rest = [] ∨ Trimmed rest := by
  cases h with
  | last => exact .inl rfl
  | cons _ _ _ _ hrest _ => exact .inr hrest

theorem Runs.word_mem (h : Runs s ws) : ∀ w ∈ ws, Word w := by
  induction h with
  | nil => exact nofun
  | blank _ _ ih => exact ih
  | word hw _ _ ih => exact List.forall_mem_cons.2 ⟨hw, ih⟩

theorem word_of_words (h : words s = w :: ws) : Word w :=
  (runs_iff.2 h).word_mem w (List.mem_cons_self ..)

theorem blanks_of_words (h : words s = []) : Blanks s := by
  rcases blanks_or_solid s with hs | ⟨before, c, t, hbefore, hc, rfl⟩
  · exact hs
  · obtain ⟨w, after, hw, hafter, hline⟩ := exists_word hc t
    rw [hline, hbefore.words_append, hw.words_append hafter] at h
    cases h

theorem splitWord_nil (h : words s = []) : (splitWord s).1 = [] := by
  rw [Text.splitWord, (blanks_of_words h).trimLeft_eq]
  rfl

theorem splitWord_cons (h : words s = w :: ws) : (splitWord s).1 = w := by
  rcases blanks_or_solid s with hs | ⟨before, c, t, hbefore, hc, rfl⟩
  · rw [hs.words_eq] at h
    cases h
  · obtain ⟨v, after, hv, hafter, hline⟩ := exists_word hc t
    obtain ⟨htake, -⟩ := hv.cut hafter
    rw [hline, hbefore.words_append, hv.words_append hafter] at h
    rw [hline, Text.splitWord, hbefore.trimLeft_append, hv.trimLeft_append, htake]
    exact (List.cons.inj h).1

end Text

end FileEndpoints

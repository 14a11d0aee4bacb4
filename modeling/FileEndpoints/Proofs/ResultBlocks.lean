import FileEndpoints.Remote.SearchResults
import Mathlib.Data.List.Forall2

namespace FileEndpoints.WebSearch

structure Entry where
  title : Option String
  url : Option String
  snippet : Option String

namespace Entry

def line (label : String) : Option String → String
  | some text => "  " ++ label ++ ": " ++ text ++ "\n"
  | none => ""

def text (number : Nat) (e : Entry) : String :=
  "Result " ++ toString number ++ "\n" ++ line "Title" e.title ++ line "URL" e.url ++
    line "Snippet" e.snippet ++ "\n"

structure Of (item : Json) (e : Entry) : Prop where
  title : ∀ text, e.title = some text ↔ item.get? "title" = some (.str text)
  url : ∀ text, e.url = some text ↔ item.get? "url" = some (.str text)
  snippet : ∀ text, e.snippet = some text ↔ item.get? "snippet" = some (.str text)

def Alike (item item' : Json) : Prop :=
  ∃ e, Of item e ∧ Of item' e

end Entry

def Holds (raw : Bytes) (items : List Json) : Prop :=
  ∃ reply, Json.ofBytes? raw = some reply ∧ reply.get? "results" = some (.arr items)

/-- The number of results that a limit lets through. -/
def shownCount (limit : Int) (items : List Json) : Nat :=
  if 0 < limit then min limit.toNat items.length else items.length

/-- How the text of a body that holds the results depends on them. -/
structure ShowsBlocks (raw : Bytes) (items : List Json) : Prop where
  none_iff : ∀ limit, format raw limit = header ++ "No results returned\n" ↔ items = []
  blocks : items ≠ [] → ∀ limit, ∃ texts : List String,
    texts.length = shownCount limit items ∧ format raw limit = header ++ String.join texts ∧
      ∀ i item, i < texts.length → items[i]? = some item →
        ∃ e, Entry.Of item e ∧ texts[i]? = some (e.text (i + 1))
  congr : ∀ raw' items' limit, Holds raw' items' →
    List.Forall₂ Entry.Alike (items.take (shownCount limit items))
      (items'.take (shownCount limit items')) → format raw limit = format raw' limit
  /-- Another item in the place of one changes its own block only. -/
  set : ∀ limit i item e, i < shownCount limit items → items[i]? = some item →
    Entry.Of item e → ∃ before after, format raw limit = before ++ e.text (i + 1) ++ after ∧
      ∀ raw' odd e', Holds raw' (items.set i odd) → Entry.Of odd e' →
        format raw' limit = before ++ e'.text (i + 1) ++ after
  smaller : items ≠ [] → ∀ m n, 0 < m → m ≤ n →
    (format raw m).toList <+: (format raw n).toList
  unlimited : items ≠ [] → ∀ m n, 0 < m → n ≤ 0 →
    (format raw m).toList <+: (format raw n).toList

theorem memberLine_eq {item : Json} {name : String} {member : Option String}
    (h : ∀ text, member = some text ↔ item.get? name = some (.str text)) (label : String) :
    memberLine item label name = Entry.line label member := by
  have hmember : (item.get? name).bind Json.asString? = member := by
    apply Option.ext
    intro text
    rw [Option.bind_eq_some_iff, h]
    constructor
    · rintro ⟨v, hv, htext⟩
      rw [hv, Json.asString?_eq_some.1 htext]
    · exact fun hv => ⟨_, hv, rfl⟩
  rw [memberLine, hmember]
  cases member <;> rfl

theorem Entry.Of.block_eq {item : Json} {e : Entry} (h : Entry.Of item e) (number : Nat) :
    block number item = e.text number := by
  rw [block, memberLine_eq h.title, memberLine_eq h.url, memberLine_eq h.snippet, Entry.text]

theorem Entry.exists_of (item : Json) : ∃ e, Entry.Of item e := by
  have hmember (name : String) : ∃ member : Option String,
      ∀ text, member = some text ↔ item.get? name = some (.str text) := by
    refine ⟨(item.get? name).bind Json.asString?, fun text => ?_⟩
    simp only [Option.bind_eq_some_iff, Json.asString?_eq_some, exists_eq_right]
  obtain ⟨title, htitle⟩ := hmember "title"
  obtain ⟨url, hurl⟩ := hmember "url"
  obtain ⟨snippet, hsnippet⟩ := hmember "snippet"
  exact ⟨⟨title, url, snippet⟩, htitle, hurl, hsnippet⟩

theorem blocks_append (number : Nat) (items later : List Json) :
    blocks number (items ++ later) =
      blocks number items ++ blocks (number + items.length) later := by
  induction items generalizing number with
  | nil => rw [List.nil_append, blocks, String.empty_append, List.length_nil, Nat.add_zero]
  | cons item items ih =>
    rw [List.cons_append, blocks, blocks, ih, String.append_assoc, List.length_cons,
      Nat.add_assoc, Nat.add_comm 1]

theorem blocks_eq_join (number : Nat) (items : List Json) :
    blocks number items = String.join (items.mapIdx fun i item => block (number + i) item) := by
  induction items generalizing number with
  | nil => rfl
  | cons item items ih =>
    rw [blocks, List.mapIdx_cons, String.join_cons, ih]
    simp only [Nat.add_zero, Nat.add_assoc, Nat.add_comm 1]

theorem blocks_congr {items items' : List Json} (h : List.Forall₂ Entry.Alike items items')
    (number : Nat) : blocks number items = blocks number items' := by
  induction h generalizing number with
  | nil => rfl
  | cons halike _ ih =>
    obtain ⟨e, he, he'⟩ := halike
    rw [blocks, blocks, he.block_eq, he'.block_eq, ih]

theorem blocks_set {items : List Json} {i : Nat} (hi : i < items.length) (number : Nat)
    (item : Json) : blocks number (items.set i item) =
      blocks number (items.take i) ++ block (number + i) item ++
        blocks (number + i + 1) (items.drop (i + 1)) := by
  rw [List.set_eq_take_append_cons_drop, if_pos hi, blocks_append, blocks, List.length_take,
    Nat.min_eq_left (Nat.le_of_lt hi), String.append_assoc]

theorem limited_eq_take (limit : Int) (items : List Json) :
    limited limit items = items.take (shownCount limit items) := by
  simp only [limited, shownCount]
  split
  · rw [← List.take_eq_take_min]
  · rw [List.take_length]

theorem shownCount_pos {items : List Json} (h : items ≠ []) (limit : Int) :
    0 < shownCount limit items := by
  have hlength := List.length_pos_iff.2 h
  simp only [shownCount]
  split <;> omega

theorem shownCount_le (limit : Int) (items : List Json) :
    shownCount limit items ≤ items.length := by
  simp only [shownCount]
  split <;> omega

theorem shownCount_mono (items : List Json) {m n : Int} (hm : 0 < m) (h : m ≤ n ∨ n ≤ 0) :
    shownCount m items ≤ shownCount n items := by
  simp only [shownCount, if_pos hm]
  split <;> omega

section

variable {raw : Bytes} {items : List Json}

theorem Holds.format_nil (h : Holds raw []) (limit : Int) :
    format raw limit = header ++ "No results returned\n" := by
  obtain ⟨reply, hreply, hitems⟩ := h
  simp only [format, hreply, hitems, Option.bind_some, Json.asArray?, itemsText, limited_eq_take,
    List.take_nil]

theorem Holds.format_eq (h : Holds raw items) (hne : items ≠ []) (limit : Int) :
    format raw limit = header ++ blocks 1 (items.take (shownCount limit items)) := by
  obtain ⟨reply, hreply, hitems⟩ := h
  simp only [format, hreply, hitems, Option.bind_some, Json.asArray?, itemsText, limited_eq_take]
  cases hshown : items.take (shownCount limit items) with
  | nil =>
    have hcount := shownCount_pos hne limit
    rw [List.take_eq_nil_iff] at hshown
    rcases hshown with hzero | hnil
    · omega
    · exact absurd hnil hne
  | cons item later => rfl

theorem Holds.none_iff (h : Holds raw items) (limit : Int) :
    format raw limit = header ++ "No results returned\n" ↔ items = [] := by
  constructor
  · intro htext
    cases items with
    | nil => rfl
    | cons item later =>
      -- The text of results begins with another letter.
      rw [h.format_eq (List.cons_ne_nil _ _), String.append_right_inj] at htext
      obtain ⟨count, hcount⟩ := Nat.exists_eq_succ_of_ne_zero
        (Nat.ne_of_gt (shownCount_pos (List.cons_ne_nil item later) limit))
      have hletter := congrArg (fun text => text.toList.head?) htext
      simp [hcount, blocks, block] at hletter
  · rintro rfl
    exact h.format_nil limit

theorem Holds.texts (h : Holds raw items) (hne : items ≠ []) (limit : Int) :
    ∃ texts : List String, texts.length = shownCount limit items ∧
      format raw limit = header ++ String.join texts ∧
      ∀ i item, i < texts.length → items[i]? = some item →
        ∃ e, Entry.Of item e ∧ texts[i]? = some (e.text (i + 1)) := by
  let shown := items.take (shownCount limit items)
  refine ⟨shown.mapIdx fun i item => block (1 + i) item, ?_, ?_, ?_⟩
  · rw [List.length_mapIdx, List.length_take, Nat.min_eq_left (shownCount_le limit items)]
  · rw [h.format_eq hne, blocks_eq_join]
  · intro i item hi hitem
    obtain ⟨e, he⟩ := Entry.exists_of item
    rw [List.length_mapIdx, List.length_take] at hi
    have hshown : i < shownCount limit items := Nat.lt_of_lt_of_le hi (Nat.min_le_left _ _)
    refine ⟨e, he, ?_⟩
    rw [List.getElem?_mapIdx, List.getElem?_take_of_lt hshown, hitem, Option.map_some,
      he.block_eq, Nat.add_comm]

theorem Holds.congr (h : Holds raw items) {raw' : Bytes} {items' : List Json}
    (h' : Holds raw' items') {limit : Int}
    (halike : List.Forall₂ Entry.Alike (items.take (shownCount limit items))
      (items'.take (shownCount limit items'))) : format raw limit = format raw' limit := by
  have hlength := halike.length_eq
  rw [List.length_take, List.length_take, Nat.min_eq_left (shownCount_le limit items),
    Nat.min_eq_left (shownCount_le limit items')] at hlength
  by_cases hnil : items = []
  · have hnil' : items' = [] := by
      by_contra hne
      have hpos := shownCount_pos hne limit
      have hzero := shownCount_le limit items
      rw [hnil, List.length_nil] at hzero
      rw [hnil] at hlength
      omega
    rw [(h.none_iff limit).2 hnil, (h'.none_iff limit).2 hnil']
  · have hne : items' ≠ [] := by
      rintro rfl
      have hpos := shownCount_pos hnil limit
      have hzero := shownCount_le limit ([] : List Json)
      rw [List.length_nil] at hzero
      omega
    rw [h.format_eq hnil, h'.format_eq hne, blocks_congr halike]

theorem Holds.set (h : Holds raw items) {limit : Int} {i : Nat} {item : Json} {e : Entry}
    (hi : i < shownCount limit items) (hitem : items[i]? = some item) (he : Entry.Of item e) :
    ∃ before after, format raw limit = before ++ e.text (i + 1) ++ after ∧
      ∀ raw' odd e', Holds raw' (items.set i odd) → Entry.Of odd e' →
        format raw' limit = before ++ e'.text (i + 1) ++ after := by
  let shown := items.take (shownCount limit items)
  have hshown : i < shown.length := by
    rw [List.length_take, Nat.min_eq_left (shownCount_le limit items)]
    exact hi
  have htext (raw' : Bytes) (odd : Json) (e' : Entry) (h' : Holds raw' (items.set i odd))
      (he' : Entry.Of odd e') : format raw' limit =
        header ++ blocks 1 (shown.take i) ++ e'.text (i + 1) ++
          blocks (1 + i + 1) (shown.drop (i + 1)) := by
    have hne : items.set i odd ≠ [] := by
      rw [← List.length_pos_iff, List.length_set]
      exact Nat.lt_of_lt_of_le (Nat.zero_lt_of_lt hi) (shownCount_le limit items)
    have hcount : shownCount limit (items.set i odd) = shownCount limit items := by
      simp only [shownCount, List.length_set]
    rw [h'.format_eq hne, hcount, List.take_set, blocks_set hshown, he'.block_eq,
      Nat.add_comm 1 i, ← String.append_assoc, ← String.append_assoc]
  refine ⟨_, _, htext raw item e ?_ he, htext⟩
  obtain ⟨hbound, rfl⟩ := List.getElem?_eq_some_iff.1 hitem
  rw [List.set_getElem_self]
  exact h

theorem Holds.cut_off (h : Holds raw items) (hne : items ≠ []) {m n : Int} (hm : 0 < m)
    (hmn : m ≤ n ∨ n ≤ 0) : (format raw m).toList <+: (format raw n).toList := by
  have htake : items.take (shownCount m items) <+: items.take (shownCount n items) :=
    List.take_prefix_take_left (shownCount_mono items hm hmn)
  obtain ⟨later, hlater⟩ := htake
  rw [h.format_eq hne, h.format_eq hne, ← hlater, blocks_append, ← String.append_assoc]
  exact ⟨_, String.toList_append.symm⟩

end

/-- A text without results to show tells why, and one with results consists of their blocks. -/
theorem format_shows_blocks (raw : Bytes) :
    (Json.ofBytes? raw = none → ∀ limit, format raw limit = "Failed to parse JSON response\n") ∧
    (∀ reply, Json.ofBytes? raw = some reply →
      (∀ items, reply.get? "results" ≠ some (.arr items)) →
        ∀ limit, format raw limit = "No 'results' array in response\n") ∧
    ∀ items, Holds raw items → ShowsBlocks raw items := by
  refine ⟨?_, ?_, ?_⟩
  · intro hraw limit
    rw [format, hraw]
  · intro reply hreply hnone limit
    have hitems : (reply.get? "results").bind Json.asArray? = none := by
      rw [Option.bind_eq_none_iff]
      intro v hv
      cases v with
      | arr items => exact absurd hv (hnone items)
      | _ => rfl
    simp only [format, hreply, hitems]
  · intro items h
    exact
      { none_iff := h.none_iff
        blocks := h.texts
        congr := fun raw' items' limit h' halike => h.congr h' halike
        set := fun limit i item e hi hitem he => h.set hi hitem he
        smaller := fun hne m n hm hmn => h.cut_off hne hm (.inl hmn)
        unlimited := fun hne m n hm hn => h.cut_off hne hm (.inr hn) }

/-- A number in place of a result leaves the next one its own, whose title is not a string. -/
theorem odd_results_keep_their_places :
    let raw := Text.encode "\x7b\"results\":[1,\x7b\"title\":7,\"url\":\"u\"\x7d]\x7d"
    format (Text.encode "<html>") 3 = "Failed to parse JSON response\n" ∧
      format (Text.encode "[]") 3 = "No 'results' array in response\n" ∧
      (∃ before after, format raw 2 = before ++ "Result 2\n  URL: u\n\n" ++ after) ∧
      (format raw 1).toList <+: (format raw 2).toList ∧
      (format raw 2).toList <+: (format raw (-1)).toList := by
  intro raw
  let item : Json := .obj [("title", .ofInt 7), ("url", .str "u")]
  have hshows := (format_shows_blocks raw).2.2 [.ofInt 1, item] ⟨_, rfl, rfl⟩
  have hitem : Entry.Of item ⟨none, some "u", none⟩ :=
    { title := fun _ => ⟨nofun, nofun⟩
      url := fun text => by
        change some "u" = some text ↔ some (Json.str "u") = some (.str text)
        rw [Option.some.injEq, Option.some.injEq, Json.str.injEq]
      snippet := fun _ => ⟨nofun, nofun⟩ }
  obtain ⟨before, after, htext, -⟩ := hshows.set 2 1 item _ (by decide) rfl hitem
  exact ⟨(format_shows_blocks _).1 rfl 3,
    (format_shows_blocks _).2.1 (.arr []) rfl nofun 3, ⟨before, after, htext⟩,
    hshows.smaller (List.cons_ne_nil _ _) 1 2 (by decide) (by decide),
    hshows.unlimited (List.cons_ne_nil _ _) 2 (-1) (by decide) (by decide)⟩

end FileEndpoints.WebSearch

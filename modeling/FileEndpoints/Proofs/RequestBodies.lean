import FileEndpoints.Endpoint.Search
import FileEndpoints.Endpoint.Summary
import Mathlib.Tactic.SplitIfs

namespace FileEndpoints

namespace Text

theorem Decoder.start_leaves (b : Nat) : (start b).1 ≠ [] ∨ (start b).2 ≠ .ready := by
  unfold start
  split_ifs <;> simp only [ne_eq, reduceCtorEq, not_false_eq_true, true_or, or_true]

theorem Decoder.step_leaves (d : Decoder) (b : Nat) :
    (d.step b).1 ≠ [] ∨ (d.step b).2 ≠ .ready := by
  cases d with
  | ready => exact start_leaves b
  | within value more lo hi =>
    simp only [step]
    split
    · cases more with
      | zero => exact .inl nofun
      | succ more => exact .inr nofun
    · exact .inl nofun

theorem Decoder.run_ne_nil (bs : Bytes) (d : Decoder) (out : List (Option Char))
    (h : out ≠ [] ∨ d ≠ .ready) : d.run out bs ≠ [] := by
  induction bs generalizing d out with
  | nil =>
    intro hnil
    obtain ⟨hfinish, hout⟩ := List.append_eq_nil_iff.1 (List.reverse_eq_nil_iff.1 hnil)
    cases d with
    | ready => exact h.elim (fun hne => hne hout) fun hne => hne rfl
    | within value more lo hi => cases hfinish
  | cons b bs ih =>
    apply ih
    rcases d.step_leaves b.toNat with hmore | hnext
    · left
      intro hnil
      exact hmore (List.reverse_eq_nil_iff.1 (List.append_eq_nil_iff.1 hnil).1)
    · exact .inr hnext

theorem decodeLossy_ne_empty {bs : Bytes} (h : bs ≠ []) : decodeLossy bs ≠ "" := by
  intro hempty
  have hnil : decodeMarked bs = [] := by
    have hlist := congrArg String.toList hempty
    rw [decodeLossy, String.toList_ofList] at hlist
    exact List.map_eq_nil_iff.1 hlist
  cases bs with
  | nil => exact h rfl
  | cons b bs =>
    refine Decoder.run_ne_nil bs _ _ ?_ hnil
    rcases Decoder.ready.step_leaves b.toNat with hmore | hnext
    · left
      intro hrev
      exact hmore (List.reverse_eq_nil_iff.1 (List.append_eq_nil_iff.1 hrev).1)
    · exact .inr hnext

end Text

theorem nonEmpty?_eq_some {o : Option String} {s : String} :
    nonEmpty? o = some s ↔ o = some s ∧ s ≠ "" := by
  simp only [nonEmpty?, Option.filter_eq_some_iff, Bool.not_eq_true', ne_eq,
    ← String.isEmpty_iff, Bool.not_eq_true]

theorem getD_eq_iff {α : Type} {o : Option α} {P : α → Prop} (h : ∀ a, o = some a ↔ P a)
    (d a : α) : o.getD d = a ↔ P a ∨ (∀ b, ¬ P b) ∧ a = d := by
  cases o with
  | none =>
    have hno : ∀ b, ¬ P b := fun b hb => nomatch (h b).2 hb
    constructor
    · intro hd
      exact .inr ⟨hno, hd.symm⟩
    · rintro (ha | ⟨-, rfl⟩)
      · exact absurd ha (hno a)
      · rfl
  | some b =>
    have hb : P b := (h b).1 rfl
    constructor
    · rintro rfl
      exact .inl hb
    · rintro (ha | ⟨hno, -⟩)
      · exact Option.some.inj ((h a).2 ha)
      · exact absurd hb (hno b)

theorem member_eq_some {root : Json} {name s : String} :
    (root.get? name).bind Json.asString? = some s ↔ root.get? name = some (.str s) := by
  simp only [Option.bind_eq_some_iff, Json.asString?_eq_some, exists_eq_right]

/-- A payload is JSON and has a member of the given name that is a string and not empty. -/
def Names (data : Bytes) (name : String) (s : String) : Prop :=
  ∃ root, Json.ofBytes? data = some root ∧ root.get? name = some (.str s) ∧ s ≠ ""

theorem names_iff {data : Bytes} {root : Json} (hroot : Json.ofBytes? data = some root)
    (name s : String) :
    nonEmpty? ((root.get? name).bind Json.asString?) = some s ↔ Names data name s := by
  rw [nonEmpty?_eq_some, member_eq_some]
  constructor
  · rintro ⟨hs, hne⟩
    exact ⟨root, hroot, hs, hne⟩
  · rintro ⟨root', hroot', hs, hne⟩
    obtain rfl := Option.some.inj (hroot.symm.trans hroot')
    exact ⟨hs, hne⟩

theorem not_names {data : Bytes} (hroot : Json.ofBytes? data = none) (name s : String) :
    ¬ Names data name s := by
  rintro ⟨root, hsome, -⟩
  cases hroot.symm.trans hsome

namespace SearchSettings

inductive Query (data : Bytes) : String → Prop
  | named {q} (h : Names data "query" q) : Query data q
  | plain (h : Json.ofBytes? data = none) : Query data (Text.decodeLossy data)

def NamesCount (data : Bytes) (n : Int) : Prop :=
  ∃ root, Json.ofBytes? data = some root ∧ root.get? "max_results" = some (.num (.int n)) ∧
    0 < n ∧ n ≤ Text.maxInt64

def Count (r : SearchSettings) (data : Bytes) (n : Int) : Prop :=
  NamesCount data n ∨ (∀ k, ¬ NamesCount data k) ∧ n = r.maxResults

/-- The body of the call for a payload: the query and the number of results, and nothing else. -/
def Asks (r : SearchSettings) (data : Bytes) (body : Json) : Prop :=
  ∃ q n, Query data q ∧ Count r data n ∧
    body = .obj [("max_results", .num (.int n)), ("query", .str q)]

theorem query_iff {data : Bytes} (hd : data ≠ []) (q : String) :
    nonEmpty? (decode data).1 = some q ↔ Query data q := by
  simp only [decode]
  cases hroot : Json.ofBytes? data with
  | none =>
    rw [nonEmpty?_eq_some]
    constructor
    · rintro ⟨hq, -⟩
      obtain rfl := Option.some.inj hq
      exact .plain hroot
    · rintro (hnamed | -)
      · exact absurd hnamed (not_names hroot _ _)
      · exact ⟨rfl, Text.decodeLossy_ne_empty hd⟩
  | some root =>
    rw [names_iff hroot]
    constructor
    · exact .named
    · rintro (hnamed | hplain)
      · exact hnamed
      · cases hroot.symm.trans hplain

theorem namesCount_iff (data : Bytes) (n : Int) :
    (decode data).2.filter (fun n => decide (0 < n)) = some n ↔ NamesCount data n := by
  simp only [decode, Option.filter_eq_some_iff, decide_eq_true_eq]
  cases hroot : Json.ofBytes? data with
  | none =>
    constructor
    · rintro ⟨hn, -⟩
      cases hn
    · rintro ⟨root, hsome, -⟩
      cases hroot.symm.trans hsome
  | some root =>
    constructor
    · rintro ⟨hn, hpos⟩
      obtain ⟨v, hv, hint⟩ := Option.bind_eq_some_iff.1 hn
      obtain ⟨rfl, -, hmax⟩ := Json.asInt?_eq_some.1 hint
      exact ⟨root, hroot, hv, hpos, Int.le_of_lt_add_one hmax⟩
    · rintro ⟨root', hroot', hn, hpos, hmax⟩
      obtain rfl := Option.some.inj (hroot.symm.trans hroot')
      have hint := Json.asInt?_eq_some.2 ⟨rfl, by omega, Int.lt_add_one_of_le hmax⟩
      exact ⟨Option.bind_eq_some_iff.2 ⟨_, hn, hint⟩, hpos⟩

theorem parse_ok_iff (r : SearchSettings) {data : Bytes} (hd : data ≠ []) (q : String) (n : Int) :
    r.parse data = .ok (q, n) ↔ Query data q ∧ r.Count data n := by
  have hcount := getD_eq_iff (namesCount_iff data) r.maxResults
  rw [← query_iff hd]
  simp only [parse]
  cases nonEmpty? (decode data).1 with
  | none => exact iff_of_false nofun fun h => nomatch h.1
  | some q' =>
    simp only [Except.ok.injEq, Prod.mk.injEq, Option.some.injEq]
    exact and_congr_right fun _ => hcount n

theorem parse_refused (r : SearchSettings) {data : Bytes} (hd : data ≠ [])
    (h : ∀ q, ¬ Query data q) : r.parse data = .error (.invalidPayload missingQuery) := by
  simp only [parse]
  cases hq : nonEmpty? (decode data).1 with
  | none => rfl
  | some q => exact absurd ((query_iff hd q).1 hq) (h q)

theorem parse_asks (r : SearchSettings) {data : Bytes} (hd : data ≠ []) :
    (∃ q n, r.parse data = .ok (q, n) ∧
      ∀ body, r.Asks data body ↔ body = (WebSearch.body q n).canonical) ∨
    r.parse data = .error (.invalidPayload missingQuery) ∧ ∀ body, ¬ r.Asks data body := by
  by_cases hquery : ∃ q, Query data q
  · left
    obtain ⟨q, hq⟩ := hquery
    have hn := (getD_eq_iff (namesCount_iff data) r.maxResults _).1 rfl
    have hparse := (r.parse_ok_iff hd q _).2 ⟨hq, hn⟩
    refine ⟨q, _, hparse, fun body => ?_⟩
    constructor
    · rintro ⟨q', n', hq', hn', rfl⟩
      have hparse' := (r.parse_ok_iff hd q' n').2 ⟨hq', hn'⟩
      obtain ⟨rfl, rfl⟩ := Prod.mk.inj (Except.ok.inj (hparse'.symm.trans hparse))
      rfl
    · rintro rfl
      exact ⟨q, _, hq, hn, rfl⟩
  · right
    refine ⟨r.parse_refused hd fun q hq => hquery ⟨q, hq⟩, ?_⟩
    rintro body ⟨q, n, hq, -⟩
    exact hquery ⟨q, hq⟩

theorem compose_parsed {r : SearchSettings} {data : Bytes} {q : String} {n : Int}
    (h : r.parse data = .ok (q, n)) (env : Environment) :
    r.compose env data = (r.secret.resolve env).map fun bearer =>
      ({ url := r.url, bearer, body := (WebSearch.body q n).canonical, timeout := r.waitTime },
        some n) := by
  simp only [compose, h, bind, Except.bind]
  cases r.secret.resolve env <;> rfl

end SearchSettings

namespace SummarySettings

def Passage (data : Bytes) (text : String) : Prop :=
  Names data "text" text ∨ (∀ t, ¬ Names data "text" t) ∧ text = Text.decodeLossy data

/-- What a payload adds to the prompt about the form of the summary. -/
def FormatPart (data : Bytes) (part : String) : Prop :=
  (∃ f, Names data "format" f ∧ part = "\n\nFormat: " ++ f) ∨
    (∀ f, ¬ Names data "format" f) ∧ part = ""

def messageBody (role content : String) : Json :=
  .obj [("content", .str content), ("role", .str role)]

/-- The body of the call for a payload: two messages, of which the second one ends with the text,
the model, and the temperature if that is positive. -/
def Asks (r : SummarySettings) (data : Bytes) (body : Json) : Prop :=
  ∃ text part, Passage data text ∧ FormatPart data part ∧
    body = .obj ([("messages", .arr [
        messageBody "system" (r.systemPrompt.getD Chat.defaultSystemPrompt),
        messageBody "user"
          (r.systemPrompt.getD Chat.defaultLead ++ part ++ "\n\nText:\n" ++ text)]),
      ("model", .str r.model)] ++
        if 0 < r.temperature then [("temperature", .num (.float r.temperature))] else [])

theorem passage_iff (data : Bytes) (text : String) :
    (nonEmpty? (decode data).1).getD (Text.decodeLossy data) = text ↔ Passage data text := by
  apply getD_eq_iff
  intro t
  simp only [decode]
  cases hroot : Json.ofBytes? data with
  | none => exact iff_of_false nofun (not_names hroot _ _)
  | some root => exact names_iff hroot _ _

theorem format_iff (data : Bytes) (f : String) :
    nonEmpty? (decode data).2 = some f ↔ Names data "format" f := by
  simp only [decode]
  cases hroot : Json.ofBytes? data with
  | none => exact iff_of_false nofun (not_names hroot _ _)
  | some root => exact names_iff hroot _ _

theorem passage_ne_empty {data : Bytes} (hd : data ≠ []) {text : String} (h : Passage data text) :
    text ≠ "" := by
  rcases h with ⟨root, -, -, hne⟩ | ⟨-, rfl⟩
  · exact hne
  · exact Text.decodeLossy_ne_empty hd

theorem parse_passage {data : Bytes} (hd : data ≠ []) {text : String} (h : Passage data text) :
    parse data = .ok (text, (decode data).2) := by
  simp only [parse, (passage_iff data text).2 h]
  rw [if_neg]
  rw [String.isEmpty_iff]
  exact passage_ne_empty hd h

theorem prompt_eq (lead : Option String) (text : String) (format : Option String) :
    Chat.prompt lead text format = lead.getD Chat.defaultLead ++
      ((nonEmpty? format).map fun f => "\n\nFormat: " ++ f).getD "" ++ "\n\nText:\n" ++ text := by
  simp only [Chat.prompt, nonEmpty?]
  cases format.filter fun f => !f.isEmpty with
  | none => simp only [Option.map_none, Option.getD_none, String.append_empty]
  | some f => simp only [Option.map_some, Option.getD_some, String.append_assoc]

theorem formatPart_iff (data : Bytes) (part : String) :
    ((nonEmpty? (decode data).2).map fun f => "\n\nFormat: " ++ f).getD "" = part ↔
      FormatPart data part := by
  have hpart : ∀ p, (nonEmpty? (decode data).2).map (fun f => "\n\nFormat: " ++ f) = some p ↔
      ∃ f, Names data "format" f ∧ p = "\n\nFormat: " ++ f := by
    intro p
    rw [Option.map_eq_some_iff]
    simp only [format_iff, eq_comm (b := p)]
  rw [getD_eq_iff hpart, FormatPart]
  simp only [not_exists, not_and]
  constructor
  · rintro (h | ⟨hno, hp⟩)
    · exact .inl h
    · exact .inr ⟨fun f hf => hno _ f hf rfl, hp⟩
  · rintro (h | ⟨hno, hp⟩)
    · exact .inl h
    · exact .inr ⟨fun _ f hf => absurd hf (hno f), hp⟩

theorem conversation_body (r : SummarySettings) (text : String) (format : Option String) :
    (r.conversation text format).toJson.canonical =
      .obj ([("messages", .arr [
          messageBody "system" (r.systemPrompt.getD Chat.defaultSystemPrompt),
          messageBody "user" (Chat.prompt r.systemPrompt text format)]),
        ("model", .str r.model)] ++
          if 0 < r.temperature then [("temperature", .num (.float r.temperature))] else []) := by
  simp only [conversation, Chat.Conversation.toJson]
  split <;> rfl

theorem parse_asks (r : SummarySettings) {data : Bytes} (hd : data ≠ []) :
    ∃ text format, parse data = .ok (text, format) ∧
      ∀ body, r.Asks data body ↔ body = (r.conversation text format).toJson.canonical := by
  obtain ⟨text, hpassage⟩ : ∃ text, Passage data text := ⟨_, (passage_iff data _).1 rfl⟩
  refine ⟨text, _, parse_passage hd hpassage, fun body => ?_⟩
  rw [conversation_body, prompt_eq]
  constructor
  · rintro ⟨text', part, hpassage', hpart, rfl⟩
    rw [(formatPart_iff data part).2 hpart, ← (passage_iff data text).2 hpassage,
      (passage_iff data text').2 hpassage']
  · rintro rfl
    exact ⟨text, _, hpassage, (formatPart_iff data _).1 rfl, rfl⟩

theorem compose_parsed {r : SummarySettings} {data : Bytes} {text : String}
    {format : Option String} (h : parse data = .ok (text, format)) (env : Environment) :
    r.compose env data = (r.secret.resolve env).map fun bearer =>
      ({ url := r.url, bearer, body := (r.conversation text format).toJson.canonical
         timeout := r.waitTime }, none) := by
  simp only [compose, h, bind, Except.bind]
  cases r.secret.resolve env <;> rfl

end SummarySettings

end FileEndpoints

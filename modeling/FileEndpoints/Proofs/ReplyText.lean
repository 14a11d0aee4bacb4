import FileEndpoints.Remote.Chat

namespace FileEndpoints.Chat

def Member (field : String) (v w : Json) : Prop :=
  v.get? field = some w

/-- A record gives a value to its only field, by its name or by its place. -/
def Gives (field : String) (v w : Json) : Prop :=
  Member field v w ∨ v = .arr [w]

/-- Three steps lead from a reply to the text of its first choice. -/
def LeadsTo (Step : String → Json → Json → Prop) (reply : Json) (later : List Json)
    (text : String) : Prop :=
  ∃ first message, Step "choices" reply (.arr (first :: later)) ∧ Step "message" first message ∧
    Step "content" message (.str text)

/-- A record whose only field has the given form, unless it is absent or null. -/
def IsRecord (field : String) (Form : Json → Prop) (v : Json) : Prop :=
  ((∃ members, v = .obj members) ∨ ∃ w, v = .arr [w]) ∧
    ∀ w, Gives field v w → w = .null ∨ Form w

def IsMessage : Json → Prop :=
  IsRecord "content" fun v => ∃ s, v = .str s

def IsChoice : Json → Prop :=
  IsRecord "message" IsMessage

section

variable {α : Type} {field : String} {read : Json → Option α} {v : Json} {a : α}

theorem gives_obj {members : List (String × Json)} {w : Json} :
    Gives field (.obj members) w ↔ members.lookup field = some w := by
  simp only [Gives, Member, Json.get?, reduceCtorEq, or_false]

theorem gives_arr {items : List Json} {w : Json} : Gives field (.arr items) w ↔ items = [w] := by
  simp only [Gives, Member, Json.get?, reduceCtorEq, false_or, Json.arr.injEq]

theorem optional_eq_some {o : Option Json} (hnull : read .null = none) :
    optional read o = some (some a) ↔ ∃ w, o = some w ∧ read w = some a := by
  cases o with
  | none => simp only [optional, Option.some.injEq, reduceCtorEq, false_and, exists_false]
  | some w =>
    have hread : optional read (some w) = some (some a) ↔ read w = some a := by
      cases w with
      | null => simp only [optional, hnull, Option.some.injEq, reduceCtorEq]
      | _ => simp only [optional, Option.map_eq_some_iff, Option.some.injEq, exists_eq_right]
    simp only [hread, Option.some.injEq, exists_eq_left']

theorem optional_isSome {o : Option Json} :
    (optional read o).isSome = true ↔ ∀ w, o = some w → w = .null ∨ (read w).isSome = true := by
  cases o with
  | none => exact iff_of_true rfl nofun
  | some w =>
    simp only [Option.some.injEq, forall_eq']
    cases w with
    | null => exact iff_of_true rfl (.inl rfl)
    | _ => simp only [optional, Option.isSome_map, reduceCtorEq, false_or]

theorem recordOf_eq_some (hnull : read .null = none) :
    recordOf field read v = some (some a) ↔ ∃ w, Gives field v w ∧ read w = some a := by
  cases v with
  | obj members => simp only [recordOf, optional_eq_some hnull, gives_obj]
  | arr items =>
    simp only [gives_arr]
    match items with
    | [] =>
      simp only [recordOf, reduceCtorEq, List.nil_eq, List.cons_ne_nil, false_and, exists_false]
    | [w] =>
      simp only [recordOf, optional_eq_some hnull, Option.some.injEq, List.cons.injEq, and_true]
    | w :: w' :: items => simp [recordOf]
  | _ => simp [recordOf, Gives, Member, Json.get?]

theorem recordOf_isSome {Form : Json → Prop} (hread : ∀ w, (read w).isSome = true ↔ Form w) :
    (recordOf field read v).isSome = true ↔ IsRecord field Form v := by
  cases v with
  | obj members => simp [recordOf, optional_isSome, IsRecord, gives_obj, hread]
  | arr items =>
    simp only [IsRecord, gives_arr]
    match items with
    | [] => simp [recordOf]
    | [w] => simp [recordOf, optional_isSome, hread]
    | w :: w' :: items => simp [recordOf]
  | _ => simp [recordOf, IsRecord]

end

theorem message?_eq_some {v : Json} {text : String} :
    message? v = some (some text) ↔ Gives "content" v (.str text) := by
  have hnull : Json.asString? .null = none := rfl
  simp only [message?, recordOf_eq_some hnull, Json.asString?_eq_some, exists_eq_right]

theorem choice?_eq_some {v : Json} {text : String} :
    choice? v = some (some (some text)) ↔
      ∃ message, Gives "message" v message ∧ Gives "content" message (.str text) := by
  have hnull : message? .null = none := rfl
  simp only [choice?, recordOf_eq_some hnull, message?_eq_some]

theorem choice?_isSome {v : Json} : (choice? v).isSome = true ↔ IsChoice v := by
  apply recordOf_isSome
  intro message
  apply recordOf_isSome
  intro content
  simp only [Option.isSome_iff_exists, Json.asString?_eq_some]

theorem mapM_isSome {α β : Type} {f : α → Option β} {as : List α} :
    (as.mapM f).isSome = true ↔ ∀ a ∈ as, (f a).isSome = true := by
  induction as with
  | nil => simp only [List.mapM_nil, Option.pure_def, Option.isSome_some, List.not_mem_nil,
      false_implies, implies_true]
  | cons a as ih =>
    rw [List.mapM_cons, List.forall_mem_cons, ← ih]
    cases f a with
    | none => simp only [Option.bind_eq_bind, Option.bind_none, Option.isSome_none,
        Bool.false_eq_true, false_and]
    | some b => cases as.mapM f <;> simp

theorem choices?_eq_cons {reply : Json} {choice : Option (Option String)}
    {choices : List (Option (Option String))} :
    choices? reply = some (choice :: choices) ↔ ∃ first later,
      Gives "choices" reply (.arr (first :: later)) ∧ choice? first = some choice ∧
        later.mapM choice? = some choices := by
  have hcons (v : Json) : (v.asArray?.bind fun items => items.mapM choice?) =
      some (choice :: choices) ↔ ∃ first later, v = .arr (first :: later) ∧
        choice? first = some choice ∧ later.mapM choice? = some choices := by
    cases v with
    | arr items =>
      cases items with
      | nil => simp [Json.asArray?]
      | cons first later =>
        simp [Json.asArray?, List.mapM_cons, Option.bind_eq_some_iff, and_assoc]
    | _ => simp [Json.asArray?]
  cases reply with
  | obj members =>
    simp only [choices?, gives_obj]
    cases members.lookup "choices" with
    | none => simp
    | some v => simp [hcons]
  | arr items =>
    simp only [gives_arr]
    match items with
    | [] => simp [choices?]
    | [v] => simp [choices?, hcons]
    | v :: v' :: items => simp [choices?]
  | _ => simp [choices?, Gives, Member, Json.get?]

theorem content?_eq_some {reply : Json} {text : String} :
    content? reply = some text ↔
      ∃ later, LeadsTo Gives reply later text ∧ ∀ choice ∈ later, IsChoice choice := by
  have hcontent : content? reply = some text ↔
      ∃ choices, choices? reply = some (some (some text) :: choices) := by
    simp only [content?]
    cases choices? reply with
    | none => simp
    | some choices =>
      cases choices with
      | nil => simp
      | cons choice choices => simp [Option.bind_eq_some_iff]
  rw [hcontent]
  constructor
  · rintro ⟨choices, h⟩
    obtain ⟨first, later, hchoices, hfirst, hlater⟩ := choices?_eq_cons.1 h
    obtain ⟨message, hmessage, htext⟩ := choice?_eq_some.1 hfirst
    refine ⟨later, ⟨first, message, hchoices, hmessage, htext⟩, fun choice hc => ?_⟩
    exact choice?_isSome.1 (mapM_isSome.1 (Option.isSome_of_eq_some hlater) choice hc)
  · rintro ⟨later, ⟨first, message, hchoices, hmessage, htext⟩, hlater⟩
    have hread : (later.mapM choice?).isSome = true :=
      mapM_isSome.2 fun choice hc => choice?_isSome.2 (hlater choice hc)
    obtain ⟨choices, hc⟩ := Option.isSome_iff_exists.1 hread
    exact ⟨choices, choices?_eq_cons.2 ⟨first, later, hchoices,
      choice?_eq_some.2 ⟨message, hmessage, htext⟩, hc⟩⟩

theorem Gives.unique {field : String} {v w w' : Json} (h : Gives field v w)
    (h' : Gives field v w') : w = w' := by
  cases v with
  | obj members => exact Option.some.inj ((gives_obj.1 h).symm.trans (gives_obj.1 h'))
  | arr items => exact (List.cons.inj ((gives_arr.1 h).symm.trans (gives_arr.1 h'))).1
  | _ => simp [Gives, Member, Json.get?] at h

theorem LeadsTo.unique {reply : Json} {later later' : List Json} {text text' : String}
    (h : LeadsTo Gives reply later text) (h' : LeadsTo Gives reply later' text') :
    later = later' ∧ text = text' := by
  obtain ⟨first, message, hchoices, hmessage, htext⟩ := h
  obtain ⟨first', message', hchoices', hmessage', htext'⟩ := h'
  obtain ⟨rfl, rfl⟩ := List.cons.inj (Json.arr.inj (hchoices.unique hchoices'))
  obtain rfl := hmessage.unique hmessage'
  exact ⟨rfl, Json.str.inj (htext.unique htext')⟩

theorem LeadsTo.gives {reply : Json} {later : List Json} {text : String}
    (h : LeadsTo Member reply later text) : LeadsTo Gives reply later text := by
  obtain ⟨first, message, hchoices, hmessage, htext⟩ := h
  exact ⟨first, message, .inl hchoices, .inl hmessage, .inl htext⟩

/-- The text that is documented to be shown for a reply that is JSON. -/
def Documented (reply : Json) (shown : String) : Prop :=
  (∃ later, LeadsTo Member reply later shown) ∨
    (∀ later text, ¬ LeadsTo Member reply later text) ∧ shown = "(no content field returned)"

/-- What is shown for a reply, and when it is what is documented. -/
structure ShownText (raw : Bytes) : Prop where
  unreadable : Json.ofBytes? raw = none → summary raw = "Failed to parse LLM response\n"
  found : ∀ reply later text, Json.ofBytes? raw = some reply → LeadsTo Gives reply later text →
    (∀ choice ∈ later, IsChoice choice) → summary raw = text
  spoiled : ∀ reply later text, Json.ofBytes? raw = some reply → LeadsTo Gives reply later text →
    (∃ choice ∈ later, ¬ IsChoice choice) → summary raw = "(no content field returned)"
  missing : ∀ reply, Json.ofBytes? raw = some reply →
    (∀ later text, ¬ LeadsTo Gives reply later text) → summary raw = "(no content field returned)"
  /-- Documented but where a later choice has another form, or an array stands for a record, and
  not both. -/
  documented : ∀ reply, Json.ofBytes? raw = some reply →
    (Documented reply (summary raw) ↔ ∀ later text, LeadsTo Gives reply later text →
      text = "(no content field returned)" ∨
        (LeadsTo Member reply later text ↔ ∀ choice ∈ later, IsChoice choice))

theorem summary_eq {raw : Bytes} {reply : Json} (h : Json.ofBytes? raw = some reply) :
    summary raw = (content? reply).getD "(no content field returned)" := by
  simp only [summary, h]

theorem content?_eq_none {reply : Json} (h : ∀ later text, LeadsTo Gives reply later text →
    ∃ choice ∈ later, ¬ IsChoice choice) : content? reply = none := by
  apply Option.eq_none_iff_forall_ne_some.2
  intro text hsome
  obtain ⟨later, hleads, hlater⟩ := content?_eq_some.1 hsome
  obtain ⟨choice, hc, hno⟩ := h later text hleads
  exact hno (hlater choice hc)

theorem LeadsTo.content?_eq_none {reply : Json} {later : List Json} {text : String}
    (h : LeadsTo Gives reply later text) (hlater : ∃ choice ∈ later, ¬ IsChoice choice) :
    content? reply = none := by
  apply Chat.content?_eq_none
  intro later' text' h'
  obtain ⟨rfl, rfl⟩ := h.unique h'
  exact hlater

theorem LeadsTo.documented_iff {reply : Json} {later : List Json} {text shown : String}
    (h : LeadsTo Gives reply later text) : Documented reply shown ↔
      LeadsTo Member reply later text ∧ shown = text ∨
        ¬ LeadsTo Member reply later text ∧ shown = "(no content field returned)" := by
  have hsame {later' : List Json} {text' : String} (h' : LeadsTo Member reply later' text') :
      later' = later ∧ text' = text := h'.gives.unique h
  constructor
  · rintro (⟨later', h'⟩ | ⟨hno, hshown⟩)
    · obtain ⟨rfl, rfl⟩ := hsame h'
      exact .inl ⟨h', rfl⟩
    · exact .inr ⟨hno later text, hshown⟩
  · rintro (⟨hmember, rfl⟩ | ⟨hno, hshown⟩)
    · exact .inl ⟨later, hmember⟩
    · refine .inr ⟨fun later' text' h' => ?_, hshown⟩
      obtain ⟨rfl, rfl⟩ := hsame h'
      exact hno h'

/-- Of two defects, a malformed choice and an array for a record, each one spoils what is shown, but
not both together. -/
theorem LeadsTo.documented_content?_iff {reply : Json} {later : List Json} {text : String}
    (h : LeadsTo Gives reply later text) :
    Documented reply ((content? reply).getD "(no content field returned)") ↔
      text = "(no content field returned)" ∨
        (LeadsTo Member reply later text ↔ ∀ choice ∈ later, IsChoice choice) := by
  rw [h.documented_iff]
  -- The later choices decide what is shown, and the form of the records what is documented.
  by_cases hlater : ∀ choice ∈ later, IsChoice choice
  · have hcontent : content? reply = some text := content?_eq_some.2 ⟨later, h, hlater⟩
    simp only [hcontent, Option.getD_some, and_true, iff_true_right hlater]
    rw [or_comm]
    by_cases hmember : LeadsTo Member reply later text
    · simp only [hmember, not_true, false_and, or_true]
    · simp only [hmember, not_false_eq_true, true_and]
  · have hspoiled : ∃ choice ∈ later, ¬ IsChoice choice := by
      simpa only [Classical.not_forall, exists_prop] using hlater
    simp only [h.content?_eq_none hspoiled, Option.getD_none, and_true, iff_false_right hlater]
    rw [eq_comm (a := text)]
    by_cases hmember : LeadsTo Member reply later text
    · simp only [hmember, true_and, not_true, or_false]
    · simp only [hmember, not_false_eq_true, or_true]

theorem documented_content?_iff (reply : Json) :
    Documented reply ((content? reply).getD "(no content field returned)") ↔
      ∀ later text, LeadsTo Gives reply later text → text = "(no content field returned)" ∨
        (LeadsTo Member reply later text ↔ ∀ choice ∈ later, IsChoice choice) := by
  by_cases hleads : ∃ later text, LeadsTo Gives reply later text
  · obtain ⟨later, text, h⟩ := hleads
    rw [h.documented_content?_iff]
    constructor
    · intro hone later' text' h'
      obtain ⟨rfl, rfl⟩ := h.unique h'
      exact hone
    · intro hall
      exact hall later text h
  · have hno : ∀ later text, ¬ LeadsTo Gives reply later text :=
      fun later text h => hleads ⟨later, text, h⟩
    have hcontent : content? reply = none :=
      content?_eq_none fun later text h => absurd h (hno later text)
    rw [hcontent]
    apply iff_of_true
    · exact .inr ⟨fun later text h => hno later text h.gives, rfl⟩
    · exact fun later text h => absurd h (hno later text)

/-- The text of the first choice is shown as documented but for replies with a malformed choice and
replies with arrays in place of records. -/
theorem first_text_shown_iff (raw : Bytes) : ShownText raw := by
  constructor
  case unreadable =>
    intro h
    simp only [summary, h]
  case found =>
    intro reply later text h hleads hlater
    rw [summary_eq h, content?_eq_some.2 ⟨later, hleads, hlater⟩]
    rfl
  case spoiled =>
    intro reply later text h hleads hlater
    rw [summary_eq h, hleads.content?_eq_none hlater]
    rfl
  case missing =>
    intro reply h hno
    rw [summary_eq h, content?_eq_none fun later text h' => absurd h' (hno later text)]
    rfl
  case documented =>
    intro reply h
    rw [summary_eq h]
    exact documented_content?_iff reply

/-- Members of other names do not matter, and neither does a second choice without a message. -/
theorem text_before_empty_choice_shown :
    let raw := Text.encode
      "\x7b\"choices\":[\x7b\"message\":\x7b\"content\":\"hi\"\x7d,\"index\":0\x7d,\x7b\x7d]\x7d"
    ∃ reply, Json.ofBytes? raw = some reply ∧ LeadsTo Member reply [.obj []] "hi" ∧
      (∀ choice ∈ [Json.obj []], IsChoice choice) ∧ summary raw = "hi" ∧
      Documented reply (summary raw) := by
  intro raw
  let first : Json := .obj [("index", .ofInt 0), ("message", .obj [("content", .str "hi")])]
  have hraw : Json.ofBytes? raw =
      some (.obj [("choices", .arr [first, .obj []])]) := rfl
  have hleads : LeadsTo Member (.obj [("choices", .arr [first, .obj []])]) [.obj []] "hi" :=
    ⟨first, _, rfl, rfl, rfl⟩
  have hempty : ∀ choice ∈ [Json.obj []], IsChoice choice := by
    intro choice hc
    rw [List.mem_singleton.1 hc]
    exact ⟨.inl ⟨[], rfl⟩, fun w hw => nomatch gives_obj.1 hw⟩
  have hshown := first_text_shown_iff raw
  refine ⟨_, hraw, hleads, hempty, hshown.found _ _ _ hraw hleads.gives hempty, ?_⟩
  apply (hshown.documented _ hraw).2
  intro later text h
  obtain ⟨rfl, rfl⟩ := hleads.gives.unique h
  exact .inr (iff_of_true hleads hempty)

/-- A second choice of another form hides the text of the first one. -/
theorem malformed_choice_hides_text :
    ¬ ∀ raw reply, Json.ofBytes? raw = some reply → Documented reply (summary raw) := by
  intro h
  let first : Json := .obj [("message", .obj [("content", .str "one")])]
  let raw := Text.encode "\x7b\"choices\":[\x7b\"message\":\x7b\"content\":\"one\"\x7d\x7d,5]\x7d"
  have hleads : LeadsTo Member (.obj [("choices", .arr [first, .ofInt 5])]) [.ofInt 5] "one" :=
    ⟨first, _, rfl, rfl, rfl⟩
  have hraw : Json.ofBytes? raw = some (.obj [("choices", .arr [first, .ofInt 5])]) := rfl
  have hshown : summary raw = "(no content field returned)" := rfl
  have hdocumented := h raw _ hraw
  rw [hshown, hleads.gives.documented_iff] at hdocumented
  rcases hdocumented with ⟨-, htext⟩ | ⟨hno, -⟩
  · exact absurd htext (by decide)
  · exact hno hleads

end FileEndpoints.Chat

import FileEndpoints.Proofs.JsonRoundTrip
import FileEndpoints.Proofs.RemoteCalls
import FileEndpoints.Proofs.Utf8RoundTrip

namespace FileEndpoints

theorem Json.ofBytes?_render {v : Json} (h : Plain maxDepth v) :
    ofBytes? (Text.encode v.render) = some v.canonical := by
  rw [ofBytes?, Text.decode?_eq_some.2 rfl]
  exact parse?_render h

def Json.single (name s : String) : Json :=
  .obj [(name, .str s)]

theorem Json.ofBytes?_single (name s : String) :
    ofBytes? (Text.encode (single name s).render) = some (single name s) := by
  apply ofBytes?_render
  have hname : ([(name, Json.str s)].map Prod.fst).Nodup := List.pairwise_singleton _ _
  apply Plain.obj hname
  intro m hm
  rw [List.mem_singleton.1 hm]
  exact .str

theorem Json.solid_single (name s : String) :
    isBlankPayload (Text.encode (single name s).render) = false := by
  rw [single, render, Text.encode, String.toList_ofList]
  rfl

namespace Eager

variable {S : Type} [RemoteService S]

/-- A payload leads to a call with this body and limit, once there is a secret to call with. -/
def Sends (c : CallPlan S) (s : Services) (e : Eager S) (data : Bytes) (body : Json)
    (limit : Option Int) : Prop :=
  ∃ call : String → PendingCall,
    (∀ bearer, (call bearer).request.body = body ∧ (call bearer).request.bearer = bearer ∧
      (call bearer).resultLimit = limit) ∧
    (e.beginWrite s "/request" data).answer =
      ((c.secret e.settings).resolve s.env).map fun bearer => .remote (call bearer)

theorem beginWrite_answer {data : Bytes} (hd : isBlankPayload data = false) (s : Services)
    (e : Eager S) : (e.beginWrite s "/request" data).answer =
      (RemoteService.compose e.settings s.env data).map fun composed =>
        .remote { request := composed.1, resultLimit := composed.2
                  generation := e.cache.generation + 1 } := by
  simp only [beginWrite, e.accept_request hd]
  rfl

theorem sends {c : CallPlan S} {s : Services} {e : Eager S} {data : Bytes} {limit : Option Int}
    {request : String → Request} {body : Json} (hd : isBlankPayload data = false)
    (hbody : ∀ bearer, (request bearer).body = body ∧ (request bearer).bearer = bearer)
    (h : RemoteService.compose e.settings s.env data =
      ((c.secret e.settings).resolve s.env).map fun bearer => (request bearer, limit)) :
    e.Sends c s data body limit := by
  refine ⟨fun bearer => { request := request bearer, resultLimit := limit
                          generation := e.cache.generation + 1 }, ?_, ?_⟩
  · intro bearer
    exact ⟨(hbody bearer).1, (hbody bearer).2, rfl⟩
  · rw [beginWrite_answer hd, h]
    cases (c.secret e.settings).resolve s.env <;> rfl

end Eager

namespace SearchSettings

/-- A payload has a query searched for, and a number of results asked for and shown. -/
def Searches (s : Services) (e : SearchEndpoint) (data : Bytes) (q : String) (n : Int) : Prop :=
  e.Sends plan s data (.obj [("max_results", .num (.int n)), ("query", .str q)]) (some n)

/-- The number of results that a JSON payload names. -/
def CountIn (root : Json) (n : Int) : Prop :=
  root.get? "max_results" = some (.num (.int n)) ∧ 1 ≤ n ∧ n ≤ 0x7FFFFFFFFFFFFFFF

/-- What a search makes of a payload. Only objects have members. -/
structure Decodes (s : Services) (e : SearchEndpoint) (data : Bytes) : Prop where
  verbatim : Json.ofBytes? data = none →
    Searches s e data (Text.decodeLossy data) e.settings.maxResults
  counted : ∀ root q n, Json.ofBytes? data = some root →
    root.get? "query" = some (.str q) → q ≠ "" → CountIn root n → Searches s e data q n
  uncounted : ∀ root q, Json.ofBytes? data = some root →
    root.get? "query" = some (.str q) → q ≠ "" → (∀ n, ¬ CountIn root n) →
      Searches s e data q e.settings.maxResults
  queryless : ∀ root, Json.ofBytes? data = some root →
    (∀ q, root.get? "query" = some (.str q) → q = "") →
      (e.beginWrite s "/request" data).answer = .error (.invalidPayload "request missing query")

theorem namesCount_iff_countIn {data : Bytes} {root : Json}
    (h : Json.ofBytes? data = some root) (n : Int) : NamesCount data n ↔ CountIn root n := by
  constructor
  · rintro ⟨root', hroot', hn, hpos, hmax⟩
    obtain rfl := Option.some.inj (h.symm.trans hroot')
    exact ⟨hn, hpos, hmax⟩
  · rintro ⟨hn, hpos, hmax⟩
    exact ⟨root, h, hn, hpos, hmax⟩

theorem searches {s : Services} {e : SearchEndpoint} {data : Bytes} {q : String} {n : Int}
    (hd : isBlankPayload data = false) (hq : Query data q) (hn : e.settings.Count data n) :
    Searches s e data q n := by
  have hparse := (e.settings.parse_ok_iff (ne_nil_of_solid hd) q n).2 ⟨hq, hn⟩
  exact Eager.sends hd (fun _ => ⟨rfl, rfl⟩) (compose_parsed hparse s.env)

theorem decodes {data : Bytes} (hd : isBlankPayload data = false) (s : Services)
    (e : SearchEndpoint) : Decodes s e data where
  verbatim hnone := by
    apply searches hd (.plain hnone)
    right
    refine ⟨?_, rfl⟩
    rintro k ⟨root, hroot, -⟩
    cases hnone.symm.trans hroot
  counted root q n hroot hq hne hn :=
    searches hd (.named ⟨root, hroot, hq, hne⟩) (.inl ((namesCount_iff_countIn hroot n).2 hn))
  uncounted root q hroot hq hne hnone := by
    apply searches hd (.named ⟨root, hroot, hq, hne⟩)
    exact .inr ⟨fun k hk => hnone k ((namesCount_iff_countIn hroot k).1 hk), rfl⟩
  queryless root hroot hempty := by
    have hnone : ∀ q, ¬ Query data q := by
      rintro q (⟨root', hroot', hq, hne⟩ | hplain)
      · obtain rfl := Option.some.inj (hroot.symm.trans hroot')
        exact hne (hempty q hq)
      · cases hplain.symm.trans hroot
    have hparse := e.settings.parse_refused (ne_nil_of_solid hd) hnone
    rw [Eager.beginWrite_answer hd]
    change (e.settings.compose s.env data).map _ = _
    simp only [compose, hparse, bind, Except.bind]
    rfl

end SearchSettings

namespace SummarySettings

def formatLine : Option String → String
  | none => ""
  | some f => if f = "" then "" else "\n\nFormat: " ++ f

/-- A payload has a text summarised, in a format if one is passed on. -/
def Summarises (s : Services) (e : SummaryEndpoint) (data : Bytes) (text : String)
    (format : Option String) : Prop :=
  let lead := e.settings.systemPrompt.getD Chat.defaultLead
  e.Sends plan s data
    (.obj ([("messages", .arr [
        messageBody "system" (e.settings.systemPrompt.getD Chat.defaultSystemPrompt),
        messageBody "user" (lead ++ formatLine format ++ "\n\nText:\n" ++ text)]),
      ("model", .str e.settings.model)] ++
        if 0 < e.settings.temperature then [("temperature", .num (.float e.settings.temperature))]
        else [])) none

/-- The format that a JSON payload names, be it empty, or none. -/
def FormatIn (root : Json) : Option String → Prop
  | some f => root.get? "format" = some (.str f)
  | none => ∀ f, root.get? "format" ≠ some (.str f)

structure Decodes (s : Services) (e : SummaryEndpoint) (data : Bytes) : Prop where
  verbatim : Json.ofBytes? data = none → Summarises s e data (Text.decodeLossy data) none
  named : ∀ root text format, Json.ofBytes? data = some root → FormatIn root format →
    root.get? "text" = some (.str text) → text ≠ "" → Summarises s e data text format
  whole : ∀ root format, Json.ofBytes? data = some root → FormatIn root format →
    (∀ text, root.get? "text" = some (.str text) → text = "") →
      Summarises s e data (Text.decodeLossy data) format

theorem prompt_formatLine (lead : Option String) (text : String) (format : Option String) :
    Chat.prompt lead text format =
      lead.getD Chat.defaultLead ++ formatLine format ++ "\n\nText:\n" ++ text := by
  have hline : ((nonEmpty? format).map fun f => "\n\nFormat: " ++ f).getD "" =
      formatLine format := by
    cases format with
    | none => rfl
    | some f =>
      simp only [formatLine]
      split
      case isTrue h =>
        rw [h]
        rfl
      case isFalse h =>
        rw [nonEmpty?_eq_some.2 ⟨rfl, h⟩]
        rfl
  rw [prompt_eq, hline]

theorem decode_format {data : Bytes} {root : Json} {format : Option String}
    (hroot : Json.ofBytes? data = some root) (h : FormatIn root format) :
    (decode data).2 = format := by
  simp only [decode, hroot]
  cases format with
  | some f => exact member_eq_some.2 h
  | none =>
    apply Option.eq_none_iff_forall_ne_some.2
    intro f hf
    exact h f (member_eq_some.1 hf)

theorem summarises {s : Services} {e : SummaryEndpoint} {data : Bytes} {text : String}
    {format : Option String} (hd : isBlankPayload data = false) (htext : Passage data text)
    (hformat : (decode data).2 = format) : Summarises s e data text format := by
  have hparse := parse_passage (ne_nil_of_solid hd) htext
  rw [hformat] at hparse
  refine Eager.sends hd (fun _ => ⟨?_, rfl⟩) (compose_parsed hparse s.env)
  rw [conversation_body, prompt_formatLine]

theorem decodes {data : Bytes} (hd : isBlankPayload data = false) (s : Services)
    (e : SummaryEndpoint) : Decodes s e data where
  verbatim hnone := by
    apply summarises hd (.inr ⟨not_names hnone "text", rfl⟩)
    simp only [decode, hnone]
  named root text format hroot hformat htext hne :=
    summarises hd (.inl ⟨root, hroot, htext, hne⟩) (decode_format hroot hformat)
  whole root format hroot hformat hempty := by
    refine summarises hd (.inr ⟨?_, rfl⟩) (decode_format hroot hformat)
    rintro text ⟨root', hroot', htext, hne⟩
    obtain rfl := Option.some.inj (hroot.symm.trans hroot')
    exact hne (hempty text htext)

end SummarySettings

structure ReadsPayloads : Prop where
  search : ∀ (s : Services) (e : SearchEndpoint) (data : Bytes), isBlankPayload data = false →
    SearchSettings.Decodes s e data
  summary : ∀ (s : Services) (e : SummaryEndpoint) (data : Bytes), isBlankPayload data = false →
    SummarySettings.Decodes s e data
  /-- Only texts in UTF-8 are JSON, and taking them as they are loses nothing. -/
  illFormed : ∀ data, (∀ t, data ≠ Text.encode t) → Json.ofBytes? data = none
  wellFormed : ∀ t, Text.decodeLossy (Text.encode t) = t
  /-- Whole numbers are written in digits alone, behind a minus sign if they are negative. -/
  numeral : ∀ chars i, Json.Numeral.read? chars = some (.int i) ↔
    chars = Json.intChars i ∧ -0x8000000000000000 ≤ i ∧ i ≤ 0xFFFFFFFFFFFFFFFF
  query : ∀ (s : Services) (e : SearchEndpoint) (q : String), q ≠ "" →
    SearchSettings.Searches s e (Text.encode (Json.single "query" q).render) q
      e.settings.maxResults
  text : ∀ (s : Services) (e : SummaryEndpoint) (t : String), t ≠ "" →
    SummarySettings.Summarises s e (Text.encode (Json.single "text" t).render) t none

/-- Payloads that are not JSON are taken as they are, and the others by their members. Every query
and every text can be sent. -/
theorem payloads_read : ReadsPayloads where
  search s e data hd := SearchSettings.decodes hd s e
  summary s e data hd := SummarySettings.decodes hd s e
  illFormed data h := by
    rw [Json.ofBytes?, Option.bind_eq_none_iff]
    intro t ht
    exact absurd (Text.decode?_eq_some.1 ht) (h t)
  wellFormed := Text.decodeLossy_encode
  numeral _ _ := Json.Numeral.read?_eq_int
  query s e q hq := by
    have hdecodes := SearchSettings.decodes (Json.solid_single "query" q) s e
    apply hdecodes.uncounted _ q (Json.ofBytes?_single "query" q) rfl hq
    rintro n ⟨hn, -⟩
    cases hn
  text s e t ht := by
    have hdecodes := SummarySettings.decodes (Json.solid_single "text" t) s e
    exact hdecodes.named _ t none (Json.ofBytes?_single "text" t) nofun rfl ht

/-- A count of more than 63 bits does not count, ill-formed bytes are a query, an array is none, and
an object without a text is a text itself. The calls are made, since there are secrets. -/
theorem odd_payloads_read :
    let s := { Services.steady ⟨0⟩ (.error .noTransport) .crashed with env := fun _ => some "k" }
    let great := Text.encode "\x7b\"query\":\"q\",\"max_results\":9223372036854775808\x7d"
    let format := Text.encode "\x7b\"format\":\"\"\x7d"
    SearchSettings.Searches s Eager.create great "q" 3 ∧
      SearchSettings.Searches s Eager.create [0xFF] "\uFFFD" 3 ∧
      (Eager.beginWrite s (Eager.create : SearchEndpoint) "/request" [91, 93]).answer =
        .error (.invalidPayload "request missing query") ∧
      SummarySettings.Summarises s Eager.create format "\x7b\"format\":\"\"\x7d" (some "") ∧
      (Eager.beginWrite s (Eager.create : SearchEndpoint) "/request" great).call?.map
        (fun call => call.request.bearer) = some "k" ∧
      (Eager.beginWrite s (Eager.create : SummaryEndpoint) "/request" format).call?.map
        (fun call => call.request.bearer) = some "k" := by
  intro s great format
  have hread := payloads_read
  refine ⟨?_, ?_, ?_, ?_, rfl, rfl⟩
  · have hgreat : Json.ofBytes? great = some (.obj [("max_results", .ofInt 9223372036854775808),
        ("query", .str "q")]) := rfl
    apply (hread.search s Eager.create great rfl).uncounted _ "q" hgreat rfl (by decide)
    rintro n ⟨hn, -, hmax⟩
    cases hn
    exact absurd hmax (by decide)
  · exact (hread.search s Eager.create [0xFF] rfl).verbatim rfl
  · exact (hread.search s Eager.create [91, 93] rfl).queryless _ rfl nofun
  · have hwhole := (hread.summary s Eager.create format rfl).whole _ (some "") rfl rfl nofun
    rwa [hread.wellFormed] at hwhole

end FileEndpoints

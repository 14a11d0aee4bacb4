import FileEndpoints.Proofs.AuditSteps
import FileEndpoints.Proofs.SettingsTables

namespace FileEndpoints

open Time (Instant)

inductive EditableFile where
  | metadata
  | instructions
deriving DecidableEq, Repr

namespace EditableFile

def path : EditableFile → String
  | metadata => "/metadata"
  | instructions => "/instructions"

/-- The key that holds the text in settings documents. -/
def key : EditableFile → String
  | metadata => "metadata"
  | instructions => "instructions"

def first : EditableFile → String
  | metadata => "owner=unknown"
  | instructions => "Describe how to process incoming payloads."

def placeholder : EditableFile → String
  | metadata => "No metadata set\n"
  | instructions => "No instructions set\n"

/-- What a move sets the text to: bytes as they are written, or the string of a document. -/
inductive Sets (f : EditableFile) : Move → Bytes → Prop
  | written {data} : Sets f (.use (.write f.path data)) data
  | begun {data} : Sets f (.begin f.path data) data
  | configured {document root text} (hd : Holds document root)
      (ht : root.get? f.key = some (.str text)) :
      Sets f (.use (.configure document)) (Text.encode text)

def text : EditableFile → SkillSettings → Bytes
  | metadata, r => r.metadata
  | instructions, r => r.instructions

def setting (f : EditableFile) : Setting SkillSettings where
  view := f.text
  first := Text.encode f.first
  keys := [f.key]
  Reads := IsText Text.encode
  Writes path data a := path = f.path ∧ a = data

theorem setting_mem (f : EditableFile) : f.setting ∈ SkillSettings.table := by
  cases f with
  | metadata => exact .tail _ (.head _)
  | instructions => exact .tail _ (.tail _ (.head _))

theorem firstReading_iff (f : EditableFile) (root : Json) (a : Bytes) :
    FirstReading (IsText Text.encode) root [f.key] a ↔
      ∃ text, root.get? f.key = some (.str text) ∧ a = Text.encode text := by
  constructor
  · intro h
    cases h with
    | here hv ha =>
      obtain ⟨text, rfl, rfl⟩ := ha
      exact ⟨text, hv, rfl⟩
    | later _ hnone => cases hnone
  · rintro ⟨text, hv, rfl⟩
    exact .here hv ⟨text, rfl, rfl⟩

theorem sets_iff (f : EditableFile) (m : Move) (a : Bytes) : f.Sets m a ↔ f.setting.Gives m a := by
  constructor
  · intro h
    cases h with
    | written => exact ⟨rfl, rfl⟩
    | begun => exact ⟨rfl, rfl⟩
    | configured hd ht => exact ⟨_, hd, (f.firstReading_iff _ _).2 ⟨_, ht, rfl⟩⟩
  · intro h
    cases m with
    | begin path data =>
      obtain ⟨rfl, rfl⟩ := h
      exact .begun
    | finish number reply => cases h
    | use operation =>
      cases operation with
      | configure document =>
        obtain ⟨root, hd, hreads⟩ := h
        obtain ⟨text, ht, rfl⟩ := (f.firstReading_iff root _).1 hreads
        exact .configured hd ht
      | write path data =>
        obtain ⟨rfl, rfl⟩ := h
        exact .written
      | shutdown => cases h
      | stat path => cases h
      | list path => cases h
      | read path offset size => cases h

theorem read_eq (f : EditableFile) (s : Services) (k : Skill) (offset size : Int) :
    Endpoint.read s k f.path offset size =
      { answer :=
          .ok (readWindow (Skill.orPlaceholder (f.text k.settings) f.placeholder) offset size)
        state := k } := by
  cases f <;> rfl

theorem readWindow_whole (value : Bytes) {offset size : Int} (hoffset : offset ≤ 0)
    (hsize : size ≤ 0) : readWindow value offset size = value := by
  simp only [readWindow, Int.toNat_of_nonpos hoffset, List.drop_zero,
    if_neg (Int.not_lt.2 hsize)]

theorem orPlaceholder_eq (content : Bytes) (placeholder : String) :
    Skill.orPlaceholder content placeholder =
      if content = [] then Text.encode placeholder else content := by
  simp only [Skill.orPlaceholder, List.isEmpty_iff]

end EditableFile

namespace Skill

variable {s : Services}

/-- A read of the result makes no run if nothing is queued or the result is fresh. -/
theorem currentResult_quiet (s : Services) (k : Skill) :
    (k.currentResult s).effects.isEmpty = match k.queued?, s.clock with
      | some _, .ok now => k.isFresh now
      | _, _ => true := by
  cases hq : k.queued? with
  | none => rw [currentResult_absent hq]; rfl
  | some data =>
    cases hc : s.clock with
    | error err =>
      simp only [queued?] at hq
      simp only [currentResult, hq, hc, Outcome.timed, List.isEmpty_nil]
    | ok now =>
      cases hf : k.isFresh now with
      | true => rw [currentResult_fresh hq hc hf]; exact hf.symm
      | false => rw [currentResult_stale hq hc hf, runOn_effects]; exact hf.symm

theorem servesCached_congr {k k' : Skill} (hcache : k'.cache = k.cache) (httl : k'.ttl = k.ttl)
    (s : Services) (offset size : Int) :
    SkillStep.servesCached ⟨k', s, .use (.read "/result" offset size)⟩ =
      SkillStep.servesCached ⟨k, s, .use (.read "/result" offset size)⟩ := by
  have hquiet (k : Skill) : (SkillStep.outcome ⟨k, s, .use (.read "/result" offset size)⟩).effects =
      (k.currentResult s).effects := rfl
  have hqueued : k'.queued? = k.queued? := by simp only [queued?, hcache]
  have hmax : k'.maxAge = k.maxAge := by simp only [maxAge, httl]
  have hfresh : k'.isFresh = k.isFresh := by
    funext now
    simp only [isFresh, hcache, httl, hmax]
  simp only [SkillStep.servesCached, hquiet, currentResult_quiet, hcache, hqueued, hfresh]

theorem configure_slot (s : Services) (k : Skill) (document : Option String) :
    (k.configure s document).state.cache = k.cache := by
  simp only [configure]
  split
  · rfl
  · simp only [Outcome.timed]
    cases s.clock <;> rfl

theorem move_cache {f : EditableFile} {m : Move} {a : Bytes} (h : f.Sets m a) (s : Services)
    (k : Skill) : (k.move s m).cache = k.cache := by
  have hbegun (data : Bytes) : (k.beginWrite s f.path data).state.cache = k.cache := by
    have hfile : tree.writable f.path = .ok .metadata ∨
        tree.writable f.path = .ok .instructions := by
      cases f with
      | metadata => exact .inl rfl
      | instructions => exact .inr rfl
    rcases hfile with hf | hf
    · simp only [beginWrite, hf, Outcome.timed]
      cases s.clock <;> rfl
    · simp only [beginWrite, hf, Outcome.timed]
      cases s.clock <;> rfl
  cases h with
  | written => exact hbegun _
  | begun => exact hbegun _
  | configured hd ht => exact k.configure_slot s _

theorem move_ttl {m : Move} (h : ∀ document root n, m = .use (.configure document) →
      Holds document root → root.get? "cache_ttl_seconds" ≠ some (.num (.int n)))
    (s : Services) (k : Skill) : (k.move s m).ttl = k.ttl := by
  have hmem : _ ∈ SkillSettings.table := .tail _ (.tail _ (.tail _ (.head _)))
  have hfollows := Session.skill_follows hmem (Session.start k) s m
  rw [Session.skill_step] at hfollows
  refine hfollows.kept fun n hgives => ?_
  cases m with
  | begin path data => exact hgives
  | finish number reply => exact hgives
  | use operation =>
    cases operation with
    | configure document =>
      obtain ⟨root, hd, hreads⟩ := hgives
      cases hreads with
      | here hv ha =>
        obtain ⟨n, rfl, -⟩ := ha
        exact h document root n rfl hd hv
      | later _ hnone => cases hnone
    | write path data => exact hgives
    | shutdown => exact hgives
    | stat path => exact hgives
    | list path => exact hgives
    | read path offset size => exact hgives

theorem configure_failed {s : Services} {now : Instant} (hc : s.clock = .ok now) {k : Skill}
    {document : Option String} {err : Error} (h : (k.configure s document).answer = .error err) :
    (k.configure s document).state = k ∧ ∀ root, ¬ Holds document root := by
  cases hp : Patch.parse document with
  | ok p =>
    rw [configure_answer hp hc] at h
    cases h
  | error failure =>
    have hparsed := Patch.parse_parsed document
    rw [hp] at hparsed
    cases hparsed with
    | malformed hm =>
      obtain ⟨text, rfl, -, hnone⟩ := hm
      refine ⟨congrArg Outcome.state (configure_refused hp s k), ?_⟩
      rintro root ⟨text', htext, -, hsome⟩
      rw [← Option.some.inj htext, hnone] at hsome
      cases hsome

end Skill

namespace EditableFile

/-- The file shows what has set its text last, and a setter does nothing else that shows. -/
structure ShowsLastText (f : EditableFile) : Prop where
  shown : ∀ (created : Instant) (moves : List (Services × Move)),
    let k := ((Session.start (Skill.create created)).run moves).endpoint
    ∃ bytes, Settled f.Sets (Text.encode f.first) (moves.map Prod.snd) bytes ∧
      ∀ (s : Services) (size : Int), size ≤ 0 → Endpoint.read s k f.path 0 size =
        { answer := .ok (if bytes = [] then Text.encode f.placeholder else bytes), state := k }
  /-- Whatever does not set the text leaves every window of the file. -/
  untouched : ∀ (w : Session Skill) (s : Services) (m : Move), (∀ a, ¬ f.Sets m a) →
    ∀ (later : Services) (offset size : Int),
      (Endpoint.read later (w.step s m).endpoint f.path offset size).answer =
        (Endpoint.read later w.endpoint f.path offset size).answer
  /-- A document that is refused changes nothing and sets nothing. -/
  refused : ∀ (k : Skill) (s : Services) (document : Option String) (err : Error),
    (∃ now, s.clock = .ok now) → (Endpoint.configure s k document).answer = .error err →
      (Endpoint.configure s k document).state = k ∧
        ∀ a, ¬ f.Sets (.use (.configure document)) a
  /-- The result stays. It is a hit as before, at the time to live that the setter leaves. -/
  cached : ∀ (w : Session Skill) (s : Services) (m : Move) (a : Bytes), f.Sets m a →
    let k := w.endpoint
    let k' := (w.step s m).endpoint
    k'.cache = k.cache ∧ ∀ (later : Services) (offset size : Int),
      SkillStep.servesCached ⟨k', later, .use (.read "/result" offset size)⟩ =
        SkillStep.servesCached ⟨{ k with ttl := k'.ttl }, later,
          .use (.read "/result" offset size)⟩
  /-- Only a document with a time to live of its own has a say in whether it is a hit. -/
  ttl : ∀ (w : Session Skill) (s : Services) (m : Move),
    (∀ document root n, m = .use (.configure document) → Holds document root →
      root.get? "cache_ttl_seconds" ≠ some (.num (.int n))) →
    (w.step s m).endpoint.ttl = w.endpoint.ttl

theorem sets_eq (f : EditableFile) : f.Sets = f.setting.Gives := by
  funext m a
  exact propext (f.sets_iff m a)

theorem text_settled (f : EditableFile) (created : Instant) (moves : List (Services × Move)) :
    Settled f.Sets (Text.encode f.first) (moves.map Prod.snd)
      (f.text ((Session.start (Skill.create created)).run moves).endpoint.settings) := by
  have hfirst : Text.encode f.first = f.text (Skill.create created).settings := by
    cases f <;> rfl
  rw [f.sets_eq, hfirst]
  exact Setting.settled_run (fun w s m => w.skill_follows f.setting_mem s m)
    (Session.start (Skill.create created)) moves

theorem text_kept (f : EditableFile) {m : Move} (hm : ∀ a, ¬ f.Sets m a) (w : Session Skill)
    (s : Services) : f.text (w.step s m).endpoint.settings = f.text w.endpoint.settings := by
  rw [f.sets_eq] at hm
  exact (w.skill_follows f.setting_mem s m).kept hm

end EditableFile

/-- The latest text wins for either file, whatever else happens to the endpoint. -/
theorem latest_text_wins (f : EditableFile) : f.ShowsLastText := by
  constructor
  case shown =>
    intro created moves k
    refine ⟨f.text k.settings, f.text_settled created moves, fun s size hsize => ?_⟩
    rw [f.read_eq, EditableFile.readWindow_whole _ (Int.le_refl 0) hsize, EditableFile.orPlaceholder_eq]
  case untouched =>
    intro w s m hm later offset size
    simp only [f.read_eq, f.text_kept hm]
  case refused =>
    intro k s document err hclock hfail
    obtain ⟨now, hc⟩ := hclock
    obtain ⟨hstate, hnone⟩ := Skill.configure_failed hc hfail
    refine ⟨hstate, fun a hsets => ?_⟩
    cases hsets with
    | configured hd ht => exact hnone _ hd
  case cached =>
    intro w s m a hsets k k'
    have hcache : k'.cache = k.cache := by
      change (w.step s m).endpoint.cache = _
      rw [w.skill_step]
      exact Skill.move_cache hsets s k
    exact ⟨hcache, Skill.servesCached_congr hcache rfl⟩
  case ttl =>
    intro w s m hm
    rw [w.skill_step]
    exact Skill.move_ttl hm s w.endpoint

/-- Bytes that are not text stay through a document for the other file, a document that is refused
and a shutdown, and the placeholder stands in once they are gone. -/
theorem raw_metadata_stays :
    let s := Services.steady ⟨0⟩ (.error .noTransport) (.failed "no")
    let document := some "\x7b\"instructions\":\"do\"\x7d"
    let written : Move := .use (.write "/metadata" [255, 254])
    let moves := [(s, written), (s, .use (.configure document)), (s, .use .shutdown)]
    let w := (Session.start (Skill.create ⟨0⟩)).run moves
    Settled EditableFile.metadata.Sets (Text.encode "owner=unknown") (moves.map Prod.snd)
        [255, 254] ∧
      (Endpoint.read s w.endpoint "/metadata" 0 0).answer = .ok [255, 254] ∧
      (Endpoint.read s (w.step s (.use (.configure document))).endpoint "/metadata" 1 9).answer =
        .ok [254] ∧
      (Endpoint.configure s w.endpoint (some "\x7b")).state = w.endpoint ∧
      (w.step s written).endpoint.cache = w.endpoint.cache ∧
      (w.step s written).endpoint.ttl = 3600 ∧
      (Endpoint.read s (w.step s (.use (.write "/metadata" []))).endpoint "/metadata" 0 0).answer =
        .ok (Text.encode "No metadata set\n") := by
  intro s document written moves w
  have hlaw := latest_text_wins .metadata
  have hnone (a : Bytes) : ¬ EditableFile.metadata.Sets (.use (.configure document)) a := by
    intro h
    cases h with
    | configured hd ht =>
      have hroot : Holds document (.obj [("instructions", .str "do")]) := ⟨_, rfl, rfl, rfl⟩
      rw [hd.unique hroot] at ht
      cases ht
  have hsettled : Settled EditableFile.metadata.Sets (Text.encode "owner=unknown")
      (moves.map Prod.snd) [255, 254] := by
    apply Settled.given [] .written
    intro m hm a
    cases hm with
    | head => exact hnone a
    | tail _ hm =>
      rw [List.mem_singleton.1 hm]
      exact nofun
  have hkept := hlaw.untouched w s (.use (.configure document)) hnone s 1 9
  have hrefused := hlaw.refused w.endpoint s (some "\x7b") .malformedSettings ⟨⟨0⟩, rfl⟩ rfl
  have hcached := hlaw.cached w s written [255, 254] .written
  have httl := hlaw.ttl w s (.use (.write "/metadata" [255, 254])) (fun _ _ _ hm => nomatch hm)
  exact ⟨hsettled, rfl, hkept.trans rfl, hrefused.1, hcached.1, httl.trans rfl, rfl⟩

end FileEndpoints

import FileEndpoints.Proofs.Freshness
import FileEndpoints.Proofs.Session
import FileEndpoints.Proofs.TreePaths

namespace FileEndpoints

open Time (Instant)

/-- What users have seen happen to a skill endpoint. -/
structure History where
  payload : Option Bytes := none
  /-- The text of the last run that succeeded, and what the clock showed when it started. -/
  success : Option (String × Instant) := none
  /-- Whether a run has succeeded since the payload was accepted. -/
  answered : Bool := false

namespace History

def accept (h : History) (data : Bytes) : History :=
  { h with payload := some data, answered := false }

def succeed (h : History) (text : String) (started : Instant) : History :=
  { h with success := some (text, started), answered := true }

end History

/-- The text and the start of the run that an effect reports, if it succeeded. -/
def Services.success? (s : Services) : Effect → Option (String × Instant)
  | .posted _ => none
  | .ran i =>
    match (s.run i).outcome, s.clock with
    | .completed text, .ok started => some (text, started)
    | _, _ => none

/-- The payload that a use has queued for the skill, judged by its answer. -/
def Use.queued? (u : Use) (answer : Except Error Answer) : Option Bytes :=
  match u.operation, answer with
  | .write path data, .ok _ => if path = "/execute" then some data else none
  | _, _ => none

namespace History

def observe (h : History) (s : Services) (effects : List Effect) : History :=
  match effects.findSome? s.success? with
  | none => h
  | some (text, started) => h.succeed text started

def record (h : History) (u : Use) (o : Outcome Skill Answer) : History :=
  let h := match u.queued? o.answer with
    | none => h
    | some data => h.accept data
  h.observe u.services o.effects

end History

structure Watched where
  skill : Skill
  history : History := {}

namespace Watched

def step (w : Watched) (u : Use) : Watched :=
  let o := u.perform w.skill
  { skill := o.state, history := w.history.record u o }

def run (w : Watched) (uses : List Use) : Watched :=
  uses.foldl step w

def create (time : Instant) : Watched :=
  { skill := Skill.create time }

end Watched

/-- The clock of a skill tells the given time, which clocks can show. -/
structure Services.Tells (s : Services) (now : Instant) : Prop where
  clock : s.clock = .ok now
  inRange : now.inRange = true

/-- How the slot of a skill endpoint reflects its history. -/
structure Reflects (c : ResponseCache) (h : History) : Prop where
  payload : c.payload = h.payload
  solid : ∀ data, h.payload = some data → isBlankPayload data = false
  summary : c.summary = h.success.map Prod.fst
  executedAt : c.executedAt = h.success.map Prod.snd
  pending : c.pending = (h.payload.isSome && !h.answered)
  answered : h.answered = true → h.success.isSome = true
  inRange : ∀ text started, h.success = some (text, started) → started.inRange = true

namespace Reflects

variable {c : ResponseCache} {h : History}

theorem accept (hr : Reflects c h) {data : Bytes} (hdata : isBlankPayload data = false) :
    Reflects (c.submit data) (h.accept data) where
  payload := rfl
  solid _ hd := (Option.some.inj hd) ▸ hdata
  summary := hr.summary
  executedAt := hr.executedAt
  pending := rfl
  answered ha := nomatch ha
  inRange := hr.inRange

theorem succeed (hr : Reflects c h) (text : String) {now : Instant} (hnow : now.inRange = true) :
    Reflects (c.install none text now) (h.succeed text now) where
  payload := hr.payload
  solid := hr.solid
  summary := rfl
  executedAt := rfl
  pending := (Bool.and_false _).symm
  answered _ := rfl
  inRange _ _ hs := (Prod.mk.inj (Option.some.inj hs)).2 ▸ hnow

theorem summary_eq (hr : Reflects c h) {text : String} {started : Instant}
    (hs : h.success = some (text, started)) : c.summary = some text := by
  rw [hr.summary, hs, Option.map_some]

theorem executedAt_eq (hr : Reflects c h) {text : String} {started : Instant}
    (hs : h.success = some (text, started)) : c.executedAt = some started := by
  rw [hr.executedAt, hs, Option.map_some]

theorem summary_eq_none (hr : Reflects c h) (hs : h.success = none) : c.summary = none := by
  rw [hr.summary, hs, Option.map_none]

theorem create (time : Instant) :
    Reflects (Watched.create time).skill.cache (Watched.create time).history where
  payload := rfl
  solid _ hd := nomatch hd
  summary := rfl
  executedAt := rfl
  pending := rfl
  answered ha := nomatch ha
  inRange _ _ hs := nomatch hs

end Reflects

namespace Skill

theorem writable_cases {path : String} {f : SkillFile} (h : tree.writable path = .ok f) :
    (f = .execute ∧ path = "/execute") ∨
      ((f = .metadata ∨ f = .instructions) ∧ path ≠ "/execute") := by
  obtain ⟨hpath, hw⟩ := Tree.path_of_writable h
  cases f with
  | execute => exact .inl ⟨rfl, hpath⟩
  | metadata => exact .inr ⟨.inl rfl, hpath ▸ by decide⟩
  | instructions => exact .inr ⟨.inr rfl, hpath ▸ by decide⟩
  | result => cases hw
  | status => cases hw
  | log => cases hw

variable {s : Services} {now : Instant}

theorem write_cases (hc : s.clock = .ok now) (k : Skill) (path : String) (data : Bytes) :
    (Endpoint.write s k path data).effects = [] ∧
      ((path = "/execute" ∧ isBlankPayload data = false ∧
          (Endpoint.write s k path data).answer = .ok () ∧
          (Endpoint.write s k path data).state.cache = k.cache.submit data) ∨
        ((path = "/execute" → ∃ err, (Endpoint.write s k path data).answer = .error err) ∧
          (Endpoint.write s k path data).state.cache = k.cache)) := by
  simp only [Endpoint.write, Endpoint.beginWrite, beginWrite]
  cases hf : tree.writable path with
  | error err => exact ⟨rfl, .inr ⟨fun _ => ⟨err, rfl⟩, rfl⟩⟩
  | ok f =>
    rcases writable_cases hf with ⟨rfl, rfl⟩ | ⟨rfl | rfl, hpath⟩
    · simp only [queue, hc, Outcome.timed]
      cases hb : isBlankPayload data with
      | true => exact ⟨rfl, .inr ⟨fun _ => ⟨_, rfl⟩, rfl⟩⟩
      | false => exact ⟨rfl, .inl ⟨trivial, rfl, rfl, rfl⟩⟩
    · simp only [hc, Outcome.timed]
      exact ⟨trivial, .inr ⟨fun hp => absurd hp hpath, rfl⟩⟩
    · simp only [hc, Outcome.timed]
      exact ⟨trivial, .inr ⟨fun hp => absurd hp hpath, rfl⟩⟩

end Skill

namespace History

/-- A result that answers the payload accepted last, and has not outlived its time to live. -/
def Serves (h : History) (ttl : Nat) (now : Instant) (text : String) : Prop :=
  h.answered = true ∧ ∃ started, h.success = some (text, started) ∧
    (ttl = 0 ∨ now.millisSince started ≤ 1000 * ttl)

/-- What a read of the result file shows and which run it starts, told from the history. -/
inductive Answers (h : History) (k : Skill) (s : Services) (now : Instant) :
    String → List Effect → Prop
  | guidance (hp : h.payload = none) : Answers h k s now Skill.noPayload []
  | served (data : Bytes) (text : String) (hp : h.payload = some data)
      (hs : h.Serves k.ttl now text) : Answers h k s now text []
  | ran (data : Bytes) (text : String) (hp : h.payload = some data)
      (hs : ∀ text, ¬ h.Serves k.ttl now text)
      (hr : (s.run (k.invocation now data)).outcome = .completed text) :
      Answers h k s now text [.ran (k.invocation now data)]
  | kept (data : Bytes) (message text : String) (started : Instant) (hp : h.payload = some data)
      (hs : ∀ text, ¬ h.Serves k.ttl now text)
      (hr : (s.run (k.invocation now data)).outcome = .failed message)
      (hsuccess : h.success = some (text, started)) :
      Answers h k s now text [.ran (k.invocation now data)]
  | failed (data : Bytes) (message : String) (hp : h.payload = some data)
      (hs : ∀ text, ¬ h.Serves k.ttl now text)
      (hr : (s.run (k.invocation now data)).outcome = .failed message)
      (hsuccess : h.success = none) :
      Answers h k s now (message ++ "\n") [.ran (k.invocation now data)]

end History

section

variable {k : Skill} {h : History} {s : Services} {now : Instant}

/-- The slot is fresh exactly if the history has a result to serve. -/
theorem Reflects.isFresh_iff (hr : Reflects k.cache h) (hnow : now.inRange = true)
    (hp : h.payload.isSome = true) :
    k.isFresh now = true ↔ ∃ text, h.Serves k.ttl now text := by
  cases hsuccess : h.success with
  | none =>
    simp only [Skill.isFresh, History.Serves, hr.summary_eq_none hsuccess, hsuccess,
      Option.isSome_none, Bool.and_false, Bool.false_and, Bool.false_eq_true, reduceCtorEq,
      false_and, exists_false, and_false]
  | some last =>
    obtain ⟨text, started⟩ := last
    rw [Skill.isFresh_iff hnow (hr.inRange text started hsuccess) (hr.summary_eq hsuccess)
      (hr.executedAt_eq hsuccess), hr.pending, hp, Bool.true_and, Bool.not_eq_false']
    constructor
    · rintro ⟨ha, hage⟩
      exact ⟨text, ha, started, hsuccess, hage⟩
    · rintro ⟨_, ha, _, hsome, hage⟩
      obtain ⟨-, rfl⟩ := Prod.mk.inj (Option.some.inj (hsuccess.symm.trans hsome))
      exact ⟨ha, hage⟩

theorem History.observe_completed (h : History) (hc : s.Tells now) {i : Invocation} {text : String}
    (hr : (s.run i).outcome = .completed text) :
    h.observe s [.ran i] = h.succeed text now := by
  simp only [observe, List.findSome?_cons, Services.success?, hr, hc.clock]

theorem History.observe_unsuccessful (h : History) {i : Invocation}
    (hr : ∀ text, (s.run i).outcome ≠ .completed text) : h.observe s [.ran i] = h := by
  cases hrun : (s.run i).outcome with
  | completed text => exact absurd hrun (hr text)
  | failed message =>
    simp only [observe, List.findSome?_cons, Services.success?, hrun, List.findSome?_nil]
  | crashed =>
    simp only [observe, List.findSome?_cons, Services.success?, hrun, List.findSome?_nil]

/-- The result of bringing the result file up to date: the history tells what it shows, and the
slot goes on to reflect the history even if a run has crashed. -/
structure Follows (h : History) (k : Skill) (s : Services) (now : Instant)
    (o : Outcome Skill Bytes) : Prop where
  reflects : Reflects o.state.cache (h.observe s o.effects)
  answers : (∀ i, (s.run i).outcome ≠ .crashed) →
    ∃ text, h.Answers k s now text o.effects ∧ o.answer = .ok (Text.encode text)

theorem content_eq {shown text : String} (h : shown = text) :
    (Except.ok (Text.encode shown) : Except Error Bytes) = .ok (Text.encode text) := by
  rw [h]

theorem Reflects.runOn (hr : Reflects k.cache h) (hc : s.Tells now) {data : Bytes}
    (hp : h.payload = some data) (hs : ∀ text, ¬ h.Serves k.ttl now text) :
    Follows h k s now (k.runOn s now data) := by
  simp only [Skill.runOn]
  cases hrun : (s.run (k.invocation now data)).outcome with
  | completed text =>
    constructor
    · rw [h.observe_completed hc hrun]
      exact hr.succeed text hc.inRange
    · intro _
      exact ⟨text, .ran data text hp hs hrun, rfl⟩
  | failed message =>
    constructor
    · rw [h.observe_unsuccessful fun text => by rw [hrun]; exact RunOutcome.noConfusion]
      exact hr
    · intro _
      cases hsuccess : h.success with
      | none =>
        have hshown : (k.cache.summary.getD (message ++ "\n")) = message ++ "\n" := by
          rw [hr.summary_eq_none hsuccess, Option.getD_none]
        exact ⟨_, .failed data message hp hs hrun hsuccess, content_eq hshown⟩
      | some last =>
        have hshown : (k.cache.summary.getD (message ++ "\n")) = last.1 := by
          rw [hr.summary_eq hsuccess, Option.getD_some]
        exact ⟨_, .kept data message last.1 last.2 hp hs hrun hsuccess,
          content_eq hshown⟩
  | crashed =>
    constructor
    · rw [h.observe_unsuccessful fun text => by rw [hrun]; exact RunOutcome.noConfusion]
      exact hr
    · intro hruns
      exact absurd hrun (hruns _)

theorem Reflects.currentResult (hr : Reflects k.cache h) (hc : s.Tells now) :
    Follows h k s now (k.currentResult s) := by
  simp only [Skill.currentResult, hr.payload]
  cases hp : h.payload with
  | none => exact ⟨hr, fun _ => ⟨_, .guidance hp, rfl⟩⟩
  | some data =>
    have hsolid : (some data).filter (fun data => !isBlankPayload data) = some data := by
      rw [Option.filter_some, hr.solid data hp]
      rfl
    rw [hsolid]
    simp only [hc.clock, Outcome.timed]
    have hfresh := hr.isFresh_iff hc.inRange (Option.isSome_of_eq_some hp)
    split
    case isTrue hk =>
      obtain ⟨text, hs⟩ := hfresh.1 hk
      obtain ⟨started, hsuccess, -⟩ := hs.2
      have hshown : (k.cache.summary.getD "") = text := by
        rw [hr.summary_eq hsuccess, Option.getD_some]
      constructor
      · exact hr
      · intro _
        exact ⟨text, .served data text hp hs, content_eq hshown⟩
    case isFalse hk =>
      apply hr.runOn hc hp
      intro text hs
      exact hk (hfresh.2 ⟨text, hs⟩)

theorem Reflects.read (hr : Reflects k.cache h) (hc : s.Tells now) (path : String)
    (offset size : Int) :
    Reflects (k.read s path offset size).state.cache
      (h.observe s (k.read s path offset size).effects) := by
  simp only [Skill.read]
  cases Skill.tree.readable path with
  | error err => exact hr
  | ok f =>
    cases f with
    | metadata => exact hr
    | instructions => exact hr
    | status => exact hr
    | log => exact hr
    | result => exact (hr.currentResult hc).reflects
    | execute => exact (hr.currentResult hc).reflects

theorem Skill.configure_cache (hc : s.clock = .ok now) (k : Skill) (document : Option String) :
    (k.configure s document).effects = [] ∧
      (k.configure s document).state.cache = k.cache := by
  simp only [configure]
  cases Patch.parse document with
  | error err => exact ⟨rfl, rfl⟩
  | ok patch =>
    simp only [hc, Outcome.timed]
    exact ⟨trivial, rfl⟩

theorem Skill.shutdown_cache (hc : s.clock = .ok now) (k : Skill) :
    (k.shutdown s).effects = [] ∧ (k.shutdown s).state.cache = k.cache := by
  simp only [shutdown, hc, Outcome.timed]
  exact ⟨trivial, rfl⟩

/-- Whatever is done to a skill endpoint, its slot goes on to reflect its history. -/
theorem Reflects.step {w : Watched} (hr : Reflects w.skill.cache w.history) {u : Use}
    (hc : u.services.Tells now) : Reflects (w.step u).skill.cache (w.step u).history := by
  obtain ⟨s, operation⟩ := u
  cases operation with
  | configure document =>
    obtain ⟨heffects, hcache⟩ := w.skill.configure_cache hc.clock document
    change Reflects (w.skill.configure s document).state.cache
      (w.history.observe s (w.skill.configure s document).effects)
    rw [heffects, hcache]
    exact hr
  | shutdown =>
    obtain ⟨heffects, hcache⟩ := w.skill.shutdown_cache hc.clock
    change Reflects (w.skill.shutdown s).state.cache
      (w.history.observe s (w.skill.shutdown s).effects)
    rw [heffects, hcache]
    exact hr
  | stat path => exact hr
  | list path => exact hr
  | read path offset size => exact hr.read hc path offset size
  | write path data =>
    obtain ⟨heffects, hcases⟩ := w.skill.write_cases hc.clock path data
    simp only [Watched.step, Use.perform, Operation.perform, Outcome.mapAnswer, History.record,
      Use.queued?, heffects]
    rcases hcases with ⟨rfl, hdata, hanswer, hcache⟩ | ⟨hrefused, hcache⟩
    · rw [hanswer, hcache]
      exact hr.accept hdata
    · rw [hcache]
      cases hanswer : (Endpoint.write s w.skill path data).answer with
      | error err => exact hr
      | ok a =>
        have hpath : path ≠ "/execute" := by
          intro hp
          obtain ⟨err, herr⟩ := hrefused hp
          rw [hanswer] at herr
          cases herr
        simp only [Except.map, if_neg hpath]
        exact hr

theorem Reflects.run {w : Watched} (hr : Reflects w.skill.cache w.history) {uses : List Use}
    (hc : ∀ u ∈ uses, ∃ now, u.services.Tells now) :
    Reflects (w.run uses).skill.cache (w.run uses).history := by
  induction uses generalizing w with
  | nil => exact hr
  | cons u uses ih =>
    obtain ⟨now, hnow⟩ := hc u (List.mem_cons_self ..)
    exact ih (hr.step hnow) fun v hv => hc v (List.mem_cons_of_mem _ hv)

end

end FileEndpoints

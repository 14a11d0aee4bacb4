import FileEndpoints.Proofs.SkillSteps

namespace FileEndpoints

open Time (Instant)

namespace Skill

/-- The slot, the settings and the duration of the latest run are those of an earlier moment. -/
structure Unharmed (before after : Skill) : Prop where
  cache : after.cache = before.cache
  skillName : after.skillName = before.skillName
  metadata : after.metadata = before.metadata
  instructions : after.instructions = before.instructions
  ttl : after.ttl = before.ttl
  lastElapsed : after.lastElapsed = before.lastElapsed
  active : after.active = before.active

theorem Unharmed.isFresh {k k' : Skill} (h : Unharmed k k') (now : Instant) :
    k'.isFresh now = k.isFresh now := by
  have hmax : k'.maxAge = k.maxAge := by simp only [maxAge, h.ttl]
  unfold Skill.isFresh
  rw [hmax, h.cache, h.ttl]

theorem Unharmed.invocation {k k' : Skill} (h : Unharmed k k') (now : Instant) (data : Bytes) :
    k'.invocation now data = k.invocation now data := by
  simp only [Skill.invocation, h.skillName, h.instructions]

/-- The payload that a read of the result would run the skill on. -/
def queued? (k : Skill) : Option Bytes :=
  k.cache.payload.filter fun data => !isBlankPayload data

theorem Unharmed.queued {k k' : Skill} (h : Unharmed k k') : k'.queued? = k.queued? := by
  simp only [queued?, h.cache]

variable {s : Services} {k : Skill}

theorem runOn_effects (s : Services) (k : Skill) (now : Instant) (data : Bytes) :
    (k.runOn s now data).effects = [.ran (k.invocation now data)] := by
  simp only [runOn]
  cases (s.run (k.invocation now data)).outcome <;> rfl

theorem currentResult_stale {now : Instant} {data : Bytes} (hq : k.queued? = some data)
    (hc : s.clock = .ok now) (hf : k.isFresh now = false) :
    k.currentResult s = k.runOn s now data := by
  simp only [queued?] at hq
  simp only [currentResult, hq, hc, Outcome.timed, hf, Bool.false_eq_true, ↓reduceIte]

theorem currentResult_ran {i : Invocation} (h : .ran i ∈ (k.currentResult s).effects) :
    ∃ data, k.queued? = some data ∧ s.clock = .ok i.executedAt ∧
      k.isFresh i.executedAt = false ∧ i = k.invocation i.executedAt data ∧
      k.currentResult s = k.runOn s i.executedAt data := by
  cases hq : k.queued? with
  | none =>
    simp only [queued?] at hq
    simp only [currentResult, hq, List.not_mem_nil] at h
  | some data =>
    cases hc : s.clock with
    | error err =>
      simp only [queued?] at hq
      simp only [currentResult, hq, hc, Outcome.timed, List.not_mem_nil] at h
    | ok now =>
      cases hf : k.isFresh now with
      | true =>
        simp only [queued?] at hq
        simp only [currentResult, hq, hc, Outcome.timed, hf, ↓reduceIte, List.not_mem_nil] at h
      | false =>
        have hrun := currentResult_stale hq hc hf
        rw [hrun, runOn_effects, List.mem_singleton] at h
        obtain rfl := Effect.ran.inj h
        exact ⟨data, rfl, rfl, hf, rfl, hrun⟩

theorem Unharmed.failRun (k : Skill) (now : Instant) (run : Run) (message : String) :
    Unharmed k ((k.beginRun now).failRun run message) :=
  ⟨rfl, rfl, rfl, rfl, rfl, rfl, rfl⟩

theorem Unharmed.beginRun (k : Skill) (now : Instant) : Unharmed k (k.beginRun now) :=
  ⟨rfl, rfl, rfl, rfl, rfl, rfl, rfl⟩

def runEntry (i : Invocation) : LogEntry :=
  { time := i.executedAt, level := .info, message := "Executing skill payload" }

theorem read_failed {offset size : Int} {i : Invocation} {message : String}
    (hran : .ran i ∈ (k.read s "/result" offset size).effects)
    (hfail : (s.run i).outcome = .failed message) :
    let after := (k.read s "/result" offset size).state
    Unharmed k after ∧ after.state = .failed ∧ after.log.entries = k.log.entries ++
      [runEntry i, { time := (s.run i).endedAt, level := .error, message }] := by
  intro after
  obtain ⟨data, -, -, -, hi, hrun⟩ := currentResult_ran hran
  have hafter : after = ((k.beginRun i.executedAt).failRun (s.run i) message) := by
    change (k.currentResult s).state = _
    rw [hrun]
    simp only [runOn, ← hi, hfail]
  rw [hafter]
  apply And.intro (Unharmed.failRun k _ _ _)
  apply And.intro rfl
  exact List.append_assoc k.log.entries [runEntry i] _

theorem read_crashed {offset size : Int} {i : Invocation}
    (hran : .ran i ∈ (k.read s "/result" offset size).effects)
    (hcrash : (s.run i).outcome = .crashed) :
    let o := k.read s "/result" offset size
    o.answer = .error .crashed ∧ Unharmed k o.state ∧ o.state.state = .running ∧
      o.state.log.entries = k.log.entries ++ [runEntry i] := by
  intro o
  obtain ⟨data, -, -, -, hi, hrun⟩ := currentResult_ran hran
  have hcurrent : k.currentResult s =
      { answer := .error .crashed, state := k.beginRun i.executedAt, effects := [.ran i] } := by
    rw [hrun]
    simp only [runOn, ← hi, hcrash]
  have hanswer : o.answer = .error .crashed := by
    change (k.currentResult s).answer.map _ = _
    rw [hcurrent]
    rfl
  have hstate : o.state = k.beginRun i.executedAt := by
    change (k.currentResult s).state = _
    rw [hcurrent]
  rw [hstate]
  exact ⟨hanswer, Unharmed.beginRun k _, rfl, rfl⟩

theorem isFresh_later {now later : Instant} (hle : now.micros ≤ later.micros)
    (hf : k.isFresh now = false) : k.isFresh later = false := by
  have hage (start : Instant) : now.millisSince start ≤ later.millisSince start := by
    apply Int.tdiv_le_tdiv (by decide)
    omega
  rw [← Bool.not_eq_true] at hf ⊢
  intro hfresh
  apply hf
  simp only [isFresh, Bool.and_eq_true, Bool.or_eq_true, Option.any_eq_true,
    decide_eq_true_eq] at hfresh ⊢
  obtain ⟨hshown, hforever | ⟨start, hstart, hyoung⟩⟩ := hfresh
  · exact ⟨hshown, .inl hforever⟩
  · exact ⟨hshown, .inr ⟨start, hstart, Int.le_trans (hage start) hyoung⟩⟩

/-- The run is made again: nothing that it depends on has changed but the time. -/
theorem Unharmed.reruns {k' : Skill} (h : Unharmed k k') {offset size : Int} {i : Invocation}
    (hran : .ran i ∈ (k.read s "/result" offset size).effects) {later : Services} {now : Instant}
    (hc : later.clock = .ok now) (hle : i.executedAt.micros ≤ now.micros)
    (offset' size' : Int) :
    (k'.read later "/result" offset' size').effects = [.ran { i with executedAt := now }] := by
  obtain ⟨data, hq, -, hf, hi, -⟩ := currentResult_ran hran
  have hq' : k'.queued? = some data := h.queued.trans hq
  have hf' : k'.isFresh now = false := (h.isFresh now).trans (isFresh_later hle hf)
  change (k'.currentResult later).effects = _
  rw [currentResult_stale hq' hc hf', runOn_effects, h.invocation, hi]
  rfl

end Skill

end FileEndpoints

import FileEndpoints.Proofs.SkillHistory
import FileEndpoints.Time.AdjustableClock

namespace FileEndpoints

open Time (Instant AdjustableClock)

/-- A skill endpoint with its history and its clock. -/
structure Clocked where
  clock : AdjustableClock
  watched : Watched

/-- What can happen to a skill endpoint with its own clock. The clock can be set to any time that
clocks can show. -/
inductive ClockedMove where
  | advance (micros : Int)
  | set (time : Instant) (h : time.inRange = true)
  | use (s : Services) (operation : Operation)

namespace Clocked

def services (w : Clocked) (s : Services) : Services :=
  { s with clock := .ok w.clock.now }

def step (w : Clocked) : ClockedMove → Clocked
  | .advance micros => { w with clock := w.clock.advance micros }
  | .set time _ => { w with clock := w.clock.set time }
  | .use s operation => { w with watched := w.watched.step ⟨w.services s, operation⟩ }

def run (w : Clocked) (moves : List ClockedMove) : Clocked :=
  moves.foldl step w

/-- A fresh endpoint whose clock shows the time of its creation. -/
def create (start : Instant) : Clocked :=
  { clock := { now := start }, watched := Watched.create start }

end Clocked

namespace Time.AdjustableClock

theorem inRange_advance {c : AdjustableClock} (h : c.now.inRange = true) (micros : Int) :
    (c.advance micros).now.inRange = true := by
  simp only [advance]
  split
  · exact h
  · rename_i hj
    split
    · exact h
    · rename_i hr
      simp only [refuses, hj, Bool.not_false, Bool.true_and, Bool.not_eq_true'] at hr
      exact Bool.of_not_eq_false hr

theorem inRange_set {c : AdjustableClock} (h : c.now.inRange = true) {time : Instant}
    (ht : time.inRange = true) : (c.set time).now.inRange = true := by
  simp only [set]
  split
  · exact h
  · exact ht

end Time.AdjustableClock

namespace Clocked

/-- The clock shows a time in range, and the slot reflects the history. -/
structure Sound (w : Clocked) : Prop where
  inRange : w.clock.now.inRange = true
  reflects : Reflects w.watched.skill.cache w.watched.history

theorem Sound.tells {w : Clocked} (h : w.Sound) (s : Services) :
    (w.services s).Tells w.clock.now :=
  ⟨rfl, h.inRange⟩

theorem Sound.step {w : Clocked} (h : w.Sound) (m : ClockedMove) : (w.step m).Sound := by
  cases m with
  | advance micros => exact ⟨Time.AdjustableClock.inRange_advance h.inRange micros, h.reflects⟩
  | set time ht => exact ⟨Time.AdjustableClock.inRange_set h.inRange ht, h.reflects⟩
  | use s operation => exact ⟨h.inRange, h.reflects.step (h.tells s)⟩

theorem Sound.run {w : Clocked} (h : w.Sound) (moves : List ClockedMove) :
    (w.run moves).Sound := by
  induction moves generalizing w with
  | nil => exact h
  | cons m moves ih => exact ih (h.step m)

def readResult (w : Clocked) (s : Services) (offset size : Int) : Outcome Skill Bytes :=
  w.watched.skill.read (w.services s) "/result" offset size

/-- How long ago the run of the present result started, in microseconds. -/
def elapsed (w : Clocked) (start : Instant) : Int :=
  w.clock.now.micros - start.micros

/-- A result is served without a run although it is past its time to live. -/
structure ServesExpired (w : Clocked) (s : Services) (offset size : Int) : Prop where
  queued : w.watched.history.payload.isSome = true
  returned : ∃ content, (w.readResult s offset size).answer = .ok content
  idle : (w.readResult s offset size).effects = []
  expired : ¬ (w.watched.skill.ttl = 0 ∨ ∃ start,
    w.watched.skill.cache.executedAt = some start ∧
      w.elapsed start ≤ 1000000 * w.watched.skill.ttl)

theorem Sound.idle_iff {w : Clocked} (h : w.Sound) (s : Services) (offset size : Int)
    (hp : w.watched.history.payload.isSome = true) :
    ((∃ content, (w.readResult s offset size).answer = .ok content) ∧
      (w.readResult s offset size).effects = []) ↔
      w.watched.skill.isFresh w.clock.now = true := by
  obtain ⟨data, hdata⟩ := Option.isSome_iff_exists.1 hp
  have hsolid : w.watched.skill.cache.payload.filter (fun data => !isBlankPayload data) =
      some data := by
    rw [h.reflects.payload, hdata, Option.filter_some, h.reflects.solid data hdata]
    rfl
  change ((∃ content, ((w.watched.skill.currentResult (w.services s)).answer.map _) =
    .ok content) ∧ (w.watched.skill.currentResult (w.services s)).effects = []) ↔ _
  simp only [Skill.currentResult, hsolid, (h.tells s).clock, Outcome.timed]
  split
  case isTrue hfresh => exact iff_of_true ⟨⟨_, rfl⟩, rfl⟩ hfresh
  case isFalse hfresh =>
    apply iff_of_false ?_ hfresh
    rintro ⟨-, hidle⟩
    simp only [Skill.runOn] at hidle
    split at hidle <;> cases hidle

/-- The result is served past its time to live by less than one millisecond. -/
theorem Sound.servesExpired_iff {w : Clocked} (h : w.Sound) (s : Services) (offset size : Int) :
    w.ServesExpired s offset size ↔
      w.watched.history.payload.isSome = true ∧ w.watched.history.answered = true ∧
        0 < w.watched.skill.ttl ∧ ∃ start, w.watched.skill.cache.executedAt = some start ∧
          1000000 * w.watched.skill.ttl < w.elapsed start ∧
          w.elapsed start < 1000000 * w.watched.skill.ttl + 1000 := by
  have hmillis (start : Instant) := Instant.millisSince_le_iff w.clock.now start
    (n := 1000 * w.watched.skill.ttl) (by omega)
  have hexec := h.reflects.executedAt
  constructor
  · rintro ⟨hp, hreturned, hidle, hexpired⟩
    have hfresh := (h.idle_iff s offset size hp).1 ⟨hreturned, hidle⟩
    obtain ⟨text, ha, start, hsuccess, hage⟩ := (h.reflects.isFresh_iff h.inRange hp).1 hfresh
    rw [hsuccess] at hexec
    have hlate : ¬ w.elapsed start ≤ 1000000 * w.watched.skill.ttl :=
      fun hle => hexpired (.inr ⟨start, hexec, hle⟩)
    have hgood : w.watched.skill.ttl ≠ 0 := fun h0 => hexpired (.inl h0)
    have hin := (hmillis start).1 (hage.resolve_left hgood)
    have hbound : w.elapsed start < 1000000 * w.watched.skill.ttl + 1000 := by
      simp only [elapsed]
      omega
    exact ⟨hp, ha, Nat.pos_of_ne_zero hgood, start, hexec, by omega, hbound⟩
  · rintro ⟨hp, ha, hpos, start, hsome, hlate, hin⟩
    obtain ⟨last, hsuccess⟩ := Option.isSome_iff_exists.1 (h.reflects.answered ha)
    rw [hsuccess, hsome] at hexec
    have hstart : last.2 = start := (Option.some.inj hexec).symm
    have hage : w.clock.now.millisSince start ≤ 1000 * w.watched.skill.ttl := by
      apply (hmillis start).2
      simp only [elapsed] at hin
      omega
    have hserves : w.watched.history.Serves w.watched.skill.ttl w.clock.now last.1 :=
      ⟨ha, last.2, hsuccess, .inr (hstart ▸ hage)⟩
    obtain ⟨hreturned, hidle⟩ := (h.idle_iff s offset size hp).2
      ((h.reflects.isFresh_iff h.inRange hp).2 ⟨last.1, hserves⟩)
    apply ServesExpired.mk hp hreturned hidle
    rintro (h0 | ⟨other, hother, hle⟩)
    · omega
    · rw [hsome, Option.some.injEq] at hother
      subst hother
      omega

theorem sound_create {start : Instant} (h : start.inRange = true) : (create start).Sound :=
  ⟨h, Reflects.create start⟩

end Clocked

/-- In every run, a result past its time to live is served only within the millisecond that the
rounding of its age hides. -/
theorem expired_result_served_iff {start : Instant} (h : start.inRange = true)
    (moves : List ClockedMove) (s : Services) (offset size : Int) :
    let w := (Clocked.create start).run moves
    w.ServesExpired s offset size ↔
      w.watched.history.payload.isSome = true ∧ w.watched.history.answered = true ∧
        0 < w.watched.skill.ttl ∧ ∃ started, w.watched.skill.cache.executedAt = some started ∧
          1000000 * w.watched.skill.ttl < w.elapsed started ∧
          w.elapsed started < 1000000 * w.watched.skill.ttl + 1000 :=
  ((Clocked.sound_create h).run moves).servesExpired_iff s offset size

/-- A result that is read some time after the first read. -/
def Clocked.aged (micros : Int) : Clocked :=
  let s := Services.steady ⟨0⟩ (.error .noTransport) (.completed "done")
  (Clocked.create ⟨0⟩).run
    [.use s (.write "/execute" [120]), .use s (.read "/result" 0 0), .advance micros]

/-- A result of the age of its time to live is served in time. -/
theorem result_of_greatest_age_is_in_time :
    Instant.inRange ⟨0⟩ = true ∧
      ¬ (Clocked.aged 3600000000).ServesExpired
        (Services.steady ⟨0⟩ (.error .noTransport) (.completed "again")) 0 0 := by
  have h : Instant.inRange ⟨0⟩ = true := by decide
  apply And.intro h
  intro hserves
  obtain ⟨-, -, -, started, hexec, hlate, -⟩ := (expired_result_served_iff h _ _ 0 0).1 hserves
  obtain rfl : ⟨0⟩ = started := Option.some.inj hexec
  exact absurd hlate (by decide)

/-- Half a millisecond later it is still served. -/
theorem result_served_past_its_time :
    ¬ ∀ (start : Instant) (moves : List ClockedMove) (s : Services) (offset size : Int),
      start.inRange = true → ¬ ((Clocked.create start).run moves).ServesExpired s offset size := by
  intro h
  let s := Services.steady ⟨0⟩ (.error .noTransport) (.completed "again")
  apply h ⟨0⟩ _ s 0 0 (by decide) (?_ : (Clocked.aged 3600000500).ServesExpired s 0 0)
  apply Clocked.ServesExpired.mk rfl ⟨_, rfl⟩ rfl
  rintro (h0 | ⟨started, hexec, hle⟩)
  · exact absurd h0 (by decide)
  · obtain rfl : ⟨0⟩ = started := Option.some.inj hexec
    exact absurd hle (by decide)

end FileEndpoints

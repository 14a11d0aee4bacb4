import FileEndpoints.Proofs.SkillSteps

namespace FileEndpoints

open Time (Instant)

namespace Skill

/-- What holds of the slot of a skill endpoint, whatever its state. -/
structure SlotSound (c : ResponseCache) : Prop where
  raw : c.raw = none
  dated : c.summary.isSome = c.executedAt.isSome
  queued : c.pending = true → c.payload.isSome = true
  solid : ∀ data, c.payload = some data → isBlankPayload data = false

structure StateSound (state : ExecutionState) (c : ResponseCache) : Prop where
  settled : state ≠ .running
  pending : state = .pending → c.pending = true
  completed : state = .completed → c.pending = false ∧ c.summary.isSome = true
  failed : state = .failed → ∃ data, c.payload = some data ∧ isBlankPayload data = false

structure Mirrored (k : Skill) : Prop where
  skill : k.status.skill = k.skillName
  state : k.status.state = k.state
  pending : k.status.pending = k.cache.pending
  lastExecution : k.status.lastExecution = (k.cache.executedAt.map Instant.stamp).getD ""
  cacheHit : k.status.cacheHit = true → k.state = .completed

structure Consistent (k : Skill) : Prop where
  slot : SlotSound k.cache
  state : StateSound k.state k.cache
  status : k.Mirrored

theorem SlotSound.submit {c : ResponseCache} (h : SlotSound c) {data : Bytes}
    (hd : isBlankPayload data = false) : SlotSound (c.submit data) where
  raw := h.raw
  dated := h.dated
  queued _ := rfl
  solid _ hdata := Option.some.inj hdata ▸ hd

theorem SlotSound.install {c : ResponseCache} (h : SlotSound c) (text : String)
    (started : Instant) : SlotSound (c.install none text started) where
  raw := rfl
  dated := rfl
  queued hp := nomatch hp
  solid := h.solid

theorem StateSound.idle (c : ResponseCache) : StateSound .idle c :=
  ⟨nofun, nofun, nofun, nofun⟩

theorem StateSound.submitted (c : ResponseCache) (data : Bytes) :
    StateSound .pending (c.submit data) :=
  ⟨nofun, fun _ => rfl, nofun, nofun⟩

theorem StateSound.installed (c : ResponseCache) (text : String) (started : Instant) :
    StateSound .completed (c.install none text started) :=
  ⟨nofun, nofun, fun _ => ⟨rfl, rfl⟩, nofun⟩

theorem StateSound.fresh {k : Skill} {now : Instant} (h : k.isFresh now = true) :
    StateSound .completed k.cache := by
  simp only [isFresh, Bool.and_eq_true, Bool.not_eq_true'] at h
  exact ⟨nofun, nofun, fun _ => h.1, nofun⟩

theorem StateSound.failedOn {c : ResponseCache} {data : Bytes} (hp : c.payload = some data)
    (hd : isBlankPayload data = false) : StateSound .failed c :=
  ⟨nofun, nofun, nofun, fun _ => ⟨data, hp, hd⟩⟩

/-- A change of state renews the copy, so only the slot and the new state are left to look at. -/
theorem Consistent.enter {k : Skill} {state : ExecutionState} {cacheHit : Bool}
    (hslot : SlotSound k.cache) (hstate : StateSound state k.cache)
    (hhit : cacheHit = true → state = .completed) : (k.enter state cacheHit).Consistent where
  slot := hslot
  state := hstate
  status := ⟨rfl, rfl, rfl, rfl, hhit⟩

theorem Consistent.enter_anew {k : Skill} {state : ExecutionState} (hslot : SlotSound k.cache)
    (hstate : StateSound state k.cache) : (k.enter state false).Consistent :=
  .enter hslot hstate fun hhit => absurd hhit Bool.false_ne_true

theorem Consistent.congr {k k' : Skill} (h : k.Consistent) (hcache : k'.cache = k.cache)
    (hstate : k'.state = k.state) (hname : k'.skillName = k.skillName)
    (hstatus : k'.status = k.status) : k'.Consistent := by
  obtain ⟨hslot, hsound, hskill, hshown, hpending, hlast, hhit⟩ := h
  constructor
  · rw [hcache]
    exact hslot
  · rw [hcache, hstate]
    exact hsound
  · constructor
    · rw [hstatus, hname, hskill]
    · rw [hstatus, hstate, hshown]
    · rw [hstatus, hcache, hpending]
    · rw [hstatus, hcache, hlast]
    · rw [hstatus, hstate]
      exact hhit

theorem Consistent.note {k : Skill} (h : k.Consistent) (time : Instant) (level : LogLevel)
    (message : String) : (k.note time level message).Consistent :=
  h.congr rfl rfl rfl rfl

theorem Consistent.create (time : Instant) : (Skill.create time).Consistent := by
  apply Consistent.note
  constructor
  · exact ⟨rfl, rfl, nofun, nofun⟩
  · exact StateSound.idle _
  · exact ⟨rfl, rfl, rfl, rfl, nofun⟩

theorem Consistent.written {k k' : Skill} (h : k.Consistent) {now : Instant} {path : String}
    {data : Bytes} (hw : Written k now path data k') : k'.Consistent := by
  cases hw with
  | refused => exact h
  | metadata hp =>
    apply Consistent.note
    exact h.congr rfl rfl rfl rfl
  | instructions hp =>
    apply Consistent.note
    exact h.congr rfl rfl rfl rfl
  | queued hp hd =>
    apply Consistent.note
    exact Consistent.enter_anew (h.slot.submit hd) (StateSound.submitted _ _)

theorem Consistent.configure {k : Skill} (h : k.Consistent) {s : Services} {now : Instant}
    (hc : s.clock = .ok now) (document : Option String) :
    (k.configure s document).state.Consistent := by
  simp only [Skill.configure]
  cases Patch.parse document with
  | error err => exact h
  | ok patch =>
    simp only [hc, Outcome.timed]
    exact Consistent.enter_anew h.slot (StateSound.idle _)

theorem Consistent.shutdown {k : Skill} (h : k.Consistent) {s : Services} {now : Instant}
    (hc : s.clock = .ok now) : (k.shutdown s).state.Consistent := by
  simp only [Skill.shutdown, hc, Outcome.timed]
  apply Consistent.note
  exact h.congr rfl rfl rfl rfl

theorem Consistent.runOn {k : Skill} (h : k.Consistent) {s : Services}
    (hruns : ∀ i, (s.run i).outcome ≠ .crashed) (now : Instant) {data : Bytes}
    (hp : k.cache.payload = some data) : (k.runOn s now data).state.Consistent := by
  simp only [Skill.runOn]
  cases hrun : (s.run (k.invocation now data)).outcome with
  | completed text =>
    apply Consistent.note
    exact Consistent.enter_anew (h.slot.install text now) (StateSound.installed _ text now)
  | failed message =>
    apply Consistent.note
    exact Consistent.enter_anew h.slot (StateSound.failedOn hp (h.slot.solid data hp))
  | crashed => exact absurd hrun (hruns _)

theorem Consistent.currentResult {k : Skill} (h : k.Consistent) {s : Services}
    (hs : s.Calm) : (k.currentResult s).state.Consistent := by
  obtain ⟨now, hc⟩ := hs.clock
  simp only [Skill.currentResult]
  cases hp : k.cache.payload.filter fun data => !isBlankPayload data with
  | none => exact h
  | some data =>
    simp only [hc, Outcome.timed]
    split
    case isTrue hfresh =>
      apply Consistent.note
      exact Consistent.enter h.slot (StateSound.fresh hfresh) fun _ => rfl
    case isFalse => exact h.runOn hs.runs now (Option.filter_eq_some_iff.1 hp).1

theorem Consistent.read {k : Skill} (h : k.Consistent) {s : Services} (hs : s.Calm)
    (path : String) (offset size : Int) : (k.read s path offset size).state.Consistent := by
  simp only [Skill.read]
  cases tree.readable path with
  | error err => exact h
  | ok f =>
    cases f with
    | metadata => exact h
    | instructions => exact h
    | status => exact h
    | log => exact h
    | result => exact h.currentResult hs
    | execute => exact h.currentResult hs

theorem Consistent.move {k : Skill} (h : k.Consistent) {s : Services} (hs : s.Calm) (m : Move) :
    (k.move s m).Consistent := by
  obtain ⟨now, hc⟩ := hs.clock
  cases m with
  | use operation =>
    cases operation with
    | configure document => exact h.configure hc document
    | shutdown => exact h.shutdown hc
    | stat path => exact h
    | list path => exact h
    | read path offset size => exact h.read hs path offset size
    | write path data => exact h.written (k.beginWrite_written hc path data)
  | begin path data => exact h.written (k.beginWrite_written hc path data)
  | finish number reply => exact h

end Skill

/-- However a skill endpoint has been used, its state fits its slot and its status file shows both,
as long as nothing has crashed. -/
theorem status_never_stale (created : Instant) (moves : List (Services × Move))
    (hcalm : ∀ m ∈ moves, m.1.Calm) :
    ((Session.start (Skill.create created)).run moves).endpoint.Consistent := by
  apply Session.run_preserves (P := Skill.Consistent) (Skill.Consistent.create created)
  intro w m hm h
  rw [Session.skill_step]
  exact h.move (hcalm m hm) m.2

/-- A run that fails is shown as such, and so is the earlier result that is served again once the
settings let it live longer. -/
theorem status_after_expiry :
    let at0 := Services.steady ⟨0⟩ (.error .noTransport) (.completed "done")
    let at2 := Services.steady (.ofSeconds 2) (.error .noTransport) (.failed "down")
    let result := Move.use (.read "/result" 0 0)
    let moves := [(at0, .use (.configure (some "\x7b\"cache_ttl_seconds\":1\x7d"))),
      (at0, .begin "/execute" [120]), (at0, result), (at2, result)]
    let later := moves ++ [(at2, .use (.configure (some "\x7b\"cache_ttl_seconds\":3\x7d"))),
      (at2, result)]
    (∀ m ∈ later, m.1.Calm) ∧
      ((Session.start (Skill.create ⟨0⟩)).run moves).endpoint.state = .failed ∧
      let k := ((Session.start (Skill.create ⟨0⟩)).run later).endpoint
      k.state = .completed ∧ k.status.cacheHit = true ∧ k.Consistent := by
  intro at0 at2 result moves later
  have hcalm : ∀ m ∈ later, m.1.Calm := by
    have h0 : at0.Calm := ⟨⟨⟨0⟩, rfl⟩, fun _ => nofun⟩
    have h2 : at2.Calm := ⟨⟨.ofSeconds 2, rfl⟩, fun _ => nofun⟩
    intro m hm
    simp only [later, moves, List.cons_append, List.nil_append, List.mem_cons, List.not_mem_nil,
      or_false] at hm
    rcases hm with rfl | rfl | rfl | rfl | rfl | rfl
    · exact h0
    · exact h0
    · exact h0
    · exact h2
    · exact h2
    · exact h2
  exact ⟨hcalm, rfl, rfl, rfl, status_never_stale ⟨0⟩ later hcalm⟩

end FileEndpoints

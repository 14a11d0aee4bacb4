import FileEndpoints.Proofs.EditableFiles
import FileEndpoints.Proofs.SkillHistory

namespace FileEndpoints

open Time (Instant)

namespace Skill

inductive SlotMove (s : Services) (c : ResponseCache) : ResponseCache → Prop
  | kept : SlotMove s c c
  | queued {data} (hd : isBlankPayload data = false) : SlotMove s c (c.submit data)
  | answered {now} (text : String) (hc : s.clock = .ok now) :
      SlotMove s c (c.install none text now)

theorem runOn_slot {s : Services} {now : Instant} (hc : s.clock = .ok now) (k : Skill)
    (data : Bytes) : SlotMove s k.cache (k.runOn s now data).state.cache := by
  simp only [runOn]
  cases (s.run (k.invocation now data)).outcome with
  | completed text => exact .answered text hc
  | failed message => exact .kept
  | crashed => exact .kept

theorem currentResult_slot (s : Services) (k : Skill) :
    SlotMove s k.cache (k.currentResult s).state.cache := by
  simp only [currentResult]
  split
  · exact .kept
  · cases hc : s.clock with
    | error err => exact .kept
    | ok now =>
      simp only [Outcome.timed]
      split
      · exact .kept
      · exact k.runOn_slot hc _

theorem read_slot (s : Services) (k : Skill) (path : String) (offset size : Int) :
    SlotMove s k.cache (k.read s path offset size).state.cache := by
  by_cases hpath : path = "/result"
  · rw [hpath]
    exact k.currentResult_slot s
  · rw [(read_elsewhere hpath s k offset size).2]
    exact .kept

theorem beginWrite_slot (s : Services) (k : Skill) (path : String) (data : Bytes) :
    SlotMove s k.cache (k.beginWrite s path data).state.cache := by
  have hqueue : SlotMove s k.cache (k.queue s data).state.cache := by
    simp only [queue, Outcome.timed]
    cases hd : isBlankPayload data with
    | true => exact .kept
    | false => cases s.clock <;> exact .queued hd
  simp only [beginWrite, Outcome.timed]
  split
  · exact .kept
  · cases s.clock <;> exact .kept
  · cases s.clock <;> exact .kept
  · exact hqueue

theorem move_slot (s : Services) (k : Skill) (m : Move) :
    SlotMove s k.cache (k.move s m).cache := by
  cases m with
  | begin path data => exact k.beginWrite_slot s path data
  | finish number reply => exact .kept
  | use operation =>
    cases operation with
    | configure document =>
      change SlotMove s k.cache (k.configure s document).state.cache
      rw [k.configure_slot s document]
      exact .kept
    | shutdown =>
      simp only [move, shutdown, Outcome.timed]
      cases s.clock <;> exact .kept
    | stat path => exact .kept
    | list path => exact .kept
    | read path offset size => exact k.read_slot s path offset size
    | write path data => exact k.beginWrite_slot s path data

/-- What holds of the slot whatever has happened, even if something has crashed. -/
structure SlotDated (c : ResponseCache) : Prop where
  solid : ∀ data, c.payload = some data → isBlankPayload data = false
  dated : ∀ text, c.summary = some text → ∃ start, c.executedAt = some start ∧ start.inRange = true

theorem SlotDated.step {s : Services} {c c' : ResponseCache} (h : SlotDated c)
    (hclock : ∀ now, s.clock = .ok now → now.inRange = true) (hm : SlotMove s c c') :
    SlotDated c' := by
  cases hm with
  | kept => exact h
  | queued hd => exact ⟨fun _ hdata => Option.some.inj hdata ▸ hd, h.dated⟩
  | answered text hc => exact ⟨h.solid, fun _ _ => ⟨_, rfl, hclock _ hc⟩⟩

theorem slotDated_run (created : Instant) {moves : List (Services × Move)}
    (hclock : ∀ m ∈ moves, ∀ now, m.1.clock = .ok now → now.inRange = true) :
    SlotDated ((Session.start (create created)).run moves).endpoint.cache := by
  apply Session.run_preserves (P := fun k : Skill => SlotDated k.cache)
  · exact ⟨fun _ => nofun, fun _ => nofun⟩
  · intro w m hm h
    rw [Session.skill_step]
    exact h.step (hclock m hm) (w.endpoint.move_slot m.1 m.2)

structure Answered (k : Skill) (whole : Bytes) : Prop where
  queued : ∃ data, k.queued? = some data
  settled : k.cache.pending = false
  result : ∃ text start, k.cache.summary = some text ∧ k.cache.executedAt = some start ∧
    start.inRange = true ∧ whole = Text.encode text

/-- The clock tells a time at which the result is still good, its age in whole milliseconds. -/
def Lasts (k : Skill) (s : Services) : Prop :=
  ∃ now, s.Tells now ∧ (k.ttl = 0 ∨ ∃ start, k.cache.executedAt = some start ∧
    now.millisSince start ≤ 1000 * k.ttl)

theorem Answered.congr {k k' : Skill} {whole : Bytes} (h : k.Answered whole)
    (hcache : k'.cache = k.cache) : k'.Answered whole := by
  obtain ⟨hqueued, hsettled, hresult⟩ := h
  constructor
  · simpa only [queued?, hcache] using hqueued
  · rw [hcache]
    exact hsettled
  · rw [hcache]
    exact hresult

theorem Answered.hit {k : Skill} {whole : Bytes} (h : k.Answered whole) (now : Instant) :
    ((k.enter .completed true).note now .debug "Cache hit for /result").Answered whole :=
  h.congr rfl

theorem Answered.isFresh {k : Skill} {s : Services} {whole : Bytes} (h : k.Answered whole)
    (hl : k.Lasts s) : ∃ now, s.clock = .ok now ∧ k.isFresh now = true := by
  obtain ⟨text, start, htext, hstart, hrange, -⟩ := h.result
  obtain ⟨now, hnow, hgood⟩ := hl
  refine ⟨now, hnow.clock, ?_⟩
  apply (isFresh_iff hnow.inRange hrange htext hstart).2
  apply And.intro h.settled
  rcases hgood with hforever | ⟨start', hstart', hage⟩
  · exact .inl hforever
  · obtain rfl := Option.some.inj (hstart.symm.trans hstart')
    exact .inr hage

theorem Answered.shownResult {k : Skill} {whole : Bytes} (h : k.Answered whole) :
    k.shownResult = whole := by
  obtain ⟨text, start, htext, -, -, rfl⟩ := h.result
  rw [Skill.shownResult, htext, Option.getD_some]

theorem Answered.currentResult {k : Skill} {s : Services} {whole : Bytes} (h : k.Answered whole)
    (hl : k.Lasts s) :
    ∃ k', k'.Answered whole ∧ k.currentResult s = { answer := .ok whole, state := k' } := by
  obtain ⟨data, hq⟩ := h.queued
  obtain ⟨now, hc, hfresh⟩ := h.isFresh hl
  have hcurrent := currentResult_fresh hq hc hfresh
  rw [h.shownResult] at hcurrent
  exact ⟨_, h.hit now, hcurrent⟩

theorem currentResult_answers {k : Skill} {s : Services} {now : Instant} {data : Bytes}
    (hslot : SlotDated k.cache) (hq : k.queued? = some data) (hc : s.Tells now)
    (hrun : ∀ i, .ran i ∈ (k.currentResult s).effects →
      ∃ text, (s.run i).outcome = .completed text) :
    ∃ k' whole effects, k'.Answered whole ∧ effects.length ≤ 1 ∧
      k.currentResult s = { answer := .ok whole, state := k', effects } := by
  cases hf : k.isFresh now with
  | true =>
    have hcurrent := currentResult_fresh hq hc.clock hf
    simp only [Skill.isFresh, Bool.and_eq_true, Bool.not_eq_true', Option.isSome_iff_exists] at hf
    obtain ⟨⟨hsettled, text, htext⟩, -⟩ := hf
    obtain ⟨start, hstart, hrange⟩ := hslot.dated text htext
    have hanswered : k.Answered (Text.encode text) :=
      ⟨⟨data, hq⟩, hsettled, text, start, htext, hstart, hrange, rfl⟩
    rw [hanswered.shownResult] at hcurrent
    exact ⟨_, _, [], hanswered.hit now, Nat.zero_le 1, hcurrent⟩
  | false =>
    have hcurrent := currentResult_stale hq hc.clock hf
    have heffects := k.runOn_effects s now data
    obtain ⟨text, htext⟩ := hrun (k.invocation now data) (by
      rw [hcurrent, heffects]
      exact List.mem_singleton.2 rfl)
    simp only [runOn, htext] at hcurrent
    have hanswered : ((k.beginRun now).completeRun now (s.run (k.invocation now data))
        text).Answered (Text.encode text) := ⟨⟨data, hq⟩, rfl, text, now, rfl, rfl, hc.inRange, rfl⟩
    exact ⟨_, _, [.ran (k.invocation now data)], hanswered, Nat.le_refl 1, hcurrent⟩

end Skill

/-- Chunks are read from that of a number on until one is empty. -/
inductive Pages (reads : Nat → Outcome Skill Bytes) : Nat → List Bytes → Prop
  | last {i} (h : (reads i).answer = .ok []) : Pages reads i []
  | next {i chunk chunks} (h : (reads i).answer = .ok chunk) (hne : chunk ≠ [])
      (hrest : Pages reads (i + 1) chunks) : Pages reads i (chunk :: chunks)

/-- A chunk is asked for as long as none before it has been empty. -/
def Asked (reads : Nat → Outcome Skill Bytes) (i : Nat) : Prop :=
  ∀ j < i, (reads j).answer ≠ .ok []

section

variable {reads : Nat → Outcome Skill Bytes}

theorem Asked.earlier {i j : Nat} (h : Asked reads i) (hle : j ≤ i) : Asked reads j :=
  fun l hl => h l (Nat.lt_of_lt_of_le hl hle)

theorem Asked.next {i : Nat} {chunk : Bytes} (hi : Asked reads i)
    (h : (reads i).answer = .ok chunk) (hne : chunk ≠ []) : Asked reads (i + 1) := by
  intro j hj
  rcases Nat.lt_succ_iff_lt_or_eq.1 hj with hlt | rfl
  · exact hi j hlt
  · rw [h]
    intro hempty
    exact hne (Except.ok.inj hempty)

theorem Pages.asked {i : Nat} {chunks : List Bytes} (h : Pages reads i chunks)
    (hi : Asked reads i) : Asked reads (i + chunks.length) := by
  induction h with
  | last h => exact hi
  | next h hne _ ih =>
    rw [List.length_cons, ← Nat.succ_add_eq_add_succ]
    exact ih (hi.next h hne)

/-- Windows of one text that are asked for in turn come to an end and make up the text. -/
theorem Pages.of_windows {whole : Bytes} {n : Nat} (hn : 0 < n)
    (h : ∀ i, Asked reads i → (reads i).answer = .ok (readWindow whole (i * n : Nat) n)) (i : Nat)
    (hi : Asked reads i) :
    ∃ chunks, Pages reads i chunks ∧ chunks.flatten = whole.drop (i * n) := by
  have hwindow : readWindow whole (i * n : Nat) n = (whole.drop (i * n)).take n := by
    simp only [readWindow, if_pos (Int.natCast_pos.2 hn), Int.toNat_natCast]
  have hanswer := h i hi
  rw [hwindow] at hanswer
  by_cases hempty : whole.drop (i * n) = []
  · rw [hempty, List.take_nil] at hanswer
    exact ⟨[], .last hanswer, hempty.symm⟩
  · have hne : (whole.drop (i * n)).take n ≠ [] := by
      simpa only [ne_eq, List.take_eq_nil_iff, hempty, or_false] using Nat.ne_of_gt hn
    have hdrop : whole.drop ((i + 1) * n) = (whole.drop (i * n)).drop n := by
      rw [List.drop_drop, Nat.succ_mul]
    obtain ⟨chunks, hpages, hchunks⟩ := Pages.of_windows hn h (i + 1) (hi.next hanswer hne)
    refine ⟨_, .next hanswer hne hpages, ?_⟩
    rw [List.flatten_cons, hchunks, hdrop, List.take_append_drop]
-- A chunk that is not empty leaves less of the text to be read.
termination_by whole.length - i * n
decreasing_by
  have hpos : i * n < whole.length := by
    apply Nat.lt_of_not_le
    intro hle
    exact hempty (List.drop_eq_nil_iff.2 hle)
  rw [Nat.succ_mul]
  omega

end

namespace Skill

/-- The endpoint before the chunk of a number is read. -/
def beforeChunk (services : Nat → Services) (n : Nat) (k : Skill) : Nat → Skill
  | 0 => k
  | i + 1 =>
    ((beforeChunk services n k i).read (services i) "/result" (i * n : Nat) n).state

/-- The read of a chunk, after those of all chunks before it. -/
def readChunk (services : Nat → Services) (n : Nat) (k : Skill) (i : Nat) : Outcome Skill Bytes :=
  (beforeChunk services n k i).read (services i) "/result" (i * n : Nat) n

theorem read_result (s : Services) (k : Skill) (offset size : Int) :
    k.read s "/result" offset size = { k.currentResult s with
      answer := (k.currentResult s).answer.map fun value => readWindow value offset size } :=
  rfl

variable {services : Nat → Services} {n : Nat} {k : Skill}

/-- Every chunk is a window of the text that the first read finds or makes, and only that read can
have an effect. -/
theorem readChunk_window {k₁ : Skill} {whole : Bytes} {effects : List Effect}
    (hfirst : k.currentResult (services 0) = { answer := .ok whole, state := k₁, effects })
    (hanswered : k₁.Answered whole)
    (hlasts : ∀ i, 0 < i → Asked (readChunk services n k) i →
      (beforeChunk services n k i).Lasts (services i))
    (i : Nat) (hi : Asked (readChunk services n k) i) :
    (beforeChunk services n k (i + 1)).Answered whole ∧
      (readChunk services n k i).answer = .ok (readWindow whole (i * n : Nat) n) ∧
      (readChunk services n k i).effects = if i = 0 then effects else [] := by
  -- Each read leaves an endpoint that still answers the payload with the same text.
  induction i with
  | zero =>
    simp only [beforeChunk, readChunk, read_result, hfirst]
    exact ⟨hanswered, rfl, rfl⟩
  | succ i ih =>
    obtain ⟨hlast, -, -⟩ := ih (hi.earlier (Nat.le_succ i))
    obtain ⟨k', hk', hcurrent⟩ := hlast.currentResult (hlasts (i + 1) (Nat.succ_pos i) hi)
    have hread : (beforeChunk services n k (i + 1)).read (services (i + 1)) "/result"
        ((i + 1) * n : Nat) n =
          { answer := .ok (readWindow whole ((i + 1) * n : Nat) n), state := k' } := by
      rw [read_result, hcurrent]
      rfl
    have hstate : beforeChunk services n k (i + 2) = k' := congrArg Outcome.state hread
    rw [hstate]
    exact ⟨hk', congrArg Outcome.answer hread, congrArg Outcome.effects hread⟩

end Skill

/-- A result that is read chunk by chunk is the result that one read would have shown at the start,
and has been made by one run at most. -/
theorem chunks_make_up_result (created : Instant) (moves : List (Services × Move))
    (services : Nat → Services) (n : Nat) (data : Bytes) (now : Instant) (hn : 0 < n)
    (hclock : ∀ m ∈ moves, ∀ now, m.1.clock = .ok now → now.inRange = true)
    (hfirst : (services 0).Tells now) :
    let k := ((Session.start (Skill.create created)).run moves).endpoint
    let reads := k.readChunk services n
    k.cache.payload = some data →
    (∀ i, .ran i ∈ (reads 0).effects → ∃ text, ((services 0).run i).outcome = .completed text) →
    (∀ i, 0 < i → Asked reads i → (k.beforeChunk services n i).Lasts (services i)) →
      ∃ chunks, Pages reads 0 chunks ∧
        (∀ offset size : Int, offset ≤ 0 → size ≤ 0 →
          (k.read (services 0) "/result" offset size).answer = .ok chunks.flatten) ∧
        ((List.range (chunks.length + 1)).flatMap fun i => (reads i).effects).length ≤ 1 := by
  intro k reads hpayload hrun hlasts
  have hslot : Skill.SlotDated k.cache := Skill.slotDated_run created hclock
  have hq : k.queued? = some data := by
    rw [Skill.queued?, hpayload, Option.filter_some, hslot.solid data hpayload]
    rfl
  obtain ⟨k₁, whole, effects, hanswered, hone, hcurrent⟩ :=
    Skill.currentResult_answers hslot hq hfirst hrun
  have hread := Skill.readChunk_window hcurrent hanswered hlasts
  have hstart : Asked reads 0 := fun _ hj => absurd hj (Nat.not_lt_zero _)
  obtain ⟨chunks, hpages, hwhole⟩ := Pages.of_windows hn (fun i hi => (hread i hi).2.1) 0 hstart
  rw [Nat.zero_mul, List.drop_zero] at hwhole
  refine ⟨chunks, hpages, ?_, ?_⟩
  · intro offset size hoffset hsize
    rw [Skill.read_result, hcurrent, hwhole]
    exact congrArg Except.ok (EditableFile.readWindow_whole whole hoffset hsize)
  -- All reads up to that of the empty chunk are asked for, so the first one alone can have run.
  · have hasked : ∀ i ≤ chunks.length, Asked reads i := by
      intro i hi
      have hend := hpages.asked hstart
      rw [Nat.zero_add] at hend
      exact hend.earlier hi
    have hquiet : (List.range chunks.length).flatMap (fun i => (reads (i + 1)).effects) = [] := by
      rw [List.flatMap_eq_nil_iff]
      intro i hi
      exact (hread (i + 1) (hasked _ (List.mem_range.1 hi))).2.2
    rw [List.range_succ_eq_map, List.flatMap_cons, List.flatMap_map, hquiet, List.append_nil,
      (hread 0 hstart).2.2]
    exact hone

/-- Four bytes are read in two chunks of two, and the third one is empty although the clock has gone
on and another run would give something else. -/
theorem two_chunks_of_two :
    let at0 := Services.steady ⟨0⟩ (.error .noTransport) (.completed "abcd")
    let later := Services.steady (.ofSeconds 1) (.error .noTransport) (.completed "other")
    let k := ((Session.start (Skill.create ⟨0⟩)).run [(at0, .begin "/execute" [120])]).endpoint
    let reads := k.readChunk (fun i => if i = 0 then at0 else later) 2
    ∃ chunks, Pages reads 0 chunks ∧ chunks.flatten = Text.encode "abcd" ∧
      ((List.range (chunks.length + 1)).flatMap fun i => (reads i).effects).length ≤ 1 := by
  intro at0 later k reads
  let services := fun i => if i = 0 then at0 else later
  have hrange : ∀ m ∈ [(at0, Move.begin "/execute" [120])], ∀ now,
      m.1.clock = .ok now → now.inRange = true := by
    intro m hm now hnow
    rw [List.mem_singleton.1 hm] at hnow
    obtain rfl := Except.ok.inj hnow
    decide
  have hlasts : ∀ i, 0 < i → Asked reads i → (k.beforeChunk services 2 i).Lasts (services i) := by
    intro i hi hasked
    have hthird : (reads 2).answer = .ok [] := by
      subst reads k at0 later
      rfl
    have hle : i ≤ 2 := Nat.not_lt.1 fun hlt => hasked 2 hlt hthird
    have hcases : i = 1 ∨ i = 2 := by omega
    rcases hcases with rfl | rfl
    · exact ⟨.ofSeconds 1, ⟨rfl, by decide⟩, .inr ⟨⟨0⟩, rfl, by decide⟩⟩
    · exact ⟨.ofSeconds 1, ⟨rfl, by decide⟩, .inr ⟨⟨0⟩, rfl, by decide⟩⟩
  have hrun : ∀ i, .ran i ∈ (reads 0).effects →
      ∃ text, ((services 0).run i).outcome = .completed text := fun i _ => ⟨_, rfl⟩
  obtain ⟨chunks, hpages, hwhole, hone⟩ := chunks_make_up_result ⟨0⟩
    [(at0, .begin "/execute" [120])] services 2 [120] ⟨0⟩ (by decide) hrange ⟨rfl, by decide⟩ rfl
    hrun hlasts
  refine ⟨chunks, hpages, ?_, hone⟩
  have hshown : (k.read at0 "/result" 0 0).answer = .ok (Text.encode "abcd") := by
    subst reads k at0
    rfl
  exact Except.ok.inj ((hwhole 0 0 (Int.le_refl 0) (Int.le_refl 0)).symm.trans hshown)

end FileEndpoints

import FileEndpoints.Skill.Endpoint

namespace FileEndpoints

namespace Time

theorem Date.days_bounded {days : Int} (hlow : -262143 ≤ (Date.ofDays days).year)
    (hhigh : (Date.ofDays days).year ≤ 262142) : -100000000 ≤ days ∧ days ≤ 100000000 := by
  simp only [Date.ofDays] at hlow hhigh
  rw [Int.fdiv_eq_ediv_of_nonneg _ (by decide)] at hlow hhigh
  rw [Int.fmod_eq_emod_of_nonneg _ (by decide)] at hlow hhigh
  generalize hd : ((days + 719468) % 146097).toNat = day at hlow hhigh
  have hday : day < 146097 := by omega
  have hyear : (day - day / 1460 + day / 36524 - day / 146096) / 365 ≤ 400 := by omega
  generalize (day - day / 1460 + day / 36524 - day / 146096) / 365 = year at hlow hhigh hyear
  split at hlow <;> split at hhigh <;> omega

theorem Instant.micros_bounded {t : Instant} (h : t.inRange = true) :
    -9000000000000000000 ≤ t.micros ∧ t.micros ≤ 9000000000000000000 := by
  simp only [inRange, date, seconds, Bool.and_eq_true] at h
  obtain ⟨hlow, hhigh⟩ := Date.days_bounded (of_decide_eq_true h.1) (of_decide_eq_true h.2)
  have hseconds := Int.fdiv_eq_ediv_of_nonneg t.micros (b := 1000000) (by decide)
  have hdays := Int.fdiv_eq_ediv_of_nonneg (t.micros.fdiv 1000000) (b := 86400) (by decide)
  omega

/-- An age in whole milliseconds is at most `n` exactly if it falls short of `n + 1`. -/
theorem Instant.millisSince_le_iff (t start : Instant) {n : Int} (hn : 0 ≤ n) :
    t.millisSince start ≤ n ↔ t.micros - start.micros < 1000 * (n + 1) := by
  simp only [millisSince]
  rcases Int.le_total 0 (t.micros - start.micros) with hpos | hneg
  · rw [Int.tdiv_eq_ediv_of_nonneg hpos]
    omega
  · have hle : (t.micros - start.micros).tdiv 1000 ≤ 0 := by
      rw [← Int.neg_neg (t.micros - start.micros), Int.neg_tdiv,
        Int.tdiv_eq_ediv_of_nonneg (Int.neg_nonneg_of_nonpos hneg)]
      omega
    exact iff_of_true (Int.le_trans hle hn) (by omega)

theorem Instant.millisSince_le_maxInt64 {t start : Instant} (ht : t.inRange = true)
    (hs : start.inRange = true) : t.millisSince start ≤ Text.maxInt64 := by
  have hnow := micros_bounded ht
  have hstart := micros_bounded hs
  apply (millisSince_le_iff t start (by decide)).2
  simp only [Text.maxInt64]
  omega

end Time

namespace Skill

open Time (Instant)

/-- A result is shown without another run if it answers the payload queued last and, unless it is
good for ever, is not older than its time to live in whole milliseconds. -/
theorem isFresh_iff {k : Skill} {now start : Instant} {text : String}
    (hnow : now.inRange = true) (hstart : start.inRange = true)
    (htext : k.cache.summary = some text) (hexec : k.cache.executedAt = some start) :
    k.isFresh now = true ↔
      k.cache.pending = false ∧ (k.ttl = 0 ∨ now.millisSince start ≤ 1000 * k.ttl) := by
  have hcut : now.millisSince start ≤ k.maxAge ↔ now.millisSince start ≤ 1000 * k.ttl := by
    have hle := Instant.millisSince_le_maxInt64 hnow hstart
    simp only [maxAge]
    omega
  simp only [isFresh, htext, hexec, Option.isSome_some, Option.any_some, Bool.and_true,
    Bool.and_eq_true, Bool.or_eq_true, Bool.not_eq_true', beq_iff_eq, decide_eq_true_eq, hcut]

end Skill

end FileEndpoints

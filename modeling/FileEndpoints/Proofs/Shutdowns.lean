import FileEndpoints.Proofs.RootListing

namespace FileEndpoints

open Time (Instant)

/-- Whether an endpoint has been configured, and not shut down since. -/
def BuiltIn.active : BuiltIn → Bool
  | search e => e.active
  | summary e => e.active
  | skill k => k.active

theorem BuiltIn.shutdown_done {s : Services} {now : Instant} (hc : s.clock = .ok now)
    (e : BuiltIn) : (Endpoint.shutdown s e).answer = .ok () ∧
      (Endpoint.shutdown s e).state.active = false := by
  cases e with
  | search e => exact ⟨rfl, rfl⟩
  | summary e => exact ⟨rfl, rfl⟩
  | skill k =>
    change (k.shutdown s).answer = .ok () ∧ (k.shutdown s).state.active = false
    simp only [Skill.shutdown, hc, Outcome.timed, true_and]
    rfl

namespace Locked

variable {s : Services} {now : Instant} {l : Locked BuiltIn}

theorem shutdown_done (hc : s.clock = .ok now) (h : l.poisoned = false) :
    (l.shutdown s).answer = .ok () ∧ (l.shutdown s).state.endpoint.active = false := by
  obtain ⟨hanswer, hstate, -⟩ := act_eq h fun e => Endpoint.shutdown s e
  obtain ⟨hdone, hactive⟩ := l.endpoint.shutdown_done hc
  exact ⟨hanswer.trans hdone, (congrArg BuiltIn.active hstate).trans hactive⟩

theorem act_calm {α : Type} {operate : BuiltIn → Outcome BuiltIn α}
    (h : (operate l.endpoint).answer ≠ .error .crashed) :
    (l.act operate).answer ≠ .error .crashed := by
  cases hp : l.poisoned with
  | true =>
    rw [act_poisoned hp]
    nofun
  | false =>
    rw [(act_eq hp operate).1]
    exact h

theorem shutdown_calm (hc : s.clock = .ok now) : (l.shutdown s).answer ≠ .error .crashed := by
  apply act_calm
  rw [(l.endpoint.shutdown_done hc).1]
  nofun

end Locked

def Slot.shutDown (w : Surroundings) (s : Slot) : Slot :=
  { s with endpoint := (s.endpoint.shutdown (w.services s.origin)).state }

namespace MountTable

/-- A table that has made all its endpoints and shows each of them at one mount. -/
structure Own (t : MountTable) : Prop where
  sound : Sound t
  apart : (t.mounts.map Mount.slot).Nodup
  made : ∀ slot ∈ t.slots, slot.origin = .made

theorem act_made {α : Type} {t : MountTable} (h : ∀ slot ∈ t.slots, slot.origin = .made)
    (w : Surroundings) (m : Mount)
    (operate : Services → Locked BuiltIn → Outcome (Locked BuiltIn) α) :
    ∀ slot ∈ (t.act w m operate).state.slots, slot.origin = .made := by
  simp only [act]
  cases hheld : t.slot? m with
  | none => exact h
  | some s =>
    intro slot hslot
    rcases List.mem_or_eq_of_mem_set hslot with hslot | rfl
    · exact h slot hslot
    · exact h s (List.mem_of_getElem? hheld)

namespace Own

variable {t u : MountTable}

theorem empty : Own {} where
  sound := .empty
  apart := List.nodup_nil
  made _ hslot := absurd hslot List.not_mem_nil

theorem mountSpec (h : Own t) {w : Surroundings} {spec : MountSpec}
    (hu : t.mountSpec w spec = .ok u) : Own u := by
  have htried := mountSpec_tried w t spec
  rw [hu] at htried
  cases htried with
  | configured hplugin he hdocument hr =>
    obtain ⟨hmounts, hslots⟩ := hr.added_last
    apply Own.mk (h.sound.mountSpec hu)
    case apart =>
      rw [hmounts, List.map_append, List.map_singleton]
      apply h.apart.append (List.nodup_singleton _)
      rw [List.disjoint_singleton]
      intro hmem
      obtain ⟨m, hm, hsame⟩ := List.mem_map.1 hmem
      exact absurd (h.sound.held m hm) (hsame ▸ Nat.lt_irrefl _)
    case made =>
      intro slot hslot
      rw [hslots] at hslot
      rcases List.mem_append.1 hslot with hslot | hslot
      · exact h.made slot hslot
      · rw [List.mem_singleton.1 hslot]

theorem planned {w : Surroundings} {plan : MountPlan} (h : ofPlan w plan = .ok t) : Own t :=
  planned_preserves empty (fun h hu => h.mountSpec hu) h

theorem act {α : Type} (h : Own t) (w : Surroundings) (m : Mount)
    (operate : Services → Locked BuiltIn → Outcome (Locked BuiltIn) α) :
    Own (t.act w m operate).state where
  sound := h.sound.act w m operate
  apart := (t.act_apart w m operate).mounts ▸ h.apart
  made := act_made h.made w m operate

end Own

theorem act_shutdown (t : MountTable) (w : Surroundings) (m : Mount) (n : Nat) :
    (t.act w m Locked.shutdown).state.slots[n]? =
      t.slots[n]?.map fun s => if n = m.slot then s.shutDown w else s := by
  by_cases hn : n = m.slot
  · subst hn
    simp only [↓reduceIte]
    cases hheld : t.slot? m with
    | none =>
      have hnone : t.slots[m.slot]? = none := hheld
      simp only [act, hheld, hnone, Option.map_none]
    | some s =>
      have hsome : t.slots[m.slot]? = some s := hheld
      rw [(act_passes hheld w Locked.shutdown).changed, hsome, Option.map_some, Slot.shutDown]
  · simp only [hn, ↓reduceIte, Option.map_id']
    exact (t.act_apart w m Locked.shutdown).slots n hn

/-- The mounts are gone through one after another. Each shutdown finds its endpoint untouched by the
ones before it. -/
theorem shutdownEach_done {w : Surroundings} {now : Instant} (hc : w.machine.clock = .ok now)
    {ms : List Mount} (hapart : (ms.map Mount.slot).Nodup) {t : MountTable}
    (hmade : ∀ slot ∈ t.slots, slot.origin = .made) :
    (t.shutdownEach w ms).answer = .ok () ∧ ∀ n, (t.shutdownEach w ms).state.slots[n]? =
      t.slots[n]?.map fun s => if n ∈ ms.map Mount.slot then s.shutDown w else s := by
  -- Since the slots are distinct, the later shutdowns find them as they are now.
  induction ms generalizing t with
  | nil => exact ⟨rfl, fun n => by simp [shutdownEach]⟩
  | cons m ms ih =>
    obtain ⟨hfirst, hrest⟩ := List.nodup_cons.1 hapart
    -- A crash of the first would keep the others from being shut down.
    have hcalm : (t.act w m Locked.shutdown).answer ≠ .error .crashed := by
      cases hheld : t.slot? m with
      | none =>
        simp only [act, hheld, ne_eq, Except.error.injEq, reduceCtorEq, not_false_eq_true]
      | some s =>
        rw [(act_passes hheld w Locked.shutdown).answer, hmade s (List.mem_of_getElem? hheld)]
        exact Locked.shutdown_calm hc
    have hnext : t.shutdownEach w (m :: ms) =
        (t.act w m Locked.shutdown).state.shutdownEach w ms := by
      simp only [shutdownEach]
    obtain ⟨hanswer, hslots⟩ := ih hrest (act_made hmade w m Locked.shutdown)
    rw [hnext]
    refine ⟨hanswer, fun n => ?_⟩
    rw [hslots, act_shutdown, Option.map_map]
    congr 1
    funext s
    by_cases hn : n = m.slot
    · subst hn
      simp [hfirst]
    · simp [hn]

/-- The endpoint of a mount is shut down in the state that it has in the first table. -/
def ShutDown (w : Surroundings) (m : Mount) (t u : MountTable) : Prop :=
  ∃ slot, t.slot? m = some slot ∧
    let closed := slot.endpoint.shutdown w.machine
    u.slot? m = some { slot with endpoint := closed.state } ∧
      (slot.endpoint.poisoned = false →
        closed.answer = .ok () ∧ closed.state.endpoint.active = false)

theorem Own.shutdownAll {t : MountTable} (h : Own t) {w : Surroundings} {now : Instant}
    (hc : w.machine.clock = .ok now) : (t.shutdownAll w).answer = .ok () ∧
      (t.shutdownAll w).state.mounts = [] ∧
        ∀ m ∈ t.mounts, ShutDown w m t (t.shutdownAll w).state := by
  have hmade : ∀ slot ∈ ({ t with mounts := [] } : MountTable).slots, slot.origin = .made := h.made
  obtain ⟨hanswer, hslots⟩ := shutdownEach_done hc h.apart hmade
  refine ⟨hanswer, shutdownEach_mounts _ w t.mounts, ?_⟩
  intro m hm
  obtain ⟨slot, hslot⟩ : ∃ slot, t.slots[m.slot]? = some slot :=
    ⟨_, List.getElem?_eq_getElem (h.sound.held m hm)⟩
  refine ⟨slot, hslot, ?_, Locked.shutdown_done hc⟩
  have hown : slot.origin = .made := h.made slot (List.mem_of_getElem? hslot)
  have hclosed := hslots m.slot
  simp only [hslot, Option.map_some, List.mem_map_of_mem hm, ↓reduceIte, Slot.shutDown, hown]
    at hclosed
  rw [hown]
  exact hclosed

end MountTable

end FileEndpoints

import FileEndpoints.Proofs.Containment
import FileEndpoints.Proofs.MountPoints

namespace FileEndpoints.MountTable

/-- Tables that can be made, by mounting and removing mounts and by using the endpoints. -/
inductive Reachable : MountTable → Prop
  | empty : Reachable {}
  | planned {w plan t} (h : ofPlan w plan = .ok t) : Reachable t
  | mounted {t path slot u} (ht : Reachable t) (h : t.mount path slot = .ok u) : Reachable u
  | made {w t spec u} (ht : Reachable t) (h : mountSpec w t spec = .ok u) : Reachable u
  | mountedAgain {t path m u} (ht : Reachable t) (h : t.mountAgain path m = .ok u) : Reachable u
  | unmounted {t} (w path) (ht : Reachable t) : Reachable (t.unmount w path).state
  | shutDown {t} (w) (ht : Reachable t) : Reachable (t.shutdownAll w).state
  | used {t} {α : Type} (w m) (operate : Services → Locked BuiltIn → Outcome (Locked BuiltIn) α)
      (ht : Reachable t) : Reachable (t.act w m operate).state

structure Sound (t : MountTable) : Prop where
  points : ∀ m ∈ t.mounts, MountPath.IsPoint m.path
  distinct : (t.mounts.map Mount.path).Nodup
  held : ∀ m ∈ t.mounts, m.slot < t.slots.length

theorem freePoint_ok {t : MountTable} {path point : String} (h : t.freePoint path = .ok point) :
    MountPath.IsPoint point ∧ point ∉ t.mounts.map Mount.path := by
  simp only [freePoint] at h
  split at h
  · cases h
  · rename_i hpoint
    split at h
    · cases h
    · rename_i hfree
      obtain rfl := Except.ok.inj h
      constructor
      · apply MountPath.isPoint_of_isMountPoint
        simpa using hpoint
      · simpa using hfree

theorem mountAgain_ok {t u : MountTable} {path : String} {m : Mount}
    (h : t.mountAgain path m = .ok u) : ∃ point, t.freePoint path = .ok point ∧
      m.slot < t.slots.length ∧
      u = { t with mounts := t.mounts ++ [{ path := point, slot := m.slot }] } := by
  simp only [mountAgain] at h
  cases hpoint : t.freePoint path with
  | error err =>
    rw [hpoint] at h
    cases h
  | ok point =>
    cases hname : t.nameOf m with
    | error err =>
      rw [hpoint, hname] at h
      cases h
    | ok name =>
      rw [hpoint, hname] at h
      refine ⟨point, rfl, ?_, (Except.ok.inj h).symm⟩
      simp only [nameOf, slot?] at hname
      cases hslot : t.slots[m.slot]? with
      | none =>
        rw [hslot] at hname
        cases hname
      | some slot => exact (List.getElem?_eq_some_iff.1 hslot).1

theorem mountSpec_ok {w : Surroundings} {t u : MountTable} {spec : MountSpec}
    (h : mountSpec w t spec = .ok u) : ∃ slot, t.mount spec.path slot = .ok u := by
  simp only [mountSpec, bind, Except.bind] at h
  split at h
  · cases h
  · split at h
    · cases h
    · split at h
      · cases h
      · split at h
        · cases h
        · exact ⟨_, h⟩

/-- What the making of one endpoint preserves, a plan preserves. -/
theorem planned_preserves {P : MountTable → Prop} {w : Surroundings} {specs : List MountSpec}
    {t u : MountTable} (h : P t)
    (hstep : ∀ {t u spec}, P t → mountSpec w t spec = .ok u → P u)
    (hu : specs.foldlM (mountSpec w) t = .ok u) : P u := by
  induction specs generalizing t with
  | nil => exact Except.ok.inj hu ▸ h
  | cons spec specs ih =>
    rw [List.foldlM_cons] at hu
    cases hspec : mountSpec w t spec with
    | error err =>
      rw [hspec] at hu
      cases hu
    | ok next =>
      rw [hspec] at hu
      exact ih (hstep h hspec) hu

namespace Sound

variable {t u : MountTable}

theorem empty : Sound {} :=
  ⟨nofun, List.nodup_nil, nofun⟩

theorem add (h : Sound t) {path point : String} (hpoint : t.freePoint path = .ok point)
    {slot : Nat} {slots : List Slot} (hlength : t.slots.length ≤ slots.length)
    (hslot : slot < slots.length) :
    Sound { mounts := t.mounts ++ [{ path := point, slot }], slots } := by
  obtain ⟨hone, hfree⟩ := freePoint_ok hpoint
  constructor
  case points =>
    intro m hm
    rcases List.mem_append.1 hm with hm | hm
    · exact h.points m hm
    · rw [List.mem_singleton.1 hm]
      exact hone
  case distinct =>
    rw [List.map_append]
    apply List.Nodup.append h.distinct (List.nodup_singleton _)
    simpa using hfree
  case held =>
    intro m hm
    rcases List.mem_append.1 hm with hm | hm
    · exact Nat.lt_of_lt_of_le (h.held m hm) hlength
    · rw [List.mem_singleton.1 hm]
      exact hslot

theorem mount (h : Sound t) {path : String} {slot : Slot} (hu : t.mount path slot = .ok u) :
    Sound u := by
  obtain ⟨point, hpoint, rfl⟩ := mount_ok hu
  apply h.add hpoint
  · simp only [List.length_append, Nat.le_add_right]
  · simp only [List.length_append, List.length_singleton, Nat.lt_add_one]

theorem mountAgain (h : Sound t) {path : String} {m : Mount}
    (hu : t.mountAgain path m = .ok u) : Sound u := by
  obtain ⟨point, hpoint, hslot, rfl⟩ := mountAgain_ok hu
  exact h.add hpoint (Nat.le_refl _) hslot

theorem mountSpec (h : Sound t) {w : Surroundings} {spec : MountSpec}
    (hu : mountSpec w t spec = .ok u) : Sound u := by
  obtain ⟨slot, hmount⟩ := mountSpec_ok hu
  exact h.mount hmount

theorem planned {w : Surroundings} {specs : List MountSpec} (h : Sound t)
    (hu : specs.foldlM (MountTable.mountSpec w) t = .ok u) : Sound u :=
  planned_preserves h (fun h hspec => h.mountSpec hspec) hu

theorem restrict (h : Sound t) (hmounts : u.mounts.Sublist t.mounts)
    (hlength : u.slots.length = t.slots.length) : Sound u where
  points m hm := h.points m (hmounts.subset hm)
  distinct := h.distinct.sublist (hmounts.map Mount.path)
  held m hm := hlength ▸ h.held m (hmounts.subset hm)

theorem act {α : Type} (h : Sound t) (w : Surroundings) (m : Mount)
    (operate : Services → Locked BuiltIn → Outcome (Locked BuiltIn) α) :
    Sound (t.act w m operate).state := by
  have hapart := t.act_apart w m operate
  exact h.restrict (hapart.mounts ▸ List.Sublist.refl _) hapart.length

theorem unmount (h : Sound t) (w : Surroundings) (path : String) :
    Sound (t.unmount w path).state := by
  simp only [MountTable.unmount]
  split
  · exact h
  · rename_i m _
    have herased : Sound { t with mounts := t.mounts.erase m } :=
      h.restrict List.erase_sublist rfl
    exact herased.act w m Locked.shutdown

theorem shutdownEach (h : Sound t) (w : Surroundings) (ms : List Mount) :
    Sound (t.shutdownEach w ms).state := by
  induction ms generalizing t with
  | nil => exact h
  | cons m ms ih =>
    have hact := h.act w m Locked.shutdown
    simp only [MountTable.shutdownEach]
    split
    · exact hact
    · exact ih hact

end Sound

theorem Reachable.sound {t : MountTable} (h : Reachable t) : Sound t := by
  induction h with
  | empty => exact .empty
  | planned h => exact Sound.planned .empty h
  | mounted _ h ih => exact ih.mount h
  | made _ h ih => exact ih.mountSpec h
  | mountedAgain _ h ih => exact ih.mountAgain h
  | unmounted w path _ ih => exact ih.unmount w path
  | shutDown w _ ih =>
    have hempty := ih.restrict (u := { mounts := [], slots := _ }) (List.nil_sublist _) rfl
    exact hempty.shutdownEach w _
  | used w m operate _ ih => exact ih.act w m operate

end FileEndpoints.MountTable

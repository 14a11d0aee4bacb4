import FileEndpoints.Proofs.MountTables

namespace FileEndpoints.MountTable

open MountPath (IsPoint normalize firstPart remainder inside)

structure RoutesExactly (t : MountTable) (path : String) : Prop where
  found : ∀ m inner, t.resolve path = .ok (m, inner) ↔
    m ∈ t.mounts ∧ m.path = firstPart (normalize path) ∧
      inner = inside (remainder (normalize path))
  once : ∀ m ∈ t.mounts, (t.mounts.map Mount.path).count m.path = 1
  rejoined : ∀ m inner, t.resolve path = .ok (m, inner) →
    remainder (normalize path) = "" ∧ inner = "/" ∧ m.path = normalize path ∨
      remainder (normalize path) ≠ "" ∧ m.path ++ inner = normalize path
  missed : (∀ m ∈ t.mounts, m.path ≠ firstPart (normalize path)) →
    t.resolve path = .error (.noSuchPath (normalize path))
  reordered : ∀ u : MountTable, u.mounts.Perm t.mounts → u.resolve path = t.resolve path

/-- An operation through a table is that of an endpoint, and changes nothing else. -/
structure Passes {α : Type} (t : MountTable) (m : Mount) (slot : Slot) (o : Outcome MountTable α)
    (inner : Outcome (Locked BuiltIn) α) : Prop where
  answer : o.answer = inner.answer
  effects : o.effects = inner.effects
  changed : o.state.slots[m.slot]? = some { slot with endpoint := inner.state }
  apart : AgreeApart m.slot t o.state

structure Transparent (t : MountTable) (w : Surroundings) (path : String) (m : Mount)
    (inner : String) (slot : Slot) : Prop where
  held : t.slot? m = some slot
  /-- The root of the endpoint is shown under the name of the mount. -/
  stat : ∃ name, m.path = "/" ++ name ∧ t.stat w path =
    (slot.endpoint.stat (w.services slot.origin) inner).map fun info =>
      if inner = "/" then info.map fun i => { i with name } else info
  list : t.list w path = slot.endpoint.list (w.services slot.origin) inner
  read : ∀ offset size, t.Passes m slot (t.read w path offset size)
    (slot.endpoint.read (w.services slot.origin) inner offset size)
  write : ∀ data, t.Passes m slot (t.write w path data)
    (slot.endpoint.write (w.services slot.origin) inner data)

structure LeadsNowhere (t : MountTable) (w : Surroundings) (path : String) : Prop where
  stat : t.stat w path = .ok none
  list : t.list w path = .error (.noSuchPath (normalize path))
  read : ∀ offset size,
    t.read w path offset size = { answer := .error (.noSuchPath (normalize path)), state := t }
  write : ∀ data,
    t.write w path data = { answer := .error (.noSuchPath (normalize path)), state := t }

/-- The first mount that a normal path lies below, and the path inside its endpoint. -/
def route? (mounts : List Mount) (path : String) : Option (Mount × String) :=
  mounts.findSome? fun m => (MountPath.below? m.path path).map fun inner => (m, inner)

theorem resolve_eq (t : MountTable) (path : String) :
    t.resolve path = match route? t.mounts (normalize path) with
      | some route => .ok route
      | none => .error (.noSuchPath (normalize path)) :=
  rfl

theorem resolve_error {t : MountTable} {path : String} {err : Error}
    (hr : t.resolve path = .error err) : err = .noSuchPath (normalize path) := by
  rw [resolve_eq] at hr
  split at hr
  · cases hr
  · exact (Except.error.inj hr).symm

theorem resolve_eq_ok_iff {t : MountTable} {path : String} {route : Mount × String} :
    t.resolve path = .ok route ↔ route? t.mounts (normalize path) = some route := by
  rw [resolve_eq]
  cases route? t.mounts (normalize path) with
  | none => exact ⟨nofun, nofun⟩
  | some other => rw [Except.ok.injEq, Option.some.injEq]

section

variable {mounts : List Mount} {path : String}

/-- As no two mounts have the same point, the first mount that fits is the only one. -/
theorem route?_eq_some_iff (hpoints : ∀ m ∈ mounts, IsPoint m.path)
    (hdistinct : (mounts.map Mount.path).Nodup) {m : Mount} {inner : String} :
    route? mounts (normalize path) = some (m, inner) ↔
      m ∈ mounts ∧ m.path = firstPart (normalize path) ∧
        inner = inside (remainder (normalize path)) := by
  have hfits {n : Mount} {route : Mount × String} (hn : n ∈ mounts) :
      (MountPath.below? n.path (normalize path)).map (fun inner => (n, inner)) = some route ↔
        n = route.1 ∧ n.path = firstPart (normalize path) ∧
          route.2 = inside (remainder (normalize path)) := by
    rw [Option.map_eq_some_iff]
    constructor
    · rintro ⟨inner, hbelow, rfl⟩
      exact ⟨rfl, (MountPath.below?_iff (hpoints n hn)).1 hbelow⟩
    · rintro ⟨rfl, hbelow⟩
      exact ⟨route.2, (MountPath.below?_iff (hpoints _ hn)).2 hbelow, rfl⟩
  constructor
  · intro h
    obtain ⟨n, hn, hroute⟩ := List.exists_of_findSome?_eq_some h
    obtain ⟨rfl, hpath, hinner⟩ := (hfits hn).1 hroute
    exact ⟨hn, hpath, hinner⟩
  · rintro ⟨hm, hpath, hinner⟩
    cases hroute : route? mounts (normalize path) with
    | none =>
      have hmiss := List.findSome?_eq_none_iff.1 hroute m hm
      have hfit : _ = some (m, inner) := (hfits hm).2 ⟨rfl, hpath, hinner⟩
      cases hmiss.symm.trans hfit
    | some route =>
      obtain ⟨n, hn, hfit⟩ := List.exists_of_findSome?_eq_some hroute
      obtain ⟨rfl, hpath', hinner'⟩ := (hfits hn).1 hfit
      have hsame := List.inj_on_of_nodup_map hdistinct hn hm (hpath'.trans hpath.symm)
      rw [← hsame, hinner, ← hinner']

theorem route?_perm {others : List Mount} (hperm : others.Perm mounts)
    (hpoints : ∀ m ∈ mounts, IsPoint m.path) (hdistinct : (mounts.map Mount.path).Nodup) :
    route? others (normalize path) = route? mounts (normalize path) := by
  have hpoints' : ∀ m ∈ others, IsPoint m.path := fun m hm => hpoints m (hperm.mem_iff.1 hm)
  have hdistinct' : (others.map Mount.path).Nodup :=
    (hperm.map Mount.path).nodup_iff.2 hdistinct
  apply Option.ext
  rintro ⟨m, inner⟩
  rw [route?_eq_some_iff hpoints' hdistinct', route?_eq_some_iff hpoints hdistinct,
    hperm.mem_iff]

end

theorem act_passes {α : Type} {t : MountTable} {m : Mount} {slot : Slot}
    (h : t.slot? m = some slot) (w : Surroundings)
    (operate : Services → Locked BuiltIn → Outcome (Locked BuiltIn) α) :
    t.Passes m slot (t.act w m operate) (operate (w.services slot.origin) slot.endpoint) := by
  have hapart := t.act_apart w m operate
  have hlt := (List.getElem?_eq_some_iff.1 h).1
  simp only [act, h] at hapart ⊢
  exact ⟨rfl, rfl, List.getElem?_set_self hlt, hapart⟩

namespace Sound

variable {t : MountTable} {path : String}

theorem resolve_iff (h : Sound t) (m : Mount) (inner : String) :
    t.resolve path = .ok (m, inner) ↔
      m ∈ t.mounts ∧ m.path = firstPart (normalize path) ∧
        inner = inside (remainder (normalize path)) :=
  resolve_eq_ok_iff.trans (route?_eq_some_iff h.points h.distinct)

theorem rejoined (h : Sound t) {m : Mount} {inner : String}
    (hr : t.resolve path = .ok (m, inner)) :
    remainder (normalize path) = "" ∧ inner = "/" ∧ m.path = normalize path ∨
      remainder (normalize path) ≠ "" ∧ m.path ++ inner = normalize path := by
  obtain ⟨-, hpath, hinner⟩ := (h.resolve_iff m inner).1 hr
  have hjoin := MountPath.firstPart_append_remainder path
  rw [← hpath] at hjoin
  by_cases hleft : remainder (normalize path) = ""
  · left
    rw [inside, if_pos hleft] at hinner
    rw [hleft, String.append_empty] at hjoin
    exact ⟨hleft, hinner, hjoin⟩
  · right
    rw [inside, if_neg hleft] at hinner
    rw [hinner]
    exact ⟨hleft, hjoin⟩

theorem routesExactly (h : Sound t) (path : String) : t.RoutesExactly path where
  found := h.resolve_iff
  once m hm := List.count_eq_one_of_mem h.distinct (List.mem_map_of_mem hm)
  rejoined m inner := h.rejoined
  missed hnone := by
    rw [resolve_eq]
    cases hroute : route? t.mounts (normalize path) with
    | none => rfl
    | some route =>
      obtain ⟨hm, hpath, -⟩ := (route?_eq_some_iff h.points h.distinct).1 hroute
      exact absurd hpath (hnone route.1 hm)
  reordered u hperm := by
    rw [resolve_eq, resolve_eq, route?_perm hperm h.points h.distinct]

theorem not_root (h : Sound t) {m : Mount} {inner : String}
    (hr : t.resolve path = .ok (m, inner)) : isRoot path = false := by
  obtain ⟨hm, hpath, -⟩ := (h.resolve_iff m inner).1 hr
  obtain ⟨name, hname, -, hpoint⟩ := h.points m hm
  rw [isRoot, beq_eq_false_iff_ne]
  intro hroot
  rw [hpath, hroot] at hpoint
  apply hname
  have hchars := String.toList_inj.2 hpoint
  rw [String.toList_append] at hchars
  exact String.toList_inj.1 (List.cons.inj hchars).2.symm

theorem transparent (h : Sound t) (w : Surroundings) {m : Mount} {inner : String}
    (hr : t.resolve path = .ok (m, inner)) : ∃ slot, t.Transparent w path m inner slot := by
  have hm := ((h.resolve_iff m inner).1 hr).1
  obtain ⟨slot, hslot⟩ : ∃ slot, t.slot? m = some slot :=
    ⟨_, List.getElem?_eq_getElem (h.held m hm)⟩
  have hroot := h.not_root hr
  refine ⟨slot, hslot, ?stat, ?list, ?read, ?write⟩
  case stat =>
    obtain ⟨name, -, hname, hpoint⟩ := h.points m hm
    refine ⟨name, hpoint, ?_⟩
    simp only [MountTable.stat, hroot, hr, view, hslot, Bool.false_eq_true, ↓reduceIte, beq_iff_eq]
    cases slot.endpoint.stat (w.services slot.origin) inner with
    | error err => rfl
    | ok info =>
      have hlisted : MountPath.listedName m.path = name := by
        rw [hpoint, MountPath.listedName_point hname]
      simp only [hlisted, bind, Except.bind, Except.map]
      split <;> rfl
  case list =>
    simp only [MountTable.list, hroot, hr, view, hslot, Bool.false_eq_true, ↓reduceIte, bind,
      Except.bind]
  case read =>
    intro offset size
    simp only [MountTable.read, hr]
    exact act_passes hslot w fun s e => e.read s inner offset size
  case write =>
    intro data
    simp only [MountTable.write, hr]
    exact act_passes hslot w fun s e => e.write s inner data

end Sound

theorem leadsNowhere {t : MountTable} {path : String} {err : Error} (w : Surroundings)
    (hr : t.resolve path = .error err) (hroot : normalize path ≠ "/") :
    t.LeadsNowhere w path := by
  have hroot : isRoot path = false := beq_eq_false_iff_ne.2 hroot
  have hmissed : t.resolve path = .error (.noSuchPath (normalize path)) := resolve_error hr ▸ hr
  constructor
  case stat => simp only [MountTable.stat, hroot, hmissed, Bool.false_eq_true, ↓reduceIte]
  case list =>
    simp only [MountTable.list, hroot, hmissed, Bool.false_eq_true, ↓reduceIte, bind, Except.bind]
  case read =>
    intro offset size
    simp only [MountTable.read, hmissed]
  case write =>
    intro data
    simp only [MountTable.write, hmissed]

/-- However a table has been made, a path leads to the one mount whose point is its first part, and
operations on it are those of that mount's endpoint. -/
theorem routing_exact_and_transparent (t : MountTable) (ht : Reachable t) (path : String) :
    t.RoutesExactly path ∧
      (∀ w m inner, t.resolve path = .ok (m, inner) →
        ∃ slot, t.Transparent w path m inner slot) ∧
      ∀ w err, t.resolve path = .error err → normalize path ≠ "/" → t.LeadsNowhere w path := by
  have hsound := ht.sound
  refine ⟨hsound.routesExactly path, ?_, ?_⟩
  · intro w m inner hr
    exact hsound.transparent w hr
  · intro w err hr hroot
    exact leadsNowhere w hr hroot

/-- One search under two names, of which one starts with the other. -/
theorem longer_name_not_taken :
    let s := Services.steady ⟨0⟩ (.error .noTransport) .crashed
    let w : Surroundings := { given := s, machine := s }
    let search : Slot := { endpoint := { endpoint := .search Eager.create }, origin := .given }
    let t : MountTable := { mounts := [⟨"/a", 0⟩, ⟨"/ab", 0⟩], slots := [search] }
    let u : MountTable := { t with mounts := t.mounts.reverse }
    Reachable t ∧ u.resolve " a//x/ " = .ok (⟨"/a", 0⟩, "//x") ∧
      (∃ slot, t.Transparent w "ab/request" ⟨"/ab", 0⟩ "/request" slot) ∧
      t.stat w "a" = .ok (some (.directory ⟨0⟩ "simpcurlfs" "a")) ∧
      t.LeadsNowhere w "/abc/request" := by
  intro s w search t u
  let first : MountTable := { mounts := [⟨"/a", 0⟩], slots := [search] }
  have hfirst : MountTable.mount {} "a" search = .ok first := rfl
  have hagain : first.mountAgain "/ab/" ⟨"/a", 0⟩ = .ok t := rfl
  have ht : Reachable t := .mountedAgain (.mounted .empty hfirst) hagain
  obtain ⟨hroutes, -⟩ := routing_exact_and_transparent t ht " a//x/ "
  obtain ⟨-, htransparent, -⟩ := routing_exact_and_transparent t ht "ab/request"
  obtain ⟨-, hroot, -⟩ := routing_exact_and_transparent t ht "a"
  obtain ⟨-, -, hnowhere⟩ := routing_exact_and_transparent t ht "/abc/request"
  refine ⟨ht, ?_, ?_, ?_, ?_⟩
  · rw [hroutes.reordered u (List.reverse_perm _)]
    rfl
  · exact htransparent w _ _ rfl
  · obtain ⟨slot, htop⟩ := hroot w ⟨"/a", 0⟩ "/" rfl
    obtain ⟨name, hname, hstat⟩ := htop.stat
    obtain rfl : search = slot := Option.some.inj htop.held
    obtain rfl : "a" = name := (String.append_right_inj "/").1 hname
    exact hstat.trans rfl
  · exact hnowhere w _ rfl (by decide)

end FileEndpoints.MountTable

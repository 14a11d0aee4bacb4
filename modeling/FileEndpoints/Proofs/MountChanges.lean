import FileEndpoints.Proofs.MountAttempts
import FileEndpoints.Proofs.Routing

namespace FileEndpoints

open MountPath (IsPoint normalize)

/-- What can be asked of a mount table, and what can be done with it as a whole. -/
inductive TableMove where
  | use (operation : TableOperation)
  | again (source path : String)
  | make (spec : MountSpec)
  | load (plan : MountPlan)
  | shutdownAll

def TableMove.mounts? : TableMove → Option String
  | .use (.mount path _) | .again _ path => some path
  | .make spec => some spec.path
  | _ => none

namespace MountTable

/-- A table in the place of an earlier one, which stays if there is none. -/
def replaced (t : MountTable) : Except Error MountTable → Outcome MountTable Answer
  | .error err => { answer := .error err, state := t }
  | .ok u => { answer := .ok .done, state := u }

def move (w : Surroundings) (t : MountTable) : TableMove → Outcome MountTable Answer
  | .use operation => t.perform w operation
  | .again source path =>
    match t.mount? source with
    | none => { answer := .error (.noSuchPath (normalize source)), state := t }
    | some m => t.replaced (t.mountAgain path m)
  | .make spec => t.replaced (t.mountSpec w spec)
  | .load plan => t.replaced (ofPlan w plan)
  | .shutdownAll => (t.shutdownAll w).mapAnswer fun _ => .done

theorem MountTried.added_last {t u : MountTable} {path : String} {slot : Slot}
    (h : MountTried t path slot (.ok u)) :
    u.mounts = t.mounts ++ [{ path := normalize path, slot := t.slots.length }] ∧
      u.slots = t.slots ++ [slot] := by
  cases h with
  | added h hslot =>
    cases h with
    | free h hfree => exact ⟨rfl, rfl⟩

/-- A table with one more mount at the end, whose endpoints are otherwise the same. -/
structure AddedLast (t : MountTable) (path : String) (u : MountTable) : Prop where
  mounts : ∃ slot, u.mounts = t.mounts ++ [{ path := normalize path, slot }]
  slots : t.slots <+: u.slots

theorem mount_addedLast {t u : MountTable} {path : String} {slot : Slot}
    (h : t.mount path slot = .ok u) : AddedLast t path u := by
  have htried := mount_tried t path slot
  rw [h] at htried
  obtain ⟨hmounts, hslots⟩ := htried.added_last
  exact ⟨⟨_, hmounts⟩, [slot], hslots.symm⟩

theorem mountSpec_addedLast {w : Surroundings} {t u : MountTable} {spec : MountSpec}
    (h : t.mountSpec w spec = .ok u) : AddedLast t spec.path u := by
  obtain ⟨slot, hmount⟩ := mountSpec_ok h
  exact mount_addedLast hmount

theorem mountAgain_addedLast {t u : MountTable} {path : String} {m : Mount}
    (h : t.mountAgain path m = .ok u) : AddedLast t path u := by
  obtain ⟨point, hpoint, -, rfl⟩ := mountAgain_ok h
  have hsought := freePoint_sought t path
  rw [hpoint] at hsought
  cases hsought with
  | free _ _ => exact ⟨⟨m.slot, rfl⟩, List.prefix_refl _⟩

theorem replaced_of_error {t : MountTable} {made : Except Error MountTable} {err : Error}
    (h : (t.replaced made).answer = .error err) : (t.replaced made).state = t := by
  cases made with
  | error _ => rfl
  | ok u => cases h

theorem replaced_of_ok {t : MountTable} {made : Except Error MountTable} {a : Answer}
    (h : (t.replaced made).answer = .ok a) : made = .ok (t.replaced made).state := by
  cases made with
  | error err => cases h
  | ok u => rfl

section

variable {t : MountTable} {w : Surroundings} {x : TableMove} {path : String}

/-- A mount that is refused leaves the table and all its endpoints as they were. -/
theorem move_refused (hx : x.mounts? = some path) {err : Error}
    (h : (t.move w x).answer = .error err) : (t.move w x).state = t := by
  cases x with
  | use operation =>
    cases operation with
    | mount path slot =>
      simp only [move, perform] at h ⊢
      cases hmount : t.mount path slot with
      | error _ => rfl
      | ok u =>
        rw [hmount] at h
        cases h
    | _ => cases hx
  | again source path =>
    simp only [move] at h ⊢
    cases hsource : t.mount? source with
    | none => rfl
    | some m =>
      rw [hsource] at h
      exact replaced_of_error h
  | make spec =>
    simp only [move] at h ⊢
    exact replaced_of_error h
  | load plan => cases hx
  | shutdownAll => cases hx

theorem move_mounted (hx : x.mounts? = some path) {a : Answer}
    (h : (t.move w x).answer = .ok a) : AddedLast t path (t.move w x).state := by
  cases x with
  | use operation =>
    cases operation with
    | mount path slot =>
      obtain rfl := Option.some.inj hx
      simp only [move, perform] at h ⊢
      cases hmount : t.mount path slot with
      | error _ =>
        rw [hmount] at h
        cases h
      | ok u => exact mount_addedLast hmount
    | _ => cases hx
  | again source path =>
    obtain rfl := Option.some.inj hx
    simp only [move] at h ⊢
    cases hsource : t.mount? source with
    | none =>
      rw [hsource] at h
      cases h
    | some m =>
      rw [hsource] at h
      exact mountAgain_addedLast (replaced_of_ok h)
  | make spec =>
    obtain rfl := Option.some.inj hx
    simp only [move] at h ⊢
    exact mountSpec_addedLast (replaced_of_ok h)
  | load plan => cases hx
  | shutdownAll => cases hx

end

/-- A mount is taken away and the order of the others is kept, whatever its endpoint answers when it
is shut down. No other endpoint is touched. -/
structure Unmounts (t : MountTable) (w : Surroundings) (path : String) (m : Mount) : Prop where
  mounts : ∃ before after, t.mounts = before ++ m :: after ∧
    (t.unmount w path).state.mounts = before ++ after ∧
      ∀ n ∈ before ++ after, n.path ≠ normalize path
  shutdown : ∃ slot, t.slot? m = some slot ∧
    Passes { t with mounts := t.mounts.erase m } m slot (t.unmount w path)
      (slot.endpoint.shutdown (w.services slot.origin))

theorem Sound.mount?_eq {t : MountTable} (h : Sound t) {path : String} {m : Mount}
    (hm : m ∈ t.mounts) (hpath : m.path = normalize path) : t.mount? path = some m := by
  cases hfind : t.mount? path with
  | none =>
    have hmiss := List.find?_eq_none.1 hfind m hm
    exact absurd (beq_iff_eq.2 hpath) hmiss
  | some n =>
    have hn : n ∈ t.mounts := List.mem_of_find?_eq_some hfind
    have hsame : n.path = normalize path := beq_iff_eq.1 (List.find?_some hfind :)
    rw [List.inj_on_of_nodup_map h.distinct hn hm (hsame.trans hpath.symm)]

theorem Sound.unmounts {t : MountTable} (h : Sound t) (w : Surroundings) {path : String}
    {m : Mount} (hm : m ∈ t.mounts) (hpath : m.path = normalize path) : Unmounts t w path m := by
  have hunmount : t.unmount w path =
      MountTable.act { t with mounts := t.mounts.erase m } w m Locked.shutdown := by
    simp only [MountTable.unmount, h.mount?_eq hm hpath]
  obtain ⟨slot, hslot⟩ : ∃ slot, t.slot? m = some slot :=
    ⟨_, List.getElem?_eq_getElem (h.held m hm)⟩
  have hpasses : Passes { t with mounts := t.mounts.erase m } m slot (t.unmount w path)
      (slot.endpoint.shutdown (w.services slot.origin)) := by
    have hheld : slot? { t with mounts := t.mounts.erase m } m = some slot := hslot
    rw [hunmount]
    exact act_passes hheld w Locked.shutdown
  apply Unmounts.mk
  case shutdown => exact ⟨slot, hslot, hpasses⟩
  case mounts =>
    obtain ⟨before, after, -, hsplit, herase⟩ := List.exists_erase_eq hm
    refine ⟨before, after, hsplit, hpasses.apart.mounts.trans herase, ?_⟩
    intro n hn hsame
    have hdistinct := h.distinct
    rw [hsplit, List.map_append, List.map_cons, List.nodup_middle, ← List.map_append,
      List.nodup_cons] at hdistinct
    apply hdistinct.1
    rw [hpath, ← hsame]
    exact List.mem_map_of_mem hn

theorem unmount_unknown {t : MountTable} {path : String}
    (hnone : ∀ m ∈ t.mounts, m.path ≠ normalize path) (w : Surroundings) :
    t.unmount w path = { answer := .error (.noSuchPath (normalize path)), state := t } := by
  have hfind : t.mount? path = none := by
    apply List.find?_eq_none.2
    intro m hm hpath
    exact hnone m hm (beq_iff_eq.1 hpath)
  simp only [unmount, hfind]

theorem AddedLast.nameOf {t u : MountTable} {path : String} (h : AddedLast t path u) {m : Mount}
    (hm : m.slot < t.slots.length) : u.nameOf m = t.nameOf m := by
  obtain ⟨added, hslots⟩ := h.slots
  simp only [MountTable.nameOf, slot?, ← hslots, List.getElem?_append_left hm]

/-- The entry under which an endpoint that a plan asks for is listed. -/
def ListedAs (spec : MountSpec) (entry : String × String) : Prop :=
  ∃ plugin, Plugin.ofName spec.plugin = .ok plugin ∧ entry = (normalize spec.path, plugin.name)

theorem Sound.listMounts_made {t u : MountTable} (h : Sound t) {w : Surroundings}
    {spec : MountSpec} (hu : t.mountSpec w spec = .ok u) :
    ∃ entry, ListedAs spec entry ∧ u.listMounts = t.listMounts ++ [entry] := by
  have hadded := mountSpec_addedLast hu
  have htried := mountSpec_tried w t spec
  rw [hu] at htried
  cases htried with
  | configured hplugin he hdocument hr =>
    rename_i plugin e
    refine ⟨_, ⟨plugin, hplugin, rfl⟩, ?_⟩
    obtain ⟨hmounts, hslots⟩ := hr.added_last
    have hname : u.nameOf ⟨normalize spec.path, t.slots.length⟩ = .ok plugin.name := by
      have hown : Endpoint.name (Endpoint.configure w.machine e spec.document).state =
          plugin.name := (BuiltIn.name_configure w.machine e _).trans (BuiltIn.name_create he)
      simp only [MountTable.nameOf, slot?, hslots, List.getElem?_concat_length]
      exact congrArg Except.ok hown
    have hold : ∀ m ∈ t.mounts, u.nameOf m = t.nameOf m := fun m hm => hadded.nameOf (h.held m hm)
    simp only [listMounts, hmounts, List.map_append, List.map_cons, List.map_nil, hname]
    apply congrArg (· ++ _)
    apply List.map_congr_left
    intro m hm
    rw [hold m hm]

structure InTurn (w : Surroundings) (plan : MountPlan) : Prop where
  /-- It can be carried out exactly if each endpoint can be made when its turn comes. -/
  carriedOut : ∀ u, ofPlan w plan = .ok u ↔
    let made := account (fun t spec => t.move w (.make spec)) {} plan.mounts
    (∀ entry ∈ made.entries, entry.1 = .ok .done) ∧ made.state = u
  /-- The first endpoint that cannot be made is the reason of a failure. -/
  failed : ∀ err, ofPlan w plan = .error err ↔ ∃ before spec after u,
    plan.mounts = before ++ spec :: after ∧ ofPlan w ⟨before⟩ = .ok u ∧
      u.mountSpec w spec = .error err
  listed : ∀ u, ofPlan w plan = .ok u → List.Forall₂ ListedAs plan.mounts u.listMounts

section

variable {w : Surroundings} {specs : List MountSpec} {t : MountTable}

theorem makeEach_ok_iff (u : MountTable) : specs.foldlM (mountSpec w) t = .ok u ↔
    let made := account (fun t spec => t.move w (.make spec)) t specs
    (∀ entry ∈ made.entries, entry.1 = .ok .done) ∧ made.state = u := by
  induction specs generalizing t with
  | nil =>
    apply Iff.intro
    · intro h
      exact ⟨nofun, Except.ok.inj h⟩
    · intro h
      exact congrArg Except.ok h.2
  | cons spec specs ih =>
    rw [List.foldlM_cons]
    cases hspec : mountSpec w t spec with
    -- The plan ends here while the moves go on, but one of them has been refused.
    | error err =>
      apply Iff.intro
      · intro h
        cases h
      · intro h
        have hmove : t.move w (.make spec) = { answer := .error err, state := t } := by
          simp only [move, hspec, replaced]
        simp only [account, hmove, List.forall_mem_cons] at h
        cases h.1.1
    | ok next =>
      have hmove : t.move w (.make spec) = { answer := .ok .done, state := next } := by
        simp only [move, hspec, replaced]
      simp only [account, hmove, List.forall_mem_cons, true_and]
      exact ih

theorem makeEach_error_iff (err : Error) : specs.foldlM (mountSpec w) t = .error err ↔
    ∃ before spec after u, specs = before ++ spec :: after ∧
      before.foldlM (mountSpec w) t = .ok u ∧ u.mountSpec w spec = .error err := by
  induction specs generalizing t with
  | nil =>
    apply Iff.intro
    · intro h
      cases h
    · intro h
      obtain ⟨before, spec, after, u, hsplit, -⟩ := h
      cases before <;> cases hsplit
  | cons first specs ih =>
    rw [List.foldlM_cons]
    cases hspec : mountSpec w t first with
    | error failure =>
      apply Iff.intro
      · intro h
        exact ⟨[], first, specs, t, rfl, rfl, hspec.trans h⟩
      · intro h
        obtain ⟨before, spec, after, u, hsplit, hbefore, hfailed⟩ := h
        cases before with
        | nil =>
          obtain rfl := Except.ok.inj hbefore
          obtain ⟨rfl, -⟩ := List.cons.inj hsplit
          exact hspec.symm.trans hfailed
        | cons head before =>
          obtain ⟨rfl, -⟩ := List.cons.inj hsplit
          rw [List.foldlM_cons, hspec] at hbefore
          cases hbefore
    | ok next =>
      apply Iff.trans ih
      apply Iff.intro
      · intro h
        obtain ⟨before, spec, after, u, rfl, hbefore, hfailed⟩ := h
        refine ⟨first :: before, spec, after, u, rfl, ?_, hfailed⟩
        rw [List.foldlM_cons, hspec]
        exact hbefore
      · intro h
        obtain ⟨before, spec, after, u, hsplit, hbefore, hfailed⟩ := h
        cases before with
        | nil =>
          obtain rfl := Except.ok.inj hbefore
          obtain ⟨rfl, -⟩ := List.cons.inj hsplit
          cases hspec.symm.trans hfailed
        | cons head before =>
          obtain ⟨rfl, rfl⟩ := List.cons.inj hsplit
          rw [List.foldlM_cons, hspec] at hbefore
          exact ⟨before, spec, after, u, rfl, hbefore, hfailed⟩

theorem Sound.listMounts_planned (h : Sound t) {u : MountTable}
    (hu : specs.foldlM (MountTable.mountSpec w) t = .ok u) :
    ∃ added, u.listMounts = t.listMounts ++ added ∧ List.Forall₂ ListedAs specs added := by
  induction specs generalizing t with
  | nil =>
    obtain rfl := Except.ok.inj hu
    exact ⟨[], (List.append_nil _).symm, .nil⟩
  | cons spec specs ih =>
    rw [List.foldlM_cons] at hu
    cases hspec : MountTable.mountSpec w t spec with
    | error err =>
      rw [hspec] at hu
      cases hu
    | ok next =>
      rw [hspec] at hu
      obtain ⟨entry, hentry, hfirst⟩ := h.listMounts_made hspec
      obtain ⟨added, hadded, hlisted⟩ := ih (h.mountSpec hspec) hu
      refine ⟨entry :: added, ?_, .cons hentry hlisted⟩
      rw [hadded, hfirst, List.append_assoc, List.singleton_append]

end

theorem ofPlan_inTurn (w : Surroundings) (plan : MountPlan) : InTurn w plan := by
  apply InTurn.mk
  case carriedOut => exact makeEach_ok_iff
  case failed => exact makeEach_error_iff
  case listed =>
    intro u hu
    obtain ⟨added, hadded, hlisted⟩ := Sound.empty.listMounts_planned hu
    rw [hadded]
    exact hlisted

theorem Reachable.replaced {t : MountTable} (ht : Reachable t) {made : Except Error MountTable}
    (h : ∀ u, made = .ok u → Reachable u) : Reachable (t.replaced made).state := by
  cases made with
  | error err => exact ht
  | ok u => exact h u rfl

theorem Reachable.move {t : MountTable} (ht : Reachable t) (w : Surroundings) (x : TableMove) :
    Reachable (t.move w x).state := by
  cases x with
  | again source path =>
    simp only [MountTable.move]
    cases t.mount? source with
    | none => exact ht
    | some m => exact ht.replaced fun u h => .mountedAgain ht h
  | make spec =>
    simp only [MountTable.move]
    exact ht.replaced fun u h => .made ht h
  | load plan =>
    simp only [MountTable.move]
    exact ht.replaced fun u h => .planned h
  | shutdownAll => exact .shutDown w ht
  | use operation =>
    cases operation with
    | stat path => exact ht
    | list path => exact ht
    | read path offset size =>
      simp only [MountTable.move, perform, MountTable.read, Outcome.mapAnswer]
      split
      · exact ht
      · exact .used w _ _ ht
    | write path data =>
      simp only [MountTable.move, perform, MountTable.write, Outcome.mapAnswer]
      split
      · exact ht
      · exact .used w _ _ ht
    | configure point document =>
      simp only [MountTable.move, perform, Outcome.mapAnswer]
      split
      · exact ht
      · exact .used w _ _ ht
    | mount path slot =>
      simp only [MountTable.move, perform]
      cases hu : t.mount path slot with
      | error err => exact ht
      | ok u => exact .mounted ht hu
    | unmount path => exact .unmounted w path ht

/-- What changes do to a table: all that they are meant to do, or nothing. -/
structure ChangesWhole (t : MountTable) : Prop where
  points : ∀ m ∈ t.mounts, IsPoint m.path
  distinct : (t.mounts.map Mount.path).Nodup
  refused : ∀ w x path err, x.mounts? = some path → (t.move w x).answer = .error err →
    (t.move w x).state = t
  mounted : ∀ w x path a, x.mounts? = some path → (t.move w x).answer = .ok a →
    AddedLast t path (t.move w x).state
  tried : ∀ path slot, MountTried t path slot (t.mount path slot)
  made : ∀ w spec, MakeTried w t spec (t.mountSpec w spec)
  unmounted : ∀ w path m, m ∈ t.mounts → m.path = normalize path → Unmounts t w path m
  unknown : ∀ w path, (∀ m ∈ t.mounts, m.path ≠ normalize path) →
    t.unmount w path = { answer := .error (.noSuchPath (normalize path)), state := t }
  lasting : ∀ w x, Reachable (t.move w x).state

/-- However a table has been made, it changes as a whole or not at all, and plans are carried out in
order. -/
theorem changes_whole_or_refused (t : MountTable) (ht : Reachable t) :
    t.ChangesWhole ∧ ∀ w plan, InTurn w plan := by
  have hsound := ht.sound
  apply And.intro ?_ ofPlan_inTurn
  apply ChangesWhole.mk hsound.points hsound.distinct
  case refused => exact fun w x path err hx h => move_refused hx h
  case mounted => exact fun w x path a hx h => move_mounted hx h
  case tried => exact mount_tried t
  case made => exact fun w spec => mountSpec_tried w t spec
  case unmounted => exact fun w path m hm hpath => hsound.unmounts w hm hpath
  case unknown => exact fun w path hnone => unmount_unknown hnone w
  case lasting => exact fun w x => ht.move w x

/-- A mount that is refused where another one is, and the end of one whose endpoint has crashed. -/
theorem crashed_endpoint_unmounted :
    let s := Services.steady ⟨0⟩ (.error .noTransport) .crashed
    let w : Surroundings := { given := s, machine := s }
    let k := (Skill.create ⟨0⟩).move s (.begin "/execute" [120])
    let skill : Slot := { endpoint := { endpoint := .skill k }, origin := .given }
    let search : Slot := { endpoint := { endpoint := .search Eager.create }, origin := .given }
    let whole : MountTable :=
      { mounts := [⟨"/a", 0⟩, ⟨"/b", 1⟩], slots := [skill, search] }
    let t := (whole.read w "a/result" 0 0).state
    Reachable t ∧ (t.move w (.use (.mount " b/" search))).state = t ∧
      (t.unmount w "a/").answer = .error .poisoned ∧
      (t.unmount w "a/").state.mounts = [⟨"/b", 1⟩] ∧ Unmounts t w "a/" ⟨"/a", 0⟩ := by
  intro s w k skill search whole t
  let first : MountTable := { mounts := [⟨"/a", 0⟩], slots := [skill] }
  have hfirst : MountTable.mount {} "/a" skill = .ok first := rfl
  have hwhole : first.mount "b" search = .ok whole := rfl
  have ht : Reachable t := .used w ⟨"/a", 0⟩ (fun s e => e.read s "/result" 0 0)
    (.mounted (.mounted .empty hfirst) hwhole)
  obtain ⟨hchanges, -⟩ := changes_whole_or_refused t ht
  refine ⟨ht, ?_, rfl, rfl, ?_⟩
  · exact hchanges.refused w _ " b/" (.mountInUse "/b") rfl rfl
  · exact hchanges.unmounted w "a/" ⟨"/a", 0⟩ (List.mem_cons_self ..) rfl

end MountTable

end FileEndpoints

import FileEndpoints.Proofs.ListedPaths

namespace FileEndpoints

open MountPath (IsPoint listedName)
open Time (Instant)

section

variable {α β ε : Type} {f : α → Except ε β} {as : List α}

theorem mapM_forall₂ {R : α → β → Prop} (h : ∀ a ∈ as, ∃ b, f a = .ok b ∧ R a b) :
    ∃ bs, as.mapM f = .ok bs ∧ List.Forall₂ R as bs := by
  induction as with
  | nil => exact ⟨[], rfl, .nil⟩
  | cons a as ih =>
    obtain ⟨b, hb, hr⟩ := h a (List.mem_cons_self ..)
    obtain ⟨bs, hbs, hrs⟩ := ih fun a ha => h a (List.mem_cons_of_mem _ ha)
    refine ⟨b :: bs, ?_, .cons hr hrs⟩
    rw [List.mapM_cons, hb, hbs]
    rfl

theorem mapM_error {err : ε} (h : ∀ a ∈ as, f a = .error err ∨ ∃ b, f a = .ok b)
    (hfail : ∃ a ∈ as, f a = .error err) : as.mapM f = .error err := by
  induction as with
  | nil =>
    obtain ⟨a, ha, -⟩ := hfail
    cases ha
  | cons a as ih =>
    rw [List.mapM_cons]
    rcases h a (List.mem_cons_self ..) with he | ⟨b, hb⟩
    · rw [he]
      rfl
    -- What fails comes later, and nothing before it can fail in another way.
    · have hlater : as.mapM f = .error err := by
        apply ih fun a ha => h a (List.mem_cons_of_mem _ ha)
        obtain ⟨c, hc, he⟩ := hfail
        cases hc with
        | head =>
          rw [hb] at he
          cases he
        | tail _ hc => exact ⟨c, hc, he⟩
      rw [hb, hlater]
      rfl

end

theorem MountPath.IsPoint.listed {point : String} (h : IsPoint point) :
    point = "/" ++ listedName point := by
  obtain ⟨name, -, hslash, rfl⟩ := h
  rw [listedName_point hslash]

/-- An operation does not poison a lock unless it says that it crashed. -/
def Honest {α : Type} (operate : Services → Locked BuiltIn → Outcome (Locked BuiltIn) α) : Prop :=
  ∀ s l, l.poisoned = false → (operate s l).answer ≠ .error .crashed →
    (operate s l).state.poisoned = false

theorem Honest.act {α : Type} (operate : Services → BuiltIn → Outcome BuiltIn α) :
    Honest fun s l => l.act (operate s) := by
  intro s l hl hcalm
  obtain ⟨hanswer, -, hpoisoned⟩ := Locked.act_eq hl (operate s)
  rw [← Bool.not_eq_true]
  intro hcrash
  exact hcalm (hanswer.trans (hpoisoned.1 hcrash))

theorem Honest.write (path : String) (data : Bytes) : Honest fun s l => l.write s path data := by
  intro s l hl hcalm
  have hbegin := Honest.act (fun s e => Endpoint.beginWrite s e path data) s l hl
  have hbegun : (l.beginWrite s path data).answer ≠ .error .crashed →
      (l.beginWrite s path data).state.poisoned = false := hbegin
  simp only [Locked.write] at hcalm ⊢
  cases ha : (l.beginWrite s path data).answer with
  | error err =>
    simp only [ha] at hcalm ⊢
    apply hbegun
    rw [ha]
    intro hcrash
    exact hcalm (congrArg Except.error (Except.error.inj hcrash))
  | ok step =>
    have hfree : (l.beginWrite s path data).state.poisoned = false := by
      apply hbegun
      rw [ha]
      intro hcrash
      cases hcrash
    cases step with
    | done => exact hfree
    | remote call =>
      simp only [ha] at hcalm ⊢
      exact Honest.act (fun s e => Endpoint.finishWrite s e call _) s _ hfree hcalm

namespace MountTable

/-- No endpoint that is mounted is behind a poisoned lock. -/
def Healthy (t : MountTable) : Prop :=
  ∀ m ∈ t.mounts, ∀ slot, ¬ t.Stuck m.slot slot

section

variable {t : MountTable}

theorem Sound.nameOf (h : Sound t) {m : Mount} (hm : m ∈ t.mounts) :
    (∃ slot, t.Stuck m.slot slot) ∧ t.nameOf m = .error .poisoned ∨
      (∀ slot, ¬ t.Stuck m.slot slot) ∧ ∃ name, t.nameOf m = .ok name := by
  obtain ⟨slot, hslot⟩ : ∃ slot, t.slots[m.slot]? = some slot :=
    ⟨_, List.getElem?_eq_getElem (h.held m hm)⟩
  simp only [MountTable.nameOf, slot?, hslot, Locked.name]
  cases hp : slot.endpoint.poisoned with
  | true => exact .inl ⟨⟨slot, hslot, hp⟩, Locked.view_poisoned hp _⟩
  | false =>
    apply Or.inr
    apply And.intro
    · intro other hstuck
      obtain rfl := Option.some.inj (hslot.symm.trans hstuck.held)
      cases hp.symm.trans hstuck.poisoned
    · refine ⟨Endpoint.name slot.endpoint.endpoint, ?_⟩
      simp only [Locked.view, hp, Bool.false_eq_true, ↓reduceIte]

def rootRecord (w : Surroundings) (t : MountTable) (m : Mount) : Except Error FileInfo := do
  let name ← t.nameOf m
  return .directory (← w.machine.now) name (listedName m.path)

theorem list_root {path : String} (hroot : isRoot path = true) (w : Surroundings) :
    t.list w path = t.mounts.mapM (t.rootRecord w) := by
  simp only [MountTable.list, hroot, ↓reduceIte]
  rfl

/-- A record of the root for an entry of the list of mounts. -/
def ShownAs (now : Instant) (entry : String × String) (info : FileInfo) : Prop :=
  ∃ name, entry.1 = "/" ++ name ∧ info = .directory now entry.2 name

theorem Sound.list_healthy (h : Sound t) (hhealthy : t.Healthy) {w : Surroundings} {now : Instant}
    (hnow : w.machine.now = .ok now) {path : String} (hroot : isRoot path = true) :
    ∃ infos, t.list w path = .ok infos ∧ List.Forall₂ (ShownAs now) t.listMounts infos := by
  rw [list_root hroot, listMounts]
  simp only [List.forall₂_map_left_iff]
  apply mapM_forall₂
  intro m hm
  have hpath := (h.points m hm).listed
  rcases h.nameOf hm with ⟨⟨slot, hstuck⟩, -⟩ | ⟨-, name, hname⟩
  · exact absurd hstuck (hhealthy m hm slot)
  · refine ⟨.directory now name (listedName m.path), ?_, ?_⟩
    · simp only [rootRecord, hname, hnow]
      rfl
    · rw [hname]
      exact ⟨_, hpath, rfl⟩

theorem Sound.list_poisoned (h : Sound t) (hpoisoned : ¬ t.Healthy) {w : Surroundings}
    {now : Instant} (hnow : w.machine.now = .ok now) {path : String} (hroot : isRoot path = true) :
    t.list w path = .error .poisoned := by
  rw [list_root hroot]
  have hrecord : ∀ m ∈ t.mounts, t.rootRecord w m = .error .poisoned ∨
      ∃ info, t.rootRecord w m = .ok info := by
    intro m hm
    simp only [rootRecord]
    rcases h.nameOf hm with ⟨-, hname⟩ | ⟨-, name, hname⟩
    · rw [hname]
      exact .inl rfl
    · rw [hname, hnow]
      exact .inr ⟨_, rfl⟩
  apply mapM_error hrecord
  simp only [Healthy, not_forall, not_not] at hpoisoned
  obtain ⟨m, hm, slot, hstuck⟩ := hpoisoned
  refine ⟨m, hm, ?_⟩
  rcases h.nameOf hm with ⟨-, hname⟩ | ⟨hfree, -⟩
  · rw [rootRecord, hname]
    rfl
  · exact absurd hstuck (hfree slot)

end

namespace Healthy

variable {t u : MountTable}

theorem act {α : Type} (h : t.Healthy) {w : Surroundings} {m : Mount}
    (hm : ∀ slot, ¬ t.Stuck m.slot slot)
    {operate : Services → Locked BuiltIn → Outcome (Locked BuiltIn) α} (hhonest : Honest operate)
    (hcalm : (t.act w m operate).answer ≠ .error .crashed) : (t.act w m operate).state.Healthy := by
  have hapart := t.act_apart w m operate
  intro n hn slot hstuck
  rw [hapart.mounts] at hn
  by_cases hslot : n.slot = m.slot
  -- The lock that was taken has been given back, since nothing crashed.
  · rw [hslot] at hstuck
    cases hheld : t.slot? m with
    | none =>
      simp only [MountTable.act, hheld] at hstuck
      exact hm slot hstuck
    | some s =>
      have hpasses := act_passes hheld w operate
      obtain rfl := Option.some.inj (hpasses.changed.symm.trans hstuck.held)
      have hfree : s.endpoint.poisoned = false := by
        rw [← Bool.not_eq_true]
        intro hp
        exact hm s ⟨hheld, hp⟩
      have hstill := hhonest _ _ hfree (hpasses.answer ▸ hcalm)
      cases hstill.symm.trans hstuck.poisoned
  · have hheld := (hapart.slots n.slot hslot).symm.trans hstuck.held
    exact h n hn slot ⟨hheld, hstuck.poisoned⟩

theorem mount (h : t.Healthy) (hsound : Sound t) {path : String} {slot : Slot}
    (hu : t.mount path slot = .ok u) : u.Healthy := by
  have htried := mount_tried t path slot
  rw [hu] at htried
  cases htried with
  | added hsought hslot =>
    cases hsought with
    | free hpoint hfree =>
      intro n hn s hstuck
      rcases List.mem_append.1 hn with hn | hn
      · have hheld := hstuck.held
        rw [List.getElem?_append_left (hsound.held n hn)] at hheld
        exact h n hn s ⟨hheld, hstuck.poisoned⟩
      · obtain rfl := List.mem_singleton.1 hn
        have hheld := hstuck.held
        rw [List.getElem?_concat_length] at hheld
        obtain rfl := Option.some.inj hheld
        cases hslot.symm.trans hstuck.poisoned

theorem mountAgain (h : t.Healthy) {path : String} {m : Mount} (hm : m ∈ t.mounts)
    (hu : t.mountAgain path m = .ok u) : u.Healthy := by
  obtain ⟨point, -, -, rfl⟩ := mountAgain_ok hu
  intro n hn slot hstuck
  rcases List.mem_append.1 hn with hn | hn
  · exact h n hn slot ⟨hstuck.held, hstuck.poisoned⟩
  · obtain rfl := List.mem_singleton.1 hn
    exact h m hm slot ⟨hstuck.held, hstuck.poisoned⟩

theorem mountSpec (h : t.Healthy) (hsound : Sound t) {w : Surroundings} {spec : MountSpec}
    (hu : t.mountSpec w spec = .ok u) : u.Healthy := by
  obtain ⟨slot, hmount⟩ := mountSpec_ok hu
  exact h.mount hsound hmount

theorem empty : Healthy {} := by
  intro m hm
  cases hm

theorem planned {w : Surroundings} {specs : List MountSpec} (h : t.Healthy) (hsound : Sound t)
    (hu : specs.foldlM (MountTable.mountSpec w) t = .ok u) : u.Healthy :=
  (planned_preserves (P := fun t => t.Healthy ∧ Sound t) ⟨h, hsound⟩
    (fun h hspec => ⟨h.1.mountSpec h.2 hspec, h.2.mountSpec hspec⟩) hu).1

theorem erase (h : t.Healthy) (m : Mount) : Healthy { t with mounts := t.mounts.erase m } := by
  intro n hn slot hstuck
  exact h n (List.mem_of_mem_erase hn) slot ⟨hstuck.held, hstuck.poisoned⟩

theorem replaced (h : t.Healthy) {made : Except Error MountTable}
    (hmade : ∀ u, made = .ok u → u.Healthy) : (t.replaced made).state.Healthy := by
  cases made with
  | error err => exact h
  | ok u => exact hmade u rfl

theorem routed {t : MountTable} (h : t.Healthy) (hsound : Sound t) {path inner : String}
    {m : Mount} (hr : t.resolve path = .ok (m, inner)) : ∀ slot, ¬ t.Stuck m.slot slot :=
  h m ((hsound.resolve_iff m inner).1 hr).1

end Healthy

theorem shutdownEach_mounts (t : MountTable) (w : Surroundings) (ms : List Mount) :
    (t.shutdownEach w ms).state.mounts = t.mounts := by
  induction ms generalizing t with
  | nil => rfl
  | cons m ms ih =>
    have hapart := t.act_apart w m Locked.shutdown
    simp only [shutdownEach]
    split
    · exact hapart.mounts
    · exact (ih _).trans hapart.mounts

/-- One move poisons nothing that is mounted unless it crashes. -/
theorem Healthy.move {t : MountTable} (h : t.Healthy) (hsound : Sound t) {w : Surroundings}
    {x : TableMove} (hcalm : (t.move w x).answer ≠ .error .crashed) :
    (t.move w x).state.Healthy := by
  cases x with
  | again source path =>
    simp only [MountTable.move]
    cases hsource : t.mount? source with
    | none => exact h
    | some m => exact h.replaced fun u hu => h.mountAgain (Sound.mount?_path hsource).1 hu
  | make spec =>
    simp only [MountTable.move]
    exact h.replaced fun u hu => h.mountSpec hsound hu
  | load plan =>
    simp only [MountTable.move]
    exact h.replaced fun u hu => Healthy.empty.planned Sound.empty hu
  | shutdownAll =>
    intro m hm
    simp only [MountTable.move, Outcome.mapAnswer, MountTable.shutdownAll,
      shutdownEach_mounts] at hm
    cases hm
  | use operation =>
    cases operation with
    | stat path => exact h
    | list path => exact h
    | read path offset size =>
      have hread := Outcome.mapAnswer_crashed hcalm
      simp only [MountTable.move, perform, Outcome.mapAnswer]
      simp only [MountTable.read] at hread ⊢
      cases hr : t.resolve path with
      | error err => exact h
      | ok route =>
        rw [hr] at hread
        exact h.act (h.routed hsound hr)
          (.act fun s e => Endpoint.read s e route.2 offset size) hread
    | write path data =>
      have hwrite := Outcome.mapAnswer_crashed hcalm
      simp only [MountTable.move, perform, Outcome.mapAnswer]
      simp only [MountTable.write] at hwrite ⊢
      cases hr : t.resolve path with
      | error err => exact h
      | ok route =>
        rw [hr] at hwrite
        exact h.act (h.routed hsound hr) (.write route.2 data) hwrite
    | configure point document =>
      simp only [MountTable.move, perform] at hcalm ⊢
      cases hfound : t.mount? point with
      | none => exact h
      | some m =>
        rw [hfound] at hcalm
        exact h.act (h m (Sound.mount?_path hfound).1)
          (.act fun s e => Endpoint.configure s e document) (Outcome.mapAnswer_crashed hcalm)
    | mount path slot =>
      simp only [MountTable.move, perform]
      cases hu : t.mount path slot with
      | error err => exact h
      | ok u => exact h.mount hsound hu
    | unmount path =>
      have hunmount := Outcome.mapAnswer_crashed hcalm
      simp only [MountTable.move, perform, Outcome.mapAnswer]
      simp only [MountTable.unmount] at hunmount ⊢
      cases hfound : t.mount? path with
      | none => exact h
      | some m =>
        rw [hfound] at hunmount
        have hfree : ∀ slot, ¬ Stuck { t with mounts := t.mounts.erase m } m.slot slot :=
          fun slot hstuck => h m (Sound.mount?_path hfound).1 slot ⟨hstuck.held, hstuck.poisoned⟩
        exact (h.erase m).act hfree (.act fun s e => Endpoint.shutdown s e) hunmount

/-- Moves made one after another, each with what the surroundings answer while it lasts. -/
def history (t : MountTable) (moves : List (Surroundings × TableMove)) : Account MountTable Answer :=
  account (fun t x => t.move x.1 x.2) t moves

theorem Healthy.history {t : MountTable} (h : t.Healthy) (ht : Reachable t)
    {moves : List (Surroundings × TableMove)}
    (hcalm : ∀ entry ∈ (t.history moves).entries, entry.1 ≠ .error .crashed) :
    Reachable (t.history moves).state ∧ (t.history moves).state.Healthy := by
  induction moves generalizing t with
  | nil => exact ⟨ht, h⟩
  | cons x moves ih =>
    have hhead := hcalm _ (List.mem_cons_self ..)
    apply ih (h.move ht.sound hhead) (ht.move x.1 x.2)
    intro entry hentry
    exact hcalm entry (List.mem_cons_of_mem _ hentry)

/-- What the root of a table shows, under any path that stands for the root. -/
structure RootShown (t : MountTable) (w : Surroundings) (now : Instant) (root : String) : Prop where
  healthy : t.Healthy →
    ∃ infos, t.list w root = .ok infos ∧ List.Forall₂ (ShownAs now) t.listMounts infos
  poisoned : ¬ t.Healthy → t.list w root = .error .poisoned
  listed : t.listMounts.map Prod.fst = t.mounts.map Mount.path
  crashed : ∀ w' path offset size, (t.read w' path offset size).answer = .error .crashed →
    (t.read w' path offset size).state.list w root = .error .poisoned

theorem Reachable.read_crashed_unhealthy {t : MountTable} (ht : Reachable t) {w : Surroundings}
    {path : String} {offset size : Int}
    (h : (t.read w path offset size).answer = .error .crashed) :
    Reachable (t.read w path offset size).state ∧ ¬ (t.read w path offset size).state.Healthy := by
  apply And.intro (ht.move w (.use (.read path offset size)))
  cases hr : t.resolve path with
  | error err =>
    simp only [read, hr, resolve_error hr] at h
    cases h
  | ok route =>
    have hm := ((ht.sound.resolve_iff route.1 route.2).1 hr).1
    have hrouted : t.routed? path = some route.1.slot := by
      simp only [routed?, hr]
      rfl
    obtain ⟨hapart, slot, hstuck⟩ := read_crashed hrouted h
    intro hhealthy
    exact hhealthy route.1 (hapart.mounts ▸ hm) slot hstuck

/-- The root is listed as long as nothing that is mounted is poisoned, and that cannot come about
without a crash. -/
theorem root_listed_unless_poisoned (t : MountTable) (ht : Reachable t) :
    (∀ w now root, isRoot root = true → w.machine.now = .ok now → t.RootShown w now root) ∧
    (t.Healthy → ∀ moves, (∀ entry ∈ (t.history moves).entries, entry.1 ≠ .error .crashed) →
      Reachable (t.history moves).state ∧ (t.history moves).state.Healthy) := by
  apply And.intro
  · intro w now root hroot hnow
    apply RootShown.mk
    case healthy => exact fun h => ht.sound.list_healthy h hnow hroot
    case poisoned => exact fun h => ht.sound.list_poisoned h hnow hroot
    case listed => exact t.listMounts_paths
    case crashed =>
      intro w' path offset size hcrash
      obtain ⟨hreach, hpoisoned⟩ := ht.read_crashed_unhealthy hcrash
      exact hreach.sound.list_poisoned hpoisoned hnow hroot
  · intro h moves hcalm
    exact h.history ht hcalm

/-- A table with a skill that has been queued nothing yet. -/
def idleSkill : MountTable where
  mounts := [⟨"/s", 0⟩]
  slots := [{ endpoint := { endpoint := .skill (.create ⟨0⟩) }, origin := .given }]

def crashing : Surroundings where
  given := .steady ⟨0⟩ (.error .noTransport) .crashed
  machine := .steady ⟨0⟩ (.error .noTransport) .crashed

def queuedSkill : MountTable :=
  (idleSkill.history [(crashing, .use (.write "s/execute" [120]))]).state

theorem idleSkill_reachable : Reachable idleSkill ∧ idleSkill.Healthy := by
  let skill : Slot := { endpoint := { endpoint := .skill (.create ⟨0⟩) }, origin := .given }
  have hmounted : MountTable.mount {} "s/" skill = .ok idleSkill := rfl
  exact ⟨.mounted .empty hmounted, Healthy.empty.mount .empty hmounted⟩

theorem queuedSkill_listed :
    queuedSkill.Healthy ∧ (∃ infos, queuedSkill.list crashing "/" = .ok infos ∧
      List.Forall₂ (ShownAs ⟨0⟩) [("/s", "skillsfs")] infos) ∧
    (queuedSkill.read crashing "s/result" 0 9).state.list crashing " //" = .error .poisoned := by
  obtain ⟨hidle, hhealthy⟩ := idleSkill_reachable
  obtain ⟨-, hlasting⟩ := root_listed_unless_poisoned idleSkill hidle
  have hcalm : ∀ entry ∈ (idleSkill.history
      [(crashing, .use (.write "s/execute" [120]))]).entries, entry.1 ≠ .error .crashed := by
    intro entry hentry hcrash
    obtain rfl := List.mem_singleton.1 hentry
    cases hcrash
  obtain ⟨hqueued, hfree⟩ := hlasting hhealthy _ hcalm
  obtain ⟨hshown, -⟩ := root_listed_unless_poisoned queuedSkill hqueued
  have hroot := hshown crashing ⟨0⟩ "/" rfl rfl
  have hslashes := hshown crashing ⟨0⟩ " //" rfl rfl
  exact ⟨hfree, hroot.healthy hfree, hslashes.crashed crashing "s/result" 0 9 rfl⟩

/-- The root may be kept from being listed by one mount. -/
theorem root_listing_may_fail :
    ¬ ∀ t, Reachable t → ∀ w now, w.machine.now = .ok now →
      ∃ infos, t.list w "/" = .ok infos ∧ List.Forall₂ (ShownAs now) t.listMounts infos := by
  intro h
  have hqueued : Reachable queuedSkill :=
    idleSkill_reachable.1.move crashing (.use (.write "s/execute" [120]))
  have hcrashed := hqueued.move crashing (.use (.read "s/result" 0 9))
  obtain ⟨infos, hinfos, -⟩ := h _ hcrashed crashing ⟨0⟩ rfl
  have hfails : ((queuedSkill.move crashing (.use (.read "s/result" 0 9))).state.list crashing
      "/") = .error .poisoned := rfl
  cases hfails.symm.trans hinfos

end MountTable

end FileEndpoints

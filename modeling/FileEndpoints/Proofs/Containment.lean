import FileEndpoints.Mounts.Table
import FileEndpoints.Proofs.FailedRuns
import FileEndpoints.Proofs.Locks

namespace FileEndpoints

open Time (Instant)

/-- What can be asked of a mount table, or of an endpoint through the table. -/
inductive TableOperation where
  | stat (path : String)
  | list (path : String)
  | read (path : String) (offset size : Int)
  | write (path : String) (data : Bytes)
  | configure (point : String) (document : Option String)
  | mount (path : String) (slot : Slot)
  | unmount (path : String)

namespace MountTable

def perform (w : Surroundings) (t : MountTable) : TableOperation → Outcome MountTable Answer
  | .stat path => { answer := (t.stat w path).map .record, state := t }
  | .list path => { answer := (t.list w path).map .records, state := t }
  | .read path offset size => (t.read w path offset size).mapAnswer .content
  | .write path data => (t.write w path data).mapAnswer fun _ => .done
  | .configure point document =>
    match t.mount? point with
    | none => { answer := .error (.noSuchPath (MountPath.normalize point)), state := t }
    | some m => (t.act w m fun s e => e.configure s document).mapAnswer fun _ => .done
  | .mount path slot =>
    match t.mount path slot with
    | .error err => { answer := .error err, state := t }
    | .ok mounted => { answer := .ok .done, state := mounted }
  | .unmount path => (t.unmount w path).mapAnswer fun _ => .done

def run (t : MountTable) (operations : List (Surroundings × TableOperation)) : MountTable :=
  operations.foldl (fun t o => (t.perform o.1 o.2).state) t

def routed? (t : MountTable) (path : String) : Option Nat :=
  (t.resolve path).toOption.map fun route => route.1.slot

/-- The slot of the endpoint that an operation on a path or a mount point reaches. -/
def target? (t : MountTable) : TableOperation → Option Nat
  | .stat path | .list path => if isRoot path then none else t.routed? path
  | .read path _ _ | .write path _ => t.routed? path
  | .configure point _ | .unmount point => (t.mount? point).map Mount.slot
  | .mount .. => none

theorem resolve_of_routed {t : MountTable} {path : String} {n : Nat}
    (h : t.routed? path = some n) : ∃ m inner, t.resolve path = .ok (m, inner) ∧ m.slot = n := by
  obtain ⟨⟨m, inner⟩, hr, hm⟩ := Option.map_eq_some_iff.1 h
  cases hroute : t.resolve path with
  | error err =>
    rw [hroute] at hr
    cases hr
  | ok route =>
    rw [hroute] at hr
    exact ⟨m, inner, congrArg Except.ok (Option.some.inj hr), hm⟩

theorem resolve_of_listed {t : MountTable} {path : String} {n : Nat}
    (h : (if isRoot path then none else t.routed? path) = some n) :
    isRoot path = false ∧ ∃ m inner, t.resolve path = .ok (m, inner) ∧ m.slot = n := by
  cases hroot : isRoot path with
  | true =>
    rw [hroot] at h
    cases h
  | false =>
    rw [hroot] at h
    exact ⟨rfl, resolve_of_routed h⟩

theorem mount_ok {t u : MountTable} {path : String} {slot : Slot}
    (h : t.mount path slot = .ok u) : ∃ point, t.freePoint path = .ok point ∧
      u = { mounts := t.mounts ++ [{ path := point, slot := t.slots.length }]
            slots := t.slots ++ [slot] } := by
  simp only [mount] at h
  cases hpoint : t.freePoint path with
  | error err =>
    rw [hpoint] at h
    cases h
  | ok point =>
    cases hname : slot.endpoint.name with
    | error err =>
      rw [hpoint, hname] at h
      cases h
    | ok name =>
      rw [hpoint, hname] at h
      exact ⟨point, rfl, (Except.ok.inj h).symm⟩

/-- Two tables with the same mounts whose endpoints differ in one slot at most. -/
structure AgreeApart (n : Nat) (t t' : MountTable) : Prop where
  mounts : t'.mounts = t.mounts
  length : t'.slots.length = t.slots.length
  slots : ∀ i, i ≠ n → t'.slots[i]? = t.slots[i]?

/-- An operation on one endpoint touches its own slot only. -/
theorem act_apart {α : Type} (t : MountTable) (w : Surroundings) (m : Mount)
    (operate : Services → Locked BuiltIn → Outcome (Locked BuiltIn) α) :
    AgreeApart m.slot t (t.act w m operate).state := by
  simp only [MountTable.act]
  cases t.slot? m with
  | none => exact ⟨rfl, rfl, fun _ _ => rfl⟩
  | some s => exact ⟨rfl, List.length_set, fun i hi => List.getElem?_set_ne hi.symm⟩

/-- A slot holds an endpoint whose lock is poisoned. -/
structure Stuck (t : MountTable) (n : Nat) (s : Slot) : Prop where
  held : t.slots[n]? = some s
  poisoned : s.endpoint.poisoned = true

namespace AgreeApart

variable {n : Nat} {t t' : MountTable}

theorem resolve (h : AgreeApart n t t') (path : String) : t'.resolve path = t.resolve path := by
  simp only [MountTable.resolve, h.mounts]

theorem mount? (h : AgreeApart n t t') (path : String) : t'.mount? path = t.mount? path := by
  simp only [MountTable.mount?, h.mounts]

theorem freePoint (h : AgreeApart n t t') (path : String) :
    t'.freePoint path = t.freePoint path := by
  simp only [MountTable.freePoint, h.mounts]

theorem view {α : Type} (h : AgreeApart n t t') (w : Surroundings) {m : Mount} (hm : m.slot ≠ n)
    (look : Services → Locked BuiltIn → Except Error α) : t'.view w m look = t.view w m look := by
  simp only [MountTable.view, slot?, h.slots m.slot hm]

theorem act {α : Type} (h : AgreeApart n t t') (w : Surroundings) (m : Mount)
    (operate : Services → Locked BuiltIn → Outcome (Locked BuiltIn) α) :
    AgreeApart n (t.act w m operate).state (t'.act w m operate).state := by
  by_cases hm : m.slot = n
  -- The two operations may differ here, but neither reaches another slot.
  · subst hm
    obtain ⟨hmounts, hlength, hslots⟩ := t.act_apart w m operate
    obtain ⟨hmounts', hlength', hslots'⟩ := t'.act_apart w m operate
    constructor
    · rw [hmounts, hmounts', h.mounts]
    · rw [hlength, hlength', h.length]
    · intro i hi
      rw [hslots i hi, hslots' i hi, h.slots i hi]
  -- Elsewhere both tables hold the same endpoint, and it is operated on in the same way.
  · simp only [MountTable.act, slot?, h.slots m.slot hm]
    cases t.slots[m.slot]? with
    | none => exact h
    | some s =>
      constructor
      · exact h.mounts
      · simp only [Outcome.mapState, List.length_set, h.length]
      · intro i hi
        simp only [Outcome.mapState, List.getElem?_set, h.length, h.slots i hi]

theorem act_answer {α : Type} (h : AgreeApart n t t') (w : Surroundings) {m : Mount}
    (hm : m.slot ≠ n) (operate : Services → Locked BuiltIn → Outcome (Locked BuiltIn) α) :
    (t'.act w m operate).answer = (t.act w m operate).answer ∧
      (t'.act w m operate).effects = (t.act w m operate).effects := by
  simp only [MountTable.act, slot?, h.slots m.slot hm]
  cases t.slots[m.slot]? <;> exact ⟨rfl, rfl⟩

theorem mount (h : AgreeApart n t t') (path : String) (slot : Slot) :
    (∃ err, t.mount path slot = .error err ∧ t'.mount path slot = .error err) ∨
      ∃ u u', t.mount path slot = .ok u ∧ t'.mount path slot = .ok u' ∧ AgreeApart n u u' := by
  simp only [MountTable.mount, h.freePoint]
  cases t.freePoint path with
  | error err => exact .inl ⟨err, rfl, rfl⟩
  | ok point =>
    cases slot.endpoint.name with
    | error err => exact .inl ⟨err, rfl, rfl⟩
    | ok name =>
      refine .inr ⟨_, _, rfl, rfl, ?_⟩
      constructor
      · simp only [h.mounts, h.length]
      · simp only [List.length_append, h.length]
      · intro i hi
        simp only [List.getElem?_append, h.length, h.slots i hi]

theorem erase (h : AgreeApart n t t') (m : Mount) :
    AgreeApart n { t with mounts := t.mounts.erase m } { t' with mounts := t'.mounts.erase m } :=
  ⟨congrArg (List.erase · m) h.mounts, h.length, h.slots⟩

theorem perform (h : AgreeApart n t t') (w : Surroundings) (operation : TableOperation) :
    AgreeApart n (t.perform w operation).state (t'.perform w operation).state := by
  cases operation with
  | stat path => exact h
  | list path => exact h
  | read path offset size =>
    simp only [MountTable.perform, MountTable.read, Outcome.mapAnswer, h.resolve]
    split
    · exact h
    · exact h.act w _ _
  | write path data =>
    simp only [MountTable.perform, MountTable.write, Outcome.mapAnswer, h.resolve]
    split
    · exact h
    · exact h.act w _ _
  | configure point document =>
    simp only [MountTable.perform, h.mount?]
    split
    · exact h
    · simp only [Outcome.mapAnswer]
      exact h.act w _ _
  | mount path slot =>
    simp only [MountTable.perform]
    rcases h.mount path slot with ⟨err, he, he'⟩ | ⟨u, u', hu, hu', hagree⟩
    · rw [he, he']
      exact h
    · rw [hu, hu']
      exact hagree
  | unmount path =>
    simp only [MountTable.perform, MountTable.unmount, Outcome.mapAnswer, h.mount?]
    split
    · exact h
    · rename_i m _
      exact (h.erase m).act w m Locked.shutdown

theorem run (h : AgreeApart n t t') (operations : List (Surroundings × TableOperation)) :
    AgreeApart n (t.run operations) (t'.run operations) := by
  induction operations generalizing t t' with
  | nil => exact h
  | cons o operations ih => exact ih (h.perform o.1 o.2)

theorem target? (h : AgreeApart n t t') (operation : TableOperation) :
    t'.target? operation = t.target? operation := by
  cases operation <;> simp only [MountTable.target?, routed?, h.resolve, h.mount?]

theorem answers (h : AgreeApart n t t') (w : Surroundings) {operation : TableOperation} {k : Nat}
    (hk : t.target? operation = some k) (hne : k ≠ n) :
    (t'.perform w operation).answer = (t.perform w operation).answer ∧
      (t'.perform w operation).effects = (t.perform w operation).effects := by
  cases operation with
  | mount path slot => cases hk
  | stat path =>
    simp only [MountTable.target?] at hk
    obtain ⟨hroot, m, inner, hr, rfl⟩ := resolve_of_listed hk
    simp only [MountTable.perform, MountTable.stat, hroot, h.resolve, hr, h.view w hne, and_self]
  | list path =>
    simp only [MountTable.target?] at hk
    obtain ⟨hroot, m, inner, hr, rfl⟩ := resolve_of_listed hk
    simp only [MountTable.perform, MountTable.list, hroot, h.resolve, hr, bind, Except.bind,
      h.view w hne, Bool.false_eq_true, ↓reduceIte, and_self]
  | read path offset size =>
    simp only [MountTable.target?] at hk
    obtain ⟨m, inner, hr, rfl⟩ := resolve_of_routed hk
    obtain ⟨hanswer, heffects⟩ := h.act_answer w hne fun s e => e.read s inner offset size
    simp only [MountTable.perform, MountTable.read, Outcome.mapAnswer, h.resolve, hr, hanswer,
      heffects, and_self]
  | write path data =>
    simp only [MountTable.target?] at hk
    obtain ⟨m, inner, hr, rfl⟩ := resolve_of_routed hk
    obtain ⟨hanswer, heffects⟩ := h.act_answer w hne fun s e => e.write s inner data
    simp only [MountTable.perform, MountTable.write, Outcome.mapAnswer, h.resolve, hr, hanswer,
      heffects, and_self]
  | configure point document =>
    obtain ⟨m, hm, rfl⟩ := Option.map_eq_some_iff.1 hk
    obtain ⟨hanswer, heffects⟩ := h.act_answer w hne fun s e => e.configure s document
    simp only [MountTable.perform, Outcome.mapAnswer, h.mount?, hm, hanswer, heffects, and_self]
  | unmount path =>
    obtain ⟨m, hm, rfl⟩ := Option.map_eq_some_iff.1 hk
    obtain ⟨hanswer, heffects⟩ := (h.erase m).act_answer w hne Locked.shutdown
    simp only [MountTable.perform, MountTable.unmount, Outcome.mapAnswer, h.mount?, hm, hanswer,
      heffects, and_self]

end AgreeApart

def Refuses {α : Type} (operate : Services → Locked BuiltIn → Outcome (Locked BuiltIn) α) : Prop :=
  ∀ s l, l.poisoned = true → operate s l = { answer := .error .poisoned, state := l }

theorem refuses_read (path : String) (offset size : Int) :
    Refuses fun s e => e.read s path offset size :=
  fun _ _ h => Locked.act_poisoned h _

theorem refuses_write (path : String) (data : Bytes) : Refuses fun s e => e.write s path data :=
  fun s _ h => Locked.write_poisoned h s path data

theorem refuses_configure (document : Option String) :
    Refuses fun s e => e.configure s document :=
  fun _ _ h => Locked.act_poisoned h _

theorem refuses_shutdown : Refuses Locked.shutdown :=
  fun _ _ h => Locked.act_poisoned h _

namespace Stuck

variable {n : Nat} {t : MountTable} {s : Slot}

theorem act_eq {α : Type} (h : Stuck t n s) (w : Surroundings) {m : Mount} (hm : m.slot = n)
    {operate : Services → Locked BuiltIn → Outcome (Locked BuiltIn) α} (hop : Refuses operate) :
    t.act w m operate = { answer := .error .poisoned, state := t } := by
  obtain ⟨hlt, hheld⟩ := List.getElem?_eq_some_iff.1 h.held
  have hset : t.slots.set n s = t.slots := by rw [← hheld, List.set_getElem_self]
  simp only [MountTable.act, slot?, hm, h.held, hop _ _ h.poisoned, Outcome.mapState, hset]

theorem act {α : Type} (h : Stuck t n s) (w : Surroundings) (m : Mount)
    {operate : Services → Locked BuiltIn → Outcome (Locked BuiltIn) α} (hop : Refuses operate) :
    Stuck (t.act w m operate).state n s := by
  by_cases hm : m.slot = n
  · rw [h.act_eq w hm hop]
    exact h
  · refine ⟨?_, h.poisoned⟩
    simp only [MountTable.act]
    cases t.slot? m with
    | none => exact h.held
    | some other => exact (List.getElem?_set_ne hm).trans h.held

theorem perform (h : Stuck t n s) (w : Surroundings) (operation : TableOperation) :
    Stuck (t.perform w operation).state n s := by
  cases operation with
  | stat path => exact h
  | list path => exact h
  | read path offset size =>
    simp only [MountTable.perform, MountTable.read, Outcome.mapAnswer]
    split
    · exact h
    · exact h.act w _ (refuses_read _ offset size)
  | write path data =>
    simp only [MountTable.perform, MountTable.write, Outcome.mapAnswer]
    split
    · exact h
    · exact h.act w _ (refuses_write _ data)
  | configure point document =>
    simp only [MountTable.perform]
    split
    · exact h
    · exact h.act w _ (refuses_configure document)
  | mount path slot =>
    simp only [MountTable.perform]
    split
    · exact h
    · rename_i mounted hmounted
      obtain ⟨point, -, rfl⟩ := mount_ok hmounted
      refine ⟨?_, h.poisoned⟩
      rw [List.getElem?_append_left]
      · exact h.held
      · exact (List.getElem?_eq_some_iff.1 h.held).1
  | unmount path =>
    simp only [MountTable.perform, MountTable.unmount, Outcome.mapAnswer]
    split
    · exact h
    · rename_i m _
      have herased : Stuck { t with mounts := t.mounts.erase m } n s := ⟨h.held, h.poisoned⟩
      exact herased.act w m refuses_shutdown

theorem run (h : Stuck t n s) (operations : List (Surroundings × TableOperation)) :
    Stuck (t.run operations) n s := by
  induction operations generalizing t with
  | nil => exact h
  | cons o operations ih => exact ih (h.perform o.1 o.2)

theorem view_eq {α : Type} (h : Stuck t n s) (w : Surroundings) {m : Mount} (hm : m.slot = n)
    (look : Services → BuiltIn → Except Error α) :
    t.view w m (fun services e => e.view (look services)) = .error .poisoned := by
  simp only [MountTable.view, slot?, hm, h.held, Locked.view_poisoned h.poisoned]

theorem refused (h : Stuck t n s) (w : Surroundings) {operation : TableOperation}
    (hn : t.target? operation = some n) :
    (t.perform w operation).answer = .error .poisoned := by
  cases operation with
  | mount path slot => cases hn
  | stat path =>
    simp only [target?] at hn
    obtain ⟨hroot, m, inner, hr, hm⟩ := resolve_of_listed hn
    have hview := h.view_eq w hm fun services e => Endpoint.stat services e inner
    simp only [MountTable.perform, MountTable.stat, hroot, hr, Locked.stat, hview, bind,
      Except.bind, Except.map, Bool.false_eq_true, ↓reduceIte]
  | list path =>
    simp only [target?] at hn
    obtain ⟨hroot, m, inner, hr, hm⟩ := resolve_of_listed hn
    have hview := h.view_eq w hm fun services e => Endpoint.list services e inner
    simp only [MountTable.perform, MountTable.list, hroot, hr, Locked.list, hview, bind,
      Except.bind, Except.map, Bool.false_eq_true, ↓reduceIte]
  | read path offset size =>
    simp only [target?] at hn
    obtain ⟨m, inner, hr, hm⟩ := resolve_of_routed hn
    simp only [MountTable.perform, MountTable.read, Outcome.mapAnswer, hr,
      h.act_eq w hm (refuses_read inner offset size), Except.map]
  | write path data =>
    simp only [target?] at hn
    obtain ⟨m, inner, hr, hm⟩ := resolve_of_routed hn
    simp only [MountTable.perform, MountTable.write, Outcome.mapAnswer, hr,
      h.act_eq w hm (refuses_write inner data), Except.map]
  | configure point document =>
    obtain ⟨m, hm, hslot⟩ := Option.map_eq_some_iff.1 hn
    simp only [MountTable.perform, Outcome.mapAnswer, hm,
      h.act_eq w hslot (refuses_configure document), Except.map]
  | unmount path =>
    obtain ⟨m, hm, hslot⟩ := Option.map_eq_some_iff.1 hn
    have herased : Stuck { t with mounts := t.mounts.erase m } n s := ⟨h.held, h.poisoned⟩
    simp only [MountTable.perform, MountTable.unmount, Outcome.mapAnswer, hm,
      herased.act_eq w hslot refuses_shutdown, Except.map]

end Stuck

/-- A read that crashes leaves its own slot poisoned and the rest of the table as it was. -/
theorem read_crashed {t : MountTable} {w : Surroundings} {path : String} {offset size : Int}
    {n : Nat} (hn : t.routed? path = some n)
    (h : (t.read w path offset size).answer = .error .crashed) :
    AgreeApart n t (t.read w path offset size).state ∧
      ∃ s, Stuck (t.read w path offset size).state n s := by
  obtain ⟨m, inner, hr, hm⟩ := resolve_of_routed hn
  simp only [read, hr] at h ⊢
  simp only [act, slot?, hm] at h ⊢
  cases hs : t.slots[n]? with
  | none =>
    rw [hs] at h
    cases h
  | some s =>
    rw [hs] at h
    have hlt : n < t.slots.length := (List.getElem?_eq_some_iff.1 hs).1
    constructor
    · refine ⟨rfl, List.length_set, fun i hi => ?_⟩
      exact List.getElem?_set_ne fun he => hi he.symm
    · refine ⟨{ s with endpoint := _ }, List.getElem?_set_self hlt, ?_⟩
      exact (Locked.poisoned_of_crashed h).2

end MountTable

/-- What a run that gives no text leaves of a skill endpoint whose result is being read. -/
structure Skill.RunContained (s : Services) (k : Skill) (offset size : Int) (i : Invocation) :
    Prop where
  failed : ∀ message, (s.run i).outcome = .failed message →
    let after := (k.read s "/result" offset size).state
    Unharmed k after ∧ after.state = .failed ∧ after.log.entries = k.log.entries ++
      [runEntry i, { time := (s.run i).endedAt, level := .error, message }]
  crashed : (s.run i).outcome = .crashed →
    let o := k.read s "/result" offset size
    o.answer = .error .crashed ∧ Unharmed k o.state ∧ o.state.state = .running ∧
      o.state.log.entries = k.log.entries ++ [runEntry i]
  /-- The next read runs the skill again, at the same time or later. -/
  retried : (∀ text, (s.run i).outcome ≠ .completed text) → ∀ (later : Services) (now : Instant),
    later.clock = .ok now → i.executedAt.micros ≤ now.micros → ∀ offset' size' : Int,
      ((k.read s "/result" offset size).state.read later "/result" offset' size').effects =
        [.ran { i with executedAt := now }]

/-- After a read that crashes, a lock refuses all operations and the endpoint stays as it is. -/
def Locked.CrashContained {σ : Type} [Endpoint σ] (l : Locked σ) : Prop :=
  ∀ (s : Services) (path : String) (offset size : Int),
    let o := Endpoint.read s l.endpoint path offset size
    let l' := (l.read s path offset size).state
    l.poisoned = false → o.answer = .error .crashed →
      (l.read s path offset size).answer = .error .crashed ∧ l'.endpoint = o.state ∧
        ∀ (before : List (Services × LockedOperation)) (s' : Services)
          (operation : LockedOperation),
            (l'.run before).perform s' operation = { answer := .error .poisoned, state := l' }

/-- After a read that crashes, a table answers as if it had never been made wherever another slot is
reached, and refuses all operations that reach the same one. -/
def MountTable.CrashContained (t : MountTable) : Prop :=
  ∀ (w : Surroundings) (path : String) (offset size : Int) (n : Nat),
    let t' := (t.read w path offset size).state
    t.routed? path = some n → (t.read w path offset size).answer = .error .crashed →
      ∀ (before : List (Surroundings × TableOperation)) (w' : Surroundings)
        (operation : TableOperation) (k : Nat),
          (t.run before).target? operation = some k →
            let o := (t.run before).perform w' operation
            let o' := (t'.run before).perform w' operation
            if k = n then o'.answer = .error .poisoned ∧ o'.state.slots[n]? = t'.slots[n]?
            else o'.answer = o.answer ∧ o'.effects = o.effects

theorem Skill.runContained {s : Services} {k : Skill} {offset size : Int} {i : Invocation}
    (hran : .ran i ∈ (k.read s "/result" offset size).effects) :
    k.RunContained s offset size i where
  failed message hfail := read_failed hran hfail
  crashed hcrash := read_crashed hran hcrash
  retried hnone later now hc hle offset' size' := by
    have hunharmed : Unharmed k (k.read s "/result" offset size).state := by
      cases hrun : (s.run i).outcome with
      | completed text => exact absurd hrun (hnone text)
      | failed message => exact (read_failed hran hrun).1
      | crashed => exact (read_crashed hran hrun).2.1
    exact hunharmed.reruns hran hc hle offset' size'

theorem Locked.crashContained {σ : Type} [Endpoint σ] (l : Locked σ) : l.CrashContained := by
  intro s path offset size o l' hopen hcrash
  obtain ⟨hanswer, hstate, hpoisoned⟩ :=
    act_eq hopen fun e : σ => Endpoint.read s e path offset size
  have hl' : l'.poisoned = true := hpoisoned.2 hcrash
  refine ⟨hanswer.trans hcrash, hstate, fun before s' operation => ?_⟩
  rw [run_poisoned hl']
  exact perform_poisoned hl' s' operation

theorem MountTable.crashContained (t : MountTable) : t.CrashContained := by
  intro w path offset size n t' hn hcrash before w' operation k hk
  obtain ⟨hagree, s, hstuck⟩ := read_crashed hn hcrash
  have hagrees := hagree.run before
  have hstucks := hstuck.run before
  split
  · rename_i hkn
    have htarget : (t'.run before).target? operation = some n := by
      rw [hagrees.target?, hk, hkn]
    refine ⟨hstucks.refused w' htarget, ?_⟩
    rw [(hstucks.perform w' operation).held, hstuck.held]
  · rename_i hkn
    exact hagrees.answers w' hk hkn

/-- A run that fails or crashes harms neither what the skill endpoint has nor any other endpoint. -/
theorem failed_runs_contained :
    (∀ (s : Services) (k : Skill) (offset size : Int) (i : Invocation),
      .ran i ∈ (k.read s "/result" offset size).effects → k.RunContained s offset size i) ∧
    (∀ (σ : Type) [Endpoint σ] (l : Locked σ), l.CrashContained) ∧
    (∀ t : MountTable, t.CrashContained) ∧
    Error.poisoned.message = "Internal error: lock poisoned" := by
  refine ⟨?_, ?_, ?_, rfl⟩
  · intro s k offset size i hran
    exact Skill.runContained hran
  · intro σ _ l
    exact l.crashContained
  · intro t
    exact t.crashContained

/-- A skill that crashes under two mounts, and a search under a third one. -/
theorem crash_spares_other_mount :
    let s := Services.steady ⟨0⟩ (.error .noTransport) .crashed
    let w : Surroundings := { given := s, machine := s }
    let k := (Skill.create ⟨0⟩).move s (.begin "/execute" [120])
    let i := k.invocation ⟨0⟩ [120]
    let l : Locked Skill := { endpoint := k }
    let t : MountTable :=
      { mounts := [⟨"/a", 0⟩, ⟨"/b", 1⟩, ⟨"/c", 0⟩]
        slots := [⟨{ endpoint := .skill k }, .given⟩,
          ⟨{ endpoint := .search Eager.create }, .given⟩] }
    let t' := (t.read w "/a/result" 0 9).state
    (k.read s "/result" 0 9).effects = [.ran i] ∧
      (k.read s "/result" 0 9).state.state = .running ∧
      ((k.read s "/result" 0 9).state.read s "/result" 0 9).effects = [.ran i] ∧
      ((l.read s "/result" 0 9).state.perform s .name).answer = .error .poisoned ∧
      (t'.perform w (.read "/b/response.txt" 0 2)).answer = .ok (.content [78, 111]) ∧
      (t'.perform w (.stat "/c/result")).answer = .error .poisoned := by
  intro s w k i l t t'
  obtain ⟨hrun, hlock, htable, -⟩ := failed_runs_contained
  have hran : Effect.ran i ∈ (k.read s "/result" 0 9).effects := List.mem_singleton.2 rfl
  have hk := hrun s k 0 9 i hran
  have hl := hlock Skill l s "/result" 0 9 rfl rfl
  have hrouted : t.routed? "/a/result" = some 0 := rfl
  have ht := htable t w "/a/result" 0 9 0 hrouted rfl []
  have hsearch : t.target? (.read "/b/response.txt" 0 2) = some 1 := rfl
  have hskill : t.target? (.stat "/c/result") = some 0 := rfl
  refine ⟨rfl, (hk.crashed rfl).2.2.1, ?_, ?_, ?_, ?_⟩
  · exact hk.retried (fun _ => nofun) s ⟨0⟩ rfl (Int.le_refl 0) 0 9
  · exact congrArg Outcome.answer (hl.2.2 [] s .name)
  · exact (ht w _ 1 hsearch).1
  · exact (ht w _ 0 hskill).1

end FileEndpoints

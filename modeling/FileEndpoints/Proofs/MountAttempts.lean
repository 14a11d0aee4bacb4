import FileEndpoints.Proofs.LockedRuns
import FileEndpoints.Proofs.MountTables
import FileEndpoints.Proofs.SettingsTables

namespace FileEndpoints

open MountPath (IsPoint normalize)

namespace MountTable

/-- What comes of looking for a mount point at a path. -/
inductive PointSought (t : MountTable) (path : String) : Except Error String → Prop
  | misshapen (h : ¬ IsPoint (normalize path)) :
      PointSought t path (.error (.noSuchPath (normalize path)))
  | taken (h : IsPoint (normalize path)) (m : Mount) (hm : m ∈ t.mounts)
      (hpath : m.path = normalize path) : PointSought t path (.error (.mountInUse (normalize path)))
  | free (h : IsPoint (normalize path)) (hfree : ∀ m ∈ t.mounts, m.path ≠ normalize path) :
      PointSought t path (.ok (normalize path))

inductive MountTried (t : MountTable) (path : String) (slot : Slot) :
    Except Error MountTable → Prop
  | refused {err : Error} (h : PointSought t path (.error err)) :
      MountTried t path slot (.error err)
  | poisoned {point : String} (h : PointSought t path (.ok point))
      (hslot : slot.endpoint.poisoned = true) : MountTried t path slot (.error .poisoned)
  | added {point : String} (h : PointSought t path (.ok point))
      (hslot : slot.endpoint.poisoned = false) :
      MountTried t path slot
        (.ok { mounts := t.mounts ++ [{ path := point, slot := t.slots.length }]
               slots := t.slots ++ [slot] })

/-- What comes of making and mounting an endpoint. A skill cannot be made while no time can be
told. -/
inductive MakeTried (w : Surroundings) (t : MountTable) (spec : MountSpec) :
    Except Error MountTable → Prop
  | unknown {err : Error} (h : Plugin.ofName spec.plugin = .error err) :
      MakeTried w t spec (.error err)
  | timeless {err : Error} (h : Plugin.ofName spec.plugin = .ok .skill)
      (hclock : w.machine.clock = .error err) : MakeTried w t spec (.error err)
  | malformed {plugin : Plugin} {e : BuiltIn} (h : Plugin.ofName spec.plugin = .ok plugin)
      (he : BuiltIn.create w.machine.clock plugin = .ok e) (hdocument : Malformed spec.document) :
      MakeTried w t spec (.error .malformedSettings)
  | configured {plugin : Plugin} {e : BuiltIn} {r : Except Error MountTable}
      (h : Plugin.ofName spec.plugin = .ok plugin)
      (he : BuiltIn.create w.machine.clock plugin = .ok e) (hdocument : ¬ Malformed spec.document)
      (hr : MountTried t spec.path
        { endpoint := { endpoint := (Endpoint.configure w.machine e spec.document).state }
          origin := .made } r) : MakeTried w t spec r

theorem freePoint_sought (t : MountTable) (path : String) :
    PointSought t path (t.freePoint path) := by
  have hpoint := MountPath.isMountPoint_iff path
  simp only [freePoint]
  split
  case isTrue h =>
    apply PointSought.misshapen
    rw [← hpoint]
    simpa using h
  case isFalse h =>
    have hshape : IsPoint (normalize path) := by
      rw [← hpoint]
      simpa using h
    split
    case isTrue htaken =>
      obtain ⟨m, hm, hpath⟩ := List.any_eq_true.1 htaken
      exact .taken hshape m hm (beq_iff_eq.1 hpath)
    case isFalse hfree =>
      apply PointSought.free hshape
      intro m hm hpath
      apply hfree
      rw [List.any_eq_true]
      exact ⟨m, hm, beq_iff_eq.2 hpath⟩

theorem mount_tried (t : MountTable) (path : String) (slot : Slot) :
    MountTried t path slot (t.mount path slot) := by
  have hsought := freePoint_sought t path
  simp only [mount]
  cases hpoint : t.freePoint path with
  | error err =>
    rw [hpoint] at hsought
    exact .refused hsought
  | ok point =>
    rw [hpoint] at hsought
    cases hslot : slot.endpoint.poisoned with
    | true =>
      have hname : slot.endpoint.name = .error .poisoned := Locked.view_poisoned hslot _
      rw [hname]
      exact .poisoned hsought hslot
    | false =>
      have hname : slot.endpoint.name = .ok (Endpoint.name slot.endpoint.endpoint) := by
        simp only [Locked.name, Locked.view, hslot, Bool.false_eq_true, ↓reduceIte]
      rw [hname]
      exact .added hsought hslot

end MountTable

namespace BuiltIn

theorem configure_malformed {document : Option String} (h : Malformed document) (s : Services)
    (e : BuiltIn) :
    Endpoint.configure s e document = { answer := .error .malformedSettings, state := e } := by
  have hparse : Patch.parse document = .error .malformedSettings := by
    have hparsed := Patch.parse_parsed document
    cases hp : Patch.parse document with
    | error err =>
      rw [hp] at hparsed
      cases hparsed
      rfl
    | ok p =>
      rw [hp] at hparsed
      cases hparsed with
      | blank hm => exact absurd h hm
      | holds hm => exact absurd h hm
  cases e with
  | search e => exact congrArg (Outcome.mapState search) (Eager.configure_refused hparse)
  | summary e => exact congrArg (Outcome.mapState summary) (Eager.configure_refused hparse)
  | skill k => exact congrArg (Outcome.mapState skill) (Skill.configure_refused hparse s k)

theorem configure_wellFormed {document : Option String} (h : ¬ Malformed document) {s : Services}
    {plugin : Plugin} {e : BuiltIn} (he : create s.clock plugin = .ok e) :
    (Endpoint.configure s e document).answer = .ok () := by
  obtain ⟨p, hparse⟩ : ∃ p, Patch.parse document = .ok p := by
    have hparsed := Patch.parse_parsed document
    cases hp : Patch.parse document with
    | error err =>
      rw [hp] at hparsed
      cases hparsed with
      | malformed hm => exact absurd hm h
    | ok p => exact ⟨p, rfl⟩
  cases plugin with
  | search =>
    obtain rfl := Except.ok.inj he
    exact congrArg Outcome.answer (Eager.configure_merged hparse)
  | summary =>
    obtain rfl := Except.ok.inj he
    exact congrArg Outcome.answer (Eager.configure_merged hparse)
  | skill =>
    cases hc : s.clock with
    | error err =>
      rw [hc] at he
      cases he
    | ok now =>
      rw [hc] at he
      obtain rfl := Except.ok.inj he
      exact Skill.configure_answer hparse hc _

/-- A lock makes no difference to the configuration of a fresh endpoint, which does not crash. -/
theorem configure_around {s : Services} {plugin : Plugin} {e : BuiltIn}
    (he : create s.clock plugin = .ok e) (document : Option String) :
    (Locked.around e).configure s document =
      (Endpoint.configure s e document).mapState .around := by
  apply Locked.act_around
  intro hcrash
  by_cases hdocument : Malformed document
  · rw [configure_malformed hdocument] at hcrash
    cases hcrash
  · rw [configure_wellFormed hdocument he] at hcrash
    cases hcrash

theorem name_create {clock : Time.Reading} {plugin : Plugin} {e : BuiltIn}
    (he : create clock plugin = .ok e) : Endpoint.name e = plugin.name := by
  cases plugin with
  | search =>
    obtain rfl := Except.ok.inj he
    rfl
  | summary =>
    obtain rfl := Except.ok.inj he
    rfl
  | skill =>
    cases clock with
    | error err => cases he
    | ok now =>
      obtain rfl := Except.ok.inj he
      rfl

theorem name_configure (s : Services) (e : BuiltIn) (document : Option String) :
    Endpoint.name (Endpoint.configure s e document).state = Endpoint.name e := by
  cases e <;> rfl

end BuiltIn

namespace MountTable

/-- The settings are merged before the mount point is looked for. -/
theorem mountSpec_eq {w : Surroundings} {spec : MountSpec} {plugin : Plugin} {e : BuiltIn}
    (hplugin : Plugin.ofName spec.plugin = .ok plugin)
    (he : BuiltIn.create w.machine.clock plugin = .ok e) (t : MountTable) :
    t.mountSpec w spec =
      let configured := (Locked.around e).configure w.machine spec.document
      configured.answer >>= fun _ =>
        t.mount spec.path { endpoint := configured.state, origin := .made } := by
  have hvalid : (Locked.around e).validate spec.document = .ok () := by cases e <;> rfl
  simp only [mountSpec, hplugin, he, bind, Except.bind]
  simp only [Locked.around] at hvalid
  rw [hvalid]
  rfl

theorem mountSpec_tried (w : Surroundings) (t : MountTable) (spec : MountSpec) :
    MakeTried w t spec (t.mountSpec w spec) := by
  cases hplugin : Plugin.ofName spec.plugin with
  | error err =>
    simp only [mountSpec, hplugin]
    exact .unknown hplugin
  | ok plugin =>
    cases he : BuiltIn.create w.machine.clock plugin with
    | error err =>
      simp only [mountSpec, hplugin]
      cases plugin with
      | search => cases he
      | summary => cases he
      | skill =>
        cases hclock : w.machine.clock with
        | error err' =>
          rw [hclock] at he
          obtain rfl := Except.error.inj he
          exact .timeless hplugin hclock
        | ok now =>
          rw [hclock] at he
          cases he
    | ok e =>
      rw [mountSpec_eq hplugin he, BuiltIn.configure_around he]
      by_cases hdocument : Malformed spec.document
      · rw [BuiltIn.configure_malformed hdocument w.machine e]
        exact .malformed hplugin he hdocument
      · apply MakeTried.configured hplugin he hdocument
        simp only [Outcome.mapState, BuiltIn.configure_wellFormed hdocument he, bind, Except.bind]
        exact mount_tried t spec.path { endpoint := .around _, origin := .made }

end MountTable

end FileEndpoints

import FileEndpoints.Proofs.Session
import FileEndpoints.Proofs.TreePaths
import FileEndpoints.Skill.Endpoint

namespace FileEndpoints

open Time (Instant)

structure Services.Calm (s : Services) : Prop where
  clock : ∃ now, s.clock = .ok now
  runs : ∀ i, (s.run i).outcome ≠ .crashed

namespace Skill

/-- What a write does while the clock of the endpoint shows the given time. -/
inductive Written (k : Skill) (now : Instant) (path : String) (data : Bytes) : Skill → Prop
  | refused : Written k now path data k
  | metadata (hp : path = "/metadata") :
      Written k now path data ({ k with metadata := data }.note now .info "Updated metadata")
  | instructions (hp : path = "/instructions") :
      Written k now path data
        ({ k with instructions := data }.note now .info "Updated instructions")
  | queued (hp : path = "/execute") (hd : isBlankPayload data = false) :
      Written k now path data (({ k with cache := k.cache.submit data }.enter .pending false).note
        now .info "Received new execution payload")

theorem beginWrite_written {s : Services} {now : Instant} (hc : s.clock = .ok now) (k : Skill)
    (path : String) (data : Bytes) : Written k now path data (k.beginWrite s path data).state := by
  simp only [beginWrite]
  cases hf : tree.writable path with
  | error err => exact .refused
  | ok f =>
    obtain ⟨hpath, hw⟩ := Tree.path_of_writable hf
    cases f with
    | metadata =>
      simp only [hc, Outcome.timed]
      exact .metadata hpath
    | instructions =>
      simp only [hc, Outcome.timed]
      exact .instructions hpath
    | execute =>
      simp only [queue, hc, Outcome.timed]
      cases hd : isBlankPayload data with
      | true => exact .refused
      | false => exact .queued hpath hd
    | result => cases hw
    | status => cases hw
    | log => cases hw

theorem beginWrite_call (s : Services) (k : Skill) (path : String) (data : Bytes) :
    (k.beginWrite s path data).call? = none := by
  simp only [beginWrite]
  cases tree.writable path with
  | error err => rfl
  | ok f =>
    cases f with
    | metadata => simp only [Outcome.timed]; cases s.clock <;> rfl
    | instructions => simp only [Outcome.timed]; cases s.clock <;> rfl
    | _ =>
      simp only [queue, Outcome.timed]
      cases isBlankPayload data with
      | true => rfl
      | false => cases s.clock <;> rfl

theorem write_eq (s : Services) (k : Skill) (path : String) (data : Bytes) :
    Endpoint.write s k path data = (k.beginWrite s path data).mapAnswer fun _ => () := by
  have hcall := k.beginWrite_call s path data
  simp only [Outcome.call?] at hcall
  simp only [Endpoint.write, Endpoint.beginWrite, Outcome.mapAnswer]
  cases ha : (k.beginWrite s path data).answer with
  | error err => rfl
  | ok step =>
    cases step with
    | done => rfl
    | remote call =>
      rw [ha] at hcall
      cases hcall

theorem write_state (s : Services) (k : Skill) (path : String) (data : Bytes) :
    (Endpoint.write s k path data).state = (k.beginWrite s path data).state :=
  congrArg Outcome.state (write_eq s k path data)

def move (s : Services) (k : Skill) : Move → Skill
  | .use (.configure document) => (k.configure s document).state
  | .use .shutdown => (k.shutdown s).state
  | .use (.read path offset size) => (k.read s path offset size).state
  | .use (.write path data) | .begin path data => (k.beginWrite s path data).state
  | .use (.stat _) | .use (.list _) | .finish .. => k

end Skill

theorem Session.skill_step (w : Session Skill) (s : Services) (m : Move) :
    (w.step s m).endpoint = w.endpoint.move s m := by
  cases m with
  | use operation =>
    cases operation with
    | write path data => exact w.endpoint.write_state s path data
    | configure document => rfl
    | shutdown => rfl
    | stat path => rfl
    | list path => rfl
    | read path offset size => rfl
  | begin path data => rfl
  | finish number reply =>
    simp only [step]
    split <;> rfl

end FileEndpoints

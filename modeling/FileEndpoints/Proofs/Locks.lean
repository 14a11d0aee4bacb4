import FileEndpoints.Endpoint.Locked
import FileEndpoints.Proofs.Session

namespace FileEndpoints

/-- What can be asked of a shared endpoint. All clones of a handle share the lock, so it does not
matter which of them is asked. The two halves of a write hold the lock separately. -/
inductive LockedOperation where
  | name
  | readme
  | validate (document : Option String)
  | use (operation : Operation)
  | begin (path : String) (data : Bytes)
  | finish (call : PendingCall) (reply : Reply)
  | changeStructure (change : StructureChange) (path : String)

inductive LockedAnswer where
  | done
  | text (s : String)
  | step (s : WriteStep)
  | plain (a : Answer)

namespace Locked

variable {σ α : Type} {l : Locked σ}

theorem act_eq (h : l.poisoned = false) (operate : σ → Outcome σ α) :
    (l.act operate).answer = (operate l.endpoint).answer ∧
      (l.act operate).state.endpoint = (operate l.endpoint).state ∧
      ((l.act operate).state.poisoned = true ↔
        (operate l.endpoint).answer = .error .crashed) := by
  simp only [Locked.act, h, Bool.false_eq_true, ↓reduceIte]
  split
  · rename_i ha
    exact ⟨rfl, rfl, iff_of_true rfl ha⟩
  · rename_i ha
    exact ⟨rfl, rfl, iff_of_false Bool.false_ne_true ha⟩

theorem act_poisoned (h : l.poisoned = true) (operate : σ → Outcome σ α) :
    l.act operate = { answer := .error .poisoned, state := l } := by
  simp only [act, h, ↓reduceIte]

theorem view_poisoned (h : l.poisoned = true) (look : σ → Except Error α) :
    l.view look = .error .poisoned := by
  simp only [view, h, ↓reduceIte]

/-- Only the operation that crashes is told of the crash. -/
theorem poisoned_of_crashed {operate : σ → Outcome σ α}
    (h : (l.act operate).answer = .error .crashed) :
    l.poisoned = false ∧ (l.act operate).state.poisoned = true := by
  cases hp : l.poisoned with
  | true =>
    rw [act_poisoned hp] at h
    cases h
  | false =>
    obtain ⟨hanswer, -, hpoisoned⟩ := act_eq hp operate
    exact ⟨rfl, hpoisoned.2 (hanswer.symm.trans h)⟩

variable [Endpoint σ]

/-- An operation on the endpoint that holds the lock for as long as it lasts, writes apart. -/
def perform (s : Services) (l : Locked σ) : LockedOperation → Outcome (Locked σ) LockedAnswer
  | .name => { answer := l.name.map .text, state := l }
  | .readme => { answer := l.readme.map .text, state := l }
  | .validate document => { answer := (l.validate document).map fun _ => .done, state := l }
  | .use (.configure document) => (l.configure s document).mapAnswer fun _ => .done
  | .use .shutdown => (l.shutdown s).mapAnswer fun _ => .done
  | .use (.stat path) => { answer := (l.stat s path).map fun i => .plain (.record i), state := l }
  | .use (.list path) =>
    { answer := (l.list s path).map fun i => .plain (.records i), state := l }
  | .use (.read path offset size) =>
    (l.read s path offset size).mapAnswer fun data => .plain (.content data)
  | .use (.write path data) => (l.write s path data).mapAnswer fun _ => .done
  | .begin path data => (l.beginWrite s path data).mapAnswer .step
  | .finish call reply => (l.finishWrite s call reply).mapAnswer fun _ => .done
  | .changeStructure change path =>
    { answer := (l.changeStructure change path).map fun _ => .done, state := l }

def run (l : Locked σ) (operations : List (Services × LockedOperation)) : Locked σ :=
  operations.foldl (fun l o => (l.perform o.1 o.2).state) l

theorem write_poisoned (h : l.poisoned = true) (s : Services) (path : String) (data : Bytes) :
    l.write s path data = { answer := .error .poisoned, state := l } := by
  simp only [write, beginWrite, act_poisoned h]

theorem perform_poisoned (h : l.poisoned = true) (s : Services) (operation : LockedOperation) :
    l.perform s operation = { answer := .error .poisoned, state := l } := by
  cases operation with
  | name => simp only [perform, name, view_poisoned h, Except.map]
  | readme => simp only [perform, readme, view_poisoned h, Except.map]
  | validate document => simp only [perform, validate, view_poisoned h, Except.map]
  | begin path data =>
    simp only [perform, beginWrite, act_poisoned h, Outcome.mapAnswer, Except.map]
  | finish call reply =>
    simp only [perform, finishWrite, act_poisoned h, Outcome.mapAnswer, Except.map]
  | changeStructure change path =>
    simp only [perform, changeStructure, view_poisoned h, Except.map]
  | use operation =>
    cases operation with
    | configure document =>
      simp only [perform, configure, act_poisoned h, Outcome.mapAnswer, Except.map]
    | shutdown => simp only [perform, shutdown, act_poisoned h, Outcome.mapAnswer, Except.map]
    | stat path => simp only [perform, stat, view_poisoned h, Except.map]
    | list path => simp only [perform, list, view_poisoned h, Except.map]
    | read path offset size =>
      simp only [perform, read, act_poisoned h, Outcome.mapAnswer, Except.map]
    | write path data =>
      simp only [perform, write_poisoned h, Outcome.mapAnswer, Except.map]

theorem run_poisoned (h : l.poisoned = true) (operations : List (Services × LockedOperation)) :
    l.run operations = l := by
  induction operations with
  | nil => rfl
  | cons o operations ih =>
    change (l.perform o.1 o.2).state.run operations = l
    rw [perform_poisoned h]
    exact ih

end Locked

end FileEndpoints

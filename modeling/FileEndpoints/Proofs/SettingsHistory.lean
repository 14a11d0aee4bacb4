import FileEndpoints.Proofs.EagerSteps
import FileEndpoints.Proofs.SettingsDocuments

namespace FileEndpoints

/-- A setting of an endpoint: where it is held, its first value, the keys it goes by in documents
and what it takes from them. Some settings are also shown as files that can be written. -/
structure Setting (R : Type) where
  {Value : Type}
  view : R → Value
  first : Value
  keys : List String
  Reads : Json → Value → Prop
  Writes : String → Bytes → Value → Prop := fun _ _ _ => False

/-- What is given last, or the first value if nothing is given. -/
inductive Settled {M α : Type} (Gives : M → α → Prop) (first : α) : List M → α → Prop
  | untouched {moves} (h : ∀ m ∈ moves, ∀ b, ¬ Gives m b) : Settled Gives first moves first
  | given (before) {m after a} (hm : Gives m a) (h : ∀ m' ∈ after, ∀ b, ¬ Gives m' b) :
      Settled Gives first (before ++ m :: after) a

theorem Settled.cons_given {M α : Type} {Gives : M → α → Prop} {first a b : α} {m : M}
    {moves : List M} (h : Settled Gives a moves b) (hm : Gives m a) :
    Settled Gives first (m :: moves) b := by
  cases h with
  | untouched h => exact .given [] hm h
  | given before hm' h => exact .given (m :: before) hm' h

theorem Settled.cons_kept {M α : Type} {Gives : M → α → Prop} {first b : α} {m : M}
    {moves : List M} (h : Settled Gives first moves b) (hm : ∀ a, ¬ Gives m a) :
    Settled Gives first (m :: moves) b := by
  cases h with
  | untouched h =>
    apply Settled.untouched
    intro m' hm'
    cases hm' with
    | head => exact hm
    | tail _ htail => exact h m' htail
  | given before hm' h => exact .given (m :: before) hm' h

namespace Setting

variable {R : Type}

def Gives (x : Setting R) : Move → x.Value → Prop
  | .use (.configure document), a =>
    ∃ root, Holds document root ∧ FirstReading x.Reads root x.keys a
  | .use (.write path data), a | .begin path data, a => x.Writes path data a
  | _, _ => False

/-- A move gives a setting its value, or leaves it and gives it none. -/
def Follows (x : Setting R) (m : Move) (r r' : R) : Prop :=
  x.Gives m (x.view r') ∨ x.view r' = x.view r ∧ ∀ a, ¬ x.Gives m a

theorem Follows.kept {x : Setting R} {m : Move} {r r' : R} (h : x.Follows m r r')
    (hm : ∀ a, ¬ x.Gives m a) : x.view r' = x.view r := by
  rcases h with h | ⟨h, -⟩
  · exact absurd h (hm _)
  · exact h

/-- A merge takes over what a document gives to a setting, and nothing else. -/
def Merged (x : Setting R) (p : Patch) (r r' : R) : Prop :=
  ∃ (β : Type) (read : Json → Option β) (f : β → x.Value),
    (∀ v a, x.Reads v a ↔ (read v).map f = some a) ∧
      x.view r' = ((p.first? read x.keys).map f).getD (x.view r)

theorem follows_merged {x : Setting R} {document : Option String} {p : Patch} {r r' : R}
    (hp : Patch.parse document = .ok p) (h : x.Merged p r r') :
    x.Follows (.use (.configure document)) r r' := by
  obtain ⟨β, read, f, hread, hview⟩ := h
  have hgives := Patch.first?_iff hp hread x.keys
  cases hfirst : (p.first? read x.keys).map f with
  | none =>
    rw [hfirst] at hview
    refine .inr ⟨hview, fun a ha => ?_⟩
    have hsome := (hgives a).2 ha
    rw [hfirst] at hsome
    cases hsome
  | some b =>
    rw [hfirst] at hview
    refine .inl ((hgives _).1 ?_)
    rw [hfirst, hview]
    rfl

theorem follows_refused {document : Option String} {err : Error}
    (hp : Patch.parse document = .error err) (x : Setting R) (r : R) :
    x.Follows (.use (.configure document)) r r := by
  refine .inr ⟨rfl, ?_⟩
  rintro a ⟨root, hroot, -⟩
  have hparsed := Patch.parse_parsed document
  rw [hp] at hparsed
  cases hparsed with
  | malformed h =>
    obtain ⟨text, rfl, -, hnone⟩ := h
    obtain ⟨text', htext, -, hsome⟩ := hroot
    rw [← Option.some.inj htext, hnone] at hsome
    cases hsome

/-- A setting that follows each move is settled by all of them. -/
theorem settled_run {σ : Type} [Endpoint σ] {held : σ → R} {x : Setting R}
    (hstep : ∀ (w : Session σ) (s : Services) (m : Move),
      x.Follows m (held w.endpoint) (held (w.step s m).endpoint))
    (w : Session σ) (moves : List (Services × Move)) :
    Settled x.Gives (x.view (held w.endpoint)) (moves.map Prod.snd)
      (x.view (held (w.run moves).endpoint)) := by
  -- Moves are taken from the front, so the value that is settled from is that after the first one.
  induction moves generalizing w with
  | nil => exact .untouched fun _ hm => nomatch hm
  | cons m moves ih =>
    have htail := ih (w.step m.1 m.2)
    rcases hstep w m.1 m.2 with hgiven | ⟨hkept, hnone⟩
    · exact htail.cons_given hgiven
    · rw [hkept] at htail
      exact htail.cons_kept hnone

variable {p : Patch} {r r' : R}

theorem merged_text {x : Setting R} {f : String → x.Value} (hreads : x.Reads = IsText f)
    (hview : x.view r' = ((p.firstString? x.keys).map f).getD (x.view r)) : x.Merged p r r' :=
  ⟨String, Json.asString?, f, hreads ▸ isText_iff f, hview⟩

theorem merged_whole {x : Setting R} {key : String} {f : Int → x.Value} (hkeys : x.keys = [key])
    (hreads : x.Reads = IsWhole f)
    (hview : x.view r' = ((p.int? key).map f).getD (x.view r)) : x.Merged p r r' := by
  refine ⟨Int, Json.asInt?, f, hreads ▸ isWhole_iff f, ?_⟩
  rw [hview, hkeys, Patch.first?_singleton]
  rfl

theorem merged_fixed {x : Setting R} (hkeys : x.keys = []) (hreads : x.Reads = fun _ _ => False)
    (hview : x.view r' = x.view r) : x.Merged p r r' := by
  refine ⟨Unit, fun _ => none, fun _ => x.first, ?_, ?_⟩
  · intro v a
    rw [hreads]
    exact iff_of_false id nofun
  · rw [hview, hkeys]
    rfl

end Setting

def Move.configures : Move → Bool
  | .use (.configure _) => true
  | _ => false

/-- What a move does to the settings of an eager endpoint: only a document changes them. -/
inductive SettingsStep {S : Type} [RemoteService S] (r : S) : Move → S → Prop
  | merged {document p} (hp : Patch.parse document = .ok p) :
      SettingsStep r (.use (.configure document)) (RemoteService.merge r p)
  | refused {document err} (hp : Patch.parse document = .error err) :
      SettingsStep r (.use (.configure document)) r
  | other {m} (hm : m.configures = false) : SettingsStep r m r

section

variable {S : Type} [RemoteService S]

theorem Session.settingsStep (w : Session (Eager S)) (s : Services) (m : Move) :
    SettingsStep w.endpoint.settings m (w.step s m).endpoint.settings := by
  have hother {m : Move} {r r' : S} (hr : r' = r) (hm : m.configures = false) :
      SettingsStep r m r' := by
    rw [hr]
    exact .other hm
  cases m with
  | begin path data => exact hother (w.endpoint.beginWrite_settings s path data) rfl
  | finish number reply =>
    simp only [step]
    split
    · exact hother rfl rfl
    · exact hother (w.endpoint.finishWrite_settings s _ reply) rfl
  | use operation =>
    cases operation with
    | configure document =>
      change SettingsStep _ _ (w.endpoint.configure document).state.settings
      cases hp : Patch.parse document with
      | error err =>
        rw [Eager.configure_refused hp]
        exact .refused hp
      | ok p =>
        rw [Eager.configure_merged hp]
        exact .merged hp
    | write path data => exact hother (w.endpoint.write_settings s path data) rfl
    | shutdown => exact hother rfl rfl
    | stat path => exact hother rfl rfl
    | list path => exact hother rfl rfl
    | read path offset size => exact hother rfl rfl

theorem Setting.not_gives {R : Type} {x : Setting R} (hwrites : x.Writes = fun _ _ _ => False)
    {m : Move} (hm : m.configures = false) (a : x.Value) : ¬ x.Gives m a := by
  have hnowrite (path : String) (data : Bytes) : ¬ x.Writes path data a := by
    rw [hwrites]
    exact id
  cases m with
  | begin path data => exact hnowrite path data
  | finish number reply => exact id
  | use operation =>
    cases operation with
    | configure document => cases hm
    | write path data => exact hnowrite path data
    | shutdown => exact id
    | stat path => exact id
    | list path => exact id
    | read path offset size => exact id

theorem SettingsStep.follows {x : Setting S} {m : Move} {r r' : S} (h : SettingsStep r m r')
    (hmerged : ∀ p : Patch, x.Merged p r (RemoteService.merge r p))
    (hwrites : x.Writes = fun _ _ _ => False) : x.Follows m r r' := by
  cases h with
  | merged hp => exact Setting.follows_merged hp (hmerged _)
  | refused hp => exact Setting.follows_refused hp x r
  | other hm => exact .inr ⟨rfl, Setting.not_gives hwrites hm⟩

theorem SettingsStep.preserves {P : S → Prop} {m : Move} {r r' : S} (h : SettingsStep r m r')
    (hmerge : ∀ (r : S) (p : Patch), P r → P (RemoteService.merge r p)) (hr : P r) : P r' := by
  cases h with
  | merged hp => exact hmerge r _ hr
  | refused hp => exact hr
  | other hm => exact hr

theorem Session.settings_preserved {P : S → Prop} (hfirst : P RemoteService.initial)
    (hmerge : ∀ (r : S) (p : Patch), P r → P (RemoteService.merge r p))
    (moves : List (Services × Move)) : P ((start Eager.create).run moves).endpoint.settings := by
  apply run_preserves (P := fun e : Eager S => P e.settings) (w := start Eager.create) hfirst
  intro v m _ h
  exact (v.settingsStep m.1 m.2).preserves hmerge h

end

end FileEndpoints

import FileEndpoints.Proofs.PathAnswers
import FileEndpoints.Proofs.Shutdowns

namespace FileEndpoints

theorem Error.ne_crashed_of_isOrdinary {err : Error} (h : err.isOrdinary = true) :
    err ≠ .crashed := by
  rintro rfl
  cases h

/-- An endpoint in surroundings in which it does not crash, whatever is asked of it. -/
structure Firm {σ : Type} [Endpoint σ] (s : Services) (e : σ) : Prop where
  stat : ∀ path, Endpoint.stat s e path ≠ .error .crashed
  list : ∀ path, Endpoint.list s e path ≠ .error .crashed
  read : ∀ path offset size, (Endpoint.read s e path offset size).answer ≠ .error .crashed
  write : ∀ path data, (Endpoint.write s e path data).answer ≠ .error .crashed

section

variable {σ φ : Type} [Endpoint σ] [TreeFile φ] {t : Tree φ} {e : σ} {s : Services}

theorem Tree.readable_calm {path : String} {err : Error} (h : t.readable path = .error err) :
    err ≠ .crashed := by
  rintro rfl
  simp only [readable] at h
  split at h
  · cases h
  · split at h <;> cases h

theorem Tree.writable_calm {path : String} {err : Error} (h : t.writable path = .error err) :
    err ≠ .crashed := by
  rintro rfl
  simp only [writable] at h
  split at h
  · cases h
  · split at h <;> cases h

/-- Only a write to a file that can be written is up to the endpoint. -/
theorem Shows.firm (h : Shows t e) (ht : t.Proper) (hs : s.Orderly)
    (hwrite : ∀ {path f}, t.writable path = .ok f → ∀ {data err},
      (Endpoint.write s e path data).answer = .error err → err.isOrdinary = true) : Firm s e := by
  have hanswers := h.pathAnswers ht
  constructor
  case stat =>
    intro path
    obtain ⟨info, hinfo, -⟩ := hanswers.stat s hs path
    rw [hinfo]
    nofun
  case list =>
    intro path
    by_cases hroot : path = "/"
    · obtain ⟨now, hnow⟩ := hs.now
      obtain ⟨infos, hinfos, -⟩ := hanswers.listed s now hnow
      rw [hroot, hinfos]
      nofun
    · rw [hanswers.unlisted s path hroot]
      nofun
  case read =>
    intro path offset size
    cases hcheck : t.readable path with
    | ok f =>
      obtain ⟨data, hdata⟩ := h.readable hcheck s hs offset size
      rw [hdata]
      nofun
    | error err =>
      rw [h.unreadable hcheck]
      exact fun hcrash => Tree.readable_calm hcheck (Except.error.inj hcrash)
  case write =>
    intro path data
    cases hcheck : t.writable path with
    | ok f =>
      intro hcrash
      exact Error.ne_crashed_of_isOrdinary (hwrite hcheck hcrash) rfl
    | error err =>
      rw [h.unwritable hcheck]
      exact fun hcrash => Tree.writable_calm hcheck (Except.error.inj hcrash)

end

theorem Eager.firm {S : Type} [RemoteService S] {c : CallPlan S} (hc : c.Kept) {s : Services}
    (hs : s.Orderly) (e : Eager S) : Firm s e := by
  apply (e.shows hc).firm e.profile.tree_proper hs
  intro path f hf data err herr
  obtain ⟨rfl, hw⟩ := Tree.path_of_writable hf
  cases f with
  | request => exact write_isOrdinary hc hs e herr
  | responseJson => cases hw
  | responseTxt => cases hw

theorem Skill.firm {s : Services} (hs : s.Orderly) (k : Skill) : Firm s k := by
  apply k.shows.firm tree_proper hs
  intro path f hf data err herr
  rw [write_eq] at herr
  exact k.beginWrite_isOrdinary hs.calm hf (Outcome.answer_of_mapAnswer herr)

theorem BuiltIn.firm {s : Services} (hs : s.Orderly) (b : BuiltIn) : Firm s b := by
  cases b with
  | search e =>
    have h := Eager.firm SearchSettings.plan_kept hs e
    refine ⟨h.stat, h.list, h.read, fun path data => ?_⟩
    rw [Endpoint.write_embedded (f := search) rfl (fun _ => rfl) fun _ _ _ => rfl]
    exact h.write path data
  | summary e =>
    have h := Eager.firm SummarySettings.plan_kept hs e
    refine ⟨h.stat, h.list, h.read, fun path data => ?_⟩
    rw [Endpoint.write_embedded (f := summary) rfl (fun _ => rfl) fun _ _ _ => rfl]
    exact h.write path data
  | skill k =>
    have h := k.firm hs
    refine ⟨h.stat, h.list, h.read, fun path data => ?_⟩
    rw [Endpoint.write_embedded (f := skill) rfl (fun _ => rfl) fun _ _ _ => rfl]
    exact h.write path data

namespace Locked

variable {s : Services} {l : Locked BuiltIn}

theorem view_calm {α : Type} {look : BuiltIn → Except Error α}
    (h : look l.endpoint ≠ .error .crashed) : l.view look ≠ .error .crashed := by
  rw [view]
  split
  · rintro ⟨⟩
  · exact h

theorem firm (hs : s.Orderly) (l : Locked BuiltIn) :
    (∀ path, l.stat s path ≠ .error .crashed) ∧ (∀ path, l.list s path ≠ .error .crashed) ∧
      (∀ path offset size, (l.read s path offset size).answer ≠ .error .crashed) ∧
      ∀ path data, (l.write s path data).answer ≠ .error .crashed := by
  have h := l.endpoint.firm hs
  refine ⟨fun path => view_calm (h.stat path), fun path => view_calm (h.list path),
    fun path offset size => act_calm (h.read path offset size), fun path data => ?_⟩
  obtain ⟨e, poisoned⟩ := l
  cases poisoned with
  | true =>
    have hbegun : Locked.beginWrite s ⟨e, true⟩ path data =
        { answer := .error .poisoned, state := ⟨e, true⟩ } := act_poisoned rfl _
    simp only [write, hbegun]
    rintro ⟨⟩
  | false =>
    have hwrite : Locked.write s ⟨e, false⟩ path data = _ := write_around (h.write path data)
    rw [hwrite]
    exact h.write path data

end Locked

namespace MountTable

/-- Operations on a path never crash, wherever it leads. -/
structure FirmAt (w : Surroundings) (t : MountTable) (path : String) : Prop where
  stat : t.stat w path ≠ .error .crashed
  list : t.list w path ≠ .error .crashed
  read : ∀ offset size, (t.read w path offset size).answer ≠ .error .crashed
  write : ∀ data, (t.write w path data).answer ≠ .error .crashed

theorem map_calm {α β : Type} {f : α → β} {answer : Except Error α}
    (h : answer ≠ .error .crashed) : answer.map f ≠ .error .crashed := by
  cases answer with
  | ok a => rintro ⟨⟩
  | error err => exact fun hcrash => h (congrArg Except.error (Except.error.inj hcrash))

theorem Own.firmAt {t : MountTable} (h : Own t) {w : Surroundings} (hs : w.machine.Orderly)
    (path : String) : FirmAt w t path := by
  cases hr : t.resolve path with
  | ok route =>
    obtain ⟨slot, htransparent⟩ := h.sound.transparent w hr
    have hown := h.made slot (List.mem_of_getElem? htransparent.held)
    obtain ⟨hstat, hlist, hread, hwrite⟩ := slot.endpoint.firm hs
    constructor
    case stat =>
      obtain ⟨name, -, hthrough⟩ := htransparent.stat
      rw [hthrough, hown]
      exact map_calm (hstat route.2)
    case list =>
      rw [htransparent.list, hown]
      exact hlist route.2
    case read =>
      intro offset size
      rw [(htransparent.read offset size).answer, hown]
      exact hread route.2 offset size
    case write =>
      intro data
      rw [(htransparent.write data).answer, hown]
      exact hwrite route.2 data
  | error err =>
    have hmissed := resolve_error hr
    obtain ⟨now, hnow⟩ := hs.now
    constructor
    case stat =>
      simp only [stat, hr, hnow]
      split <;> rintro ⟨⟩
    case list =>
      cases hroot : isRoot path with
      | true =>
        by_cases hhealthy : t.Healthy
        · obtain ⟨infos, hinfos, -⟩ := h.sound.list_healthy hhealthy hnow hroot
          rw [hinfos]
          rintro ⟨⟩
        · rw [h.sound.list_poisoned hhealthy hnow hroot]
          rintro ⟨⟩
      | false =>
        simp only [list, hroot, hr, hmissed, Bool.false_eq_true, ↓reduceIte]
        rintro ⟨⟩
    case read =>
      intro offset size
      simp only [read, hr, hmissed]
      rintro ⟨⟩
    case write =>
      intro data
      simp only [write, hr, hmissed]
      rintro ⟨⟩

end MountTable

end FileEndpoints

import FileEndpoints.Proofs.AuditTrail
import FileEndpoints.Proofs.EditableFiles
import FileEndpoints.Proofs.PathAnswers
import FileEndpoints.Proofs.SingleSlot

namespace FileEndpoints

open Time (Instant)

/-- A file is shown with a size, by its own record and by the listing of the root. -/
structure SizeShown {σ : Type} [Endpoint σ] (e : σ) (path : String) (n : Nat) : Prop where
  stat : ∀ (s : Services) (now : Instant), s.now = .ok now →
    ∃ info, Endpoint.stat s e path = .ok (some info) ∧ info.size = n
  listed : ∀ (s : Services) (now : Instant), s.now = .ok now →
    ∃ infos, Endpoint.list s e "/" = .ok infos ∧ (∃ info ∈ infos, path = "/" ++ info.name) ∧
      ∀ info ∈ infos, path = "/" ++ info.name → info.size = n

theorem Tree.Proper.sizeShown {σ φ : Type} [Endpoint σ] [TreeFile φ] {t : Tree φ} (ht : t.Proper)
    {size : φ → Nat} {e : σ} (hrecords : ∀ (s : Services) (path : String),
      Endpoint.stat s e path = t.stat s.now size path ∧
        Endpoint.list s e path = t.list s.now size path)
    {path : String} {f : φ} (hf : t.Declares path f) : SizeShown e path (size f) where
  stat s now hnow := by
    refine ⟨.file now t.owner (TreeFile.name f) (size f), ?_, rfl⟩
    rw [(hrecords s path).1, hnow, ht.stat_file hf]
  listed s now hnow := by
    have hlist := t.list_root size now
    rw [← hnow, ← (hrecords s "/").2] at hlist
    refine ⟨_, hlist, ⟨_, List.mem_map_of_mem hf.1, hf.2⟩, ?_⟩
    intro info hinfo hpath
    obtain ⟨g, hg, rfl⟩ := List.mem_map.1 hinfo
    have hsame : some g = some f := (ht.find? ⟨hg, hpath⟩).symm.trans (ht.find? hf)
    rw [Option.some.inj hsame]
    rfl

theorem Tree.declares_of_readable {φ : Type} [TreeFile φ] {t : Tree φ} {path : String} {f : φ}
    (ht : t.Proper) (h : t.readable path = .ok f) : t.Declares path f :=
  ((ht.readable_admits.passed path f).1 h).1

theorem Tree.size_of_stat {φ : Type} [TreeFile φ] {t : Tree φ} {now : Time.Reading} {size : φ → Nat}
    {path : String} {info : FileInfo} (h : t.stat now size path = .ok (some info)) :
    info.size = 0 ∨ ∃ f, info.size = size f := by
  cases now with
  | error err =>
    simp only [stat] at h
    split at h
    · cases h
    · cases hf : t.find? path with
      | none => rw [hf] at h; cases h
      | some f => rw [hf] at h; cases h
  | ok now =>
    simp only [stat] at h
    split at h
    · obtain rfl := Option.some.inj (Except.ok.inj h)
      exact .inl rfl
    · cases hf : t.find? path with
      | none => rw [hf] at h; cases h
      | some f =>
        rw [hf] at h
        obtain rfl := Option.some.inj (Except.ok.inj h)
        exact .inr ⟨f, rfl⟩

theorem Tree.size_of_list {φ : Type} [TreeFile φ] {t : Tree φ} {now : Time.Reading} {size : φ → Nat}
    {path : String} {infos : List FileInfo} (h : t.list now size path = .ok infos)
    {info : FileInfo} (hinfo : info ∈ infos) : ∃ f, info.size = size f := by
  by_cases hroot : path = "/"
  · subst hroot
    cases now with
    | error err =>
      change t.files.mapM (fun _ => (Except.error err : Except Error FileInfo)) = .ok infos at h
      cases hfiles : t.files with
      | nil =>
        rw [hfiles] at h
        obtain rfl := Except.ok.inj h
        cases hinfo
      | cons f later =>
        rw [hfiles, List.mapM_cons] at h
        cases h
    | ok now =>
      rw [t.list_root size now] at h
      obtain rfl := Except.ok.inj h
      obtain ⟨f, -, rfl⟩ := List.mem_map.1 hinfo
      exact ⟨f, rfl⟩
  · simp only [list, isRoot, beq_iff_eq, if_neg hroot] at h
    cases h

namespace EagerProfile

def live? (c : ResponseCache) : EagerFile → Option Bytes
  | .request => none
  | .responseJson => c.raw
  | .responseTxt => c.summary.map Text.encode

def placeholder (p : EagerProfile) : EagerFile → String
  | .responseJson => p.emptyRaw
  | _ => p.emptySummary

variable {p : EagerProfile} {c : ResponseCache}

theorem size_live (hp : p.sizes = .live) (f : EagerFile) :
    p.size c f = ((live? c f).getD []).length := by
  cases f with
  | request => simp only [size, live?, hp, Option.getD_none, List.length_nil]
  | responseJson => simp only [size, live?, hp]
  | responseTxt =>
    simp only [size, live?, hp]
    cases c.summary <;> rfl

theorem size_zero (hp : p.sizes = .zero) (f : EagerFile) : p.size c f = 0 := by
  cases f <;> simp only [size, hp]

theorem read_live {path : String} {f : EagerFile} (hf : p.tree.readable path = .ok f) :
    p.read c path 0 (-1) = .ok ((live? c f).getD (Text.encode (p.placeholder f))) := by
  obtain ⟨-, hreadable⟩ := Tree.path_of_readable hf
  simp only [read, hf, Except.map, EditableFile.readWindow_whole _ (Int.le_refl 0)
    (by decide : (-1 : Int) ≤ 0)]
  cases f with
  | request => cases hreadable
  | responseJson => rfl
  | responseTxt =>
    simp only [content, live?, placeholder]
    cases c.summary <;> rfl

end EagerProfile

/-- How the sizes of the response files fit what is read, after moves on a fresh endpoint. -/
structure ResponseSizes (S : Type) [RemoteService S] (moves : List (Services × Move)) : Prop where
  present : (Session.fresh S).installs moves ≠ [] →
    let e := ((Session.fresh S).run moves).endpoint
    ∀ path f, e.profile.tree.readable path = .ok f → ∃ value, SizeShown e path value.length ∧
      ∀ s, (Endpoint.read s e path 0 (-1)).answer = .ok value
  absent : (Session.fresh S).installs moves = [] →
    let e := ((Session.fresh S).run moves).endpoint
    ∀ path f, e.profile.tree.readable path = .ok f → SizeShown e path 0 ∧
      ∀ s, (Endpoint.read s e path 0 (-1)).answer =
        .ok (Text.encode ((RemoteService.profile S).placeholder f))

namespace Eager

variable {S : Type} [RemoteService S]

theorem sizeShown (e : Eager S) {path : String} {f : EagerFile}
    (hf : e.profile.tree.Declares path f) : SizeShown e path (e.profile.size e.cache f) :=
  Tree.Proper.sizeShown e.profile.tree_proper (fun _ _ => ⟨rfl, rfl⟩) hf

theorem live_iff [SelfContained S] (moves : List (Services × Move)) {f : EagerFile}
    (hf : f ≠ .request) :
    (EagerProfile.live? ((Session.fresh S).run moves).endpoint.cache f).isSome = true ↔
      (Session.fresh S).installs moves ≠ [] := by
  have hshown := singleSlot.shown (S := S) moves
  cases hlast : ((Session.fresh S).installs moves).getLast? with
  | none =>
    rw [hlast] at hshown
    obtain ⟨hraw, hsummary, -⟩ := hshown
    refine iff_of_false ?_ fun hne => hne (List.getLast?_eq_none_iff.1 hlast)
    cases f with
    | request => exact absurd rfl hf
    | responseJson => simp only [EagerProfile.live?, hraw, Option.isSome_none, Bool.false_eq_true,
        not_false_eq_true]
    | responseTxt => simp only [EagerProfile.live?, hsummary, Option.map_none, Option.isSome_none,
        Bool.false_eq_true, not_false_eq_true]
  | some i =>
    rw [hlast] at hshown
    obtain ⟨text, -, hraw, hsummary, -⟩ := hshown
    apply iff_of_true
    · cases f with
      | request => exact absurd rfl hf
      | responseJson => simp only [EagerProfile.live?, hraw, Option.isSome_some]
      | responseTxt => simp only [EagerProfile.live?, hsummary, Option.map_some, Option.isSome_some]
    · intro hnone
      rw [hnone] at hlast
      cases hlast

theorem responseSizes [SelfContained S] (hp : (RemoteService.profile S).sizes = .live)
    (moves : List (Services × Move)) : ResponseSizes S moves := by
  let e := ((Session.fresh S).run moves).endpoint
  have hshown {path : String} {f : EagerFile} (hf : e.profile.tree.readable path = .ok f) :
      f ≠ .request ∧ SizeShown e path ((EagerProfile.live? e.cache f).getD []).length := by
    constructor
    · rintro rfl
      cases (Tree.path_of_readable hf).2
    · rw [← EagerProfile.size_live hp]
      exact e.sizeShown (Tree.declares_of_readable e.profile.tree_proper hf)
  constructor
  case present =>
    intro hsome e path f hf
    obtain ⟨hne, hsize⟩ := hshown hf
    obtain ⟨value, hvalue⟩ := Option.isSome_iff_exists.1 ((live_iff moves hne).2 hsome)
    rw [hvalue] at hsize
    refine ⟨value, hsize, fun s => ?_⟩
    change e.profile.read e.cache path 0 (-1) = _
    rw [EagerProfile.read_live hf, hvalue, Option.getD_some]
  case absent =>
    intro hnone e path f hf
    obtain ⟨hne, hsize⟩ := hshown hf
    have hvalue : EagerProfile.live? e.cache f = none := by
      rw [← Option.not_isSome_iff_eq_none, live_iff moves hne, not_not]
      exact hnone
    rw [hvalue] at hsize
    refine ⟨hsize, fun s => ?_⟩
    change e.profile.read e.cache path 0 (-1) = _
    rw [EagerProfile.read_live hf, hvalue, Option.getD_none]
    rfl

end Eager

theorem Outcome.timed_preserves {σ α : Type} {P : σ → Prop} {state : σ}
    {next : Instant → Outcome σ α} (h : P state) (hnext : ∀ now, P (next now).state)
    (reading : Time.Reading) : P (Outcome.timed reading state next).state := by
  cases reading with
  | error err => exact h
  | ok now => exact hnext now

namespace Skill

def live? (k : Skill) : SkillFile → Option Bytes
  | .metadata => if k.metadata = [] then none else some k.metadata
  | .instructions => if k.instructions = [] then none else some k.instructions
  | .execute => none
  | .result => k.cache.summary.map Text.encode
  | .status => some (Text.encode k.status.render)
  | .log => some (Text.encode k.log.render)

theorem size_eq (k : Skill) (f : SkillFile) : k.size f = ((k.live? f).getD []).length := by
  cases f with
  | metadata =>
    simp only [size, live?]
    split
    · rename_i hempty
      rw [hempty, Option.getD_none]
    · rfl
  | instructions =>
    simp only [size, live?]
    split
    · rename_i hempty
      rw [hempty, Option.getD_none]
    · rfl
  | execute => rfl
  | result =>
    simp only [size, live?, shownResult]
    cases k.cache.summary <;> rfl
  | status => simp only [size, live?, Option.getD_some]
  | log => simp only [size, live?, Option.getD_some]

/-- A text that stands in for the value of a file while it has none. -/
inductive StandsIn (k : Skill) (s : Services) : SkillFile → String → Prop
  | metadata : StandsIn k s .metadata "No metadata set\n"
  | instructions : StandsIn k s .instructions "No instructions set\n"
  | unqueued (h : k.cache.payload = none) : StandsIn k s .result noPayload
  | failed {i message} (hran : .ran i ∈ (k.currentResult s).effects)
      (h : (s.run i).outcome = .failed message) : StandsIn k s .result (message ++ "\n")

/-- An answer gives the value of a file, or else a text that stands in for it. -/
def Reads (k : Skill) (s : Services) (f : SkillFile) (answer : Except Error Bytes) : Prop :=
  match k.live? f with
  | some value => answer = .ok value
  | none => ∃ text, k.StandsIn s f text ∧ text ≠ "" ∧ answer = .ok (Text.encode text)

/-- A read of the file makes no new result: the one there is serves, or the run fails. -/
def Fruitless (k : Skill) (s : Services) (f : SkillFile) : Prop :=
  f = .result → (∃ now, s.clock = .ok now) ∧
    ∀ i, .ran i ∈ (Endpoint.read s k "/result" 0 (-1)).effects →
      ∃ message, (s.run i).outcome = .failed message

structure SizesFit (k : Skill) : Prop where
  present : ∀ path f value, tree.readable path = .ok f → k.live? f = some value →
    SizeShown k path value.length ∧
      ∀ s, k.Fruitless s f → (Endpoint.read s k path 0 (-1)).answer = .ok value
  absent : ∀ path f, tree.readable path = .ok f → k.live? f = none →
    SizeShown k path 0 ∧
      ∀ s, k.Fruitless s f → ∃ text, k.StandsIn s f text ∧ text ≠ "" ∧
        (Endpoint.read s k path 0 (-1)).answer = .ok (Text.encode text)
  /-- A run that succeeds gives the whole of the new result, of which a window is read. -/
  renewed : ∀ s offset size i text,
    let o := Endpoint.read s k "/result" offset size
    .ran i ∈ o.effects → (s.run i).outcome = .completed text →
      o.answer = .ok (readWindow (Text.encode text) offset size) ∧
        SizeShown o.state "/result" (Text.encode text).length

/-- What holds of an endpoint however it has been used, even if something has crashed. -/
structure Grounded (k : Skill) : Prop where
  logged : k.log.entries ≠ []
  solid : ∀ data, k.cache.payload = some data → isBlankPayload data = false
  answers : k.cache.summary.isSome = true → k.cache.payload.isSome = true

namespace Grounded

variable {k k' : Skill} {s : Services}

theorem congr (h : Grounded k) (hlog : k'.log = k.log) (hcache : k'.cache = k.cache) :
    Grounded k' := by
  obtain ⟨hlogged, hsolid, hanswers⟩ := h
  rw [← hlog] at hlogged
  rw [← hcache] at hsolid hanswers
  exact ⟨hlogged, hsolid, hanswers⟩

theorem note (h : Grounded k) (time : Instant) (level : LogLevel) (message : String) :
    Grounded (k.note time level message) where
  logged := List.append_ne_nil_of_right_ne_nil _ (List.cons_ne_nil _ _)
  solid := h.solid
  answers := h.answers

theorem submit (h : Grounded k) {data : Bytes} (hd : isBlankPayload data = false) :
    Grounded { k with cache := k.cache.submit data } where
  logged := h.logged
  solid _ hdata := Option.some.inj hdata ▸ hd
  answers _ := rfl

theorem queued_eq (h : Grounded k) : k.queued? = k.cache.payload := by
  simp only [queued?]
  cases hp : k.cache.payload with
  | none => rfl
  | some data =>
    rw [Option.filter_some, h.solid data hp]
    rfl

theorem create (time : Instant) : Grounded (Skill.create time) where
  logged := List.cons_ne_nil _ _
  solid _ hdata := nomatch hdata
  answers hsome := nomatch hsome

theorem configure (h : Grounded k) (s : Services) (document : Option String) :
    Grounded (k.configure s document).state := by
  simp only [Skill.configure]
  cases Patch.parse document with
  | error err => exact h
  | ok patch =>
    have hmerged : Grounded { k.merge patch with active := true } := h.congr rfl rfl
    apply Outcome.timed_preserves hmerged
    intro now
    exact (hmerged.note now .info "SkillsFS initialized").congr rfl rfl

theorem beginWrite (h : Grounded k) (s : Services) (path : String) (data : Bytes) :
    Grounded (k.beginWrite s path data).state := by
  have hqueue : Grounded (k.queue s data).state := by
    simp only [queue]
    cases hd : isBlankPayload data with
    | true => exact h
    | false =>
      have hqueued : Grounded ({ k with cache := k.cache.submit data }.enter .pending false) :=
        (h.submit hd).congr rfl rfl
      exact Outcome.timed_preserves hqueued (fun now => hqueued.note now _ _) s.clock
  simp only [Skill.beginWrite]
  split
  · exact h
  · have hset : Grounded { k with metadata := data } := h.congr rfl rfl
    exact Outcome.timed_preserves hset (fun now => hset.note now _ _) s.clock
  · have hset : Grounded { k with instructions := data } := h.congr rfl rfl
    exact Outcome.timed_preserves hset (fun now => hset.note now _ _) s.clock
  · exact hqueue

theorem runOn (h : Grounded k) (s : Services) (now : Instant) {data : Bytes}
    (hp : k.cache.payload = some data) : Grounded (k.runOn s now data).state := by
  have hbegun : Grounded (k.beginRun now) := (h.note now .info _).congr rfl rfl
  simp only [Skill.runOn]
  cases (s.run (k.invocation now data)).outcome with
  | crashed => exact hbegun
  | failed message => exact (hbegun.note _ .error message).congr rfl rfl
  | completed text =>
    have hanswered : Grounded { k.beginRun now with cache := k.cache.install none text now } :=
      ⟨hbegun.logged, h.solid, fun _ => Option.isSome_of_eq_some hp⟩
    exact (hanswered.note _ .info "Skill execution completed").congr rfl rfl

theorem currentResult (h : Grounded k) (s : Services) : Grounded (k.currentResult s).state := by
  cases hq : k.queued? with
  | none =>
    rw [currentResult_absent hq]
    exact h
  | some data =>
    have hp := h.queued_eq.symm.trans hq
    simp only [queued?] at hq
    simp only [Skill.currentResult, hq]
    apply Outcome.timed_preserves h
    intro now
    split
    · exact (h.note now .debug "Cache hit for /result").congr rfl rfl
    · exact h.runOn s now hp

theorem read (h : Grounded k) (s : Services) (path : String) (offset size : Int) :
    Grounded (k.read s path offset size).state := by
  by_cases hpath : path = "/result"
  · subst hpath
    exact h.currentResult s
  · rw [(read_elsewhere hpath s k offset size).2]
    exact h

theorem move (h : Grounded k) (s : Services) (m : Move) : Grounded (k.move s m) := by
  cases m with
  | begin path data => exact h.beginWrite s path data
  | finish number reply => exact h
  | use operation =>
    cases operation with
    | configure document => exact h.configure s document
    | shutdown =>
      have hstopped : Grounded { k with active := false } := h.congr rfl rfl
      exact Outcome.timed_preserves hstopped (fun now => hstopped.note now _ _) s.clock
    | stat path => exact h
    | list path => exact h
    | read path offset size => exact h.read s path offset size
    | write path data => exact h.beginWrite s path data

theorem run (created : Instant) (moves : List (Services × Move)) :
    Grounded ((Session.start (Skill.create created)).run moves).endpoint := by
  apply Session.run_preserves (P := Grounded) (Grounded.create created)
  intro w m _ h
  rw [Session.skill_step]
  exact h.move m.1 m.2

end Grounded

variable {k : Skill} {s : Services}

/-- As long as no run succeeds, a read of the result gives the one that there is, or else a text
that stands in for it. -/
theorem Grounded.currentResult_reads (h : Grounded k) (hno : k.Fruitless s .result) :
    k.Reads s .result (k.currentResult s).answer := by
  obtain ⟨⟨now, hc⟩, hfailed⟩ := hno rfl
  simp only [Reads, live?]
  cases hq : k.queued? with
  | none =>
    have hp := h.queued_eq.symm.trans hq
    cases hsummary : k.cache.summary with
    | some text =>
      have hpayload := h.answers (Option.isSome_of_eq_some hsummary)
      rw [hp] at hpayload
      cases hpayload
    | none => exact ⟨noPayload, .unqueued hp, by decide, by rw [currentResult_absent hq]⟩
  | some data =>
    cases hf : k.isFresh now with
    | true =>
      have hcurrent := currentResult_fresh hq hc hf
      simp only [isFresh, Bool.and_eq_true, Option.isSome_iff_exists] at hf
      obtain ⟨⟨-, text, hsummary⟩, -⟩ := hf
      simp only [hsummary, Option.map_some, hcurrent, shownResult, Option.getD_some]
    | false =>
      have hcurrent := currentResult_stale hq hc hf
      have hran : .ran (k.invocation now data) ∈ (k.currentResult s).effects := by
        rw [hcurrent, runOn_effects]
        exact List.mem_singleton.2 rfl
      obtain ⟨message, hfail⟩ := hfailed _ hran
      have hanswer : (k.currentResult s).answer =
          .ok (Text.encode (k.cache.summary.getD (message ++ "\n"))) := by
        rw [hcurrent]
        simp only [Skill.runOn, hfail]
        rfl
      rw [hanswer]
      cases hsummary : k.cache.summary with
      | some text => rfl
      | none =>
        have hne : message ++ "\n" ≠ "" := fun hempty =>
          absurd (String.append_eq_empty_iff.1 hempty).2 (by decide)
        exact ⟨message ++ "\n", .failed hran hfail, hne, rfl⟩

theorem read_editable (g : EditableFile) {f : SkillFile}
    (hlive : k.live? f = if g.text k.settings = [] then none else some (g.text k.settings))
    (hstands : k.StandsIn s f g.placeholder) (hplaceholder : g.placeholder ≠ "") :
    k.Reads s f (Endpoint.read s k g.path 0 (-1)).answer := by
  rw [g.read_eq, EditableFile.readWindow_whole _ (Int.le_refl 0) (by decide),
    EditableFile.orPlaceholder_eq]
  simp only [Reads, hlive]
  by_cases hempty : g.text k.settings = []
  · rw [if_pos hempty, if_pos hempty]
    exact ⟨g.placeholder, hstands, hplaceholder, rfl⟩
  · rw [if_neg hempty, if_neg hempty]

theorem Grounded.read_reads (h : Grounded k) {path : String} {f : SkillFile}
    (hf : tree.readable path = .ok f) (hno : k.Fruitless s f) :
    k.Reads s f (Endpoint.read s k path 0 (-1)).answer := by
  obtain ⟨rfl, hreadable⟩ := Tree.path_of_readable hf
  cases f with
  | execute => cases hreadable
  | status =>
    have hread : (Endpoint.read s k "/status" 0 (-1)).answer =
        .ok (readWindow (Text.encode k.status.render) 0 (-1)) := rfl
    rw [EditableFile.readWindow_whole _ (Int.le_refl 0) (by decide)] at hread
    exact hread
  | log => exact Skill.read_log h.logged s
  | metadata => exact read_editable .metadata rfl .metadata (by decide)
  | instructions => exact read_editable .instructions rfl .instructions (by decide)
  | result =>
    have hanswer : (Endpoint.read s k "/result" 0 (-1)).answer = (k.currentResult s).answer := by
      change (k.currentResult s).answer.map (fun value => readWindow value 0 (-1)) = _
      cases (k.currentResult s).answer with
      | error err => rfl
      | ok value =>
        exact congrArg Except.ok (EditableFile.readWindow_whole value (Int.le_refl 0) (by decide))
    change k.Reads s .result (Endpoint.read s k "/result" 0 (-1)).answer
    rw [hanswer]
    exact h.currentResult_reads hno

theorem sizeShown (k : Skill) {path : String} {f : SkillFile} (hf : tree.Declares path f) :
    SizeShown k path ((k.live? f).getD []).length := by
  rw [← size_eq]
  exact Tree.Proper.sizeShown tree_proper (fun _ _ => ⟨rfl, rfl⟩) hf

theorem completed_size {i : Invocation} {text : String} {offset size : Int}
    (hran : .ran i ∈ (Endpoint.read s k "/result" offset size).effects)
    (hdone : (s.run i).outcome = .completed text) :
    let o := Endpoint.read s k "/result" offset size
    o.answer = .ok (readWindow (Text.encode text) offset size) ∧
      SizeShown o.state "/result" (Text.encode text).length := by
  intro o
  obtain ⟨data, -, -, -, hi, hcurrent⟩ := currentResult_ran hran
  have hrun : k.currentResult s =
      { answer := .ok (Text.encode text)
        state := (k.beginRun i.executedAt).completeRun i.executedAt (s.run i) text
        effects := [.ran i] } := by
    rw [hcurrent]
    simp only [runOn, ← hi, hdone]
    rfl
  have ho : o = { k.currentResult s with
      answer := (k.currentResult s).answer.map fun value => readWindow value offset size } := rfl
  rw [ho, hrun]
  exact ⟨rfl, sizeShown _ (f := .result) ⟨by decide, rfl⟩⟩

theorem Grounded.sizesFit (h : Grounded k) : k.SizesFit where
  present path f value hf hvalue := by
    have hsize := k.sizeShown (Tree.declares_of_readable tree_proper hf)
    rw [hvalue] at hsize
    refine ⟨hsize, fun s hno => ?_⟩
    have hread := h.read_reads hf hno
    simp only [Reads, hvalue] at hread
    exact hread
  absent path f hf hvalue := by
    have hsize := k.sizeShown (Tree.declares_of_readable tree_proper hf)
    rw [hvalue] at hsize
    refine ⟨hsize, fun s hno => ?_⟩
    have hread := h.read_reads hf hno
    simp only [Reads, hvalue] at hread
    exact hread
  renewed s offset size i text hran hdone := completed_size hran hdone

end Skill

/-- Sizes are the lengths of what is read, where there is a value to show; a search shows none. -/
theorem sizes_fit_reads :
    (∀ moves : List (Services × Move), ResponseSizes SummarySettings moves) ∧
    (∀ (created : Instant) (moves : List (Services × Move)),
      ((Session.start (Skill.create created)).run moves).endpoint.SizesFit) ∧
    ∀ e : SearchEndpoint,
      (∀ path f, e.profile.tree.Declares path f → SizeShown e path 0) ∧
      (∀ s path info, Endpoint.stat s e path = .ok (some info) → info.size = 0) ∧
      ∀ s path infos, Endpoint.list s e path = .ok infos → ∀ info ∈ infos, info.size = 0 := by
  refine ⟨Eager.responseSizes rfl, fun created moves =>
    (Skill.Grounded.run created moves).sizesFit, fun e => ⟨?_, ?_, ?_⟩⟩
  · intro path f hf
    have hsize := e.sizeShown hf
    rwa [EagerProfile.size_zero rfl] at hsize
  · intro s path info hinfo
    obtain hroot | ⟨f, hf⟩ := Tree.size_of_stat hinfo
    · exact hroot
    · exact hf.trans (EagerProfile.size_zero rfl f)
  · intro s path infos hinfos info hinfo
    obtain ⟨f, hf⟩ := Tree.size_of_list hinfos hinfo
    exact hf.trans (EagerProfile.size_zero rfl f)

/-- A summary that has been received, and the result of a run: two letters take three bytes, of
which the first read shows one. -/
theorem received_sizes_shown :
    let s : Services := { Services.steady ⟨0⟩ (.ok "\x7b\x7d") (.completed "né") with
      env := fun _ => some "k" }
    let w : Session SummaryEndpoint :=
      (Session.fresh SummarySettings).run [(s, .begin "/request" [97]),
        (s, .finish 0 (.ok "\x7b\x7d"))]
    let k := ((Session.start (Skill.create ⟨0⟩)).run [(s, .begin "/execute" [120])]).endpoint
    let o := Endpoint.read s k "/result" 0 1
    SizeShown w.endpoint "/response.json" 2 ∧ SizeShown k "/result" 0 ∧
      o.answer = .ok [110] ∧ SizeShown o.state "/result" 3 ∧
        SizeShown (Eager.create : SearchEndpoint) "/response.txt" 0 := by
  intro s w k o
  obtain ⟨hsummary, hskill, hsearch⟩ := sizes_fit_reads
  have hjson : w.endpoint.profile.tree.readable "/response.json" = .ok .responseJson := by decide
  obtain ⟨value, hvalue, hread⟩ := (hsummary [(s, .begin "/request" [97]),
    (s, .finish 0 (.ok "\x7b\x7d"))]).present (List.cons_ne_nil _ _) _ _ hjson
  obtain rfl : ([123, 125] : Bytes) = value := Except.ok.inj (hread s)
  have hresult : Skill.tree.readable "/result" = .ok .result := by decide
  have hrun : .ran (k.invocation ⟨0⟩ [120]) ∈ o.effects := List.mem_singleton.2 rfl
  have hfit := hskill ⟨0⟩ [(s, .begin "/execute" [120])]
  obtain ⟨hanswer, hsize⟩ := hfit.renewed s 0 1 _ "né" hrun rfl
  exact ⟨hvalue, (hfit.absent _ _ hresult rfl).1, hanswer, hsize,
    (hsearch Eager.create).1 "/response.txt" .responseTxt ⟨by decide, rfl⟩⟩

end FileEndpoints

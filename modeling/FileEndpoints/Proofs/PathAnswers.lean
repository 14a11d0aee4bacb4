import FileEndpoints.Proofs.AuditSteps
import FileEndpoints.Proofs.LockedRuns
import FileEndpoints.Proofs.RemoteCalls
import FileEndpoints.Proofs.TreeAnswers

namespace FileEndpoints

open Time (Instant)

/-- Whether an operation has failed for what its path is, or since the set of files is fixed. -/
def Error.refusesPath : Error → Bool
  | .noSuchPath _ | .notADirectory _ | .notReadable _ | .notWritable _ | .unsupported _ => true
  | _ => false

/-- Whether a failure is neither a matter of the path nor a crash. -/
def Error.isOrdinary : Error → Bool
  | .crashed => false
  | err => !err.refusesPath

theorem Error.refusesPath_of_isOrdinary {err : Error} (h : err.isOrdinary = true) :
    err.refusesPath = false := by
  cases err with
  | crashed => rfl
  | _ => simpa only [isOrdinary, Bool.not_eq_true'] using h

/-- Surroundings in which nothing crashes and calls fail in their own way only. -/
structure Services.Orderly (s : Services) : Prop where
  now : ∃ now, s.now = .ok now
  calm : s.Calm
  calls : ∀ request err, s.post request = .error err → ∃ message, err = .transport message

def Tree.nodes {φ : Type} [TreeFile φ] (t : Tree φ) : List Node :=
  t.files.map fun f => { name := TreeFile.name f, access := TreeFile.access f }

/-- The answers of an endpoint with the given files about any path. -/
structure PathAnswers {σ : Type} [Endpoint σ] (files : List Node) (e : σ) : Prop where
  stat : ∀ s : Services, s.Orderly → ∀ path, ∃ info, Endpoint.stat s e path = .ok info ∧
    (info.isSome = true ↔ path = "/" ∨ ∃ f ∈ files, path = "/" ++ f.name)
  /-- The root is listed in order, each file as a stat shows it in the same second. -/
  listed : ∀ (s : Services) (now : Instant), s.now = .ok now →
    ∃ infos, Endpoint.list s e "/" = .ok infos ∧
      infos.map FileInfo.name = files.map Node.name ∧
      ∀ info ∈ infos, ∀ (s' : Services) (later : Instant), s'.now = .ok later →
        later.seconds = now.seconds →
        Endpoint.stat s' e ("/" ++ info.name) = .ok (some info)
  unlisted : ∀ (s : Services) (path : String), path ≠ "/" →
    Endpoint.list s e path = .error (.notADirectory path)
  read : ∀ s : Services, s.Orderly → ∀ (path : String) (offset size : Int),
    let answer := (Endpoint.read s e path offset size).answer
    (answer = .error (.noSuchPath path) ↔ ∀ f ∈ files, path ≠ "/" ++ f.name) ∧
      (answer = .error (.notReadable path) ↔
        ∃ f ∈ files, path = "/" ++ f.name ∧ f.access = .trigger) ∧
      ((∃ data, answer = .ok data) ↔ ∃ f ∈ files, path = "/" ++ f.name ∧ f.access ≠ .trigger)
  write : ∀ s : Services, s.Orderly → ∀ (path : String) (data : Bytes),
    let answer := (Endpoint.write s e path data).answer
    (answer = .error (.noSuchPath path) ↔ ∀ f ∈ files, path ≠ "/" ++ f.name) ∧
      (answer = .error (.notWritable path) ↔
        ∃ f ∈ files, path = "/" ++ f.name ∧ f.access = .readOnly)
  fixed : ∀ (s : Services) (change : StructureChange) (path : String),
    (LockedOperation.changeStructure change path).direct s e =
      { answer := .error (.unsupported change), state := e }
  kept : ∀ s : Services, s.Orderly → ∀ (operation : Operation) (err : Error),
    err.refusesPath = true → (operation.perform s e).answer = .error err →
      operation.perform s e = { answer := .error err, state := e }

/-- An endpoint that shows the files of a tree, and has its operations look a path up there. -/
structure Shows {σ φ : Type} [Endpoint σ] [TreeFile φ] (t : Tree φ) (e : σ) : Prop where
  records : ∃ size, ∀ (s : Services) (path : String),
    Endpoint.stat s e path = t.stat s.now size path ∧
      Endpoint.list s e path = t.list s.now size path
  unreadable : ∀ {path err}, t.readable path = .error err → ∀ (s : Services) (offset size : Int),
    Endpoint.read s e path offset size = { answer := .error err, state := e }
  readable : ∀ {path f}, t.readable path = .ok f → ∀ s : Services, s.Orderly →
    ∀ offset size : Int, ∃ data, (Endpoint.read s e path offset size).answer = .ok data
  unwritable : ∀ {path err}, t.writable path = .error err → ∀ (s : Services) (data : Bytes),
    Endpoint.write s e path data = { answer := .error err, state := e }
  writable : ∀ {path f}, t.writable path = .ok f → ∀ s : Services, s.Orderly →
    ∀ data err, (Endpoint.write s e path data).answer = .error err → err.refusesPath = false
  configure : ∀ s : Services, s.Orderly → ∀ document err,
    (Endpoint.configure s e document).answer = .error err → err.refusesPath = false
  shutdown : ∀ s : Services, s.Orderly → ∀ err,
    (Endpoint.shutdown s e).answer = .error err → err.refusesPath = false

theorem refusal_iff {α φ : Type} {check : Except Error φ} {answer : Except Error α}
    (hrefused : ∀ err, check = .error err → answer = .error err)
    (hpassed : ∀ f, check = .ok f → ∀ err, answer = .error err → err.refusesPath = false)
    {err : Error} (herr : err.refusesPath = true) : answer = .error err ↔ check = .error err := by
  constructor
  · intro h
    cases hcheck : check with
    | error failure => rw [← Except.error.inj ((hrefused failure hcheck).symm.trans h)]
    | ok f =>
      have hno := hpassed f hcheck err h
      rw [herr] at hno
      cases hno
  · exact hrefused err

theorem Outcome.answer_of_mapAnswer {σ α β : Type} {f : α → β} {o : Outcome σ α} {err : Error}
    (h : (o.mapAnswer f).answer = .error err) : o.answer = .error err := by
  cases ha : o.answer with
  | ok a => simp only [mapAnswer, ha, Except.map, reduceCtorEq] at h
  | error failure =>
    simp only [mapAnswer, ha, Except.map, Except.error.injEq] at h
    rw [h]

section

variable {φ : Type} [TreeFile φ] {t : Tree φ}

theorem Tree.exists_node_iff (P : Access → Prop) {path : String} :
    (∃ f ∈ t.nodes, path = "/" ++ f.name ∧ P f.access) ↔
      ∃ f, t.Declares path f ∧ P (TreeFile.access f) := by
  simp only [nodes, List.mem_map, exists_exists_and_eq_and, Declares, and_assoc]

theorem Tree.declared_iff {path : String} :
    (∃ f ∈ t.nodes, path = "/" ++ f.name) ↔ ∃ f, t.Declares path f := by
  simp only [nodes, List.mem_map, exists_exists_and_eq_and, Declares]

theorem Tree.undeclared_iff {path : String} :
    (∀ f ∈ t.nodes, path ≠ "/" ++ f.name) ↔ ∀ f, ¬ t.Declares path f := by
  simp only [nodes, List.forall_mem_map, Declares, not_and, ne_eq]

variable {σ : Type} [Endpoint σ] {e : σ} {s : Services}

theorem Shows.read_answers (h : Shows t e) (ht : t.Proper) (hs : s.Orderly) (path : String)
    (offset size : Int) :
    let answer := (Endpoint.read s e path offset size).answer
    (answer = .error (.noSuchPath path) ↔ ∀ f ∈ t.nodes, path ≠ "/" ++ f.name) ∧
      (answer = .error (.notReadable path) ↔
        ∃ f ∈ t.nodes, path = "/" ++ f.name ∧ f.access = .trigger) ∧
      ((∃ data, answer = .ok data) ↔
        ∃ f ∈ t.nodes, path = "/" ++ f.name ∧ f.access ≠ .trigger) := by
  intro answer
  have hrefused (err : Error) (hcheck : t.readable path = .error err) : answer = .error err :=
    congrArg Outcome.answer (h.unreadable hcheck s offset size)
  have hpassed (f : φ) (hcheck : t.readable path = .ok f) : ∃ data, answer = .ok data :=
    h.readable hcheck s hs offset size
  have hiff {err : Error} (herr : err.refusesPath = true) :
      answer = .error err ↔ t.readable path = .error err := by
    refine refusal_iff hrefused (fun f hf err hanswer => ?_) herr
    obtain ⟨data, hdata⟩ := hpassed f hf
    cases hdata.symm.trans hanswer
  have hadmits := ht.readable_admits
  refine ⟨?_, ?_, ?_⟩
  · rw [hiff rfl, hadmits.unknown, Tree.undeclared_iff]
  · rw [hiff rfl, hadmits.refused, Tree.exists_node_iff (· = .trigger)]
  · rw [Tree.exists_node_iff (· ≠ .trigger)]
    constructor
    · rintro ⟨data, hdata⟩
      cases hcheck : t.readable path with
      | error err => cases hdata.symm.trans (hrefused err hcheck)
      | ok f => exact ⟨f, (hadmits.passed path f).1 hcheck⟩
    · rintro ⟨f, hf⟩
      exact hpassed f ((hadmits.passed path f).2 hf)

theorem Shows.write_answers (h : Shows t e) (ht : t.Proper) (hs : s.Orderly) (path : String)
    (data : Bytes) :
    let answer := (Endpoint.write s e path data).answer
    (answer = .error (.noSuchPath path) ↔ ∀ f ∈ t.nodes, path ≠ "/" ++ f.name) ∧
      (answer = .error (.notWritable path) ↔
        ∃ f ∈ t.nodes, path = "/" ++ f.name ∧ f.access = .readOnly) := by
  intro answer
  have hrefused (err : Error) (hcheck : t.writable path = .error err) : answer = .error err :=
    congrArg Outcome.answer (h.unwritable hcheck s data)
  have hiff {err : Error} (herr : err.refusesPath = true) :
      answer = .error err ↔ t.writable path = .error err :=
    refusal_iff hrefused (fun f hf => h.writable hf s hs data) herr
  have hadmits := ht.writable_admits
  constructor
  · rw [hiff rfl, hadmits.unknown, Tree.undeclared_iff]
  · rw [hiff rfl, hadmits.refused, Tree.exists_node_iff (· = .readOnly)]

theorem Shows.kept (h : Shows t e) (hs : s.Orderly) (operation : Operation) {err : Error}
    (herr : err.refusesPath = true) (hfail : (operation.perform s e).answer = .error err) :
    operation.perform s e = { answer := .error err, state := e } := by
  have hother {P : Prop} (hno : err.refusesPath = false) : P := by
    rw [herr] at hno
    cases hno
  cases operation with
  | stat path =>
    simp only [Operation.perform] at hfail ⊢
    rw [hfail]
  | list path =>
    simp only [Operation.perform] at hfail ⊢
    rw [hfail]
  | configure document =>
    exact hother (h.configure s hs document err (Outcome.answer_of_mapAnswer hfail))
  | shutdown => exact hother (h.shutdown s hs err (Outcome.answer_of_mapAnswer hfail))
  | read path offset size =>
    have hanswer := Outcome.answer_of_mapAnswer hfail
    cases hcheck : t.readable path with
    | ok f =>
      obtain ⟨data, hdata⟩ := h.readable hcheck s hs offset size
      cases hdata.symm.trans hanswer
    | error failure =>
      have hread := h.unreadable hcheck s offset size
      rw [hread] at hanswer
      simp only [Operation.perform, hread, Outcome.mapAnswer, hanswer]
      rfl
  | write path data =>
    have hanswer := Outcome.answer_of_mapAnswer hfail
    cases hcheck : t.writable path with
    | ok f => exact hother (h.writable hcheck s hs data err hanswer)
    | error failure =>
      have hwrite := h.unwritable hcheck s data
      rw [hwrite] at hanswer
      simp only [Operation.perform, hwrite, Outcome.mapAnswer, hanswer]
      rfl

theorem Shows.pathAnswers (h : Shows t e) (ht : t.Proper) : PathAnswers t.nodes e := by
  obtain ⟨size, hrecords⟩ := h.records
  have hanswers := ht.answers size
  constructor
  case stat =>
    intro s hs path
    obtain ⟨now, hnow⟩ := hs.now
    rw [(hrecords s path).1, hnow, Tree.declared_iff]
    exact hanswers.stat now path
  case listed =>
    intro s now hnow
    obtain ⟨infos, hlist, hnames, hstat⟩ := hanswers.listed now
    refine ⟨infos, ?_, ?_, ?_⟩
    · rw [(hrecords s "/").2, hnow, hlist]
    · rw [hnames, Tree.nodes, List.map_map]
      rfl
    · intro info hinfo s' later hlater hsecond
      rw [(hrecords s' _).1, hlater]
      exact hstat info hinfo later hsecond
  case unlisted =>
    intro s path hpath
    rw [(hrecords s path).2]
    exact hanswers.unlisted s.now path hpath
  case read => exact fun s hs => h.read_answers ht hs
  case write => exact fun s hs => h.write_answers ht hs
  case fixed => exact fun s change path => rfl
  case kept => exact fun s hs operation err herr => h.kept hs operation herr

end

theorem Patch.parse_refusesPath {document : Option String} {err : Error}
    (h : Patch.parse document = .error err) : err.refusesPath = false := by
  have hparsed := parse_parsed document
  rw [h] at hparsed
  cases hparsed with
  | malformed _ => rfl

theorem CallPlan.Kept.compose_isOrdinary {S : Type} [RemoteService S] {c : CallPlan S}
    (hc : c.Kept) {r : S} {env : Environment} {data : Bytes} (hd : isBlankPayload data = false)
    {err : Error} (h : RemoteService.compose r env data = .error err) :
    err.isOrdinary = true := by
  rcases hc.composed r data (ne_nil_of_solid hd) with ⟨wait, limit, -, body, -, hcompose⟩ |
    ⟨-, hcompose⟩
  · rw [hcompose, SecretSource.resolve_eq] at h
    split at h
    · cases h
    · cases h
      rfl
  · rw [hcompose] at h
    cases h
    rfl

namespace Eager

variable {S : Type} [RemoteService S] {s : Services}

theorem finishWrite_isOrdinary (hs : s.Orderly) (e : Eager S) (call : PendingCall) {err : Error}
    (h : (e.finishWrite s call (s.post call.request)).answer = .error err) :
    err.isOrdinary = true := by
  cases hpost : s.post call.request with
  | error failure =>
    obtain ⟨message, rfl⟩ := hs.calls call.request failure hpost
    rw [hpost] at h
    cases h
    rfl
  | ok body =>
    obtain ⟨now, hnow⟩ := hs.now
    rw [hpost, finishWrite_answer, hnow] at h
    split at h <;> cases h

theorem write_isOrdinary {c : CallPlan S} (hc : c.Kept) (hs : s.Orderly) (e : Eager S)
    {data : Bytes} {err : Error} (h : (Endpoint.write s e "/request" data).answer = .error err) :
    err.isOrdinary = true := by
  cases hd : isBlankPayload data with
  | true =>
    have haccept : e.profile.accept e.cache "/request" data (RemoteService.missing S) =
        .error (.invalidPayload (RemoteService.missing S)) := by
      simp only [EagerProfile.accept, EagerProfile.writable_eq, hd, ↓reduceIte]
    rw [write_refused haccept] at h
    cases h
    rfl
  | false =>
    cases hcompose : RemoteService.compose e.settings s.env data with
    | error failure =>
      rw [(write_uncomposed hd hcompose).1] at h
      cases h
      exact hc.compose_isOrdinary hd hcompose
    | ok composed =>
      simp only [Endpoint.write, Endpoint.beginWrite, beginWrite, e.accept_request hd, hcompose,
        Except.map] at h
      exact finishWrite_isOrdinary hs _ _ h

theorem shows {c : CallPlan S} (hc : c.Kept) (e : Eager S) : Shows e.profile.tree e where
  records := ⟨e.profile.size e.cache, fun s path => ⟨rfl, rfl⟩⟩
  unreadable h s offset size := by
    change ({ answer := e.profile.read e.cache _ offset size, state := e } : Outcome _ _) = _
    simp only [EagerProfile.read, h, Except.map]
  readable {path f} h s hs offset size := by
    refine ⟨readWindow (e.profile.content e.cache f) offset size, ?_⟩
    change e.profile.read e.cache path offset size = _
    simp only [EagerProfile.read, h, Except.map]
  unwritable h s data := by
    apply write_refused
    simp only [EagerProfile.accept, h]
  writable {path f} h s hs data err herr := by
    obtain ⟨rfl, hw⟩ := Tree.path_of_writable h
    cases f with
    | request => exact Error.refusesPath_of_isOrdinary (write_isOrdinary hc hs e herr)
    | responseJson => cases hw
    | responseTxt => cases hw
  configure s hs document err herr := by
    change (e.configure document).answer = .error err at herr
    simp only [Eager.configure] at herr
    split at herr
    · rename_i failure hparse
      cases herr
      exact Patch.parse_refusesPath hparse
    · cases herr
  shutdown s hs err herr := by cases herr

end Eager

namespace Skill

variable {s : Services}

/-- As long as nothing crashes there is a result to show. -/
theorem currentResult_ok (hs : s.Calm) (k : Skill) :
    ∃ data, (k.currentResult s).answer = .ok data := by
  obtain ⟨now, hc⟩ := hs.clock
  cases hq : k.queued? with
  | none => exact ⟨_, congrArg Outcome.answer (currentResult_absent hq)⟩
  | some payload =>
    cases hf : k.isFresh now with
    | true => exact ⟨_, congrArg Outcome.answer (currentResult_fresh hq hc hf)⟩
    | false =>
      rw [currentResult_stale hq hc hf, runOn]
      cases hrun : (s.run (k.invocation now payload)).outcome with
      | completed text => exact ⟨_, rfl⟩
      | failed message => exact ⟨_, rfl⟩
      | crashed => exact absurd hrun (hs.runs _)

theorem content_ok (hs : s.Calm) (k : Skill) (f : SkillFile) :
    ∃ data, (k.content s f).answer = .ok data := by
  cases f with
  | metadata => exact ⟨_, rfl⟩
  | instructions => exact ⟨_, rfl⟩
  | status => exact ⟨_, rfl⟩
  | log => exact ⟨_, rfl⟩
  | result => exact k.currentResult_ok hs
  | execute => exact k.currentResult_ok hs

theorem beginWrite_isOrdinary (hs : s.Calm) (k : Skill) {path : String} {f : SkillFile}
    (hf : tree.writable path = .ok f) {data : Bytes} {err : Error}
    (h : (k.beginWrite s path data).answer = .error err) : err.isOrdinary = true := by
  obtain ⟨now, hc⟩ := hs.clock
  obtain ⟨-, hw⟩ := Tree.path_of_writable hf
  cases f with
  | metadata => simp only [beginWrite, hf, hc, Outcome.timed, reduceCtorEq] at h
  | instructions => simp only [beginWrite, hf, hc, Outcome.timed, reduceCtorEq] at h
  | execute =>
    simp only [beginWrite, hf, queue, hc, Outcome.timed] at h
    split at h
    · cases h
      rfl
    · cases h
  | result => cases hw
  | status => cases hw
  | log => cases hw

theorem shows (k : Skill) : Shows tree k where
  records := ⟨k.size, fun s path => ⟨rfl, rfl⟩⟩
  unreadable h s offset size := by
    change k.read s _ offset size = _
    simp only [read, h]
  readable {path f} h s hs offset size := by
    obtain ⟨data, hdata⟩ := k.content_ok hs.calm f
    refine ⟨readWindow data offset size, ?_⟩
    change (k.read s path offset size).answer = _
    simp only [read, h, hdata, Except.map]
  unwritable {path err} h s data := by
    have hbegun : k.beginWrite s path data = { answer := .error err, state := k } := by
      simp only [beginWrite, h]
    rw [write_eq, hbegun]
    rfl
  writable {path f} h s hs data err herr := by
    rw [write_eq] at herr
    have hbegun := Outcome.answer_of_mapAnswer herr
    exact Error.refusesPath_of_isOrdinary (k.beginWrite_isOrdinary hs.calm h hbegun)
  configure s hs document err herr := by
    obtain ⟨now, hc⟩ := hs.calm.clock
    change (k.configure s document).answer = .error err at herr
    simp only [Skill.configure, hc, Outcome.timed] at herr
    split at herr
    · rename_i failure hparse
      cases herr
      exact Patch.parse_refusesPath hparse
    · cases herr
  shutdown s hs err herr := by
    obtain ⟨now, hc⟩ := hs.calm.clock
    change (k.shutdown s).answer = .error err at herr
    simp only [Skill.shutdown, hc, Outcome.timed, reduceCtorEq] at herr

end Skill

theorem EagerProfile.tree_proper (p : EagerProfile) : p.tree.Proper where
  named f _ := by cases f <;> decide
  distinct := by
    change ["request", "response.json", "response.txt"].Nodup
    decide

theorem Skill.tree_proper : Skill.tree.Proper where
  named f _ := by cases f <;> decide
  distinct := by decide

/-- Trees and endpoints of all kinds say the same of a path whichever operation is asked, and an
endpoint says it in every state. -/
theorem paths_answered_coherently :
    (∀ (φ : Type) [TreeFile φ] (t : Tree φ) (size : φ → Nat), t.Proper → t.Answers size) ∧
    (∀ e : SearchEndpoint, PathAnswers [⟨"request", .trigger⟩, ⟨"response.json", .readOnly⟩,
      ⟨"response.txt", .readOnly⟩] e) ∧
    (∀ e : SummaryEndpoint, PathAnswers [⟨"request", .trigger⟩, ⟨"response.json", .readOnly⟩,
      ⟨"response.txt", .readOnly⟩] e) ∧
    ∀ k : Skill, PathAnswers [⟨"metadata", .readWrite⟩, ⟨"instructions", .readWrite⟩,
      ⟨"execute", .trigger⟩, ⟨"result", .readOnly⟩, ⟨"status", .readOnly⟩,
      ⟨"log", .readOnly⟩] k := by
  refine ⟨?_, ?_, ?_, ?_⟩
  · intro φ _ t size ht
    exact ht.answers size
  · intro e
    exact (Eager.shows SearchSettings.plan_kept e).pathAnswers e.profile.tree_proper
  · intro e
    exact (Eager.shows SummarySettings.plan_kept e).pathAnswers e.profile.tree_proper
  · intro k
    exact k.shows.pathAnswers Skill.tree_proper

/-- A name may hold a slash or begin another name, and a skill keeps its state when the result is
written or a directory is made. -/
theorem answers_of_slashed_names :
    let t : Tree Node :=
      { owner := "demo", files := [⟨"a", .readOnly⟩, ⟨"a/", .trigger⟩, ⟨"/", .readWrite⟩] }
    let s := Services.steady ⟨1500000⟩ (.error (.transport "down")) (.failed "no")
    let k := Skill.create ⟨0⟩
    t.Proper ∧ t.readable "/a/" = .error (.notReadable "/a/") ∧
      t.readable "//a" = .error (.noSuchPath "//a") ∧ t.readable "//" = .ok ⟨"/", .readWrite⟩ ∧
      t.writable "/a" = .error (.notWritable "/a") ∧
      s.Orderly ∧ (Endpoint.read s k "/" 0 0).answer = .error (.noSuchPath "/") ∧
      (Endpoint.write s k "/result" [1]).answer = .error (.notWritable "/result") ∧
      (Operation.write "/result" [1]).perform s k =
        { answer := .error (.notWritable "/result"), state := k } ∧
      (LockedOperation.changeStructure .mkdir "/sub").direct s k =
        { answer := .error (.unsupported .mkdir), state := k } := by
  intro t s k
  have ht : t.Proper := by
    constructor
    · decide
    · decide
  have hs : s.Orderly := by
    refine ⟨⟨_, rfl⟩, ⟨⟨_, rfl⟩, fun _ => nofun⟩, ?_⟩
    rintro request err hpost
    cases hpost
    exact ⟨"down", rfl⟩
  obtain ⟨htrees, -, -, hskills⟩ := paths_answered_coherently
  have hanswers := htrees Node t (fun f => f.name.length) ht
  have hk := hskills k
  have hread := (hk.read s hs "/" 0 0).1.2 (by decide)
  have hwrite := (hk.write s hs "/result" [1]).2.2 (by decide)
  have hfail : ((Operation.write "/result" [1]).perform s k).answer =
      .error (.notWritable "/result") := congrArg (Except.map fun _ => Answer.done) hwrite
  refine ⟨ht, (hanswers.readable.refused "/a/").2 ⟨⟨"a/", .trigger⟩, ⟨by decide, rfl⟩, rfl⟩, ?_,
    (hanswers.readable.passed "//" ⟨"/", .readWrite⟩).2 ⟨⟨by decide, rfl⟩, nofun⟩,
    (hanswers.writable.refused "/a").2 ⟨⟨"a", .readOnly⟩, ⟨by decide, rfl⟩, rfl⟩,
    hs, hread, hwrite, hk.kept s hs _ _ rfl hfail, hk.fixed s .mkdir "/sub"⟩
  have hno : ∀ f ∈ t.files, "//a" ≠ "/" ++ f.name := by decide
  apply (hanswers.readable.unknown "//a").2
  rintro f ⟨hf, hpath⟩
  exact hno f hf hpath

end FileEndpoints

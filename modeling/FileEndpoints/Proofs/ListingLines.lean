import FileEndpoints.Console.Run
import FileEndpoints.Proofs.CommandGrammar
import FileEndpoints.Proofs.PathAnswers
import FileEndpoints.Proofs.RootListing

namespace FileEndpoints

open Time (Instant)

namespace Text

variable {w v : List Char}

theorem Word.append (hw : Word w) (hv : Word v) : Word (w ++ v) := by
  obtain ⟨hne, hsolid⟩ := hw
  refine ⟨List.append_ne_nil_of_left_ne_nil hne v, fun c hc => ?_⟩
  rcases List.mem_append.1 hc with hc | hc
  · exact hsolid c hc
  · exact hv.2 c hc

theorem Word.one_line (hw : Word w) : '\n' ∉ w := by
  intro hmem
  cases hw.2 '\n' hmem

theorem columns_one_line (hw : Word w) (hv : Word v) (n : Nat) :
    '\n' ∉ w ++ (List.replicate n ' ' ++ v) := by
  intro hmem
  rcases List.mem_append.1 hmem with hmem | hmem
  · exact hw.one_line hmem
  · rcases List.mem_append.1 hmem with hmem | hmem
    · cases List.eq_of_mem_replicate hmem
    · exact hv.one_line hmem

theorem runs_columns (hw : Word w) (hv : Word v) {n : Nat} (hn : 0 < n) :
    Runs (w ++ (List.replicate n ' ' ++ v)) [w, v] := by
  have hgap : Blanks (List.replicate n ' ') := by
    intro c hc
    rw [List.eq_of_mem_replicate hc]
    rfl
  have hne : List.replicate n ' ' ≠ [] := by
    rw [ne_eq, List.replicate_eq_nil_iff]
    omega
  rw [runs_iff, hw.words_append (hgap.head_append hne v), hgap.words_append, hv.words_eq]

theorem toList_padRight (n : Nat) (s : String) :
    (padRight n s).toList = s.toList ++ List.replicate (n - s.length) ' ' := by
  rw [padRight, String.toList_append, String.toList_ofList]

theorem toList_padLeft (n : Nat) (s : String) :
    (padLeft n s).toList = List.replicate (n - s.length) ' ' ++ s.toList := by
  rw [padLeft, String.toList_append, String.toList_ofList]

end Text

/-- The names of the files of an endpoint, in the order of their declaration. -/
def BuiltIn.fileNames : BuiltIn → List String
  | .search _ | .summary _ => ["request", "response.json", "response.txt"]
  | .skill _ => ["metadata", "instructions", "execute", "result", "status", "log"]

/-- The root of an endpoint lists its files as files, each by its own record. -/
structure ListsFiles {σ : Type} [Endpoint σ] (s : Services) (e : σ) (names : List String)
    (infos : List FileInfo) : Prop where
  listed : Endpoint.list s e "/" = .ok infos
  names : infos.map FileInfo.name = names
  files : ∀ info ∈ infos, info.isDir = false
  stat : ∀ info ∈ infos, Endpoint.stat s e ("/" ++ info.name) = .ok (some info)

theorem Tree.Proper.listsFiles {σ φ : Type} [Endpoint σ] [TreeFile φ] {t : Tree φ} (ht : t.Proper)
    {size : φ → Nat} {e : σ} (hrecords : ∀ (s : Services) (path : String),
      Endpoint.stat s e path = t.stat s.now size path ∧
        Endpoint.list s e path = t.list s.now size path)
    {s : Services} {now : Instant} (hnow : s.now = .ok now) :
    ∃ infos, ListsFiles s e (t.files.map TreeFile.name) infos := by
  have hlist := t.list_root size now
  rw [← hnow, ← (hrecords s "/").2] at hlist
  refine ⟨_, hlist, ?_, ?_, ?_⟩
  · rw [List.map_map]
    rfl
  · intro info hinfo
    obtain ⟨f, -, rfl⟩ := List.mem_map.1 hinfo
    rfl
  · intro info hinfo
    obtain ⟨f, hf, rfl⟩ := List.mem_map.1 hinfo
    have hdeclares : t.Declares ("/" ++ TreeFile.name f) f := ⟨hf, rfl⟩
    have hstat := (hrecords s ("/" ++ TreeFile.name f)).1
    rw [hnow, ht.stat_file hdeclares] at hstat
    exact hstat

theorem BuiltIn.listsFiles (b : BuiltIn) {s : Services} {now : Instant} (hnow : s.now = .ok now) :
    ∃ infos, ListsFiles s b b.fileNames infos := by
  cases b with
  | search e => exact e.profile.tree_proper.listsFiles (fun _ _ => ⟨rfl, rfl⟩) hnow
  | summary e => exact e.profile.tree_proper.listsFiles (fun _ _ => ⟨rfl, rfl⟩) hnow
  | skill k => exact Skill.tree_proper.listsFiles (fun _ _ => ⟨rfl, rfl⟩) hnow

theorem BuiltIn.fileName_narrow {b : BuiltIn} {name : String} (h : name ∈ b.fileNames) :
    Text.Word name.toList ∧ name.length < 16 := by
  have heager : ∀ name ∈ ["request", "response.json", "response.txt"],
      Text.Word name.toList ∧ name.length < 16 := by decide
  have hskill : ∀ name ∈ ["metadata", "instructions", "execute", "result", "status", "log"],
      Text.Word name.toList ∧ name.length < 16 := by decide
  cases b with
  | search e => exact heager name h
  | summary e => exact heager name h
  | skill k => exact hskill name h

theorem BuiltIn.word_name (b : BuiltIn) : Text.Word (Endpoint.name b).toList := by
  have hall : Text.Word "simpcurlfs".toList ∧ Text.Word "summaryfs".toList ∧
      Text.Word "skillsfs".toList := by decide
  cases b with
  | search e => exact hall.1
  | summary e => exact hall.2.1
  | skill k => exact hall.2.2

namespace Console

open MountTable (Healthy Reachable Sound isRoot)
open Text (Blanks Word Runs)

/-- A text is made of lines, each with a line feed after it and none inside. -/
structure Lines (text : String) (lines : List String) : Prop where
  joined : text = String.join (lines.map fun l => l ++ "\n")
  single : ∀ l ∈ lines, '\n' ∉ l.toList

/-- A line of input prints lines and leaves the table alone. -/
def Prints (w : Surroundings) (t : MountTable) (line : String) (lines : List String) : Prop :=
  ∃ text, runLine w t line = { answer := .ok (some (.output text)), table := t } ∧
    Lines text lines

/-- What the line of a mount is cut into: path and name, unless the path fills its column. -/
def mountWords (entry : String × String) : List (List Char) :=
  if entry.1.length < 16 then [entry.1.toList, entry.2.toList]
  else [entry.1.toList ++ entry.2.toList]

structure ReadBack (t : MountTable) : Prop where
  mounts : ∀ w line, Command.parse line = .ok (some .mounts) → ∃ lines, Prints w t line lines ∧
    List.Forall₂ (fun entry shown => Runs shown.toList (mountWords entry)) t.listMounts lines
  root : ∀ w now line path, Command.parse line = .ok (some (.list path)) → isRoot path = true →
    w.machine.now = .ok now → t.Healthy → ∃ lines, Prints w t line lines ∧
      List.Forall₂ (fun point shown => ∃ name, point = "/" ++ name ∧ shown = name ++ "/")
        (t.mounts.map Mount.path) lines
  /-- Each file is shown by its name and the decimal digits of its size. -/
  files : ∀ m ∈ t.mounts, ∀ slot, t.slot? m = some slot → slot.endpoint.poisoned = false →
    ∀ w now, (w.services slot.origin).now = .ok now →
    ∀ line path, Command.parse line = .ok (some (.list path)) → t.resolve path = .ok (m, "/") →
      ∃ infos lines, Prints w t line lines ∧
        ListsFiles (w.services slot.origin) slot.endpoint.endpoint
          slot.endpoint.endpoint.fileNames infos ∧
        List.Forall₂ (fun info shown =>
          Runs shown.toList [info.name.toList, Nat.toDigits 10 info.size]) infos lines
  leads : ∀ m ∈ t.mounts, Command.parse ("ls " ++ m.path) = .ok (some (.list m.path)) ∧
    t.resolve m.path = .ok (m, "/")

section

variable {t : MountTable} {w : Surroundings}

theorem mountLine_shown {entry : String × String} (hpath : Word entry.1.toList)
    (hname : Word entry.2.toList) : ∃ shown, mountLine entry = shown ++ "\n" ∧
      '\n' ∉ shown.toList ∧ Runs shown.toList (mountWords entry) := by
  refine ⟨Text.padRight 16 entry.1 ++ entry.2, rfl, ?_⟩
  rw [String.toList_append, Text.toList_padRight, List.append_assoc, mountWords]
  refine ⟨Text.columns_one_line hpath hname _, ?_⟩
  split
  case isTrue hnarrow => exact Text.runs_columns hpath hname (Nat.sub_pos_of_lt hnarrow)
  case isFalse hwide =>
    rw [Nat.sub_eq_zero_of_le (Nat.le_of_not_lt hwide), List.replicate_zero, List.nil_append,
      Text.runs_iff, (hpath.append hname).words_eq]

theorem entryLine_file {info : FileInfo} (hfile : info.isDir = false)
    (hname : Word info.name.toList) (hnarrow : info.name.length < 16) :
    ∃ shown, entryLine info = shown ++ "\n" ∧ '\n' ∉ shown.toList ∧
      Runs shown.toList [info.name.toList, Nat.toDigits 10 info.size] := by
  have hdigits := Text.word_toDigits info.size
  refine ⟨Text.padRight 16 info.name ++ Text.padLeft 8 (toString info.size), ?_, ?_⟩
  · simp only [entryLine, hfile, Bool.false_eq_true, ↓reduceIte]
  · have hsize : (toString info.size).toList = Nat.toDigits 10 info.size := Nat.toList_repr
    rw [String.toList_append, Text.toList_padRight, Text.toList_padLeft, hsize, List.append_assoc,
      ← List.append_assoc (List.replicate _ _), List.replicate_append_replicate]
    exact ⟨Text.columns_one_line hname hdigits _, Text.runs_columns hname hdigits (by omega)⟩

theorem lines_join {α β : Type} {R : α → String → Prop} {render : β → String} {keys : List α}
    {items : List β} (h : List.Forall₂ (fun a b =>
      ∃ shown, render b = shown ++ "\n" ∧ '\n' ∉ shown.toList ∧ R a shown) keys items) :
    ∃ lines, Lines (String.join (items.map render)) lines ∧ List.Forall₂ R keys lines := by
  induction h with
  | nil => exact ⟨[], ⟨rfl, nofun⟩, .nil⟩
  | cons hline _ ih =>
    obtain ⟨shown, hrender, hsingle, hr⟩ := hline
    obtain ⟨lines, hlines, hrs⟩ := ih
    refine ⟨shown :: lines, ⟨?_, List.forall_mem_cons.2 ⟨hsingle, hlines.single⟩⟩, .cons hr hrs⟩
    rw [List.map_cons, String.join_cons, hrender, hlines.joined, List.map_cons, String.join_cons]

theorem prints_list {line path : String} {infos : List FileInfo} {lines : List String}
    (hline : Command.parse line = .ok (some (.list path))) (hinfos : t.list w path = .ok infos)
    (hlines : Lines (String.join (infos.map entryLine)) lines) : Prints w t line lines := by
  refine ⟨_, ?_, hlines⟩
  simp only [runLine, hline, run, hinfos]
  rfl

theorem word_named (t : MountTable) : ∀ entry ∈ t.listMounts, Word entry.2.toList := by
  intro entry hentry
  obtain ⟨m, -, rfl⟩ := List.mem_map.1 hentry
  cases hname : t.nameOf m with
  | error err =>
    have hmark : Word "?".toList := by decide
    exact hmark
  | ok name =>
    simp only [MountTable.nameOf] at hname
    split at hname
    · cases hname
    · rename_i slot hslot
      simp only [Locked.name, Locked.view] at hname
      split at hname
      · cases hname
      · obtain rfl := Except.ok.inj hname
        exact slot.endpoint.endpoint.word_name

theorem parse_list {path : String} (hp : Word path.toList) :
    Command.parse ("ls " ++ path) = .ok (some (.list path)) := by
  have hname : Word "ls".toList := by decide
  have hline : ("ls " ++ path).toList = "ls".toList ++ ' ' :: path.toList := by
    rw [String.toList_append]
    rfl
  have hlower : Text.lowercase (String.ofList "ls".toList) = "ls" := by decide
  rw [Command.parse_named hname (by decide) hp.trimmed hline, hlower, parseNamed,
    parseList_cons hp.words_eq, String.ofList_toList]
  rfl

def Solid (t : MountTable) : Prop :=
  ∀ m ∈ t.mounts, ∀ c ∈ m.path.toList, Text.isBlank c = false

theorem Solid.word (h : Solid t) (ht : Sound t) {m : Mount} (hm : m ∈ t.mounts) :
    Word m.path.toList := by
  refine ⟨?_, h m hm⟩
  obtain ⟨name, -, -, hpath⟩ := (ht.points m hm).toList
  rw [hpath]
  exact List.cons_ne_nil _ _

theorem Solid.addresses (h : Solid t) (ht : Sound t) {m : Mount} (hm : m ∈ t.mounts) :
    t.resolve m.path = .ok (m, "/") := by
  have hsolid : ¬ MountPath.EndsBlank m.path := by
    rintro ⟨c, hc, hblank⟩
    rw [h m hm c (List.mem_of_getLast? hc)] at hblank
    cases hblank
  exact (ht.addresses hm (MountPath.normalize_eq_self (ht.points m hm) hsolid).symm).resolve

theorem Solid.word_listed (h : Solid t) (ht : Sound t) :
    ∀ entry ∈ t.listMounts, Word entry.1.toList := by
  intro entry hentry
  have hpath : entry.1 ∈ t.mounts.map Mount.path := by
    rw [← t.listMounts_paths]
    exact List.mem_map_of_mem hentry
  obtain ⟨m, hm, hpath⟩ := List.mem_map.1 hpath
  exact hpath ▸ h.word ht hm

theorem Solid.mounts_shown (h : Solid t) (ht : Sound t) :
    ∃ lines, Lines (String.join (t.listMounts.map mountLine)) lines ∧
      List.Forall₂ (fun entry shown => Runs shown.toList (mountWords entry)) t.listMounts lines :=
  lines_join <| List.forall₂_same.2 fun entry hentry =>
    mountLine_shown (h.word_listed ht entry hentry) (word_named t entry hentry)

theorem entryLine_directory {now : Instant} {entry : String × String} {info : FileInfo}
    (hpath : Word entry.1.toList) (hshown : MountTable.ShownAs now entry info) :
    ∃ shown, entryLine info = shown ++ "\n" ∧ '\n' ∉ shown.toList ∧
      ∃ name, entry.1 = "/" ++ name ∧ shown = name ++ "/" := by
  obtain ⟨name, hpoint, rfl⟩ := hshown
  have hline : entryLine (.directory now entry.2 name) = name ++ "/" ++ "\n" := by
    rw [String.append_assoc]
    rfl
  refine ⟨name ++ "/", hline, ?_, name, hpoint, rfl⟩
  intro hmem
  rw [String.toList_append] at hmem
  rcases List.mem_append.1 hmem with hmem | hmem
  · have hsolid := hpath.one_line
    rw [hpoint, String.toList_append] at hsolid
    exact hsolid (List.mem_append_right _ hmem)
  · cases List.mem_singleton.1 hmem

theorem root_lines {now : Instant} {entries : List (String × String)} {infos : List FileInfo}
    (h : List.Forall₂ (MountTable.ShownAs now) entries infos)
    (hpaths : ∀ entry ∈ entries, Word entry.1.toList) :
    ∃ lines, Lines (String.join (infos.map entryLine)) lines ∧
      List.Forall₂ (fun point shown => ∃ name, point = "/" ++ name ∧ shown = name ++ "/")
        (entries.map Prod.fst) lines := by
  have hwords := (List.forall₂_and_left _ _).2 ⟨hpaths, h⟩
  have hentries := hwords.imp fun entry info ⟨hword, hshown⟩ => entryLine_directory hword hshown
  obtain ⟨lines, hlines, hpoints⟩ := lines_join hentries
  exact ⟨lines, hlines, List.forall₂_map_left_iff.2 hpoints⟩

theorem Solid.readBack (h : Solid t) (ht : Sound t) : ReadBack t := by
  apply ReadBack.mk
  case mounts =>
    intro w line hline
    obtain ⟨lines, hlines, hwords⟩ := h.mounts_shown ht
    refine ⟨lines, ⟨_, ?_, hlines⟩, hwords⟩
    simp only [runLine, hline, run]
    rfl
  case root =>
    intro w now line path hline hroot hnow hhealthy
    obtain ⟨infos, hinfos, hshown⟩ := ht.list_healthy hhealthy hnow hroot
    obtain ⟨lines, hlines, hpoints⟩ := root_lines hshown (h.word_listed ht)
    rw [t.listMounts_paths] at hpoints
    exact ⟨lines, prints_list hline hinfos hlines, hpoints⟩
  case files =>
    intro m hm slot hslot hfree w now hnow line path hline hresolve
    obtain ⟨infos, hfiles⟩ := slot.endpoint.endpoint.listsFiles hnow
    obtain ⟨slot', htransparent⟩ := ht.transparent w hresolve
    obtain rfl := Option.some.inj (hslot.symm.trans htransparent.held)
    have hinfos : t.list w path = .ok infos := by
      rw [htransparent.list, Locked.list, Locked.view, hfree]
      exact hfiles.listed
    have hentries : ∀ info ∈ infos, ∃ shown, entryLine info = shown ++ "\n" ∧
        '\n' ∉ shown.toList ∧ Runs shown.toList [info.name.toList, Nat.toDigits 10 info.size] := by
      intro info hinfo
      have hname : info.name ∈ slot.endpoint.endpoint.fileNames := by
        rw [← hfiles.names]
        exact List.mem_map_of_mem hinfo
      obtain ⟨hword, hnarrow⟩ := BuiltIn.fileName_narrow hname
      exact entryLine_file (hfiles.files info hinfo) hword hnarrow
    obtain ⟨lines, hlines, hwords⟩ := lines_join (List.forall₂_same.2 hentries)
    exact ⟨infos, lines, prints_list hline hinfos hlines, hfiles, hwords⟩
  case leads => exact fun m hm => ⟨parse_list (h.word ht hm), h.addresses ht hm⟩

end

/-- Listings are read back line by line, except that the path of a mount that takes sixteen letters
or more makes one word with the name after it. -/
theorem listings_read_back (t : MountTable) (ht : Reachable t) (h : Solid t) : ReadBack t :=
  h.readBack ht.sound

def crowded : MountTable where
  mounts := [⟨"/aaaaaaaaaaaaaaa", 0⟩]
  slots := [{ endpoint := { endpoint := .search Eager.create }, origin := .given }]

def crowdedAgain : MountTable where
  mounts := [⟨"/aaaaaaaaaaaaaaa", 0⟩, ⟨"/x", 0⟩]
  slots := crowded.slots

theorem crowded_reachable : Reachable crowded ∧ Reachable crowdedAgain := by
  let search : Slot := { endpoint := { endpoint := .search Eager.create }, origin := .given }
  have hmounted : MountTable.mount {} "aaaaaaaaaaaaaaa" search = .ok crowded := rfl
  have hagain : crowded.mountAgain "x" ⟨"/aaaaaaaaaaaaaaa", 0⟩ = .ok crowdedAgain := rfl
  have hcrowded : Reachable crowded := .mounted .empty hmounted
  exact ⟨hcrowded, .mountedAgain hcrowded hagain⟩

theorem crowded_solid : Solid crowded ∧ Solid crowdedAgain := by
  have hlong : Word "/aaaaaaaaaaaaaaa".toList := by decide
  have hshort : Word "/x".toList := by decide
  have hone : Solid crowded := List.forall_mem_singleton.2 hlong.2
  have htwo : Solid crowdedAgain :=
    List.forall_mem_cons.2 ⟨hlong.2, List.forall_mem_singleton.2 hshort.2⟩
  exact ⟨hone, htwo⟩

theorem crowdedAgain_read_back :
    let s := Services.steady ⟨0⟩ (.error .noTransport) .crashed
    let w : Surroundings := ⟨s, s⟩
    (∃ first second, Prints w crowdedAgain "mounts" [first, second] ∧
      Runs first.toList ["/aaaaaaaaaaaaaaasimpcurlfs".toList] ∧
      Runs second.toList ["/x".toList, "simpcurlfs".toList]) ∧
    (∃ lines, Prints w crowdedAgain "ls" lines ∧
      List.Forall₂ (fun point shown => ∃ name, point = "/" ++ name ∧ shown = name ++ "/")
        ["/aaaaaaaaaaaaaaa", "/x"] lines) ∧
    ∃ infos lines, Prints w crowdedAgain "ls /x" lines ∧
      infos.map FileInfo.name = ["request", "response.json", "response.txt"] ∧
      List.Forall₂ (fun info shown =>
        Runs shown.toList [info.name.toList, Nat.toDigits 10 info.size]) infos lines := by
  intro s w
  obtain ⟨-, hreachable⟩ := crowded_reachable
  have hback := listings_read_back crowdedAgain hreachable crowded_solid.2
  have hhealthy : crowdedAgain.Healthy := by
    rintro m hm slot ⟨hheld, hpoisoned⟩
    have hslot := List.mem_singleton.1 (List.mem_of_getElem? hheld)
    rw [hslot] at hpoisoned
    cases hpoisoned
  have hx : (⟨"/x", 0⟩ : Mount) ∈ crowdedAgain.mounts := by decide
  refine ⟨?_, hback.root w ⟨0⟩ "ls" "/" rfl rfl rfl hhealthy, ?_⟩
  · obtain ⟨lines, hprints, hwords⟩ := hback.mounts w "mounts" rfl
    have hlisted : crowdedAgain.listMounts =
        [("/aaaaaaaaaaaaaaa", "simpcurlfs"), ("/x", "simpcurlfs")] := rfl
    rw [hlisted] at hwords
    obtain _ | ⟨hfirst, _ | ⟨hsecond, _ | _⟩⟩ := hwords
    exact ⟨_, _, hprints, hfirst, hsecond⟩
  · obtain ⟨hline, hresolve⟩ := hback.leads ⟨"/x", 0⟩ hx
    obtain ⟨infos, lines, hprints, hfiles, hwords⟩ :=
      hback.files ⟨"/x", 0⟩ hx _ rfl rfl w ⟨0⟩ rfl "ls /x" "/x" hline hresolve
    exact ⟨infos, lines, hprints, hfiles.names, hwords⟩

/-- A mount of a long path is not told apart from its endpoint. -/
theorem mount_line_runs_together :
    ¬ ∀ t, Reachable t → Solid t → ∀ w, ∃ lines, Prints w t "mounts" lines ∧
      List.Forall₂ (fun entry shown => Runs shown.toList [entry.1.toList, entry.2.toList])
        t.listMounts lines := by
  intro h
  let s := Services.steady ⟨0⟩ (.error .noTransport) .crashed
  obtain ⟨lines, ⟨text, hrun, hlines⟩, hwords⟩ :=
    h crowded crowded_reachable.1 crowded_solid.1 ⟨s, s⟩
  have hlisted : crowded.listMounts = [("/aaaaaaaaaaaaaaa", "simpcurlfs")] := rfl
  rw [hlisted] at hwords
  obtain _ | ⟨hruns, _ | _⟩ := hwords
  rename_i shown
  have hanswer : (runLine ⟨s, s⟩ crowded "mounts").answer =
      .ok (some (.output ("/aaaaaaaaaaaaaaasimpcurlfs" ++ "\n"))) := rfl
  rw [hrun] at hanswer
  obtain rfl := Response.output.inj (Option.some.inj (Except.ok.inj hanswer))
  have hjoined := hlines.joined
  rw [List.map_singleton, String.join_cons, String.join_nil, String.append_empty,
    String.append_left_inj] at hjoined
  have hword : Word "/aaaaaaaaaaaaaaasimpcurlfs".toList := by decide
  have hwords := hword.words_eq
  rw [hjoined, hruns.words_eq] at hwords
  exact absurd (List.cons.inj hwords).2 (List.cons_ne_nil _ _)

end Console

end FileEndpoints

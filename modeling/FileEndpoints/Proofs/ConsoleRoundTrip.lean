import FileEndpoints.Console.Run
import FileEndpoints.Proofs.ConsoleLines
import FileEndpoints.Proofs.LockedRuns
import FileEndpoints.Proofs.ListedPaths
import FileEndpoints.Proofs.Routing
import FileEndpoints.Proofs.Utf8RoundTrip

namespace FileEndpoints

namespace MountPath

theorem IsPoint.toList_below {point : String} (h : IsPoint point) (inner : String) :
    ∃ name, '/' ∉ name ∧ point.toList = '/' :: name ∧
      (point ++ inner).toList = '/' :: (name ++ inner.toList) := by
  obtain ⟨name, -, hslash, hpoint⟩ := h.toList
  refine ⟨name, hslash, hpoint, ?_⟩
  rw [String.toList_append, hpoint]
  rfl

theorem IsPoint.normalize_below {point inner : String} (h : IsPoint point)
    (hlast : ∃ c, inner.toList.getLast? = some c ∧ Text.isBlank c = false ∧ c ≠ '/') :
    normalize (point ++ inner) = point ++ inner := by
  obtain ⟨name, -, -, hchars⟩ := h.toList_below inner
  obtain ⟨c, hc, hblank, hslash⟩ := hlast
  have hend : ('/' :: (name ++ inner.toList)).getLast? = some c := by
    rw [← List.cons_append, List.getLast?_append, hc]
    rfl
  have htrim : Text.trim ('/' :: (name ++ inner.toList)) = '/' :: (name ++ inner.toList) :=
    Text.Trimmed.trim_eq ⟨⟨'/', rfl, rfl⟩, ⟨c, hend, hblank⟩⟩
  have hdrop : dropSlashes ('/' :: (name ++ inner.toList)) = '/' :: (name ++ inner.toList) := by
    apply List.rdropWhile_eq_self_iff.2
    intro hne
    rw [List.getLast?_eq_some_getLast hne] at hend
    rw [Option.some.inj hend, beq_iff_eq]
    exact hslash
  rw [← String.toList_inj, normalize, String.toList_ofList, hchars]
  simp only [normalizeChars, htrim, hdrop, ↓reduceIte]

theorem IsPoint.parts_below {point inner : String} (h : IsPoint point) {rest : List Char}
    (hinner : inner.toList = '/' :: rest) :
    firstPart (point ++ inner) = point ∧ remainder (point ++ inner) = inner := by
  obtain ⟨name, hslash, hpoint, hchars⟩ := h.toList_below inner
  have hcut := (cut_iff hslash).1 ⟨rfl, .inr ⟨rest, hinner⟩⟩
  constructor
  · rw [← String.toList_inj, firstPart, String.toList_ofList, hchars, List.drop_one,
      List.tail_cons, ← hcut.1, hpoint]
  · rw [← String.toList_inj, remainder, String.toList_ofList, hchars, List.drop_one,
      List.tail_cons, ← hcut.2]

end MountPath

namespace MountTable

theorem Sound.resolve_below {t : MountTable} (h : Sound t) {m : Mount} (hm : m ∈ t.mounts)
    {inner : String} {rest : List Char} (hinner : inner.toList = '/' :: rest)
    (hlast : ∃ c, inner.toList.getLast? = some c ∧ Text.isBlank c = false ∧ c ≠ '/') :
    t.resolve (m.path ++ inner) = .ok (m, inner) := by
  have hpoint := h.points m hm
  obtain ⟨hfirst, hrest⟩ := hpoint.parts_below hinner
  have hne : inner ≠ "" := by
    rintro rfl
    cases hinner
  apply (h.resolve_iff m inner).2
  rw [hpoint.normalize_below hlast, hfirst, hrest, MountPath.inside, if_neg hne]
  exact ⟨hm, rfl, rfl⟩

end MountTable

namespace Console

/-- The path of the file that a command reads or writes. -/
def Command.file? : Command → Option String
  | .cat path _ _ => some path
  | .write path _ => some path
  | _ => none

/-- A line without a command that reads or writes a file of the endpoint in a slot. -/
def Elsewhere (t : MountTable) (n : Nat) (line : String) : Prop :=
  ∀ c path, Command.parse line = .ok (some c) → c.file? = some path → t.routed? path ≠ some n

/-- Where a line leads depends on the mounts alone. -/
theorem Elsewhere.of_mounts {t t' : MountTable} {n : Nat} {line : String} (h : Elsewhere t n line)
    (hmounts : t'.mounts = t.mounts) : Elsewhere t' n line := by
  intro c path hc hpath
  have hrouted : t'.routed? path = t.routed? path := by
    simp only [MountTable.routed?, MountTable.resolve, hmounts]
  rw [hrouted]
  exact h c path hc hpath

/-- The table after lines that are run in turn, each in surroundings of its own. -/
def runLines (t : MountTable) (lines : List (Surroundings × String)) : MountTable :=
  lines.foldl (fun t l => (runLine l.1 t l.2).table) t

/-- A table with the same mounts and the same endpoint in a slot. -/
structure SameAt (n : Nat) (t t' : MountTable) : Prop where
  mounts : t'.mounts = t.mounts
  slot : t'.slots[n]? = t.slots[n]?

namespace SameAt

variable {n : Nat} {t t' t'' : MountTable}

theorem refl (n : Nat) (t : MountTable) : SameAt n t t := ⟨rfl, rfl⟩

theorem trans (h : SameAt n t t') (h' : SameAt n t' t'') : SameAt n t t'' :=
  ⟨h'.mounts.trans h.mounts, h'.slot.trans h.slot⟩

theorem act {α : Type} {m : Mount} (hm : m.slot ≠ n) (t : MountTable) (w : Surroundings)
    (operate : Services → Locked BuiltIn → Outcome (Locked BuiltIn) α) :
    SameAt n t (t.act w m operate).state := by
  have hapart := t.act_apart w m operate
  exact ⟨hapart.mounts, hapart.slots n hm.symm⟩

theorem read {path : String} (h : t.routed? path ≠ some n) (w : Surroundings)
    (offset size : Int) : SameAt n t (t.read w path offset size).state := by
  simp only [MountTable.routed?] at h
  simp only [MountTable.read]
  cases hr : t.resolve path with
  | error err => exact .refl n t
  | ok route =>
    rw [hr] at h
    exact act (fun hslot => h (congrArg some hslot)) t w _

theorem write {path : String} (h : t.routed? path ≠ some n) (w : Surroundings) (data : Bytes) :
    SameAt n t (t.write w path data).state := by
  simp only [MountTable.routed?] at h
  simp only [MountTable.write]
  cases hr : t.resolve path with
  | error err => exact .refl n t
  | ok route =>
    rw [hr] at h
    exact act (fun hslot => h (congrArg some hslot)) t w _

theorem run {c : Command} (h : ∀ path, c.file? = some path → t.routed? path ≠ some n)
    (w : Surroundings) : SameAt n t (Console.run w t c).table := by
  cases c with
  | cat path offset size => exact read (h path rfl) w offset size
  | write path text => exact write (h path rfl) w (Text.encode text)
  | list path => exact .refl n t
  | stat path => exact .refl n t
  | readme mount => exact .refl n t
  | mounts => exact .refl n t
  | help => exact .refl n t
  | quit => exact .refl n t

theorem runLine {line : String} (h : Elsewhere t n line) (w : Surroundings) :
    SameAt n t (Console.runLine w t line).table := by
  simp only [Console.runLine]
  split
  · exact .refl n t
  · exact .refl n t
  · rename_i c hc
    exact run (fun path hpath => h c path hc hpath) w

theorem runLines {lines : List (Surroundings × String)} (h : ∀ l ∈ lines, Elsewhere t n l.2) :
    SameAt n t (Console.runLines t lines) := by
  induction lines generalizing t with
  | nil => exact .refl n t
  | cons l lines ih =>
    have hfirst := runLine (h l (List.mem_cons_self ..)) l.1
    refine hfirst.trans (ih fun l' hl' => ?_)
    exact (h l' (List.mem_cons_of_mem _ hl')).of_mounts hfirst.mounts

end SameAt

/-- A mount whose slot holds a skill endpoint behind a lock that is not poisoned. -/
def ShowsSkill (t : MountTable) (m : Mount) (origin : Origin) (k : Skill) : Prop :=
  t.slot? m = some { endpoint := .around (.skill k), origin }

theorem SameAt.showsSkill {t t' : MountTable} {m : Mount} {origin : Origin} {k : Skill}
    (h : SameAt m.slot t t') (hk : ShowsSkill t m origin k) : ShowsSkill t' m origin k :=
  h.slot.trans hk

end Console

theorem BuiltIn.write_skill (s : Services) (k : Skill) (path : String) (data : Bytes) :
    Endpoint.write s (BuiltIn.skill k) path data =
      (Endpoint.write s k path data).mapState .skill :=
  Endpoint.write_embedded rfl (fun _ => rfl) fun _ _ _ => rfl

theorem Skill.write_metadata {s : Services} {now : Time.Instant} (hc : s.clock = .ok now)
    (k : Skill) (data : Bytes) : Endpoint.write s k "/metadata" data =
      { answer := .ok ()
        state := { k with metadata := data }.note now .info "Updated metadata" } := by
  have hfile : tree.writable "/metadata" = .ok .metadata := rfl
  rw [write_eq]
  simp only [beginWrite, hfile, hc, Outcome.timed]
  rfl

namespace Console

section

variable {t : MountTable} {m : Mount} {origin : Origin} {k : Skill} {w : Surroundings}

theorem write_metadata (hr : t.resolve (m.path ++ "/metadata") = .ok (m, "/metadata"))
    (hk : ShowsSkill t m origin k) {now : Time.Instant}
    (hclock : (w.services origin).clock = .ok now) (data : Bytes) :
    let o := t.write w (m.path ++ "/metadata") data
    o.answer = .ok () ∧ o.state.mounts = t.mounts ∧
      ∃ k', k'.metadata = data ∧ ShowsSkill o.state m origin k' := by
  intro o
  let k' := { k with metadata := data }.note now .info "Updated metadata"
  have hplain : Endpoint.write (w.services origin) (BuiltIn.skill k) "/metadata" data =
      { answer := .ok (), state := .skill k' } := by
    rw [BuiltIn.write_skill, k.write_metadata hclock]
    rfl
  have hlocked : (Locked.around (BuiltIn.skill k)).write (w.services origin) "/metadata" data =
      { answer := .ok (), state := .around (.skill k') } := by
    rw [Locked.write_around (by rw [hplain]; exact nofun), hplain]
    rfl
  have ho : o = t.act w m fun s e => e.write s "/metadata" data := by
    change MountTable.write w t (m.path ++ "/metadata") data = _
    simp only [MountTable.write, hr]
  have hpasses := MountTable.act_passes hk w fun s e => e.write s "/metadata" data
  rw [hlocked, ← ho] at hpasses
  exact ⟨hpasses.answer, hpasses.apart.mounts, k', rfl, hpasses.changed⟩

theorem read_metadata (hr : t.resolve (m.path ++ "/metadata") = .ok (m, "/metadata"))
    (hk : ShowsSkill t m origin k) (hne : k.metadata ≠ []) (w : Surroundings)
    (offset size : Int) : (t.read w (m.path ++ "/metadata") offset size).answer =
      .ok (readWindow k.metadata offset size) := by
  have hcontent : Skill.orPlaceholder k.metadata "No metadata set\n" = k.metadata :=
    if_neg fun hempty => hne (List.isEmpty_iff.1 hempty)
  have hplain : Endpoint.read (w.services origin) (BuiltIn.skill k) "/metadata" offset size =
      { answer := .ok (readWindow k.metadata offset size), state := .skill k } := by
    rw [← hcontent]
    rfl
  have hcalm : (Endpoint.read (w.services origin) (BuiltIn.skill k) "/metadata" offset
      size).answer ≠ .error .crashed := by
    rw [hplain]
    intro hcrash
    cases hcrash
  have hlocked : (Locked.around (BuiltIn.skill k)).read (w.services origin) "/metadata"
      offset size = { answer := .ok (readWindow k.metadata offset size)
                      state := .around (.skill k) } := by
    rw [Locked.read, Locked.act_around hcalm, hplain]
    rfl
  have hpasses := MountTable.act_passes hk w fun s e => e.read s "/metadata" offset size
  rw [hlocked] at hpasses
  simp only [MountTable.read, hr]
  exact hpasses.answer

/-- What remains of a text from an offset, up to a size if that is positive. -/
def textWindow (text : String) (offset size : Int) : String :=
  let rest := (Text.encode text).drop (max offset 0).toNat
  Text.decodeLossy (if 0 < size then rest.take size.toNat else rest)

theorem decodeLossy_readWindow (text : String) (offset size : Int) :
    Text.decodeLossy (readWindow (Text.encode text) offset size) = textWindow text offset size := by
  have hoffset : (max offset 0).toNat = offset.toNat := by omega
  rw [textWindow, hoffset]
  rfl

theorem textWindow_whole (text : String) : textWindow text 0 (-1) = text :=
  Text.decodeLossy_encode text

theorem encode_ne_nil {text : String} (h : Text.Trimmed text.toList) : Text.encode text ≠ [] := by
  obtain ⟨c, hhead, -⟩ := h.first
  intro hempty
  have hdecoded := Text.decodeLossy_encode text
  rw [hempty] at hdecoded
  rw [← hdecoded] at hhead
  cases hhead

theorem cat_metadata (hr : t.resolve (m.path ++ "/metadata") = .ok (m, "/metadata"))
    {d : String} (hd : Text.Trimmed d.toList) (hk : ShowsSkill t m origin k)
    (hdata : k.metadata = Text.encode d) (w : Surroundings) (offset size : Int) :
    (run w t (.cat (m.path ++ "/metadata") offset size)).answer =
      .ok (some (.output (textWindow d offset size))) := by
  have hread := read_metadata hr hk (hdata ▸ encode_ne_nil hd) w offset size
  simp only [run, acted, hread, hdata, Except.map, Except.mapError, decodeLossy_readWindow]

theorem word_metadata (hsolid : ∀ c ∈ m.path.toList, Text.isBlank c = false) :
    Text.Word (m.path ++ "/metadata").toList := by
  rw [String.toList_append]
  constructor
  · exact List.append_ne_nil_of_right_ne_nil _ (by decide)
  · intro c hc
    rcases List.mem_append.1 hc with hc | hc
    · exact hsolid c hc
    · have hname : Text.Word "/metadata".toList := by decide
      exact hname.2 c hc

end

/-- A text that one line writes to the metadata of a skill is shown by the next line that asks for
it, in whole or in part, and lines about other endpoints in between make no difference. -/
theorem written_text_comes_back {t : MountTable} (ht : MountTable.Reachable t) {m : Mount}
    (hm : m ∈ t.mounts) (hsolid : ∀ c ∈ m.path.toList, Text.isBlank c = false) {origin : Origin}
    {k : Skill} (hk : ShowsSkill t m origin k) {w : Surroundings} {now : Time.Instant}
    (hclock : (w.services origin).clock = .ok now) {d : String} (hd : Text.Trimmed d.toList) :
    let path := m.path ++ "/metadata"
    let o := runLine w t ("write " ++ path ++ " " ++ d)
    o.answer = .ok (some (.output
        ("wrote " ++ toString d.utf8ByteSize ++ " bytes to " ++ path ++ "\n"))) ∧
      ∀ between : List (Surroundings × String), (∀ l ∈ between, Elsewhere t m.slot l.2) →
        ∀ later : Surroundings,
          (runLine later (runLines o.table between) ("cat " ++ path)).answer =
              .ok (some (.output d)) ∧
            ∀ offset size : Int, Text.minInt64 ≤ offset ∧ offset ≤ Text.maxInt64 →
              Text.minInt64 ≤ size ∧ size ≤ Text.maxInt64 →
              (runLine later (runLines o.table between)
                  ("cat " ++ path ++ " " ++ toString offset ++ " " ++ toString size)).answer =
                .ok (some (.output (textWindow d offset size))) := by
  intro path o
  have hword : Text.Word path.toList := word_metadata hsolid
  have hinner : "/metadata".toList = '/' :: "metadata".toList := rfl
  have hr : t.resolve path = .ok (m, "/metadata") :=
    ht.sound.resolve_below hm hinner ⟨'a', rfl, rfl, by decide⟩
  have ho : o = run w t (.write path d) := by
    change runLine w t ("write " ++ path ++ " " ++ d) = _
    simp only [runLine, Command.parse_write hword hd]
  obtain ⟨hanswer, hmounts, k', hdata, hk'⟩ := write_metadata hr hk hclock (Text.encode d)
  constructor
  · rw [ho]
    simp only [run, acted, path, hanswer, Except.map, Except.mapError, Text.encode_length]
  intro between helsewhere later
  have htable : o.table = (t.write w path (Text.encode d)).state := by
    rw [ho]
    rfl
  have hsame : SameAt m.slot o.table (runLines o.table between) := by
    apply SameAt.runLines
    intro l hl
    exact (helsewhere l hl).of_mounts (htable ▸ hmounts)
  have hshown := hsame.showsSkill (htable ▸ hk')
  have hresolve : (runLines o.table between).resolve path = .ok (m, "/metadata") := by
    have hall : (runLines o.table between).mounts = t.mounts :=
      hsame.mounts.trans (htable ▸ hmounts)
    rw [← hr]
    simp only [MountTable.resolve, hall]
  have hcat := cat_metadata hresolve hd hshown hdata later
  constructor
  · simp only [runLine, Command.parse_cat hword, path, hcat, textWindow_whole]
  · intro offset size hoffset hsize
    simp only [runLine, Command.parse_window hword hoffset hsize, path, hcat]

/-- A text with blanks and a character of two bytes, of which a window shows the second one only,
with a line for a search in between. -/
theorem noted_text_comes_back :
    let s := Services.steady ⟨0⟩ (.error .noTransport) (.failed "no")
    let w : Surroundings := { given := s, machine := s }
    let t : MountTable :=
      { mounts := [⟨"/notes", 0⟩, ⟨"/find", 1⟩]
        slots := [⟨.around (.skill (Skill.create ⟨0⟩)), .given⟩,
          ⟨.around (.search Eager.create), .given⟩] }
    let o := runLine w t "write /notes/metadata a  é #"
    let later := runLines o.table [(w, "write /find/request a  é #")]
    o.answer = .ok (some (.output "wrote 7 bytes to /notes/metadata\n")) ∧
      (runLine w later "cat /notes/metadata").answer = .ok (some (.output "a  é #")) ∧
      (runLine w later "cat /notes/metadata 4 2").answer = .ok (some (.output "\uFFFD ")) ∧
      (runLine w later "cat /notes/metadata -9223372036854775808 1").answer =
        .ok (some (.output "a")) := by
  intro s w t o later
  let first : MountTable :=
    { mounts := [⟨"/notes", 0⟩], slots := [⟨.around (.skill (Skill.create ⟨0⟩)), .given⟩] }
  have hnotes : MountTable.mount {} "notes" ⟨.around (.skill (Skill.create ⟨0⟩)), .given⟩ =
      .ok first := rfl
  have hfind : first.mount "find" ⟨.around (.search Eager.create), .given⟩ = .ok t := rfl
  have ht : MountTable.Reachable t := .mounted (.mounted .empty hnotes) hfind
  have hd : Text.Trimmed "a  é #".toList := ⟨⟨'a', rfl, rfl⟩, ⟨'#', rfl, rfl⟩⟩
  have hbetween : Elsewhere t 0 "write /find/request a  é #" := by
    intro c path hc hpath
    have hfile : Text.Word "/find/request".toList := by decide
    have hline : Command.parse "write /find/request a  é #" = _ := Command.parse_write hfile hd
    rw [hline] at hc
    obtain rfl := Option.some.inj (Except.ok.inj hc)
    obtain rfl := Option.some.inj hpath
    have hrouted : t.routed? "/find/request" = some 1 := rfl
    rw [hrouted]
    decide
  have hk : ShowsSkill t ⟨"/notes", 0⟩ .given (Skill.create ⟨0⟩) := rfl
  have hclock : (w.services .given).clock = .ok ⟨0⟩ := rfl
  have hsolid : Text.Word "/notes".toList := by decide
  obtain ⟨hanswer, hback⟩ :=
    written_text_comes_back ht (List.mem_cons_self ..) hsolid.2 hk hclock hd
  obtain ⟨hwhole, hpart⟩ := hback [(w, "write /find/request a  é #")]
    (fun l hl => List.mem_singleton.1 hl ▸ hbetween) w
  have hfour := hpart 4 2 (by decide) (by decide)
  have hleast := hpart (-9223372036854775808) 1 (by decide) (by decide)
  -- The lines are put together from their parts, and the windows are cut.
  have hpath : "/notes" ++ "/metadata" = "/notes/metadata" := by decide
  have hwrite : "write " ++ "/notes/metadata" ++ " " ++ "a  é #" =
    "write /notes/metadata a  é #" := by decide
  have hcat : "cat " ++ "/notes/metadata" = "cat /notes/metadata" := by decide
  have hcatFour : "cat /notes/metadata" ++ " " ++ toString (4 : Int) ++ " " ++ toString (2 : Int) =
    "cat /notes/metadata 4 2" := by decide
  have hcatLeast : "cat /notes/metadata" ++ " " ++ toString (-9223372036854775808 : Int) ++ " " ++
    toString (1 : Int) = "cat /notes/metadata -9223372036854775808 1" := by decide
  have hwrote : "wrote " ++ toString "a  é #".utf8ByteSize ++ " bytes to " ++ "/notes/metadata" ++
    "\n" = "wrote 7 bytes to /notes/metadata\n" := by decide
  have hwindow : textWindow "a  é #" 4 2 = "\uFFFD " := by decide
  have hfirst : textWindow "a  é #" (-9223372036854775808) 1 = "a" := by decide
  simp only [hpath, hwrite, hcat, hcatFour, hcatLeast, hwrote, hwindow, hfirst]
    at hanswer hwhole hfour hleast
  exact ⟨hanswer, hwhole, hfour, hleast⟩

end Console

end FileEndpoints

import FileEndpoints.Proofs.LineWords

namespace FileEndpoints

namespace Console

open Text (Blanks Word Trimmed Runs Cut Numeral)

def names : List String :=
  ["ls", "stat", "cat", "write", "readme", "mounts", "help", "?", "quit", "exit"]

/-- The number that a word stands for, or the default one if there is no word. -/
inductive Counts (default : Int) : Option (List Char) → Int → Prop
  | absent : Counts default none default
  | given {w n} (h : Numeral w n) (hlo : Text.minInt64 ≤ n) (hhi : n ≤ Text.maxInt64) :
      Counts default (some w) n

/-- What the command of a name makes of the words after it, and of the text that they stand in. -/
inductive Makes (rest : List Char) :
    String → List (List Char) → Except LineError Command → Prop
  | listRoot : Makes rest "ls" [] (.ok (.list "/"))
  | list {path ws} : Makes rest "ls" (path :: ws) (.ok (.list (String.ofList path)))
  | statNothing : Makes rest "stat" [] (.error (.usage .stat))
  | stat {path ws} : Makes rest "stat" (path :: ws) (.ok (.stat (String.ofList path)))
  | readmeNothing : Makes rest "readme" [] (.error (.usage .readme))
  | readme {path ws} : Makes rest "readme" (path :: ws) (.ok (.readme (String.ofList path)))
  | catNothing : Makes rest "cat" [] (.error (.usage .cat))
  | cat {path ws offset size} (hoffset : Counts 0 ws[0]? offset) (hsize : Counts (-1) ws[1]? size) :
      Makes rest "cat" (path :: ws) (.ok (.cat (String.ofList path) offset size))
  | catOddly {path ws}
      (h : (∀ offset, ¬ Counts 0 ws[0]? offset) ∨ ∀ size, ¬ Counts (-1) ws[1]? size) :
      Makes rest "cat" (path :: ws) (.error (.usage .cat))
  | writeNothing : Makes rest "write" [] (.error (.usage .write))
  | write {path ws text} (h : Cut rest path text) :
      Makes rest "write" (path :: ws) (.ok (.write (String.ofList path) (String.ofList text)))
  | mounts {ws} : Makes rest "mounts" ws (.ok .mounts)
  | help {name ws} (h : name = "help" ∨ name = "?") : Makes rest name ws (.ok .help)
  | quit {name ws} (h : name = "quit" ∨ name = "exit") : Makes rest name ws (.ok .quit)
  | unknown {name ws} (h : name ∉ names) : Makes rest name ws (.error (.unknownCommand name))

inductive Grammar (line : List Char) : Except LineError (Option Command) → Prop
  | blank (h : Runs line []) : Grammar line (.ok none)
  | comment {w ws} (h : Runs line (w :: ws)) (hw : w.head? = some '#') : Grammar line (.ok none)
  | command {w ws rest r} (h : Runs line (w :: ws)) (hw : w.head? ≠ some '#')
      (hrest : Cut line w rest) (hr : Makes rest (Text.lowercase (String.ofList w)) ws r) :
      Grammar line (r.map some)

section

variable {rest w : List Char} {ws : List (List Char)}

theorem numeric_eq_ok {default : Int} {word : Option (List Char)} {n : Int} :
    numeric default word = .ok n ↔ Counts default word n := by
  cases word with
  | none =>
    constructor
    · intro h
      cases h
      exact .absent
    · intro h
      cases h
      rfl
  | some w =>
    simp only [numeric]
    constructor
    · intro h
      split at h
      · rename_i m hm
        cases h
        obtain ⟨hnumeral, hlo, hhi⟩ := Text.int64?_eq_some.1 hm
        exact .given hnumeral hlo hhi
      · cases h
    · intro h
      cases h with
      | given hnumeral hlo hhi => rw [Text.int64?_eq_some.2 ⟨hnumeral, hlo, hhi⟩]

theorem numeric_cases (default : Int) (word : Option (List Char)) :
    (∃ n, numeric default word = .ok n ∧ Counts default word n) ∨
      numeric default word = .error (.usage .cat) ∧ ∀ n, ¬ Counts default word n := by
  cases h : numeric default word with
  | ok n => exact .inl ⟨n, rfl, numeric_eq_ok.1 h⟩
  | error err =>
    right
    constructor
    · cases word with
      | none => cases h
      | some w =>
        simp only [numeric] at h
        split at h
        · cases h
        · exact h.symm
    · intro n hn
      rw [numeric_eq_ok.2 hn] at h
      cases h

theorem required_nil (u : Usage) (h : Text.words rest = []) :
    required u rest = .error (.usage u) := by
  simp only [required, Text.splitWord_nil h]

theorem required_cons (u : Usage) (h : Text.words rest = w :: ws) :
    required u rest = .ok (String.ofList w) := by
  have hword := Text.word_of_words h
  simp only [required, Text.splitWord_cons h]
  split
  · exact absurd rfl hword.1
  · rfl

theorem parseList_nil (h : Text.words rest = []) : parseList rest = .list "/" := by
  simp only [parseList, Text.splitWord_nil h]

theorem parseList_cons (h : Text.words rest = w :: ws) :
    parseList rest = .list (String.ofList w) := by
  have hword := Text.word_of_words h
  simp only [parseList, Text.splitWord_cons h]
  split
  · exact absurd rfl hword.1
  · rfl

theorem parseWrite_nil (h : Text.words rest = []) : parseWrite rest = .error (.usage .write) := by
  have hfirst := Text.splitWord_nil h
  simp only [parseWrite]
  split
  · rfl
  · rename_i hne hboth
    rw [hboth] at hfirst
    exact absurd hfirst hne

theorem parseWrite_cut {path text : List Char} (hrest : rest = [] ∨ Trimmed rest)
    (h : Cut rest path text) :
    parseWrite rest = .ok (.write (String.ofList path) (String.ofList text)) := by
  have htrim : Text.trim rest = rest := by
    rcases hrest with rfl | hrest
    · rfl
    · exact hrest.trim_eq
  have hword := Text.word_of_words h.words_eq
  have hsplit := h.trim_split.2
  rw [htrim] at hsplit
  simp only [parseWrite, hsplit]
  split
  · rename_i hnil
    exact absurd (Prod.mk.inj hnil).1 hword.1
  · rename_i hboth
    obtain ⟨rfl, rfl⟩ := Prod.mk.inj hboth
    rfl

theorem parseCat_cons {path : List Char} (h : Text.words rest = path :: ws) :
    parseCat rest = do
      let offset ← numeric 0 ws[0]?
      let size ← numeric (-1) ws[1]?
      return .cat (String.ofList path) offset size := by
  simp only [parseCat, h]

theorem parseCat_nil (h : Text.words rest = []) : parseCat rest = .error (.usage .cat) := by
  simp only [parseCat, h]

theorem parseCat_oddly {path : List Char} (h : Text.words rest = path :: ws)
    (hodd : (∀ offset, ¬ Counts 0 ws[0]? offset) ∨ ∀ size, ¬ Counts (-1) ws[1]? size) :
    parseCat rest = .error (.usage .cat) := by
  rw [parseCat_cons h]
  rcases numeric_cases 0 ws[0]? with ⟨offset, ho, hoffset⟩ | ⟨ho, -⟩
  · rcases hodd with hodd | hodd
    · exact absurd hoffset (hodd offset)
    · rcases numeric_cases (-1) ws[1]? with ⟨size, -, hsize⟩ | ⟨hs, -⟩
      · exact absurd hsize (hodd size)
      · rw [ho, hs]
        rfl
  · rw [ho]
    rfl

theorem parseNamed_unknown {name : String} (h : name ∉ names) (rest : List Char) :
    parseNamed name rest = .error (.unknownCommand name) := by
  have hname {known : String} (hknown : known ∈ names) : name ≠ known := by
    rintro rfl
    exact h hknown
  unfold parseNamed
  split
  case h_11 => rfl
  all_goals exact absurd rfl (hname (by decide))

theorem Makes.parseNamed_eq {name : String} {r : Except LineError Command}
    (h : Makes rest name ws r) (hrest : rest = [] ∨ Trimmed rest) (hws : Text.words rest = ws) :
    parseNamed name rest = r := by
  cases h with
  | listRoot => exact congrArg Except.ok (parseList_nil hws)
  | list => exact congrArg Except.ok (parseList_cons hws)
  | statNothing => exact congrArg (Except.map _) (required_nil .stat hws)
  | stat => exact congrArg (Except.map _) (required_cons .stat hws)
  | readmeNothing => exact congrArg (Except.map _) (required_nil .readme hws)
  | readme => exact congrArg (Except.map _) (required_cons .readme hws)
  | catNothing => exact parseCat_nil hws
  | cat hoffset hsize =>
    have hcat := parseCat_cons hws
    rw [numeric_eq_ok.2 hoffset, numeric_eq_ok.2 hsize] at hcat
    exact hcat
  | catOddly hodd => exact parseCat_oddly hws hodd
  | writeNothing => exact parseWrite_nil hws
  | write hcut => exact parseWrite_cut hrest hcut
  | mounts => rfl
  | help hname => rcases hname with rfl | rfl <;> rfl
  | quit hname => rcases hname with rfl | rfl <;> rfl
  | unknown hname => exact parseNamed_unknown hname rest

theorem exists_makes_cat (rest path : List Char) (ws : List (List Char)) :
    ∃ r, Makes rest "cat" (path :: ws) r := by
  rcases numeric_cases 0 ws[0]? with ⟨offset, -, hoffset⟩ | ⟨-, hodd⟩
  · rcases numeric_cases (-1) ws[1]? with ⟨size, -, hsize⟩ | ⟨-, hodd⟩
    · exact ⟨_, .cat hoffset hsize⟩
    · exact ⟨_, .catOddly (.inr hodd)⟩
  · exact ⟨_, .catOddly (.inl hodd)⟩

theorem exists_makes (rest : List Char) (name : String) :
    ∃ r, Makes rest name (Text.words rest) r := by
  by_cases hname : name ∈ names
  · simp only [names, List.mem_cons, List.not_mem_nil, or_false] at hname
    cases hwords : Text.words rest with
    | nil =>
      rcases hname with rfl | rfl | rfl | rfl | rfl | rfl | rfl | rfl | rfl | rfl
      · exact ⟨_, .listRoot⟩
      · exact ⟨_, .statNothing⟩
      · exact ⟨_, .catNothing⟩
      · exact ⟨_, .writeNothing⟩
      · exact ⟨_, .readmeNothing⟩
      · exact ⟨_, .mounts⟩
      · exact ⟨_, .help (.inl rfl)⟩
      · exact ⟨_, .help (.inr rfl)⟩
      · exact ⟨_, .quit (.inl rfl)⟩
      · exact ⟨_, .quit (.inr rfl)⟩
    | cons path ws =>
      rcases hname with rfl | rfl | rfl | rfl | rfl | rfl | rfl | rfl | rfl | rfl
      · exact ⟨_, .list⟩
      · exact ⟨_, .stat⟩
      · exact exists_makes_cat rest path ws
      · obtain ⟨text, hcut, -⟩ := Text.exists_cut hwords
        exact ⟨_, .write hcut⟩
      · exact ⟨_, .readme⟩
      · exact ⟨_, .mounts⟩
      · exact ⟨_, .help (.inl rfl)⟩
      · exact ⟨_, .help (.inr rfl)⟩
      · exact ⟨_, .quit (.inl rfl)⟩
      · exact ⟨_, .quit (.inr rfl)⟩
  · exact ⟨_, .unknown hname⟩

theorem Makes.transport {rest' : List Char} {name : String} {r : Except LineError Command}
    (h : Makes rest name ws r) (hname : name ≠ "write") : Makes rest' name ws r := by
  cases h with
  | writeNothing => exact absurd rfl hname
  | write => exact absurd rfl hname
  | listRoot => exact .listRoot
  | list => exact .list
  | statNothing => exact .statNothing
  | stat => exact .stat
  | readmeNothing => exact .readmeNothing
  | readme => exact .readme
  | catNothing => exact .catNothing
  | cat hoffset hsize => exact .cat hoffset hsize
  | catOddly hodd => exact .catOddly hodd
  | mounts => exact .mounts
  | help hname => exact .help hname
  | quit hname => exact .quit hname
  | unknown hname => exact .unknown hname

section

variable {line : String}

theorem parse_blank (h : Text.words line.toList = []) : Command.parse line = .ok none := by
  simp only [Command.parse, (Text.blanks_of_words h).trim_eq]

theorem parse_comment (h : Cut line.toList w rest) (hw : w.head? = some '#') :
    Command.parse line = .ok none := by
  obtain ⟨⟨after, htrim⟩, -⟩ := h.trim_split
  cases w with
  | nil => cases hw
  | cons c w =>
    obtain rfl := Option.some.inj hw
    simp only [Command.parse, htrim, List.cons_append]

theorem parse_cut (h : Cut line.toList w rest) (hw : w.head? ≠ some '#') :
    Command.parse line = (parseNamed (Text.lowercase (String.ofList w)) rest).map some := by
  obtain ⟨⟨after, htrim⟩, hsplit⟩ := h.trim_split
  have hword := Text.word_of_words h.words_eq
  simp only [Command.parse]
  split
  · rename_i hnil
    rw [htrim] at hnil
    exact absurd (List.append_eq_nil_iff.1 hnil).1 hword.1
  · rename_i hhash
    rw [htrim] at hhash
    cases w with
    | nil => exact absurd rfl hword.1
    | cons c w => exact absurd (congrArg some (List.cons.inj hhash).1) hw
  · rw [hsplit]

theorem Grammar.parse_eq {r : Except LineError (Option Command)} (h : Grammar line.toList r) :
    Command.parse line = r := by
  cases h with
  | blank hruns => exact parse_blank hruns.words_eq
  | comment hruns hw =>
    obtain ⟨rest, hcut, -⟩ := Text.exists_cut hruns.words_eq
    exact parse_comment hcut hw
  | command hruns hw hcut hr =>
    have hwords := hcut.words_eq.symm.trans hruns.words_eq
    rw [parse_cut hcut hw, hr.parseNamed_eq hcut.rest_trimmed (List.cons.inj hwords).2]

theorem exists_grammar (line : List Char) : ∃ r, Grammar line r := by
  have hruns := Text.runs_words line
  cases hwords : Text.words line with
  | nil =>
    rw [hwords] at hruns
    exact ⟨_, .blank hruns⟩
  | cons w ws =>
    rw [hwords] at hruns
    by_cases hw : w.head? = some '#'
    · exact ⟨_, .comment hruns hw⟩
    · obtain ⟨rest, hcut, rfl⟩ := Text.exists_cut hwords
      obtain ⟨r, hr⟩ := exists_makes rest (Text.lowercase (String.ofList w))
      exact ⟨_, .command hruns hw hcut hr⟩

/-- A line is parsed to what the grammar says that it holds, and to nothing else. -/
theorem parse_iff {r : Except LineError (Option Command)} :
    Command.parse line = r ↔ Grammar line.toList r := by
  constructor
  · rintro rfl
    obtain ⟨r, hr⟩ := exists_grammar line.toList
    rw [hr.parse_eq]
    exact hr
  · exact Grammar.parse_eq

theorem parse_none_iff : Command.parse line = .ok none ↔ ∃ ws, Runs line.toList ws ∧
    ∀ w, ws.head? = some w → w.head? = some '#' := by
  constructor
  · intro h
    have hgrammar := parse_iff.1 h
    generalize hr : Except.ok none = r at hgrammar
    cases hgrammar with
    | blank hruns => exact ⟨[], hruns, nofun⟩
    | comment hruns hw => exact ⟨_, hruns, fun v hv => Option.some.inj hv ▸ hw⟩
    | @command w ws rest r => cases r <;> cases hr
  · rintro ⟨ws, hruns, hhead⟩
    cases ws with
    | nil => exact parse_iff.2 (.blank hruns)
    | cons w ws => exact parse_iff.2 (.comment hruns (hhead w rfl))

/-- Lines of the same words are parsed alike, unless they are to write. -/
theorem parse_congr {line' : String} (h : Runs line.toList ws) (h' : Runs line'.toList ws)
    (hwrite : ∀ w, ws.head? = some w → Text.lowercase (String.ofList w) ≠ "write") :
    Command.parse line = Command.parse line' := by
  have hgrammar := parse_iff.1 (Eq.refl (Command.parse line))
  symm
  rw [parse_iff]
  generalize Command.parse line = r at hgrammar
  cases hgrammar with
  | blank hruns =>
    obtain rfl := h.words_eq.symm.trans hruns.words_eq
    exact .blank h'
  | comment hruns hw =>
    obtain rfl := h.words_eq.symm.trans hruns.words_eq
    exact .comment h' hw
  | command hruns hw hcut hr =>
    obtain rfl := h.words_eq.symm.trans hruns.words_eq
    obtain ⟨rest', hcut', -⟩ := Text.exists_cut h'.words_eq
    exact .command h' hw hcut' (hr.transport (hwrite _ rfl))

theorem parse_write_nothing {path : String} (hp : Word path.toList) :
    Command.parse ("write " ++ path ++ " ") = .ok (some (.write path "")) := by
  have hname : Word "write".toList := by decide
  have hline : ("write " ++ path ++ " ").toList =
      [] ++ ("write".toList ++ ([' '] ++ (path.toList ++ [' ']))) := by
    simp only [String.toList_append, List.append_assoc]
    rfl
  have hblank : Blanks [' '] := List.forall_mem_singleton.2 rfl
  have hcut : Cut ("write " ++ path ++ " ").toList "write".toList path.toList := by
    rw [hline]
    exact .cons nofun hname hblank (List.cons_ne_nil _ _) hp.trimmed hblank
  have hpath : Cut path.toList path.toList [] := by
    have hlast := @Cut.last [] path.toList [] nofun hp nofun
    rwa [List.nil_append, List.append_nil] at hlast
  have hlower : Text.lowercase (String.ofList "write".toList) = "write" := by decide
  rw [parse_cut hcut (by decide), hlower, parseNamed, parseWrite_cut (.inr hp.trimmed) hpath,
    String.ofList_toList]
  rfl

end

end

/-- Lines are parsed by the grammar. Their words decide, unless there is something to write, and
what is written, like a window of any size, can be put on a line. -/
theorem lines_parsed_by_grammar :
    (∀ (line : String) (r : Except LineError (Option Command)),
      Command.parse line = r ↔ Grammar line.toList r) ∧
    (∀ line : String, ∃ ws, Runs line.toList ws ∧ (∀ ws', Runs line.toList ws' → ws' = ws) ∧
      (Command.parse line = .ok none ↔ ∀ w, ws.head? = some w → w.head? = some '#')) ∧
    (∀ (line line' : String) (ws : List (List Char)), Runs line.toList ws → Runs line'.toList ws →
      (∀ w, ws.head? = some w → Text.lowercase (String.ofList w) ≠ "write") →
        Command.parse line = Command.parse line') ∧
    (∀ path text : String, Word path.toList → text = "" ∨ Trimmed text.toList →
      Command.parse ("write " ++ path ++ " " ++ text) = .ok (some (.write path text))) ∧
    ∀ (path : String) (offset size : Int), Word path.toList →
      Text.minInt64 ≤ offset ∧ offset ≤ Text.maxInt64 →
      Text.minInt64 ≤ size ∧ size ≤ Text.maxInt64 →
        Command.parse ("cat " ++ path ++ " " ++ toString offset ++ " " ++ toString size) =
          .ok (some (.cat path offset size)) := by
  refine ⟨fun line r => parse_iff, ?_, fun line line' ws => parse_congr, ?_,
    fun path offset size hp => Command.parse_window hp⟩
  · intro line
    refine ⟨_, Text.runs_words line.toList, fun ws' h' => h'.words_eq.symm, ?_⟩
    rw [parse_none_iff]
    constructor
    · rintro ⟨ws, hruns, hhead⟩
      rwa [← hruns.words_eq] at hhead
    · exact fun hhead => ⟨_, Text.runs_words line.toList, hhead⟩
  · rintro path text hp (rfl | htext)
    · rw [String.append_empty]
      exact parse_write_nothing hp
    · exact Command.parse_write hp htext

/-- A name in capitals, blanks of other kinds, data with blanks inside, and the extreme numbers. -/
theorem spaced_lines_parsed :
    Command.parse "LS\u2003/a" = Command.parse " LS\t/a" ∧
      Command.parse "write /a x  #y" = .ok (some (.write "/a" "x  #y")) ∧
      Command.parse "cat /a -9223372036854775808 9223372036854775807" =
        .ok (some (.cat "/a" Text.minInt64 Text.maxInt64)) := by
  obtain ⟨-, -, hsame, hwrite, hcat⟩ := lines_parsed_by_grammar
  have hname : Word ['L', 'S'] := by decide
  have hpath : Word "/a".toList := by decide
  have htext : Trimmed "x  #y".toList := ⟨⟨'x', by decide, by decide⟩, ⟨'y', by decide, by decide⟩⟩
  have hone : Runs "/a".toList ["/a".toList] := Text.runs_iff.2 hpath.words_eq
  have hwide : Runs "LS\u2003/a".toList [['L', 'S'], "/a".toList] :=
    .word (s := '\u2003' :: "/a".toList) hname (by rintro c ⟨⟩; rfl) (.blank rfl hone)
  have htab : Runs " LS\t/a".toList [['L', 'S'], "/a".toList] :=
    .blank (c := ' ') rfl
      (.word (s := '\t' :: "/a".toList) hname (by rintro c ⟨⟩; rfl) (.blank rfl hone))
  have hlist : ∀ w, [['L', 'S'], "/a".toList].head? = some w →
      Text.lowercase (String.ofList w) ≠ "write" := by
    rintro w ⟨⟩
    decide
  exact ⟨hsame _ _ _ hwide htab hlist, hwrite "/a" "x  #y" hpath (.inr htext),
    hcat "/a" Text.minInt64 Text.maxInt64 hpath (by decide) (by decide)⟩

end Console

end FileEndpoints

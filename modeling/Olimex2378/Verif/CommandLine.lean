import Olimex2378.Host.ParseArgs

/-!
# The grammar of the command line

A command line is a sequence of items, each an option word with its value where it takes one.
An item chooses a setting, and the last choice of each counts. The loop of `pf_command_line`
consumes one item in one pass, so that it returns for exactly the sequences of items, with what
they choose; a word behind some items that starts no other ends the program.
-/

namespace Olimex2378.Verif.CommandLine

open Host Scan

/-- An option with its value. -/
inductive Item
  /-- `--quiet`. -/
  | quiet
  /-- `--logfile` and a name. -/
  | logfile (value : CString)
  /-- `--portname` and a name. -/
  | portname (value : CString)
  deriving DecidableEq

/-- The words of an item. -/
def Item.words : Item → List CString
  | .quiet => [optQuiet]
  | .logfile value => [optLogfile, value]
  | .portname value => [optPortname, value]

/-- The words of a sequence of items. -/
def words (items : List Item) : List CString := items.flatMap Item.words

/-- Words that an item starts. -/
def StartsItem (args : List CString) : Prop :=
  ∃ (item : Item) (rest : List CString), args = item.words ++ rest

/-- A word that asks for help. -/
def IsHelp (word : CString) : Prop := word = optH ∨ word = optHelp

/-- A word that `pf_command_line` knows. -/
def IsOption (word : CString) : Prop :=
  IsHelp word ∨ word = optQuiet ∨ word = optLogfile ∨ word = optPortname

/-- What a command line chooses. -/
structure Choice where
  /-- The flag. -/
  quiet : CInt
  /-- The name of the log file. -/
  logfile : CString
  /-- The name of the port. -/
  portname : CString

/-- The variables that hold a choice, each name cut to 49 bytes with zeros behind it. -/
def Choice.settings (choice : Choice) : Settings where
  quiet := choice.quiet
  logfile := choice.logfile.array
  portname := choice.portname.array

/-- The choice after another item. -/
def Choice.take (choice : Choice) : Item → Choice
  | .quiet => { choice with quiet := 1 }
  | .logfile value => { choice with logfile := value }
  | .portname value => { choice with portname := value }

/-- The value of an item that names a log file. -/
def Item.logfile? : Item → Option CString
  | .logfile value => some value
  | _ => none

/-- The value of an item that names a port. -/
def Item.portname? : Item → Option CString
  | .portname value => some value
  | _ => none

/-- What some items choose: `quiet` when it occurs, and the last name of each kind. -/
def Choice.of (before : Choice) (items : List Item) : Choice where
  quiet := if .quiet ∈ items then 1 else before.quiet
  logfile := (items.filterMap Item.logfile?).getLast?.getD before.logfile
  portname := (items.filterMap Item.portname?).getLast?.getD before.portname

/-- Taking items one after the other chooses what they choose together. -/
theorem foldl_take (before : Choice) (items : List Item) :
    items.foldl Choice.take before = before.of items := by
  induction items generalizing before with
  | nil => rfl
  | cons item rest ih =>
    rw [List.foldl_cons, ih]
    cases item with
    | quiet => simp [Choice.of, Choice.take, Item.logfile?, Item.portname?]
    | logfile value =>
      simp [Choice.of, Choice.take, Item.logfile?, Item.portname?, List.getLast?_cons]
    | portname value =>
      simp [Choice.of, Choice.take, Item.logfile?, Item.portname?, List.getLast?_cons]

/-- The variables after an item, whatever they held. The value of `--portname` is copied without
a terminator, which goes to the name of the log file. -/
def store (settings : Settings) : Item → Settings
  | .quiet => { settings with quiet := 1 }
  | .logfile value =>
    { settings with logfile := terminate (strncpy settings.logfile value (nameSize - 1)) }
  | .portname value =>
    { settings with
      portname := strncpy settings.portname value (nameSize - 1)
      logfile := terminate settings.logfile }

/-- From terminated arrays an item leaves its choice in terminated arrays: the last byte of the
port's name is zero before the copy, and that of the log file's name before it is terminated. -/
theorem store_choice (choice : Choice) (item : Item) :
    store choice.settings item = (choice.take item).settings := by
  cases item with
  | quiet => rfl
  | logfile value =>
    have holds : terminate (strncpy choice.settings.logfile value (nameSize - 1)) = value.array :=
      set_strncpy_array choice.settings.logfile value (by decide)
    rw [store, holds]
    rfl
  | portname value =>
    have holds : strncpy choice.settings.portname value (nameSize - 1) = value.array :=
      strncpy_array choice.settings.portname value (by decide)
        (choice.portname.array_last (by decide))
    have kept : terminate choice.settings.logfile = choice.logfile.array :=
      set_array choice.logfile (by decide)
    rw [store, holds, kept]
    rfl

/-- From terminated arrays some items leave what they choose in terminated arrays. -/
theorem foldl_store (choice : Choice) (items : List Item) :
    items.foldl store choice.settings = (choice.of items).settings := by
  rw [← foldl_take]
  induction items generalizing choice with
  | nil => rfl
  | cons item rest ih => rw [List.foldl_cons, store_choice, ih, List.foldl_cons]

section Loop

variable {argc : Nat} {argv : Vector CString argc} {i : Nat} {settings : Settings}
  {word value : CString} {rest : List CString}

/-- The first of the words from an index, and those behind it. -/
theorem word_at (here : argv.toList.drop i = word :: rest) :
    ∃ inside : i < argc, argv[i] = word ∧ argv.toList.drop (i + 1) = rest := by
  have inside : i < argv.toList.length := by
    apply Nat.lt_of_not_le
    intro behind
    rw [List.drop_eq_nil_of_le behind] at here
    cases here
  rw [List.drop_eq_getElem_cons inside, List.cons.injEq] at here
  refine ⟨by simpa using inside, ?_, here.2⟩
  rw [← here.1]
  simp

/-- A scan that uses up an admitted item in one pass uses up a sequence of them, with what its
items store one after the other. -/
theorem scan_words {State : Type}
    {pass : (i : Nat) → i < argc → State → Except Exit (Nat × State)}
    {loop : Nat → State → Except Exit State} (scans : Scans pass loop)
    {store : State → Item → State} {admits : Item → Prop}
    (one : ∀ i state item rest, admits item → argv.toList.drop i = item.words ++ rest →
      ∃ (inside : i < argc) (last : Nat), last + 1 = i + item.words.length ∧
        pass i inside state = .ok (last, store state item))
    (items : List Item) (admitted : ∀ item ∈ items, admits item) (i : Nat) (state : State)
    (here : argv.toList.drop i = words items ++ rest) :
    loop i state = loop (i + (words items).length) (items.foldl store state) := by
  induction items generalizing i state with
  | nil => rfl
  | cons item items ih =>
    have split : argv.toList.drop i = item.words ++ (words items ++ rest) := by
      rw [here, words, List.flatMap_cons, List.append_assoc]
      rfl
    have behind : argv.toList.drop (i + item.words.length) = words items ++ rest := by
      rw [← List.drop_drop, split, List.drop_left]
    have length : i + (words (item :: items)).length =
        i + item.words.length + (words items).length := by
      rw [words, List.flatMap_cons, List.length_append, Nat.add_assoc]
      rfl
    have others : ∀ item ∈ items, admits item :=
      fun other member => admitted other (List.mem_cons_of_mem item member)
    obtain ⟨inside, last, next, parsed⟩ :=
      one i state item _ (admitted item List.mem_cons_self) split
    rw [scans.proceed inside parsed, next, ih others _ _ behind, length, List.foldl_cons]

/-- `--quiet` sets the flag. -/
theorem parseArg_quiet {inside : i < argc} (isOption : argv[i] = optQuiet) :
    parseArg argv i inside settings = .ok (i, store settings .quiet) := by
  simp only [parseArg, strcmp_eq_zero, isOption]
  rw [if_neg (by decide), if_pos trivial, store]

/-- `--logfile` takes the next word for the name of the log file. -/
theorem parseArg_logfile {inside : i < argc} (isOption : argv[i] = optLogfile)
    (more : i + 1 < argc) (next : argv[i + 1] = value) :
    parseArg argv i inside settings = .ok (i + 1, store settings (.logfile value)) := by
  have before : i < argc - 1 := by omega
  simp only [parseArg, strcmp_eq_zero, isOption]
  rw [if_neg (by decide), if_neg (by decide), if_pos trivial, dif_pos before, next, store]

/-- `--portname` takes the next word for the name of the port. -/
theorem parseArg_portname {inside : i < argc} (isOption : argv[i] = optPortname)
    (more : i + 1 < argc) (next : argv[i + 1] = value) :
    parseArg argv i inside settings = .ok (i + 1, store settings (.portname value)) := by
  have before : i < argc - 1 := by omega
  simp only [parseArg, strcmp_eq_zero, isOption]
  rw [if_neg (by decide), if_neg (by decide), if_neg (by decide), if_pos trivial,
    dif_pos before, next, store]

/-- One item is used by one pass. -/
theorem parseArg_item (settings : Settings) (item : Item)
    (here : argv.toList.drop i = item.words ++ rest) :
    ∃ (inside : i < argc) (last : Nat), last + 1 = i + item.words.length ∧
      parseArg argv i inside settings = .ok (last, store settings item) := by
  cases item with
  | quiet =>
    cases word_at here with
    | intro inside first => exact ⟨inside, i, rfl, parseArg_quiet first.1⟩
  | logfile value =>
    cases word_at here with
    | intro inside first =>
      cases word_at first.2 with
      | intro more second => exact ⟨inside, i + 1, rfl, parseArg_logfile first.1 more second.1⟩
  | portname value =>
    cases word_at here with
    | intro inside first =>
      cases word_at first.2 with
      | intro more second => exact ⟨inside, i + 1, rfl, parseArg_portname first.1 more second.1⟩

/-- A sequence of items is used up with what it stores. -/
theorem parseFrom_words (items : List Item) (here : argv.toList.drop i = words items ++ rest) :
    parseFrom argv i settings =
      parseFrom argv (i + (words items).length) (items.foldl store settings) :=
  scan_words (parseFrom_scans argv) (fun _ state item _ _ here => parseArg_item state item here)
    items (fun _ _ => trivial) i settings here

/-- A word with none behind it is the last. -/
theorem no_more (behind : argv.toList.drop (i + 1) = []) : ¬ i < argc - 1 := by
  rw [List.drop_eq_nil_iff, Vector.length_toList] at behind
  omega

/-- A pass over a word that starts no item, behind the first word, is an exit, and a
successful one when the word asks for help. -/
theorem parseArg_stuck (settings : Settings) {inside : i < argc} (behind : i ≠ 0)
    (here : argv[i] = word) (later : argv.toList.drop (i + 1) = rest)
    (stuck : ¬ StartsItem (word :: rest)) :
    ∃ exit, parseArg argv i inside settings = .error exit ∧
      (exit.status = .success ↔ IsHelp word) := by
  simp only [parseArg, strcmp_eq_zero, here]
  by_cases help : word = optH ∨ word = optHelp
  · rw [if_pos help]
    exact ⟨_, rfl, iff_of_true rfl help⟩
  rw [if_neg help]
  have failure : ¬ ExitStatus.failure = .success := by decide
  by_cases quiet : word = optQuiet
  · exact (stuck ⟨.quiet, rest, by rw [quiet]; rfl⟩).elim
  rw [if_neg quiet]
  by_cases logfile : word = optLogfile
  · cases rest with
    | nil =>
      rw [if_pos logfile, dif_neg (no_more later)]
      exact ⟨_, rfl, iff_of_false failure help⟩
    | cons value more => exact (stuck ⟨.logfile value, more, by rw [logfile]; rfl⟩).elim
  rw [if_neg logfile]
  by_cases portname : word = optPortname
  · cases rest with
    | nil =>
      rw [if_pos portname, dif_neg (no_more later)]
      exact ⟨_, rfl, iff_of_false failure help⟩
    | cons value more => exact (stuck ⟨.portname value, more, by rw [portname]; rfl⟩).elim
  rw [if_neg portname, if_pos behind]
  exact ⟨_, rfl, iff_of_false failure help⟩

/-- Words that start no item end the program, successfully when help is asked for. -/
theorem parseFrom_stuck (settings : Settings) (behind : i ≠ 0)
    (here : argv.toList.drop i = word :: rest) (stuck : ¬ StartsItem (word :: rest)) :
    ∃ exit, parseFrom argv i settings = .error exit ∧
      (exit.status = .success ↔ IsHelp word) := by
  cases word_at here with
  | intro inside first =>
    obtain ⟨exit, refused, status⟩ :
        ∃ exit, parseArg argv i inside settings = .error exit ∧
          (exit.status = .success ↔ IsHelp word) :=
      parseArg_stuck settings behind first.1 first.2 stuck
    exact ⟨exit, (parseFrom_scans argv).refuse inside refused, status⟩

end Loop

/-- Every list of words is a sequence of items and some words that start no item. -/
theorem split_items (args : List CString) :
    ∃ items rest, args = words items ++ rest ∧ ¬ StartsItem rest := by
  by_cases starts : StartsItem args
  · obtain ⟨item, later, split⟩ := starts
    have positive : 0 < item.words.length := by
      cases item with
      | quiet => exact Nat.one_pos
      | logfile value => exact Nat.two_pos
      | portname value => exact Nat.two_pos
    have shorter : later.length < args.length := by
      rw [split, List.length_append]
      omega
    obtain ⟨items, rest, whole, stuck⟩ := split_items later
    refine ⟨item :: items, rest, ?_, stuck⟩
    rw [split, whole, words, words, List.flatMap_cons, List.append_assoc]
  · exact ⟨[], args, rfl, starts⟩
termination_by args.length

/-- `argv[1]` to `argv[argc-1]`. -/
def args {argc : Nat} (argv : Vector CString argc) : List CString := argv.toList.drop 1

section Run

variable {argc : Nat} {argv : Vector CString argc} (choice : Choice)

/-- A pass over a first word that is no option changes nothing. -/
theorem parseArg_skip (present : 0 < argc) (program : ¬ IsOption argv[0]) (settings : Settings) :
    parseArg argv 0 present settings = .ok (0, settings) := by
  have help : ¬ (argv[0] = optH ∨ argv[0] = optHelp) := fun known => program (Or.inl known)
  have known : ¬ (argv[0] = optQuiet ∨ argv[0] = optLogfile ∨ argv[0] = optPortname) :=
    fun known => program (Or.inr known)
  simp only [parseArg, strcmp_eq_zero]
  rw [if_neg help, if_neg (fun same => known (Or.inl same)),
    if_neg (fun same => known (Or.inr (Or.inl same))),
    if_neg (fun same => known (Or.inr (Or.inr same))), if_neg (fun other => other rfl)]

/-- A first word that is no option is passed over. -/
theorem pfCommandLine_skip (present : 1 ≤ argc) (program : ¬ IsOption argv[0])
    (settings : Settings) : pfCommandLine argv settings = parseFrom argv 1 settings := by
  have some : argc ≠ 0 := by omega
  have passed := parseArg_skip present program settings
  rw [pfCommandLine, if_neg some, (parseFrom_scans argv).proceed present passed]

/-- A sequence of items is accepted with what it chooses. -/
theorem pfCommandLine_words (present : 1 ≤ argc) (program : ¬ IsOption argv[0])
    {items : List Item} (whole : args argv = words items) :
    pfCommandLine argv choice.settings = .ok (choice.of items).settings := by
  have here : argv.toList.drop 1 = words items ++ [] := by
    rw [List.append_nil]
    exact whole
  have length := congrArg List.length whole
  rw [args, List.length_drop, Vector.length_toList] at length
  rw [pfCommandLine_skip present program, parseFrom_words items here,
    (parseFrom_scans argv).finish _ _ (by omega), foldl_store]

/-- A word that starts no item, behind some items, is an exit. -/
theorem pfCommandLine_stuck (present : 1 ≤ argc) (program : ¬ IsOption argv[0])
    {items : List Item} {word : CString} {rest : List CString}
    (split : args argv = words items ++ word :: rest) (stuck : ¬ StartsItem (word :: rest)) :
    ∃ exit, pfCommandLine argv choice.settings = .error exit ∧
      (exit.status = .success ↔ IsHelp word) := by
  have behind : 1 + (words items).length ≠ 0 := by omega
  have here : argv.toList.drop (1 + (words items).length) = word :: rest := by
    have whole : argv.toList.drop 1 = words items ++ word :: rest := split
    rw [← List.drop_drop, whole, List.drop_left]
  rw [pfCommandLine_skip present program, parseFrom_words items split]
  exact parseFrom_stuck _ behind here stuck

/-- Words that are no sequence of items are refused. -/
theorem pfCommandLine_refuses (present : 1 ≤ argc) (program : ¬ IsOption argv[0])
    (none : ¬ ∃ items, args argv = words items) :
    ∃ exit, pfCommandLine argv choice.settings = .error exit ∧
      (exit.status = .success ↔ ∃ items word rest, args argv = words items ++ word :: rest ∧
        ¬ StartsItem (word :: rest) ∧ IsHelp word) := by
  obtain ⟨items, rest, split, stuck⟩ := split_items (args argv)
  cases rest with
  | nil => exact (none ⟨items, split.trans (List.append_nil _)⟩).elim
  | cons word rest =>
    obtain ⟨exit, refused, status⟩ := pfCommandLine_stuck choice present program split stuck
    refine ⟨exit, refused, ?_⟩
    constructor
    · intro success
      exact ⟨items, word, rest, split, stuck, status.1 success⟩
    · rintro ⟨others, other, later, otherSplit, otherStuck, help⟩
      -- Both readings of the words describe the one exit.
      obtain ⟨same, sameRefused, sameStatus⟩ :=
        pfCommandLine_stuck choice present program otherSplit otherStuck
      cases refused.symm.trans sameRefused
      exact sameStatus.2 help

end Run

/-- `pf_command_line` returns for exactly the sequences of items, with the last choice of each
setting in terminated arrays, and otherwise exits, successfully exactly when the first word
that starts no item asks for help. -/
theorem pfCommandLine_grammar {argc : Nat} (argv : Vector CString argc) (present : 1 ≤ argc)
    (program : ¬ IsOption argv[0]) (quiet : CInt) (logName portName : CString) :
    let before : Settings := { quiet, logfile := logName.array, portname := portName.array }
    ((∃ after, pfCommandLine argv before = .ok after) ↔ ∃ items, args argv = words items) ∧
    (∀ items after, args argv = words items → pfCommandLine argv before = .ok after →
      after.quiet = (if .quiet ∈ items then 1 else quiet) ∧
      after.logfile = ((items.filterMap Item.logfile?).getLast?.getD logName).array ∧
      after.portname = ((items.filterMap Item.portname?).getLast?.getD portName).array ∧
      Terminated after.logfile ∧ Terminated after.portname) ∧
    ((¬ ∃ items, args argv = words items) →
      ∃ exit, pfCommandLine argv before = .error exit ∧
        (exit.status = .success ↔ ∃ items word rest, args argv = words items ++ word :: rest ∧
          ¬ StartsItem (word :: rest) ∧ IsHelp word)) := by
  intro before
  let choice : Choice := { quiet, logfile := logName, portname := portName }
  have accepts : ∀ items, args argv = words items →
      pfCommandLine argv before = .ok (choice.of items).settings :=
    fun _ whole => pfCommandLine_words choice present program whole
  have refuses := pfCommandLine_refuses choice present program
  refine ⟨⟨?_, ?_⟩, ?_, refuses⟩
  · rintro ⟨after, returned⟩
    apply Classical.byContradiction
    intro none
    obtain ⟨exit, refused, _⟩ := refuses none
    cases returned.symm.trans refused
  · rintro ⟨items, whole⟩
    exact ⟨_, accepts items whole⟩
  · intro items after whole returned
    cases returned.symm.trans (accepts items whole)
    have terminated (name : CString) : Terminated (name.array : Vector UInt8 nameSize) :=
      name.array_terminated (by decide)
    exact ⟨rfl, rfl, rfl, terminated _, terminated _⟩

/-- The words of a command line that names a port twice, the second time with an option word. -/
def twoPorts : Vector CString 6 :=
  #v[⟨chars "./datapath-host", by decide⟩, optPortname, ⟨chars "/dev/ttyUSB0", by decide⟩,
    optQuiet, optPortname, optHelp]

/-- From the variables of `main` they choose the flag and the second name. -/
theorem pfCommandLine_grammar_twoPorts :
    ∃ after, pfCommandLine twoPorts mainSettings = .ok after ∧ after.quiet = 1 ∧
      after.logfile = mainSettings.logfile ∧ after.portname = optHelp.array := by
  have program : ¬ IsOption twoPorts[0] := by
    unfold IsOption IsHelp
    decide
  have whole : args twoPorts =
      words [.portname ⟨chars "/dev/ttyUSB0", by decide⟩, .quiet, .portname optHelp] := rfl
  have grammar := pfCommandLine_grammar twoPorts (by decide) program 0
    ⟨chars "./datapath-host.log", by decide⟩ ⟨chars "/dev/ttyACM0", by decide⟩
  obtain ⟨after, returned⟩ := grammar.1.2 ⟨_, whole⟩
  have chosen := grammar.2.1 _ after whole returned
  exact ⟨after, returned, chosen.1, chosen.2.1, chosen.2.2.1⟩

end Olimex2378.Verif.CommandLine

import Olimex2378.Host.IsocParseArgs
import Olimex2378.Verif.CommandLine

/-!
# The two copies of the command line

`pf_command_line` of `datapath-test` and of `dp-isoc` read the words in the same way: a first
word that is no option is passed over, and what follows is used up item by item. From any content
of the buffers for the names, each copy returns for exactly the command lines of its own options,
with what their items store one after the other.
-/

namespace Olimex2378.Verif.BothCopies

open Host CommandLine Scan

/-- The two buffers. -/
abbrev Names := IsocParseArgs.Settings

/-- Words as the arguments of a program. -/
def argvOf (args : List CString) : Vector CString args.length := ⟨args.toArray, rfl⟩

/-- What `pf_command_line` of `datapath-test` leaves in the buffers. -/
def datapathNames (quiet : CInt) (before : Names) (args : List CString) : Except Exit Names :=
  (pfCommandLine (argvOf args) (before.quietly quiet)).map IsocParseArgs.ofHost

/-- What `pf_command_line` of `dp-isoc` leaves in the buffers. -/
def isocNames (before : Names) (args : List CString) : Except Exit Names :=
  IsocParseArgs.pfCommandLine (argvOf args) before

/-- The buffers after an item. -/
def storeName (names : Names) : Item → Names
  | .quiet => names
  | .logfile value =>
    { names with logfile := terminate (strncpy names.logfile value (nameSize - 1)) }
  | .portname value =>
    { names with
      portname := strncpy names.portname value (nameSize - 1)
      logfile := terminate names.logfile }

/-- An item stores the same in the buffers whatever the flag is. -/
theorem ofHost_store (settings : Settings) (item : Item) :
    IsocParseArgs.ofHost (store settings item) = storeName (IsocParseArgs.ofHost settings) item := by
  cases item <;> rfl

/-- A word that the copy of `dp-isoc` knows. -/
def IsIsocOption (word : CString) : Prop := IsHelp word ∨ word = optLogfile ∨ word = optPortname

/-- The items of a command line behind a first word that is no option, if there is one. -/
def IsLine (known : CString → Prop) (admits : Item → Prop) (args : List CString)
    (items : List Item) : Prop :=
  ∃ lead, (lead = [] ∨ ∃ word, lead = [word] ∧ ¬ known word) ∧ (∀ item ∈ items, admits item) ∧
    args = lead ++ words items

/-- A command returns for exactly the command lines, with what their items store. -/
def Reads (known : CString → Prop) (admits : Item → Prop)
    (command : Names → List CString → Except Exit Names) : Prop :=
  ∀ before args after, command before args = .ok after ↔
    args ≠ [] ∧ ∃ items, IsLine known admits args items ∧ after = items.foldl storeName before

section Scan

variable {argc : Nat} {argv : Vector CString argc} {State : Type}
  {pass : (i : Nat) → i < argc → State → Except Exit (Nat × State)}
  {loop : Nat → State → Except Exit State} {store : State → Item → State}
  {known : CString → Prop} {admits : Item → Prop}

/-- What the passes of both copies do: an admitted item is used up and stored, a first word that
is no option is passed over, and a pass does nothing else without an exit. -/
structure Passes (argv : Vector CString argc)
    (pass : (i : Nat) → i < argc → State → Except Exit (Nat × State))
    (store : State → Item → State) (known : CString → Prop) (admits : Item → Prop) : Prop where
  /-- An item. -/
  one : ∀ i state item rest, admits item → argv.toList.drop i = item.words ++ rest →
    ∃ (inside : i < argc) (last : Nat), last + 1 = i + item.words.length ∧
      pass i inside state = .ok (last, store state item)
  /-- A first word that is no option. -/
  skip : ∀ (present : 0 < argc) state, ¬ known argv[0] → pass 0 present state = .ok (0, state)
  /-- Nothing else. -/
  inversion : ∀ {i inside state passed}, pass i inside state = .ok passed →
    (i = 0 ∧ ¬ known argv[i] ∧ passed = (i, state)) ∨
      ∃ item, admits item ∧ passed.2 = store state item ∧
        argv.toList.drop i = item.words ++ argv.toList.drop (passed.1 + 1)

/-- A scan returns from an index behind the first for exactly the items that follow. -/
theorem Passes.returns (passes : Passes argv pass store known admits) (scans : Scans pass loop)
    {after : State} (i : Nat) (state : State) (returned : loop i state = .ok after) :
    0 < i → ∃ items, (∀ item ∈ items, admits item) ∧ argv.toList.drop i = words items ∧
      after = items.foldl store state := by
  refine scans.induct (motive := fun i state => 0 < i → ∃ items, (∀ item ∈ items, admits item) ∧
    argv.toList.drop i = words items ∧ after = items.foldl store state) ?_ ?_ i state returned
  · intro i behind _
    have none : argv.toList.drop i = [] := by
      rw [List.drop_eq_nil_iff, Vector.length_toList]
      exact behind
    exact ⟨[], fun item member => absurd member List.not_mem_nil, none, rfl⟩
  · intro i inside state passed parsed later behind
    rcases passes.inversion parsed with first | ⟨item, admitted, stored, here⟩
    · omega
    · obtain ⟨items, others, follow, result⟩ := later (Nat.succ_pos _)
      refine ⟨item :: items, List.forall_mem_cons.2 ⟨admitted, others⟩, ?_, ?_⟩
      · rw [here, follow, words, words, List.flatMap_cons]
      · rw [result, stored, List.foldl_cons]

/-- A scan uses up the items that follow an index, and returns. -/
theorem Passes.accepts (passes : Passes argv pass store known admits) (scans : Scans pass loop)
    {items : List Item} (admitted : ∀ item ∈ items, admits item) {i : Nat} (state : State)
    (within : i ≤ argc) (here : argv.toList.drop i = words items) :
    loop i state = .ok (items.foldl store state) := by
  have split : argv.toList.drop i = words items ++ [] := by
    rw [here, List.append_nil]
  have length := congrArg List.length here
  rw [List.length_drop, Vector.length_toList] at length
  rw [scan_words scans passes.one items admitted i state split]
  exact scans.finish _ _ (by omega)

/-- A scan from the first word returns for exactly the command lines. -/
theorem Passes.returns_iff (passes : Passes argv pass store known admits)
    (scans : Scans pass loop) (present : 0 < argc) (before after : State) :
    loop 0 before = .ok after ↔
      ∃ items, IsLine known admits argv.toList items ∧ after = items.foldl store before := by
  have first : argv.toList = argv[0] :: argv.toList.drop 1 := by
    have inside : 0 < argv.toList.length := by simpa using present
    have split := List.drop_eq_getElem_cons inside
    simpa using split
  constructor
  · intro returned
    cases made : pass 0 present before with
    | error exit => cases returned.symm.trans (scans.refuse present made)
    | ok passed =>
      have later : loop (passed.1 + 1) passed.2 = .ok after :=
        (scans.proceed present made).symm.trans returned
      obtain ⟨items, admitted, follow, result⟩ :=
        passes.returns scans _ _ later (Nat.succ_pos _)
      rcases passes.inversion made with ⟨-, program, same⟩ | ⟨item, one, stored, here⟩
      · rw [same] at follow result
        refine ⟨items, ⟨[argv[0]], Or.inr ⟨argv[0], rfl, program⟩, admitted, ?_⟩, result⟩
        rw [← follow]
        exact first
      · refine ⟨item :: items, ⟨[], Or.inl rfl, List.forall_mem_cons.2 ⟨one, admitted⟩, ?_⟩, ?_⟩
        · have whole : argv.toList = item.words ++ argv.toList.drop (passed.1 + 1) := here
          rw [List.nil_append, words, List.flatMap_cons, ← words, ← follow]
          exact whole
        · rw [result, stored, List.foldl_cons]
  · rintro ⟨items, ⟨lead, isLead, admitted, line⟩, result⟩
    rw [result]
    rcases isLead with none | ⟨word, single, program⟩
    · rw [none, List.nil_append] at line
      exact passes.accepts scans admitted before (Nat.zero_le _) line
    · rw [single, List.singleton_append, first, List.cons.injEq] at line
      have passed := passes.skip present before (line.1 ▸ program)
      rw [scans.proceed present passed]
      exact passes.accepts scans admitted before present line.2

end Scan

section Copies

variable {argc : Nat} {argv : Vector CString argc} {i : Nat} {inside : i < argc}

/-- The words from an index with one behind it. -/
theorem drop_two (more : i + 1 < argc) :
    argv.toList.drop i = [argv[i], argv[i + 1]] ++ argv.toList.drop (i + 1 + 1) := by
  have second : i + 1 < argv.toList.length := by simpa using more
  have first : i < argv.toList.length := by omega
  rw [List.drop_eq_getElem_cons first, List.drop_eq_getElem_cons second]
  simp

/-- A pass without an exit uses up an item, or passes over a first word that is no option. -/
theorem parseArg_inversion {settings : Settings} {passed : Nat × Settings}
    (parsed : parseArg argv i inside settings = .ok passed) :
    (i = 0 ∧ ¬ IsOption argv[i] ∧ passed = (i, settings)) ∨
      ∃ item : Item, True ∧ passed.2 = store settings item ∧
        argv.toList.drop i = item.words ++ argv.toList.drop (passed.1 + 1) := by
  have present : i < argv.toList.length := by simpa using inside
  simp only [parseArg, strcmp_eq_zero] at parsed
  -- One bullet for each branch of the source, in its order.
  split at parsed
  · cases parsed
  next help =>
  split at parsed
  · next isOption =>
    cases parsed
    refine Or.inr ⟨.quiet, trivial, rfl, ?_⟩
    rw [List.drop_eq_getElem_cons present, Item.words, ← isOption]
    simp
  next quiet =>
  split at parsed
  · next isOption =>
    split at parsed
    · next more =>
      cases parsed
      refine Or.inr ⟨.logfile argv[i + 1], trivial, rfl, ?_⟩
      rw [Item.words, ← isOption]
      exact drop_two (by omega)
    · cases parsed
  next logfile =>
  split at parsed
  · next isOption =>
    split at parsed
    · next more =>
      cases parsed
      refine Or.inr ⟨.portname argv[i + 1], trivial, rfl, ?_⟩
      rw [Item.words, ← isOption]
      exact drop_two (by omega)
    · cases parsed
  next portname =>
  split at parsed
  · cases parsed
  · next first =>
    cases parsed
    refine Or.inl ⟨Classical.byContradiction first, ?_, rfl⟩
    intro isOption
    rcases isOption with isHelp | isQuiet | isLogfile | isPortname
    · exact help isHelp
    · exact quiet isQuiet
    · exact logfile isLogfile
    · exact portname isPortname

/-- The passes of `datapath-test`. -/
theorem parseArg_passes (argv : Vector CString argc) :
    Passes argv (parseArg argv) store IsOption (fun _ => True) where
  one _ state item _ _ here := parseArg_item state item here
  skip present state program := parseArg_skip present program state
  inversion := parseArg_inversion

/-- The first word of an item. -/
theorem first_of_item {item : Item} {rest : List CString}
    (here : argv.toList.drop i = item.words ++ rest) :
    argv[i] = optQuiet ↔ item = .quiet := by
  cases item with
  | quiet =>
    obtain ⟨_, isFirst, -⟩ := word_at here
    exact iff_of_true isFirst rfl
  | logfile value =>
    obtain ⟨_, isFirst, -⟩ := word_at here
    rw [isFirst]
    exact iff_of_false (by decide) (by simp)
  | portname value =>
    obtain ⟨_, isFirst, -⟩ := word_at here
    rw [isFirst]
    exact iff_of_false (by decide) (by simp)

/-- A word that the copy of `dp-isoc` does not know is unknown to the other one, except for
`--quiet`. -/
theorem unknown_iff (word : CString) :
    ¬ IsIsocOption word ↔ word = optQuiet ∨ ¬ IsOption word := by
  have quiet : ¬ IsIsocOption optQuiet := by
    unfold IsIsocOption IsHelp
    decide
  constructor
  · intro unknown
    by_cases isQuiet : word = optQuiet
    · exact Or.inl isQuiet
    · refine Or.inr fun known => ?_
      rcases known with help | isQuiet' | others
      · exact unknown (Or.inl help)
      · exact isQuiet isQuiet'
      · exact unknown (Or.inr others)
  · rintro (isQuiet | unknown) known
    · exact quiet (isQuiet ▸ known)
    · rcases known with help | others
      · exact unknown (Or.inl help)
      · exact unknown (Or.inr (Or.inr others))

/-- The passes of `dp-isoc`. -/
theorem isoc_passes (argv : Vector CString argc) :
    Passes argv (IsocParseArgs.parseArg argv) storeName IsIsocOption (· ≠ .quiet) where
  one i names item rest admitted here := by
    obtain ⟨inside, last, next, parsed⟩ := parseArg_item (names.quietly 0) item here
    have other : argv[i] ≠ optQuiet := fun same => admitted ((first_of_item here).1 same)
    refine ⟨inside, last, next, ?_⟩
    rw [IsocParseArgs.parseArg_same other 0, parsed]
    show Except.ok (last, IsocParseArgs.ofHost (store (names.quietly 0) item)) = _
    rw [ofHost_store]
    rfl
  skip present names program := by
    by_cases isQuiet : argv[0] = optQuiet
    · rcases IsocParseArgs.parseArg_quiet present isQuiet names with
        ⟨-, passed⟩ | ⟨behind, -⟩
      · exact passed
      · exact absurd rfl behind
    · have unknown := ((unknown_iff argv[0]).1 program).resolve_left isQuiet
      rw [IsocParseArgs.parseArg_same isQuiet 0, parseArg_skip present unknown]
      rfl
  inversion {i inside names passed} parsed := by
    by_cases isQuiet : argv[i] = optQuiet
    · rcases IsocParseArgs.parseArg_quiet inside isQuiet names with
        ⟨first, same⟩ | ⟨-, exit, refused⟩
      · cases parsed.symm.trans same
        exact Or.inl ⟨first, (unknown_iff argv[i]).2 (Or.inl isQuiet), rfl⟩
      · cases parsed.symm.trans refused
    · rw [IsocParseArgs.parseArg_same isQuiet 0] at parsed
      cases made : parseArg argv i inside (names.quietly 0) with
      | error exit =>
        rw [made] at parsed
        cases parsed
      | ok found =>
        rw [made] at parsed
        cases parsed
        rcases parseArg_inversion made with ⟨first, unknown, same⟩ | ⟨item, -, stored, here⟩
        · refine Or.inl ⟨first, (unknown_iff argv[i]).2 (Or.inr unknown), ?_⟩
          rw [same]
          rfl
        · refine Or.inr ⟨item, fun quiet => isQuiet ((first_of_item here).2 quiet), ?_, here⟩
          show IsocParseArgs.ofHost found.2 = _
          rw [stored, ofHost_store]
          rfl

end Copies

/-- Items store the same in the buffers whatever the flag is. -/
theorem ofHost_foldl (items : List Item) (settings : Settings) :
    IsocParseArgs.ofHost (items.foldl store settings) =
      items.foldl storeName (IsocParseArgs.ofHost settings) := by
  induction items generalizing settings with
  | nil => rfl
  | cons item items ih => rw [List.foldl_cons, ih, ofHost_store, List.foldl_cons]

/-- `pf_command_line` of `datapath-test` returns for exactly the command lines. -/
theorem datapathNames_reads (quiet : CInt) :
    Reads IsOption (fun _ => True) (datapathNames quiet) := by
  intro before args after
  rw [datapathNames, pfCommandLine]
  cases args with
  | nil => exact iff_of_false (by intro returned; cases returned) (fun some => some.1 rfl)
  | cons word rest =>
    have returns := (parseArg_passes (argvOf (word :: rest))).returns_iff
      (parseFrom_scans (argvOf (word :: rest))) (Nat.succ_pos _) (before.quietly quiet)
    have some : (word :: rest).length ≠ 0 := Nat.succ_ne_zero _
    rw [if_neg some]
    constructor
    · intro returned
      cases left : parseFrom (argvOf (word :: rest)) 0 (before.quietly quiet) with
      | error exit =>
        rw [left] at returned
        cases returned
      | ok settings =>
        rw [left] at returned
        cases returned
        obtain ⟨items, line, result⟩ := (returns settings).1 left
        refine ⟨List.cons_ne_nil _ _, items, line, ?_⟩
        rw [result, ofHost_foldl]
        rfl
    · rintro ⟨-, items, line, result⟩
      rw [(returns _).2 ⟨items, line, rfl⟩, result]
      show Except.ok (IsocParseArgs.ofHost _) = _
      rw [ofHost_foldl]
      rfl

/-- `pf_command_line` of `dp-isoc` returns for exactly the command lines. -/
theorem isocNames_reads : Reads IsIsocOption (· ≠ .quiet) isocNames := by
  intro before args after
  rw [isocNames, IsocParseArgs.pfCommandLine]
  cases args with
  | nil => exact iff_of_false (by intro returned; cases returned) (fun some => some.1 rfl)
  | cons word rest =>
    have returns := (isoc_passes (argvOf (word :: rest))).returns_iff
      (IsocParseArgs.parseFrom_scans (argvOf (word :: rest))) (Nat.succ_pos _) before after
    have some : (word :: rest).length ≠ 0 := Nat.succ_ne_zero _
    rw [if_neg some, returns]
    exact ⟨fun line => ⟨List.cons_ne_nil _ _, line⟩, And.right⟩

end Olimex2378.Verif.BothCopies

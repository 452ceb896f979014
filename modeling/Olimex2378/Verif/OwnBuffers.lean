import Olimex2378.Verif.BothCopies

/-!
# The buffer of each name

Both copies of `pf_command_line` store what the items of a command line say in the two buffers.
An item that names a port copies its value without a terminator and terminates the other buffer,
so the buffers come out as if each option had its own only when they go in with a zero at the
end, or the values are such that the terminator does not matter.
-/

namespace Olimex2378.Verif.OwnBuffers

open Host CommandLine BothCopies

/-- A word that takes the next one for its value. -/
def TakesValue (word : CString) : Prop := word = optLogfile ∨ word = optPortname

/-- The condition can be evaluated. -/
instance (word : CString) : Decidable (TakesValue word) :=
  inferInstanceAs (Decidable (word = optLogfile ∨ word = optPortname))

/-- A command line without the items of an option that takes a value. -/
def without (option : CString) : List CString → List CString
  | [] => []
  | [word] => [word]
  | word :: value :: rest =>
    if TakesValue word then
      if word = option then without option rest else word :: value :: without option rest
    else word :: without option (value :: rest)

/-- The values that a command line gives to an option. -/
def values (option : CString) : List CString → List CString
  | [] => []
  | [_] => []
  | word :: value :: rest =>
    if TakesValue word then
      if word = option then value :: values option rest else values option rest
    else values option (value :: rest)

/-- The option of an item. -/
def itemOption : Item → CString
  | .quiet => optQuiet
  | .logfile _ => optLogfile
  | .portname _ => optPortname

section Removed

variable {option word value : CString} {rest : List CString}

/-- A word that takes no value stays. -/
theorem without_other (other : ¬ TakesValue word) :
    without option (word :: rest) = word :: without option rest := by
  cases rest with
  | nil => rfl
  | cons next rest => rw [without, if_neg other]

/-- A word that takes no value gives none. -/
theorem values_other (other : ¬ TakesValue word) :
    values option (word :: rest) = values option rest := by
  cases rest with
  | nil => rfl
  | cons next rest => rw [values, if_neg other]

/-- `--quiet` takes no value. -/
theorem quiet_other : ¬ TakesValue optQuiet := by decide

/-- An item is removed with its value, or stays. -/
theorem without_item (isOption : TakesValue option) (item : Item) (rest : List CString) :
    without option (item.words ++ rest) =
      if itemOption item = option then without option rest
      else item.words ++ without option rest := by
  cases item with
  | quiet =>
    have differs : optQuiet ≠ option := fun same => quiet_other (same ▸ isOption)
    rw [itemOption, if_neg differs]
    exact without_other quiet_other
  | logfile value =>
    have takes : TakesValue optLogfile := Or.inl rfl
    show (if TakesValue optLogfile then _ else _) = _
    rw [if_pos takes]
    rfl
  | portname value =>
    have takes : TakesValue optPortname := Or.inr rfl
    show (if TakesValue optPortname then _ else _) = _
    rw [if_pos takes]
    rfl

/-- Removing the items of an option leaves the other ones. -/
theorem without_words (isOption : TakesValue option) (items : List Item) :
    without option (words items) = words (items.filter fun item => itemOption item ≠ option) := by
  induction items with
  | nil => rfl
  | cons item items ih =>
    have split : words (item :: items) = item.words ++ words items := List.flatMap_cons
    rw [split, without_item isOption, ih]
    by_cases same : itemOption item = option
    · rw [if_pos same, List.filter_cons_of_neg (by simpa using same)]
    · rw [if_neg same, List.filter_cons_of_pos (by simpa using same), words, words,
        List.flatMap_cons]

/-- Where each item gives its value, the values of a line are those of its items. -/
theorem values_words {value? : Item → Option CString}
    (each : ∀ (item : Item) (rest : List CString),
      values option (item.words ++ rest) = (value? item).toList ++ values option rest)
    (items : List Item) : values option (words items) = items.filterMap value? := by
  induction items with
  | nil => rfl
  | cons item items ih =>
    have split : words (item :: items) = item.words ++ words items := List.flatMap_cons
    rw [split, each, ih, List.filterMap_cons]
    cases value? item with
    | none => rfl
    | some value => rfl

/-- The values for the name of the log file. -/
theorem values_logfile (items : List Item) :
    values optLogfile (words items) = items.filterMap Item.logfile? := by
  apply values_words
  intro item rest
  cases item with
  | quiet => exact values_other quiet_other
  | logfile value => rfl
  | portname value => rfl

/-- The values for the name of the port. -/
theorem values_portname (items : List Item) :
    values optPortname (words items) = items.filterMap Item.portname? := by
  apply values_words
  intro item rest
  cases item with
  | quiet => exact values_other quiet_other
  | logfile value => rfl
  | portname value => rfl

end Removed

section Effects

/-- A terminator in a name that holds a string changes nothing. -/
theorem terminate_array (value : CString) : terminate value.array = value.array :=
  set_array value (by decide)

/-- A second terminator changes nothing. -/
theorem terminate_terminate (name : Vector UInt8 nameSize) :
    terminate (terminate name) = terminate name := by
  rw [terminate, terminate, Vector.set_set]

/-- A terminator changes nothing exactly where one stands already. -/
theorem terminate_eq_iff (name : Vector UInt8 nameSize) :
    terminate name = name ↔ name[nameSize - 1]? = some 0 := by
  have inside : nameSize - 1 < nameSize := by decide
  constructor
  · intro same
    rw [← same, terminate, Vector.getElem?_set, if_pos rfl]
  · intro last
    rw [Vector.getElem?_eq_getElem inside] at last
    apply Vector.ext
    intro i bound
    rw [terminate, Vector.getElem_set]
    split
    · next isLast =>
      subst isLast
      exact (Option.some.inj last).symm
    · rfl

/-- The last of some values with another one before them. -/
theorem last_of_cons {α β : Type} (use : α → β) (value : α) (rest : List α) (otherwise : β) :
    ((value :: rest).getLast?.map use).getD otherwise =
      (rest.getLast?.map use).getD (use value) := by
  rw [List.getLast?_cons]
  cases rest.getLast? with
  | none => rfl
  | some last => rfl

/-- What is left of the name of the log file. -/
theorem logfile_after (names : Names) (items : List Item) :
    (items.foldl storeName names).logfile =
      ((items.filterMap Item.logfile?).getLast?.map CString.array).getD
        (if items.filterMap Item.portname? = [] then names.logfile
          else terminate names.logfile) := by
  induction items generalizing names with
  | nil => rfl
  | cons item items ih =>
    rw [List.foldl_cons, ih]
    cases item with
    | quiet => rfl
    | logfile value =>
      have holds : terminate (strncpy names.logfile value (nameSize - 1)) = value.array :=
        set_strncpy_array names.logfile value (by decide)
      have named : (Item.logfile value).logfile? = some value := rfl
      simp only [storeName, holds, terminate_array, ite_self]
      rw [List.filterMap_cons_some named, last_of_cons]
    | portname value =>
      have other : (Item.portname value).logfile? = none := rfl
      have named : (Item.portname value).portname? = some value := rfl
      simp only [storeName, terminate_terminate, ite_self]
      rw [List.filterMap_cons_none other, List.filterMap_cons_some named,
        if_neg (List.cons_ne_nil _ _)]

/-- What is left of the name of the port. -/
theorem portname_after (names : Names) (items : List Item) :
    (items.foldl storeName names).portname =
      ((items.filterMap Item.portname?).getLast?.map fun value =>
        strncpy names.portname value (nameSize - 1)).getD names.portname := by
  induction items generalizing names with
  | nil => rfl
  | cons item items ih =>
    rw [List.foldl_cons, ih]
    cases item with
    | quiet =>
      have other : Item.quiet.portname? = none := rfl
      rw [List.filterMap_cons_none other, storeName]
    | logfile value =>
      have other : (Item.logfile value).portname? = none := rfl
      rw [List.filterMap_cons_none other, storeName]
    | portname value =>
      have named : (Item.portname value).portname? = some value := rfl
      simp only [storeName, strncpy_strncpy]
      rw [List.filterMap_cons_some named, last_of_cons]

/-- The two options that take a value are different. -/
theorem logfile_ne_portname : optLogfile ≠ optPortname := by decide

/-- Removing the items of an option keeps the values of another one. -/
theorem values_kept {option : CString} {value? : Item → Option CString}
    (others : ∀ item, itemOption item = option → value? item = none) (items : List Item) :
    (items.filter fun item => itemOption item ≠ option).filterMap value? =
      items.filterMap value? := by
  induction items with
  | nil => rfl
  | cons item items ih =>
    by_cases same : itemOption item = option
    · rw [List.filter_cons_of_neg (by simpa using same), ih,
        List.filterMap_cons_none (others item same)]
    · rw [List.filter_cons_of_pos (by simpa using same), List.filterMap_cons, ih,
        ← List.filterMap_cons]

/-- Without the items that name a port there is no name of a port. -/
theorem portnames_gone (items : List Item) :
    (items.filter fun item => itemOption item ≠ optPortname).filterMap Item.portname? = [] := by
  rw [List.filterMap_eq_nil_iff]
  intro item member
  have other := (List.mem_filter.1 member).2
  cases item with
  | quiet => rfl
  | logfile value => rfl
  | portname value => simp [itemOption] at other

/-- The name of the log file is left as without the items that name a port exactly when no port
is named, or a log file is, or the buffer had a zero at the end. -/
theorem logfile_same_iff (names : Names) (items : List Item) :
    (items.foldl storeName names).logfile =
        ((items.filter fun item => itemOption item ≠ optPortname).foldl storeName names).logfile ↔
      (items.filterMap Item.portname? ≠ [] →
        items.filterMap Item.logfile? ≠ [] ∨ names.logfile[nameSize - 1]? = some 0) := by
  have others : ∀ item, itemOption item = optPortname → item.logfile? = none := by
    intro item isPort
    cases item with
    | quiet => rfl
    | logfile value => exact absurd isPort logfile_ne_portname
    | portname value => rfl
  have kept := values_kept others items
  rw [logfile_after, logfile_after, kept, portnames_gone, if_pos rfl]
  cases last : (items.filterMap Item.logfile?).getLast? with
  | some value =>
    have named : items.filterMap Item.logfile? ≠ [] := by
      intro none
      rw [none] at last
      cases last
    exact iff_of_true rfl fun _ => Or.inl named
  | none =>
    have unnamed : items.filterMap Item.logfile? = [] := List.getLast?_eq_none_iff.1 last
    rw [Option.map_none, Option.getD_none, Option.getD_none]
    by_cases none : items.filterMap Item.portname? = []
    · rw [if_pos none]
      exact iff_of_true rfl fun some => absurd none some
    · rw [if_neg none, terminate_eq_iff]
      constructor
      · intro zero _
        exact Or.inr zero
      · intro condition
        exact (condition none).resolve_left fun named => named unnamed

/-- The name of the port is left as without the items that name a log file. -/
theorem portname_same (names : Names) (items : List Item) :
    (items.foldl storeName names).portname =
      ((items.filter fun item => itemOption item ≠ optLogfile).foldl storeName
        names).portname := by
  have others : ∀ item, itemOption item = optLogfile → item.portname? = none := by
    intro item isLog
    cases item with
    | quiet => rfl
    | logfile value => rfl
    | portname value => exact absurd isLog.symm logfile_ne_portname
  rw [portname_after, portname_after, values_kept others]

/-- A log file that is named has a name that ends in its buffer. -/
theorem logfile_ends (names : Names) {items : List Item}
    (named : items.filterMap Item.logfile? ≠ []) :
    Terminated (items.foldl storeName names).logfile := by
  rw [logfile_after, List.getLast?_eq_some_getLast named]
  exact CString.array_terminated _ (by decide)

/-- A port that is named has a name that ends in its buffer exactly when the last of its names
is shorter than what is copied, or the buffer had a zero at the end. -/
theorem portname_ends_iff (names : Names) {items : List Item} {value : CString}
    (last : (items.filterMap Item.portname?).getLast? = some value) :
    Terminated (items.foldl storeName names).portname ↔
      value.bytes.length < nameSize - 1 ∨ names.portname[nameSize - 1]? = some 0 := by
  rw [portname_after, last]
  exact strncpy_terminated_iff names.portname value (by decide)

end Effects

/-! ## The buffer of each name

A buffer is compared with the one that is left by the command line without the other option. -/

/-- What a command line leaves in the buffers. Without a word the program exits before it has
touched them. -/
def leaves (command : Names → List CString → Except Exit Names) (before : Names)
    (args : List CString) : Except Exit Names :=
  if args = [] then .ok before else command before args

/-- Each option has its own buffer: what is left in one is what the command line without the
other option leaves in it, and a buffer that is named ends inside its bytes. -/
structure Owned (command : Names → List CString → Except Exit Names) (before : Names)
    (args : List CString) (after : Names) : Prop where
  /-- The name of the log file. -/
  logfile : ∃ other, leaves command before (without optPortname args) = .ok other ∧
    after.logfile = other.logfile
  /-- The name of the port. -/
  portname : ∃ other, leaves command before (without optLogfile args) = .ok other ∧
    after.portname = other.portname
  /-- The end of the name of the log file. -/
  logfileEnds : values optLogfile args ≠ [] → Terminated after.logfile
  /-- The end of the name of the port. -/
  portnameEnds : values optPortname args ≠ [] → Terminated after.portname

/-- The misplaced terminator does not matter: where a port is named, a log file is named too or
its buffer has a zero at the end, and the last name of the port is shorter than what is copied
or its buffer has a zero at the end. -/
def Harmless (before : Names) (args : List CString) : Prop :=
  ∀ value, (values optPortname args).getLast? = some value →
    (values optLogfile args ≠ [] ∨ before.logfile[nameSize - 1]? = some 0) ∧
      (value.bytes.length < nameSize - 1 ∨ before.portname[nameSize - 1]? = some 0)

section Line

variable {known : CString → Prop} {admits : Item → Prop}
  {command : Names → List CString → Except Exit Names} {args : List CString} {items : List Item}

/-- A command line without the items of an option has the other items. -/
theorem line_without (valuesKnown : ∀ word, TakesValue word → known word) {option : CString}
    (isOption : TakesValue option) (line : IsLine known admits args items) :
    IsLine known admits (without option args)
      (items.filter fun item => itemOption item ≠ option) := by
  obtain ⟨lead, isLead, admitted, whole⟩ := line
  refine ⟨lead, isLead, fun item member => admitted item (List.mem_filter.1 member).1, ?_⟩
  rw [whole]
  rcases isLead with none | ⟨word, single, unknown⟩
  · rw [none, List.nil_append, List.nil_append, without_words isOption]
  · have other : ¬ TakesValue word := fun takes => unknown (valuesKnown word takes)
    rw [single, List.singleton_append, List.singleton_append, without_other other,
      without_words isOption]

/-- The values of an option are those of its items. -/
theorem values_line (valuesKnown : ∀ word, TakesValue word → known word) (option : CString)
    (line : IsLine known admits args items) : values option args = values option (words items) := by
  obtain ⟨lead, isLead, -, whole⟩ := line
  rw [whole]
  rcases isLead with none | ⟨word, single, unknown⟩
  · rw [none, List.nil_append]
  · have other : ¬ TakesValue word := fun takes => unknown (valuesKnown word takes)
    rw [single, List.singleton_append, values_other other]

/-- Every command line leaves what its items store, also when it has no word. -/
theorem leaves_line (reads : Reads known admits command) (before : Names)
    (line : IsLine known admits args items) :
    leaves command before args = .ok (items.foldl storeName before) := by
  rw [leaves]
  by_cases none : args = []
  · obtain ⟨lead, -, -, whole⟩ := line
    have empty : items = [] := by
      cases items with
      | nil => rfl
      | cons item items =>
        rw [none] at whole
        have length := congrArg List.length whole
        cases item <;> simp [words, Item.words] at length
    rw [if_pos none, empty]
    rfl
  · rw [if_neg none]
    exact (reads before args _).2 ⟨none, items, line, rfl⟩

/-- For a command that reads command lines each option has its own buffer exactly when the
misplaced terminator does not matter. -/
theorem owned_iff (reads : Reads known admits command)
    (valuesKnown : ∀ word, TakesValue word → known word) {before after : Names}
    (returned : command before args = .ok after) :
    Owned command before args after ↔ Harmless before args := by
  obtain ⟨-, items, line, result⟩ := (reads before args after).1 returned
  have logs : values optLogfile args = items.filterMap Item.logfile? :=
    (values_line valuesKnown optLogfile line).trans (values_logfile items)
  have ports : values optPortname args = items.filterMap Item.portname? :=
    (values_line valuesKnown optPortname line).trans (values_portname items)
  have withoutPorts := leaves_line reads before (line_without valuesKnown (Or.inr rfl) line)
  have withoutLogs := leaves_line reads before (line_without valuesKnown (Or.inl rfl) line)
  have same := logfile_same_iff before items
  unfold Harmless
  rw [logs, ports, result]
  constructor
  · intro owned value last
    obtain ⟨other, left, sameLog⟩ := owned.logfile
    have named : items.filterMap Item.portname? ≠ [] := by
      intro none
      rw [none] at last
      cases last
    cases withoutPorts.symm.trans left
    exact ⟨same.1 sameLog named,
      (portname_ends_iff before last).1 (owned.portnameEnds (ports ▸ named))⟩
  · intro harmless
    refine ⟨⟨_, withoutPorts, same.2 fun named => ?_⟩,
      ⟨_, withoutLogs, portname_same before items⟩, fun named => ?_, fun named => ?_⟩
    · exact (harmless _ (List.getLast?_eq_some_getLast named)).1
    · exact logfile_ends before (logs ▸ named)
    · have last := List.getLast?_eq_some_getLast (ports ▸ named)
      exact (portname_ends_iff before last).2 (harmless _ last).2

end Line

/-- The two copies of `pf_command_line` and the buffers of the names. For every command line on
which one of them returns and every content of the buffers: what is left in a buffer is what
the command line without the items of the other option leaves in it, and a buffer that is named
ends inside its bytes, exactly when the misplaced terminator of `--portname` does not matter. -/
theorem names_owned_iff (quiet : CInt) (before after : Names) (args : List CString) :
    (datapathNames quiet before args = .ok after →
      (Owned (datapathNames quiet) before args after ↔ Harmless before args)) ∧
    (isocNames before args = .ok after →
      (Owned isocNames before args after ↔ Harmless before args)) := by
  constructor
  · intro returned
    apply owned_iff (datapathNames_reads quiet) ?_ returned
    intro word takes
    exact Or.inr (Or.inr takes)
  · intro returned
    apply owned_iff isocNames_reads ?_ returned
    intro word takes
    exact Or.inr takes

/-- Buffers without a zero. -/
def filled : Names where
  logfile := Vector.replicate nameSize 0x78
  portname := Vector.replicate nameSize 0x78

/-- The name of a program. -/
def progname : CString := ⟨chars "./host", by decide⟩

/-- A first word with that name is no option of either copy. -/
theorem progname_unknown : ¬ IsOption progname ∧ ¬ IsIsocOption progname := by
  unfold IsOption IsIsocOption IsHelp
  decide

/-- Short names. -/
def shortNames : List Item :=
  [.portname ⟨chars "/dev/ttyACM1", by decide⟩, .logfile ⟨chars "run.log", by decide⟩]

/-- With short names and the zeros at the ends in place, or written by `--logfile`, each option
has its own buffer. -/
theorem names_owned_iff_short :
    let before : Names := { filled with portname := filled.portname.set 49 0 (by decide) }
    let args := progname :: words shortNames
    (∃ after, datapathNames 0 before args = .ok after ∧
      Owned (datapathNames 0) before args after) ∧
    ∃ after, isocNames before args = .ok after ∧ Owned isocNames before args after := by
  intro before args
  have admitted : ∀ item ∈ shortNames, item ≠ .quiet := by decide
  have harmless : Harmless before args := by
    intro value _
    exact ⟨Or.inl (by decide), Or.inr (by decide)⟩
  have datapath : datapathNames 0 before args = .ok (shortNames.foldl storeName before) :=
    (datapathNames_reads 0 _ _ _).2 ⟨List.cons_ne_nil _ _, shortNames,
      ⟨[progname], Or.inr ⟨_, rfl, progname_unknown.1⟩, fun _ _ => trivial, rfl⟩, rfl⟩
  have isoc : isocNames before args = .ok (shortNames.foldl storeName before) :=
    (isocNames_reads _ _ _).2 ⟨List.cons_ne_nil _ _, shortNames,
      ⟨[progname], Or.inr ⟨_, rfl, progname_unknown.2⟩, admitted, rfl⟩, rfl⟩
  exact ⟨⟨_, datapath, ((names_owned_iff 0 before _ args).1 datapath).2 harmless⟩,
    _, isoc, ((names_owned_iff 0 before _ args).2 isoc).2 harmless⟩

/-- A name of a port with 49 bytes. -/
def longName : CString := ⟨chars "/dev/serial/by-id/usb-PSAS_olimex2378_stream-if00", by decide⟩

/-- Both copies return from a command line that gives this name, with a name of the port that
does not end in its buffer and a byte of the other buffer changed. -/
theorem longName_spills :
    let args := progname :: words [.portname longName]
    (∃ after, datapathNames 0 filled args = .ok after ∧ ¬ Terminated after.portname ∧
      after.logfile ≠ filled.logfile ∧ ¬ Owned (datapathNames 0) filled args after) ∧
    ∃ after, isocNames filled args = .ok after ∧ ¬ Terminated after.portname ∧
      after.logfile ≠ filled.logfile ∧ ¬ Owned isocNames filled args after := by
  intro args
  let after := storeName filled (.portname longName)
  have admitted : ∀ item ∈ [Item.portname longName], item ≠ .quiet := by decide
  have datapath : datapathNames 0 filled args = .ok after :=
    (datapathNames_reads 0 _ _ _).2 ⟨List.cons_ne_nil _ _, [.portname longName],
      ⟨[progname], Or.inr ⟨_, rfl, progname_unknown.1⟩, fun _ _ => trivial, rfl⟩, rfl⟩
  have isoc : isocNames filled args = .ok after :=
    (isocNames_reads _ _ _).2 ⟨List.cons_ne_nil _ _, [.portname longName],
      ⟨[progname], Or.inr ⟨_, rfl, progname_unknown.2⟩, admitted, rfl⟩, rfl⟩
  have unterminated : ¬ Terminated after.portname := by
    rw [show after.portname = strncpy filled.portname longName (nameSize - 1) from rfl,
      strncpy_terminated_iff _ _ (by decide)]
    decide
  have changed : after.logfile ≠ filled.logfile := by
    intro same
    have zero := (terminate_eq_iff filled.logfile).1 same
    exact absurd zero (by decide)
  have named : values optPortname args ≠ [] := by decide
  exact ⟨⟨after, datapath, unterminated, changed, fun owned =>
      unterminated (owned.portnameEnds named)⟩,
    after, isoc, unterminated, changed, fun owned => unterminated (owned.portnameEnds named)⟩

end Olimex2378.Verif.OwnBuffers

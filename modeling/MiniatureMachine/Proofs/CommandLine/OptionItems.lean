import Mathlib.Data.List.Perm.Basic
import MiniatureMachine.CommandLine.Options

/-!
Contract: the arguments of a command are a language of items.

Owns:
- the options that a command knows, with a value or without;
- the items of an argument list, and the first argument that is none;
- one reader of items for all commands;
- what the build and the run command accept, what they make of it and what they complain about.

A reader takes items from the left for as long as there are any and no second path comes. It
keeps the items that it has seen. What a command makes of them is then a property of the whole
list, which does not mention the reader.
-/

namespace MiniatureMachine.CommandLine

/-! ## Items -/

/-- The options of a command: those that stand alone, with what they say, and those that take the
argument behind them as their value. None of them asks for help. -/
structure OptionTable (Flag : Type) where
  flags : List (String × Flag)
  valued : List String
  areOptions : ∀ name ∈ flags.map Prod.fst ++ valued,
    looksLikeOption name = true ∧ isHelp name = false
  distinct : ∀ name ∈ valued, flags.lookup name = none

inductive Item (Flag : Type) where
  | flag (flag : Flag)
  /-- The value of an option that takes one. -/
  | value (value : String)
  | path (path : String)
deriving DecidableEq, Repr

namespace Item

variable {Flag : Type}

def flags (items : List (Item Flag)) : List Flag :=
  items.filterMap fun
    | .flag said => some said
    | _ => none

def values (items : List (Item Flag)) : List String :=
  items.filterMap fun
    | .value given => some given
    | _ => none

def paths (items : List (Item Flag)) : List String :=
  items.filterMap fun
    | .path given => some given
    | _ => none

private theorem paths_append (items others : List (Item Flag)) :
    paths (items ++ others) = paths items ++ paths others :=
  List.filterMap_append

theorem paths_first {seen : List (Item Flag)} (first : paths seen = []) (path : String) :
    paths (seen ++ [.path path]) = [path] := by
  rw [paths_append, first]
  rfl

end Item

section Language

variable {Flag : Type} (table : OptionTable Flag)

/-- An argument list splits into items from the left. The value of an option may be any
argument. -/
inductive Splits : (arguments : List String) → (items : List (Item Flag)) → Prop
  | nil : Splits [] []
  | flag {argument : String} {flag : Flag} {rest : List String} {items : List (Item Flag)}
      (isFlag : table.flags.lookup argument = some flag) (others : Splits rest items) :
      Splits (argument :: rest) (.flag flag :: items)
  | value {argument value : String} {rest : List String} {items : List (Item Flag)}
      (isValued : argument ∈ table.valued) (others : Splits rest items) :
      Splits (argument :: value :: rest) (.value value :: items)
  | path {path : String} {rest : List String} {items : List (Item Flag)}
      (isPath : looksLikeOption path = false) (others : Splits rest items) :
      Splits (path :: rest) (.path path :: items)

/-- Behind items with these paths, what is left of an argument list begins with an offence. -/
inductive Offends (paths : List String) : (rest : List String) → (error : UsageError) → Prop
  | help {argument : String} {rest : List String} (asksForHelp : isHelp argument = true) :
      Offends paths (argument :: rest) .helpRequested
  | unknown {argument : String} {rest : List String} (noHelp : isHelp argument = false)
      (isOption : looksLikeOption argument = true) (noFlag : table.flags.lookup argument = none)
      (notValued : argument ∉ table.valued) :
      Offends paths (argument :: rest) (.unknownOption argument)
  | missingValue {argument : String} (isValued : argument ∈ table.valued) :
      Offends paths [argument] .missingOutput
  | secondPath {argument : String} {rest : List String}
      (isPath : looksLikeOption argument = false) (notFirst : paths ≠ []) :
      Offends paths (argument :: rest) .multipleInputs
  | missingPath (none : paths = []) : Offends paths [] .missingInput

/-- The first argument from the left that belongs to no item, or the second path, is the offence
of an argument list; or it has no path at all. -/
def Refused (arguments : List String) (error : UsageError) : Prop :=
  ∃ front rest items, arguments = front ++ rest ∧ Splits table front items ∧
    (Item.paths items).length ≤ 1 ∧ Offends table (Item.paths items) rest error

/-! ## The reader -/

variable {Options : Type} (options : (path : String) → (items : List (Item Flag)) → Options)

/-- Reads the arguments behind the items that are already seen. -/
def readItems (seen : List (Item Flag)) : List String → Except UsageError Options
  | [] =>
      match Item.paths seen with
      | path :: _ => .ok (options path seen)
      | [] => .error .missingInput
  | argument :: rest =>
      if isHelp argument then .error .helpRequested
      else
        match table.flags.lookup argument with
        | some flag => readItems (seen ++ [.flag flag]) rest
        | none =>
            if argument ∈ table.valued then
              match rest with
              | [] => .error .missingOutput
              | value :: rest => readItems (seen ++ [.value value]) rest
            else if looksLikeOption argument then .error (.unknownOption argument)
            else if (Item.paths seen).isEmpty then readItems (seen ++ [.path argument]) rest
            else .error .multipleInputs

variable {table options}
variable {arguments rest : List String} {argument : String} {seen items : List (Item Flag)}
  {error : UsageError}

/-! ### One argument -/

private theorem isOption_of_lookup {flag : Flag}
    (isFlag : table.flags.lookup argument = some flag) :
    looksLikeOption argument = true ∧ isHelp argument = false := by
  obtain ⟨before, after, parts, -⟩ := List.lookup_eq_some_iff.mp isFlag
  have member : argument ∈ table.flags.map Prod.fst := by
    rw [parts]
    simp
  exact table.areOptions argument (List.mem_append_left _ member)

theorem isOption_of_mem_valued (isValued : argument ∈ table.valued) :
    looksLikeOption argument = true ∧ isHelp argument = false :=
  table.areOptions argument (List.mem_append_right _ isValued)

/-- A path is no option of any command. -/
theorem unlisted_of_isPath (table : OptionTable Flag)
    (isPath : looksLikeOption argument = false) :
    isHelp argument = false ∧ table.flags.lookup argument = none ∧ argument ∉ table.valued := by
  refine ⟨?_, ?_, fun isValued => ?_⟩
  · cases help : isHelp argument with
    | false => rfl
    | true =>
        rw [isHelp, Bool.or_eq_true, beq_iff_eq, beq_iff_eq] at help
        rcases help with rfl | rfl <;> cases isPath
  · cases known : table.flags.lookup argument with
    | none => rfl
    | some flag => cases isPath.symm.trans (isOption_of_lookup known).1
  · cases isPath.symm.trans (isOption_of_mem_valued isValued).1

theorem readItems_cons (seen : List (Item Flag)) (argument : String) (rest : List String) :
    readItems table options seen (argument :: rest) =
      if isHelp argument then .error .helpRequested
      else
        match table.flags.lookup argument with
        | some flag => readItems table options (seen ++ [.flag flag]) rest
        | none =>
            if argument ∈ table.valued then
              match rest with
              | [] => .error .missingOutput
              | value :: rest => readItems table options (seen ++ [.value value]) rest
            else if looksLikeOption argument then .error (.unknownOption argument)
            else if (Item.paths seen).isEmpty then
              readItems table options (seen ++ [.path argument]) rest
            else .error .multipleInputs := by
  rw [readItems.eq_def]

private theorem readItems_flag {flag : Flag} (isFlag : table.flags.lookup argument = some flag)
    (seen : List (Item Flag)) (rest : List String) :
    readItems table options seen (argument :: rest) =
      readItems table options (seen ++ [.flag flag]) rest := by
  rw [readItems_cons, (isOption_of_lookup isFlag).2, isFlag]
  rfl

private theorem readItems_value (isValued : argument ∈ table.valued) (seen : List (Item Flag))
    (value : String) (rest : List String) :
    readItems table options seen (argument :: value :: rest) =
      readItems table options (seen ++ [.value value]) rest := by
  rw [readItems_cons, (isOption_of_mem_valued isValued).2, table.distinct argument isValued]
  exact if_pos isValued

private theorem readItems_path (isPath : looksLikeOption argument = false)
    (first : Item.paths seen = []) (rest : List String) :
    readItems table options seen (argument :: rest) =
      readItems table options (seen ++ [.path argument]) rest := by
  obtain ⟨noHelp, noFlag, notValued⟩ := unlisted_of_isPath table isPath
  rw [readItems_cons, noHelp, noFlag]
  dsimp only
  rw [if_neg notValued, isPath, first]
  rfl

/-- The reader stops at an offence. -/
theorem readItems_of_offends (offends : Offends table (Item.paths seen) arguments error) :
    readItems table options seen arguments = .error error := by
  cases offends with
  | help asksForHelp => rw [readItems_cons, if_pos asksForHelp]
  | unknown noHelp isOption noFlag notValued =>
      rw [readItems_cons, noHelp, noFlag]
      dsimp only
      rw [if_neg notValued, if_pos isOption]
      rfl
  | missingValue isValued =>
      rw [readItems_cons, (isOption_of_mem_valued isValued).2, table.distinct _ isValued]
      exact if_pos isValued
  | secondPath isPath notFirst =>
      obtain ⟨noHelp, noFlag, notValued⟩ := unlisted_of_isPath table isPath
      rw [readItems_cons, noHelp, noFlag]
      dsimp only
      rw [if_neg Bool.false_ne_true, if_neg notValued, isPath, if_neg Bool.false_ne_true,
        if_neg (by simpa using notFirst)]
  | missingPath none =>
      unfold readItems
      rw [none]

/-! ### Whole lists -/

/-- Without a second path, the items at the front of a list are taken. -/
theorem readItems_append (splits : Splits table arguments items)
    (onePath : (Item.paths (seen ++ items)).length ≤ 1) (rest : List String) :
    readItems table options seen (arguments ++ rest) =
      readItems table options (seen ++ items) rest := by
  induction splits generalizing seen with
  | nil => rw [List.nil_append, List.append_nil]
  | flag isFlag others inductionHypothesis =>
      rw [List.append_cons] at onePath ⊢
      rw [List.cons_append, readItems_flag isFlag, inductionHypothesis onePath]
  | value isValued others inductionHypothesis =>
      rw [List.append_cons] at onePath ⊢
      rw [List.cons_append, List.cons_append, readItems_value isValued,
        inductionHypothesis onePath]
  | @path argument rest items isPath others inductionHypothesis =>
      have first : Item.paths seen = [] := by
        rw [Item.paths_append, List.length_append] at onePath
        have onePathMore : (Item.paths (.path argument :: items)).length =
          (Item.paths items).length + 1 := rfl
        exact List.length_eq_zero_iff.mp (by omega)
      rw [List.append_cons] at onePath ⊢
      rw [List.cons_append, readItems_path isPath first, inductionHypothesis onePath]

/-- How a list goes on behind items that are already seen: it has one path and only items, or it
has an offence behind its first items. -/
inductive GoesOn (table : OptionTable Flag) (seen : List (Item Flag)) (arguments : List String) :
    Prop
  | ends {items : List (Item Flag)} {path : String} (splits : Splits table arguments items)
      (onePath : Item.paths (seen ++ items) = [path])
  | offends {front rest : List String} {items : List (Item Flag)} {error : UsageError}
      (parts : arguments = front ++ rest) (splits : Splits table front items)
      (onePath : (Item.paths (seen ++ items)).length ≤ 1)
      (offends : Offends table (Item.paths (seen ++ items)) rest error)

theorem GoesOn.of_item {item : Item Flag} (written : List String)
    (writes : ∀ {front items}, Splits table front items →
      Splits table (written ++ front) (item :: items))
    (goesOn : GoesOn table (seen ++ [item]) rest) : GoesOn table seen (written ++ rest) := by
  cases goesOn with
  | ends splits onePath =>
      rw [← List.append_cons] at onePath
      exact .ends (writes splits) onePath
  | offends parts splits onePath offends =>
      rw [← List.append_cons] at onePath offends
      refine .offends ?_ (writes splits) onePath offends
      rw [parts, List.append_assoc]

theorem GoesOn.of_offends (onePath : (Item.paths seen).length ≤ 1)
    (offends : Offends table (Item.paths seen) arguments error) : GoesOn table seen arguments := by
  rw [← List.append_nil seen] at onePath offends
  exact .offends (List.nil_append _).symm .nil onePath offends

/-- Every list goes on in one of the two ways. -/
theorem goesOn (table : OptionTable Flag) (seen : List (Item Flag))
    (onePath : (Item.paths seen).length ≤ 1) (arguments : List String) :
    GoesOn table seen arguments := by
  cases arguments with
  | nil =>
      cases entered : Item.paths seen with
      | nil => exact .of_offends onePath (.missingPath entered)
      | cons path more =>
          have alone : more = [] := by
            rw [entered, List.length_cons] at onePath
            exact List.length_eq_zero_iff.mp (by omega)
          have onlyPath : Item.paths (seen ++ []) = [path] := by
            rw [List.append_nil, entered, alone]
          exact .ends .nil onlyPath
  | cons argument rest =>
      -- An argument is exactly one of these: help, a flag, valued, unknown, a path.
      cases help : isHelp argument with
      | true => exact .of_offends onePath (.help help)
      | false =>
          cases known : table.flags.lookup argument with
          | some flag =>
              have later := goesOn table (seen ++ [.flag flag])
                (by simpa [Item.paths] using onePath) rest
              exact later.of_item [argument] (.flag known)
          | none =>
              by_cases isValued : argument ∈ table.valued
              · cases rest with
                | nil => exact .of_offends onePath (.missingValue isValued)
                | cons value rest =>
                    have later := goesOn table (seen ++ [.value value])
                      (by simpa [Item.paths] using onePath) rest
                    exact later.of_item [argument, value] (.value isValued)
              · cases option : looksLikeOption argument with
                | true => exact .of_offends onePath (.unknown help option known isValued)
                | false =>
                    by_cases first : Item.paths seen = []
                    · have later := goesOn table (seen ++ [.path argument])
                        (by rw [Item.paths_first first]; exact Nat.le_refl 1) rest
                      exact later.of_item [argument] (.path option)
                    · exact .of_offends onePath (.secondPath option first)
termination_by arguments.length

theorem readItems_of_ends {path : String} (splits : Splits table arguments items)
    (onePath : Item.paths items = [path]) :
    readItems table options [] arguments = .ok (options path items) := by
  have atMostOne : (Item.paths ([] ++ items)).length ≤ 1 := by
    rw [List.nil_append, onePath]
    exact Nat.le_refl 1
  rw [← List.append_nil arguments, readItems_append splits atMostOne, List.nil_append,
    readItems.eq_def, onePath]

theorem readItems_of_refused (refused : Refused table arguments error) :
    readItems table options [] arguments = .error error := by
  obtain ⟨front, rest, items, rfl, splits, onePath, offends⟩ := refused
  rw [readItems_append splits (by rwa [List.nil_append])]
  exact readItems_of_offends offends

private theorem refused_or_ends (table : OptionTable Flag) (arguments : List String) :
    (∃ items path, Splits table arguments items ∧ Item.paths items = [path]) ∨
      ∃ error, Refused table arguments error := by
  cases goesOn table [] (Nat.zero_le _) arguments with
  | ends splits onePath => exact .inl ⟨_, _, splits, onePath⟩
  | offends parts splits onePath offends =>
      exact .inr ⟨_, _, _, _, parts, splits, onePath, offends⟩

/-- A second path is refused, whatever items stand around it. -/
theorem readItems_of_two_paths (splits : Splits table arguments items)
    (onePath : (Item.paths seen).length ≤ 1)
    (twoPaths : 2 ≤ (Item.paths (seen ++ items)).length) :
    readItems table options seen arguments = .error .multipleInputs := by
  induction splits generalizing seen with
  | nil =>
      rw [List.append_nil] at twoPaths
      omega
  | flag isFlag others inductionHypothesis =>
      rw [List.append_cons] at twoPaths
      rw [readItems_flag isFlag]
      exact inductionHypothesis (by simpa [Item.paths] using onePath) twoPaths
  | value isValued others inductionHypothesis =>
      rw [List.append_cons] at twoPaths
      rw [readItems_value isValued]
      exact inductionHypothesis (by simpa [Item.paths] using onePath) twoPaths
  | path isPath others inductionHypothesis =>
      by_cases first : Item.paths seen = []
      · rw [List.append_cons] at twoPaths
        rw [readItems_path isPath first]
        exact inductionHypothesis (by rw [Item.paths_first first]; exact Nat.le_refl 1) twoPaths
      · exact readItems_of_offends (.secondPath isPath first)

/-- What a list of items alone reads as. -/
theorem readItems_of_splits (splits : Splits table arguments items) :
    readItems table options [] arguments =
      match Item.paths items with
      | [] => .error .missingInput
      | [path] => .ok (options path items)
      | _ :: _ :: _ => .error .multipleInputs := by
  match entered : Item.paths items with
  | [] =>
      refine readItems_of_refused ⟨arguments, [], items, (List.append_nil _).symm, splits, ?_, ?_⟩
      · rw [entered]
        exact Nat.zero_le _
      · exact .missingPath entered
  | [path] => exact readItems_of_ends splits entered
  | _ :: _ :: _ =>
      refine readItems_of_two_paths splits (Nat.zero_le _) ?_
      rw [List.nil_append, entered]
      exact Nat.le_add_left 2 _

/-! ## What a command reads -/

/-- A command reads its arguments as items. -/
structure ReadsItems {Flag Options Entry : Type} (table : OptionTable Flag)
    (IsAsked : List (Item Flag) → Options → Prop) (ordered : List (Item Flag) → List Entry)
    (reader : List String → Except UsageError Options) : Prop where
  /-- It accepts the lists of items with one path. -/
  accepts : ∀ arguments, (∃ options, reader arguments = .ok options) ↔
    ∃ items path, Splits table arguments items ∧ Item.paths items = [path]
  /-- The items tell what it reads. -/
  tells : ∀ arguments items options, Splits table arguments items →
    reader arguments = .ok options → IsAsked items options
  /-- It refuses the other lists for their first offence. -/
  refuses : ∀ arguments error, reader arguments = .error error ↔ Refused table arguments error
  /-- Only the order of some items counts. -/
  reorders : ∀ arguments others items otherItems, Splits table arguments items →
    Splits table others otherItems → items.Perm otherItems →
    ordered items = ordered otherItems → reader others = reader arguments

/-- The reader of the items of any table reads items. -/
theorem readsItems_readItems {Entry : Type} {IsAsked : List (Item Flag) → Options → Prop}
    {ordered : List (Item Flag) → List Entry}
    (asked : ∀ path items, Item.paths items = [path] → IsAsked items (options path items))
    (sameOptions : ∀ path items others, items.Perm others → ordered items = ordered others →
      options path others = options path items) :
    ReadsItems table IsAsked ordered (readItems table options []) where
  accepts arguments := by
    constructor
    · rintro ⟨result, accepted⟩
      rcases refused_or_ends table arguments with ends | ⟨error, refused⟩
      · exact ends
      · cases accepted.symm.trans (readItems_of_refused refused)
    · rintro ⟨items, path, splits, onePath⟩
      exact ⟨_, readItems_of_ends splits onePath⟩
  tells arguments items result splits accepted := by
    rw [readItems_of_splits splits] at accepted
    split at accepted
    · cases accepted
    · cases accepted
      exact asked _ _ ‹_›
    · cases accepted
  refuses arguments error := by
    refine ⟨fun refused => ?_, readItems_of_refused⟩
    rcases refused_or_ends table arguments with ⟨items, path, splits, onePath⟩ | ⟨other, others⟩
    · cases refused.symm.trans (readItems_of_ends splits onePath)
    · cases refused.symm.trans (readItems_of_refused others)
      exact others
  reorders arguments others items otherItems splits otherSplits perm sameOrder := by
    have samePaths : (Item.paths items).Perm (Item.paths otherItems) := perm.filterMap _
    rw [readItems_of_splits splits, readItems_of_splits otherSplits]
    match entered : Item.paths items with
    | [] =>
        rw [entered] at samePaths
        rw [samePaths.nil_eq.symm]
    | [path] =>
        rw [entered] at samePaths
        rw [← List.singleton_perm.mp samePaths]
        exact congrArg Except.ok (sameOptions path items otherItems perm sameOrder)
    | _ :: _ :: _ =>
        match otherEntered : Item.paths otherItems with
        | _ :: _ :: _ => rfl
        | [] | [_] =>
            have length := samePaths.length_eq
            rw [entered, otherEntered] at length
            simp at length

end Language

/-! ## The build command -/

/-- What the options of the build command say that stand alone. -/
inductive BuildFlag where
  | quiet
  | legacyNames
deriving DecidableEq, Repr

def buildTable : OptionTable BuildFlag where
  flags := [("--quiet", .quiet), ("-q", .quiet), ("--legacy-names", .legacyNames)]
  valued := ["-o", "--output"]
  areOptions := by decide
  distinct := by decide

structure IsBuild (items : List (Item BuildFlag)) (options : BuildOptions) : Prop where
  source : Item.paths items = [options.source]
  /-- The last output counts. -/
  output : options.output? = (Item.values items).getLast?
  dialect : options.dialect = .legacy2012 ↔ .flag .legacyNames ∈ items
  quiet : options.quiet = true ↔ .flag .quiet ∈ items

def buildOptions (path : String) (items : List (Item BuildFlag)) : BuildOptions where
  source := path
  output? := (Item.values items).getLast?
  dialect := if .flag .legacyNames ∈ items then .legacy2012 else .canonical
  quiet := decide (.flag .quiet ∈ items)

def BuildDraft.ofItems (seen : List (Item BuildFlag)) : BuildDraft where
  source? := (Item.paths seen).head?
  output? := (Item.values seen).getLast?
  dialect := if .flag .legacyNames ∈ seen then .legacy2012 else .canonical
  quiet := decide (.flag .quiet ∈ seen)

private theorem lookup_buildTable (argument : String) : buildTable.flags.lookup argument =
    if argument == "--quiet" || argument == "-q" then some .quiet
    else if argument == "--legacy-names" then some .legacyNames
    else none := by
  simp only [buildTable, List.lookup_cons, List.lookup_nil]
  cases argument == "--quiet" <;> cases argument == "-q" <;>
    cases argument == "--legacy-names" <;> rfl

namespace BuildDraft

variable (seen : List (Item BuildFlag))

private theorem ofItems_quiet :
    ofItems (seen ++ [.flag .quiet]) = { ofItems seen with quiet := true } := by
  simp [ofItems, Item.paths, Item.values]

private theorem ofItems_legacyNames :
    ofItems (seen ++ [.flag .legacyNames]) = { ofItems seen with dialect := .legacy2012 } := by
  simp [ofItems, Item.paths, Item.values]

private theorem ofItems_value (value : String) :
    ofItems (seen ++ [.value value]) = { ofItems seen with output? := some value } := by
  simp [ofItems, Item.paths, Item.values]

theorem ofItems_path (path : String) (first : Item.paths seen = []) :
    ofItems (seen ++ [.path path]) = { ofItems seen with source? := some path } := by
  simp [ofItems, Item.paths_first first, Item.values]

end BuildDraft

theorem parseBuild_eq_readItems (seen : List (Item BuildFlag)) (arguments : List String) :
    parseBuild (.ofItems seen) arguments = readItems buildTable buildOptions seen arguments := by
  cases arguments with
  | nil =>
      unfold parseBuild readItems
      cases entered : Item.paths seen <;> simp [BuildDraft.ofItems, entered, buildOptions]
  | cons argument rest =>
      have valued : argument ∈ buildTable.valued ↔
          (argument == "-o" || argument == "--output") = true := by
        simp [buildTable]
      -- Both readers ask the same questions in the same order.
      rw [parseBuild.eq_def, readItems_cons, lookup_buildTable]
      dsimp only
      split
      · rfl
      · split
        · rw [← BuildDraft.ofItems_quiet]
          exact parseBuild_eq_readItems _ rest
        · split
          · rw [← BuildDraft.ofItems_legacyNames]
            exact parseBuild_eq_readItems _ rest
          · dsimp only
            simp only [valued]
            split
            · cases rest with
              | nil => rfl
              | cons value rest =>
                  dsimp only
                  rw [← BuildDraft.ofItems_value]
                  exact parseBuild_eq_readItems _ rest
            · split
              · rfl
              · cases entered : Item.paths seen with
                | nil =>
                    have fresh : ¬(BuildDraft.ofItems seen).source?.isSome = true := by
                      simp [BuildDraft.ofItems, entered]
                    rw [if_neg fresh, ← BuildDraft.ofItems_path seen argument entered]
                    exact parseBuild_eq_readItems _ rest
                | cons path more =>
                    have taken : (BuildDraft.ofItems seen).source?.isSome = true := by
                      simp [BuildDraft.ofItems, entered]
                    exact if_pos taken
termination_by arguments.length

/-! ## The run command -/

def runTable : OptionTable DebugChoice where
  flags := [("--debug", .enabled), ("-d", .enabled), ("--no-debug", .disabled), ("-n", .disabled)]
  valued := []
  areOptions := by decide
  distinct := by decide

structure IsRun (items : List (Item DebugChoice)) (options : RunOptions) : Prop where
  image : Item.paths items = [options.image]
  /-- The last flag counts, and without any the operator is asked. -/
  debug : options.debug = (Item.flags items).getLast?.getD .ask

def runOptions (path : String) (items : List (Item DebugChoice)) : RunOptions where
  image := path
  debug := (Item.flags items).getLast?.getD .ask

def RunDraft.ofItems (seen : List (Item DebugChoice)) : RunDraft where
  image? := (Item.paths seen).head?
  debug := (Item.flags seen).getLast?.getD .ask

private theorem lookup_runTable (argument : String) : runTable.flags.lookup argument =
    if argument == "--debug" || argument == "-d" then some .enabled
    else if argument == "--no-debug" || argument == "-n" then some .disabled
    else none := by
  simp only [runTable, List.lookup_cons, List.lookup_nil]
  cases argument == "--debug" <;> cases argument == "-d" <;>
    cases argument == "--no-debug" <;> cases argument == "-n" <;> rfl

namespace RunDraft

variable (seen : List (Item DebugChoice))

private theorem ofItems_flag (choice : DebugChoice) :
    ofItems (seen ++ [.flag choice]) = { ofItems seen with debug := choice } := by
  simp [ofItems, Item.paths, Item.flags]

theorem ofItems_path (path : String) (first : Item.paths seen = []) :
    ofItems (seen ++ [.path path]) = { ofItems seen with image? := some path } := by
  simp [ofItems, Item.paths_first first, Item.flags]

end RunDraft

private theorem parseRun_eq_readItems (seen : List (Item DebugChoice)) (arguments : List String) :
    parseRun (.ofItems seen) arguments = readItems runTable runOptions seen arguments := by
  induction arguments generalizing seen with
  | nil =>
      unfold parseRun readItems
      cases entered : Item.paths seen <;> simp [RunDraft.ofItems, entered, runOptions]
  | cons argument rest inductionHypothesis =>
      rw [parseRun, readItems_cons, lookup_runTable]
      split
      · rfl
      · split
        · rw [← RunDraft.ofItems_flag]
          exact inductionHypothesis _
        · split
          · rw [← RunDraft.ofItems_flag]
            exact inductionHypothesis _
          · dsimp only
            split
            · rfl
            · cases entered : Item.paths seen with
              | nil =>
                  have fresh : ¬(RunDraft.ofItems seen).image?.isSome = true := by
                    simp [RunDraft.ofItems, entered]
                  rw [if_neg fresh, ← RunDraft.ofItems_path seen argument entered]
                  exact inductionHypothesis _
              | cons path more =>
                  have taken : (RunDraft.ofItems seen).image?.isSome = true := by
                    simp [RunDraft.ofItems, entered]
                  exact if_pos taken

/-! ## Both commands -/

/-- The build and the run command accept the argument lists that split into items of their options
with one path, and no others. What they read is told by the items: a flag counts where it stands
at all, of outputs and of debug flags the last one counts, and no other order matters. An
argument list that is not accepted is refused for its first offence from the left. -/
theorem commands_read_items :
    ReadsItems buildTable IsBuild Item.values (parseBuild .initial) ∧
      ReadsItems runTable IsRun Item.flags (parseRun .initial) := by
  have build : parseBuild .initial = readItems buildTable buildOptions [] :=
    funext fun arguments => parseBuild_eq_readItems [] arguments
  have run : parseRun .initial = readItems runTable runOptions [] :=
    funext fun arguments => parseRun_eq_readItems [] arguments
  rw [build, run]
  refine ⟨readsItems_readItems ?_ ?_, readsItems_readItems ?_ ?_⟩
  · intro path items onePath
    refine ⟨onePath, rfl, ?_, decide_eq_true_iff⟩
    unfold buildOptions
    split <;> simp_all
  · intro path items others perm sameValues
    simp only [buildOptions, perm.mem_iff, sameValues]
  · intro path items onePath
    exact ⟨onePath, rfl⟩
  · intro path items others perm sameFlags
    simp only [runOptions, sameFlags]

/-- The value of an option may look like an option, and the last output counts. -/
example : parseBuild .initial ["-o", "--help", "a.hmmm", "-q", "--output", "-o"] =
    .ok ⟨"a.hmmm", some "-o", .canonical, true⟩ := by
  decide

/-- The second path comes before the option that is not known. -/
example : parseRun .initial ["-n", "a.b", "-d", "c.b", "-x"] = .error .multipleInputs := by
  decide

end MiniatureMachine.CommandLine

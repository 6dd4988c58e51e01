import MiniatureMachine.Assembly.Dialect
import MiniatureMachine.Machine.Session

/-!
Contract: the language of command-line arguments.

Owns:
- the commands and their options;
- the reader of an argument list and the complaints it makes.

Arguments are read from the left, and the first one that does not fit decides
the complaint. An option's value may be any argument, also one that looks like
an option.
-/

namespace MiniatureMachine

structure BuildOptions where
  source : String
  output? : Option String
  dialect : Dialect
  quiet : Bool
deriving DecidableEq, Repr

structure RunOptions where
  image : String
  debug : DebugChoice
deriving DecidableEq, Repr

inductive Command where
  | help
  | build (options : BuildOptions)
  | run (options : RunOptions)
deriving DecidableEq, Repr

inductive UsageError where
  | missingCommand
  | unknownCommand (name : String)
  /-- The help option among the options of a command. -/
  | helpRequested
  | unknownOption (option : String)
  | missingOutput
  | multipleInputs
  | missingInput
deriving DecidableEq, Repr

namespace CommandLine

def isHelp (argument : String) : Bool :=
  argument == "--help" || argument == "-h"

/-- Whether an argument is an option rather than a path. -/
def looksLikeOption (argument : String) : Bool :=
  argument.toList.head? == some '-'

/-! ## Build -/

structure BuildDraft where
  source? : Option String
  output? : Option String
  dialect : Dialect
  quiet : Bool
deriving DecidableEq, Repr

def BuildDraft.initial : BuildDraft := ⟨none, none, .canonical, false⟩

def parseBuild (draft : BuildDraft) : List String → Except UsageError BuildOptions
  | [] =>
      match draft.source? with
      | some source => .ok ⟨source, draft.output?, draft.dialect, draft.quiet⟩
      | none => .error .missingInput
  | argument :: rest =>
      if isHelp argument then .error .helpRequested
      else if argument == "--quiet" || argument == "-q" then
        parseBuild { draft with quiet := true } rest
      else if argument == "--legacy-names" then
        parseBuild { draft with dialect := .legacy2012 } rest
      else if argument == "-o" || argument == "--output" then
        match rest with
        | [] => .error .missingOutput
        | value :: rest => parseBuild { draft with output? := some value } rest
      else if looksLikeOption argument then .error (.unknownOption argument)
      else if draft.source?.isSome then .error .multipleInputs
      else parseBuild { draft with source? := some argument } rest

/-! ## Run -/

structure RunDraft where
  image? : Option String
  debug : DebugChoice
deriving DecidableEq, Repr

def RunDraft.initial : RunDraft := ⟨none, .ask⟩

def parseRun (draft : RunDraft) : List String → Except UsageError RunOptions
  | [] =>
      match draft.image? with
      | some image => .ok ⟨image, draft.debug⟩
      | none => .error .missingInput
  | argument :: rest =>
      if isHelp argument then .error .helpRequested
      else if argument == "--debug" || argument == "-d" then
        parseRun { draft with debug := .enabled } rest
      else if argument == "--no-debug" || argument == "-n" then
        parseRun { draft with debug := .disabled } rest
      else if looksLikeOption argument then .error (.unknownOption argument)
      else if draft.image?.isSome then .error .multipleInputs
      else parseRun { draft with image? := some argument } rest

def parse : List String → Except UsageError Command
  | [] => .error .missingCommand
  | first :: rest =>
      if isHelp first then .ok .help
      else if first == "build" then (parseBuild .initial rest).map .build
      else if first == "run" then (parseRun .initial rest).map .run
      else .error (.unknownCommand first)

end CommandLine

end MiniatureMachine

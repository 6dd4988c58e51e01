import MiniatureMachine.CommandLine.Invocation
import MiniatureMachine.Proofs.CommandLine.StandardInput
import MiniatureMachine.Proofs.Files.Tree

/-!
Contract: running a program from the command line is running a session.

Owns:
- the argument lists that ask for a run, and the debug choice that their flags make;
- the run of a session on the lines of a text;
- that an invocation leaves what this run leaves, and the file tree as it was.
-/

namespace MiniatureMachine.CommandLine

/-! ## The arguments of a run -/

/-- The debug choice for which an argument is a flag. -/
def debugFlag? (argument : String) : Option DebugChoice :=
  if argument == "--debug" || argument == "-d" then some .enabled
  else if argument == "--no-debug" || argument == "-n" then some .disabled
  else none

inductive AreFlags : (arguments : List String) → (choices : List DebugChoice) → Prop
  | nil : AreFlags [] []
  | cons {argument : String} {choice : DebugChoice} {rest : List String}
      {choices : List DebugChoice} (flag : debugFlag? argument = some choice)
      (others : AreFlags rest choices) : AreFlags (argument :: rest) (choice :: choices)

/-- Arguments that ask to run an image: its path, and flags for debug choices in any number
and order before it and behind it. -/
inductive AsksToRun (path : String) :
    (arguments : List String) → (choices : List DebugChoice) → Prop
  | path {rest : List String} {choices : List DebugChoice}
      (isPath : looksLikeOption path = false) (flags : AreFlags rest choices) :
      AsksToRun path (path :: rest) choices
  | flag {argument : String} {choice : DebugChoice} {rest : List String}
      {choices : List DebugChoice} (flag : debugFlag? argument = some choice)
      (others : AsksToRun path rest choices) :
      AsksToRun path (argument :: rest) (choice :: choices)

/-- The debug choice of a run: the last flag's, and to ask the operator without any. -/
def lastChoice (choices : List DebugChoice) : DebugChoice :=
  choices.getLast?.getD .ask

variable {arguments rest : List String} {argument path : String} {choice : DebugChoice}
  {choices : List DebugChoice} {options : RunOptions}

/-! ## Reading the arguments -/

private theorem eq_of_debugFlag? (flag : debugFlag? argument = some choice) :
    ((argument = "--debug" ∨ argument = "-d") ∧ choice = .enabled) ∨
      ((argument = "--no-debug" ∨ argument = "-n") ∧ choice = .disabled) := by
  unfold debugFlag? at flag
  split at flag
  · rename_i enables
    cases flag
    simpa using enables
  · split at flag
    · rename_i disables
      cases flag
      simpa using disables
    · cases flag

theorem parseRun_flag (flag : debugFlag? argument = some choice) (draft : RunDraft)
    (rest : List String) :
    parseRun draft (argument :: rest) = parseRun { draft with debug := choice } rest := by
  rcases eq_of_debugFlag? flag with ⟨rfl | rfl, rfl⟩ | ⟨rfl | rfl, rfl⟩
  all_goals rfl

/-- An argument that is no flag is the path, or the arguments are refused. -/
theorem parseRun_other (other : debugFlag? argument = none) (draft : RunDraft)
    (rest : List String) :
    (∃ error, parseRun draft (argument :: rest) = .error error) ∨
      looksLikeOption argument = false ∧ draft.image? = none ∧
        parseRun draft (argument :: rest) =
          parseRun { draft with image? := some argument } rest := by
  have notFlag : ¬(argument == "--debug" || argument == "-d") = true ∧
      ¬(argument == "--no-debug" || argument == "-n") = true := by
    unfold debugFlag? at other
    split at other
    · cases other
    · split at other
      · cases other
      · exact ⟨‹_›, ‹_›⟩
  rw [parseRun, if_neg notFlag.1, if_neg notFlag.2]
  split
  · exact .inl ⟨_, rfl⟩
  · split
    · exact .inl ⟨_, rfl⟩
    · rename_i isPath
      split
      · exact .inl ⟨_, rfl⟩
      · rename_i first
        exact .inr ⟨Bool.not_eq_true _ ▸ isPath, Option.not_isSome_iff_eq_none.mp first, rfl⟩

private theorem parseRun_path (isPath : looksLikeOption path = false) (debug : DebugChoice)
    (rest : List String) :
    parseRun ⟨none, debug⟩ (path :: rest) = parseRun ⟨some path, debug⟩ rest := by
  have other : ∀ option, looksLikeOption option = true → (path == option) = false := by
    intro option looks
    rw [beq_eq_false_iff_ne]
    rintro rfl
    cases isPath.symm.trans looks
  rw [parseRun, isHelp, other "--help" rfl, other "-h" rfl, other "--debug" rfl, other "-d" rfl,
    other "--no-debug" rfl, other "-n" rfl, isPath]
  rfl

theorem getD_getLast?_cons (choice debug : DebugChoice) (choices : List DebugChoice) :
    (choice :: choices).getLast?.getD debug = choices.getLast?.getD choice := by
  rw [List.getLast?_cons, Option.getD_some]

theorem AreFlags.parseRun_eq (flags : AreFlags arguments choices) (path : String)
    (debug : DebugChoice) :
    parseRun ⟨some path, debug⟩ arguments = .ok ⟨path, choices.getLast?.getD debug⟩ := by
  induction flags generalizing debug with
  | nil => rfl
  | cons flag _ inductionHypothesis =>
      rw [parseRun_flag flag, inductionHypothesis, getD_getLast?_cons]

theorem AsksToRun.parseRun_eq (asks : AsksToRun path arguments choices) (debug : DebugChoice) :
    parseRun ⟨none, debug⟩ arguments = .ok ⟨path, choices.getLast?.getD debug⟩ := by
  induction asks generalizing debug with
  | path isPath flags => rw [parseRun_path isPath, flags.parseRun_eq]
  | flag flag _ inductionHypothesis =>
      rw [parseRun_flag flag, inductionHypothesis, getD_getLast?_cons]

private theorem areFlags_of_parseRun {debug : DebugChoice}
    (parsed : parseRun ⟨some path, debug⟩ arguments = .ok options) :
    ∃ choices, AreFlags arguments choices ∧ options = ⟨path, choices.getLast?.getD debug⟩ := by
  induction arguments generalizing debug with
  | nil =>
      cases parsed
      exact ⟨[], .nil, rfl⟩
  | cons argument rest inductionHypothesis =>
      cases flag : debugFlag? argument with
      | none =>
          obtain ⟨error, refused⟩ | ⟨-, noPath, -⟩ := parseRun_other flag ⟨some path, debug⟩ rest
          · cases parsed.symm.trans refused
          · cases noPath
      | some choice =>
          rw [parseRun_flag flag] at parsed
          obtain ⟨choices, flags, rfl⟩ := inductionHypothesis parsed
          refine ⟨choice :: choices, .cons flag flags, ?_⟩
          rw [getD_getLast?_cons]

private theorem asksToRun_of_parseRun {debug : DebugChoice}
    (parsed : parseRun ⟨none, debug⟩ arguments = .ok options) :
    ∃ choices, AsksToRun options.image arguments choices ∧
      options.debug = choices.getLast?.getD debug := by
  induction arguments generalizing debug with
  | nil => cases parsed
  | cons argument rest inductionHypothesis =>
      cases flag : debugFlag? argument with
      | none =>
          obtain ⟨error, refused⟩ | ⟨isPath, -, later⟩ := parseRun_other flag ⟨none, debug⟩ rest
          · cases parsed.symm.trans refused
          · obtain ⟨choices, flags, rfl⟩ := areFlags_of_parseRun (later.symm.trans parsed)
            exact ⟨choices, .path isPath flags, rfl⟩
      | some choice =>
          rw [parseRun_flag flag] at parsed
          obtain ⟨choices, asks, debugged⟩ := inductionHypothesis parsed
          refine ⟨choice :: choices, .flag flag asks, ?_⟩
          rw [debugged, getD_getLast?_cons]

/-- The argument lists that run an image. -/
theorem parse_eq_run_iff :
    parse arguments = .ok (.run options) ↔
      ∃ rest choices, arguments = "run" :: rest ∧ AsksToRun options.image rest choices ∧
        options.debug = lastChoice choices := by
  constructor
  · intro parsed
    unfold parse at parsed
    split at parsed
    · cases parsed
    · rename_i first rest
      split at parsed
      · cases parsed
      · split at parsed
        · cases built : parseBuild .initial rest with
          | error error => cases (congrArg (Except.map _) built).symm.trans parsed
          | ok draft => cases (congrArg (Except.map _) built).symm.trans parsed
        · split at parsed
          · rename_i isRun
            cases read : parseRun .initial rest with
            | error error => cases (congrArg (Except.map _) read).symm.trans parsed
            | ok draft =>
                cases (congrArg (Except.map _) read).symm.trans parsed
                obtain ⟨choices, asks, debugged⟩ := asksToRun_of_parseRun read
                exact ⟨rest, choices, by rw [eq_of_beq isRun], asks, debugged⟩
          · cases parsed
  · rintro ⟨rest, choices, rfl, asks, debugged⟩
    obtain ⟨path, debug⟩ := options
    cases debugged
    exact congrArg (Except.map Command.run) (asks.parseRun_eq .ask)

/-! ## The run -/

/-- A session on an image whose operator enters the lines of a text. -/
def scriptedSession (image : Image) (debug : DebugChoice) (text : String) : Session :=
  Session.start image ⟨debug, true⟩
    (.start ((StandardInput.inputLines text).map .line) .calm)

private theorem startSession_toUTF8 (options : RunOptions) (image : Image) (text : String) :
    startSession options image (StandardInput.console text.toUTF8) =
      scriptedSession image options.debug text := by
  rw [startSession, StandardInput.console_toUTF8]
  rfl

private theorem reportRun_eq (finished : Finished) :
    reportRun finished =
      ⟨if finished.ending = .halted then 0 else 1, finished.session.console.output, ""⟩ := by
  obtain ⟨ending, session⟩ := finished
  cases ending <;> rfl

private theorem invoke_run (asks : AsksToRun path rest choices) {tree : FileTree} {image : Image}
    (loads : Load.run path tree = .ok image) (text : String) (fuel : Nat) :
    invoke fuel ("run" :: rest) tree text.toUTF8 =
      (Session.run fuel (scriptedSession image (lastChoice choices) text)).map fun finished =>
        (⟨if finished.ending = .halted then 0 else 1, finished.session.console.output, ""⟩,
          tree) := by
  have parsed : parse ("run" :: rest) = .ok (.run ⟨path, lastChoice choices⟩) :=
    parse_eq_run_iff.mpr ⟨rest, choices, rfl, asks, rfl⟩
  rw [invoke, parsed]
  dsimp only
  rw [runImage, loads]
  dsimp only
  rw [startSession_toUTF8, Option.map_map]
  refine congrArg (Option.map · _) (funext fun finished => ?_)
  rw [Function.comp_apply, reportRun_eq]

/-- The command line runs programs as sessions run. It runs an image for the argument lists
that have its path and flags around it, and for no others. The session that it starts is the
one whose operator enters the lines of the standard input, with the choice of the last flag.
So the invocation ends when the run of that session does. It prints what the run writes and
nothing else, exits with 0 when the machine halts and with 1 when it faults, and leaves the
files as they are. -/
theorem run_command_is_scripted_run :
    (∀ arguments options, parse arguments = .ok (.run options) ↔
        ∃ rest choices, arguments = "run" :: rest ∧ AsksToRun options.image rest choices ∧
          options.debug = lastChoice choices) ∧
      ∀ path rest choices tree image text,
        AsksToRun path rest choices → Load.run path tree = .ok image →
          startSession ⟨path, lastChoice choices⟩ image (StandardInput.console text.toUTF8) =
              scriptedSession image (lastChoice choices) text ∧
            ∀ fuel, invoke fuel ("run" :: rest) tree text.toUTF8 =
              (Session.run fuel (scriptedSession image (lastChoice choices) text)).map
                fun finished =>
                  (⟨if finished.ending = .halted then 0 else 1,
                    finished.session.console.output, ""⟩, tree) := by
  refine ⟨fun _ _ => parse_eq_run_iff, ?_⟩
  intro path rest choices tree image text asks loads
  exact ⟨startSession_toUTF8 _ image text, fun fuel => invoke_run asks loads text fuel⟩

/-- A file with an image that reads a number, writes it and halts. -/
def echoFile : FileTree :=
  ⟨[(["bin", "echo.b"], "0000000100000001\n0000000100000010\n\n0000000000000000".toUTF8)]⟩

/-- The echo refuses the first line, and reads the second without its carriage returns. -/
theorem echoFile_runs :
    invoke 3 ["run", "-d", "bin/echo.b", "--no-debug"] echoFile "x\r\n7\r\r".toUTF8 =
      some (⟨0, NumberInput.retryNotice ++ "\n" ++ NumberInput.retryPrompt ++ "7\n", ""⟩,
        echoFile) := by
  have asks : AsksToRun "bin/echo.b" ["-d", "bin/echo.b", "--no-debug"] [.enabled, .disabled] :=
    .flag rfl (.path rfl (.cons rfl .nil))
  have read : echoFile.read "bin/echo.b" =
      .ok "0000000100000001\n0000000100000010\n\n0000000000000000".toUTF8 := by
    decide +kernel
  have loads : Load.run "bin/echo.b" echoFile =
      .ok ⟨[some 0x0101, some 0x0102, some 0x0000]⟩ := by
    rw [Load.run, FileTree.readText, read]
    dsimp only
    rw [FileTree.textOfBytes_toUTF8]
    decide +kernel
  have ends : (Session.run 3 (scriptedSession ⟨[some 0x0101, some 0x0102, some 0x0000]⟩
      .disabled "x\r\n7\r\r")).map (fun finished =>
        (finished.ending, finished.session.console.output)) =
      some (.halted, NumberInput.retryNotice ++ "\n" ++ NumberInput.retryPrompt ++ "7\n") := by
    decide +kernel
  obtain ⟨finished, ended, parts⟩ := Option.map_eq_some_iff.mp ends
  obtain ⟨halted, output⟩ := Prod.mk.inj parts
  obtain ⟨-, invoked⟩ := run_command_is_scripted_run.2 _ _ _ _ _ "x\r\n7\r\r" asks loads
  have lasts : lastChoice [.enabled, .disabled] = .disabled := rfl
  rw [invoked 3, lasts, ended, Option.map_some, if_pos halted, output]

end MiniatureMachine.CommandLine

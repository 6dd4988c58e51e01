import MiniatureMachine.CommandLine.Invocation
import MiniatureMachine.Proofs.Assembly.Meaning
import MiniatureMachine.Proofs.Files.Tree

/-!
Contract: a build writes the whole image or nothing.

Owns:
- the shape of the image text of a valid program;
- the ways in which a build ends, and the tree that it leaves;
- the output path that an argument list asks for.

The source is read from the tree before the build. No way to end but the last one, which
comes after all checks, touches the tree.
-/

namespace MiniatureMachine

/-! ## Image texts -/

private theorem LineError.foreign_mem_marker (error : LineError) : '*' ∈ error.marker.toList := by
  cases error <;> simp [marker]

/-- A text of so many lines of nineteen image characters each, in which no marker of an
error stands. -/
def Image.IsShaped (text : String) (count : Nat) : Prop :=
  (∃ lines : List String, text = String.join (lines.map (· ++ "\n")) ∧ lines.length = count ∧
    ∀ line ∈ lines, line.length = 19 ∧ ∀ c ∈ line.toList, Image.isImageChar c = true) ∧
  ∀ error : LineError, ¬error.marker.toList <:+: text.toList

/-- Written words have the shape of an image, and no marker occurs, which has foreign characters. -/
theorem Image.isShaped_write (words : List Word) :
    Image.IsShaped (Image.write (words.map Word.layout)) words.length := by
  refine ⟨⟨_, rfl, List.length_map _, ?_⟩, ?_⟩
  · rw [List.forall_mem_map]
    exact fun word _ => ⟨word.length_layout, fun c inLine => isImageChar_of_mem_layout inLine⟩
  · intro error stands
    rcases mem_write_layouts (stands.subset error.foreign_mem_marker) with newline | known
    · cases newline
    · cases known

namespace AssembledProgram

variable {dialect : Dialect} {source text : String}

private theorem isValid_of_imageText? {program : AssembledProgram}
    (image : program.imageText? = some text) : program.isValid = true := by
  unfold imageText? at image
  split at image
  · assumption
  · cases image

private theorem isShaped_of_imageText? (image : (ofSource dialect source).imageText? = some text) :
    Image.IsShaped text (SourceLine.program source).length := by
  obtain ⟨words, -, -, counted, shown, -⟩ := exists_words_of_isValid (isValid_of_imageText? image)
  obtain rfl : text = _ := Option.some.inj (image.symm.trans shown)
  rw [← counted]
  exact Image.isShaped_write words

private theorem lines_eq_nil_iff :
    (ofSource dialect source).lines = [] ↔ SourceLine.program source = [] := by
  simp [ofSource, ofLines]

private theorem diagnostics_ne_nil {program : AssembledProgram} (present : program.lines ≠ [])
    (noText : program.imageText? = none) : program.diagnostics ≠ [] := by
  intro clean
  rw [diagnostics, List.filterMap_eq_nil_iff] at clean
  have valid : program.isValid = true := by
    rw [isValid, Bool.and_eq_true, List.all_eq_true]
    refine ⟨by simpa using present, ?_⟩
    intro line member
    have fine := clean line member
    unfold AssembledLine.diagnostic? at fine
    unfold AssembledLine.isEncoded
    split at fine
    · rfl
    · cases fine
  rw [imageText?, if_pos valid] at noText
  cases noText

end AssembledProgram

/-! ## Builds -/

namespace Build

open AssembledProgram

/-- How a build ends, and the tree that it leaves. In the first way it replaces the file at
the output path, and no other, by the image text of what the source was. In all other
ways it leaves the tree as it was. -/
inductive Ends (dialect : Dialect) (source output : String) (before : FileTree) :
    Except BuildError AssembledProgram → FileTree → Prop
  | written {content text : String} {location : Location} {after : FileTree}
      (read : before.readText source = .ok content)
      (valid : (ofSource dialect content).isValid = true)
      (image : (ofSource dialect content).imageText? = some text)
      (shaped : Image.IsShaped text (SourceLine.program content).length)
      (place : before.target output = .ok location)
      (replaces : before.Replaces after location text.toUTF8)
      (readBack : after.readText output = .ok text) :
      Ends dialect source output before (.ok (ofSource dialect content)) after
  | unreadable {error : FileError} (unread : before.readText source = .error error) :
      Ends dialect source output before (.error (.inaccessible source error)) before
  | empty {content : String} (read : before.readText source = .ok content)
      (noLine : SourceLine.program content = []) :
      Ends dialect source output before (.error .empty) before
  | lines {content : String} (read : before.readText source = .ok content)
      (present : SourceLine.program content ≠ [])
      (failed : (ofSource dialect content).diagnostics ≠ []) :
      Ends dialect source output before (.error (.lines (ofSource dialect content))) before
  | unwritable {content : String} {error : FileError}
      (read : before.readText source = .ok content)
      (valid : (ofSource dialect content).isValid = true)
      (noPlace : before.target output = .error error) :
      Ends dialect source output before (.error (.inaccessible output error)) before

theorem Ends.eq_of_error {dialect : Dialect} {source output : String}
    {before after : FileTree} {error : BuildError}
    (ends : Ends dialect source output before (.error error) after) : after = before := by
  cases ends <;> rfl

theorem ends_run (dialect : Dialect) (source output : String) (tree : FileTree) :
    Ends dialect source output tree (run dialect source output tree).1
      (run dialect source output tree).2 := by
  unfold run ofContent
  cases read : tree.readText source with
  | error error => exact .unreadable read
  | ok content =>
      dsimp only
      unfold ofText
      dsimp only
      by_cases noLine : (ofSource dialect content).lines = []
      · rw [if_pos (List.isEmpty_iff.mpr noLine)]
        exact .empty read (lines_eq_nil_iff.mp noLine)
      · rw [if_neg (by rwa [List.isEmpty_iff])]
        cases image : (ofSource dialect content).imageText? with
        | none =>
            have failed := diagnostics_ne_nil noLine image
            exact .lines read (noLine ∘ lines_eq_nil_iff.mpr) failed
        | some text =>
            have valid := isValid_of_imageText? image
            dsimp only
            unfold FileTree.writeText
            cases place : tree.target output with
            | error error => exact .unwritable read valid place
            | ok location =>
                exact .written read valid image (isShaped_of_imageText? image) place
                  (tree.replaces_put location _) (FileTree.readText_put place)

end Build

/-! ## Argument lists -/

namespace CommandLine

/-- The values of the output options among the arguments of a build. -/
def outputValues : List String → List String
  | [] | [_] => []
  | argument :: value :: rest =>
      if argument == "-o" || argument == "--output" then value :: outputValues rest
      else outputValues (value :: rest)

theorem outputValues_of_other {argument : String}
    (other : ¬(argument == "-o" || argument == "--output") = true) (rest : List String) :
    outputValues (argument :: rest) = outputValues rest := by
  cases rest with
  | nil => rfl
  | cons value rest => rw [outputValues, if_neg other]

-- The draft keeps the value that was read last, so the induction follows the reader.
private theorem output?_of_parseBuild {draft : BuildDraft} {arguments : List String}
    {options : BuildOptions} (parsed : parseBuild draft arguments = .ok options) :
    options.output? = (outputValues arguments).getLast?.or draft.output? := by
  fun_induction parseBuild draft arguments
  case case1 =>
    cases parsed
    rfl
  case case2 | case3 | case6 | case8 | case9 => cases parsed
  case case4 argument _ _ quiet inductionHypothesis =>
    have other : ¬(argument == "-o" || argument == "--output") = true := by
      rw [Bool.or_eq_true, beq_iff_eq, beq_iff_eq] at quiet
      rcases quiet with rfl | rfl <;> decide
    rw [outputValues_of_other other, inductionHypothesis parsed]
  case case5 argument _ _ _ legacy inductionHypothesis =>
    have other : ¬(argument == "-o" || argument == "--output") = true := by
      rw [beq_iff_eq.mp legacy]
      decide
    rw [outputValues_of_other other, inductionHypothesis parsed]
  case case7 isOutput value rest inductionHypothesis =>
    rw [outputValues, if_pos isOutput, inductionHypothesis parsed, List.getLast?_cons]
    cases (outputValues rest).getLast? <;> rfl
  case case10 notOutput _ _ inductionHypothesis =>
    rw [outputValues_of_other notOutput, inductionHypothesis parsed]

/-- The path at which a build with these arguments and this source puts its image. -/
def requestedOutput (arguments : List String) (source : String) : String :=
  (outputValues arguments).getLast?.getD (Path.defaultOutput source)

theorem outputPath_of_parse {arguments : List String} {options : BuildOptions}
    (parsed : parseBuild .initial arguments = .ok options) :
    outputPath options = requestedOutput arguments options.source := by
  rw [outputPath, output?_of_parseBuild parsed, requestedOutput]
  exact congrArg (Option.getD · _) Option.or_none

theorem status_reportBuild_error (options : BuildOptions) (error : BuildError) :
    (reportBuild options (.error error)).status = 1 := by
  cases error <;> rfl

private theorem status_refuse (error : UsageError) : (refuse error).status = 1 := by
  cases error <;> rfl

/-- A build of a file ends in one of the given ways, and so does a build from the command
line. There the exit status is 0 when the image is written. In every other case, which
refused arguments are, too, the exit status is 1 and the tree is left as it was. -/
theorem build_is_all_or_nothing :
    (∀ dialect source output before,
      Build.Ends dialect source output before (Build.run dialect source output before).1
        (Build.run dialect source output before).2) ∧
    ∀ fuel arguments before input, ∃ outcome after,
      invoke fuel ("build" :: arguments) before input = some (outcome, after) ∧
      ((outcome.status = 0 ∧
          ∃ options program, parse ("build" :: arguments) = .ok (.build options) ∧
            Build.Ends options.dialect options.source (requestedOutput arguments options.source)
              before (.ok program) after) ∨
        (outcome.status = 1 ∧ after = before ∧
          ((∃ error, parse ("build" :: arguments) = .error error) ∨
            ∃ options error, parse ("build" :: arguments) = .ok (.build options) ∧
              Build.Ends options.dialect options.source (requestedOutput arguments options.source)
                before (.error error) after))) := by
  refine ⟨Build.ends_run, ?_⟩
  intro fuel arguments before input
  have parsing : parse ("build" :: arguments) = (parseBuild .initial arguments).map .build := rfl
  rw [invoke, parsing]
  cases parsed : parseBuild .initial arguments with
  | error error =>
      exact ⟨_, _, rfl, .inr ⟨status_refuse error, rfl, .inl ⟨error, rfl⟩⟩⟩
  | ok options =>
      refine ⟨_, _, rfl, ?_⟩
      rw [outputPath_of_parse parsed]
      have ends := Build.ends_run options.dialect options.source
        (requestedOutput arguments options.source) before
      cases built : (Build.run options.dialect options.source
          (requestedOutput arguments options.source) before).1 with
      | ok program =>
          rw [built] at ends
          exact .inl ⟨rfl, options, program, rfl, ends⟩
      | error error =>
          rw [built] at ends
          exact .inr ⟨status_reportBuild_error options error, ends.eq_of_error,
            .inr ⟨options, error, rfl, ends⟩⟩

-- A line that fails leaves the image of an earlier build.
example :
    let tree : FileTree :=
      ⟨[(["stray.hmmm"], "0 halt\n1 stop".toUTF8), (["stray.b"], "0000 0000".toUTF8)]⟩
    (CommandLine.invoke 0 ["build", "stray.hmmm"] tree .empty).map
        (fun left => (left.1.status, left.2.content? ["stray.b"])) =
      some (1, some "0000 0000".toUTF8) := by
  decide +kernel

end CommandLine

end MiniatureMachine

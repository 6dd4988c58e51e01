import MiniatureMachine.Proofs.Files.Build

/-!
Contract: a build without an output option and the source it reads.

Owns:
- where the default output of a readable source leads;
- what is read at the source after a build;
- the command lines that name no output.

The default output is the source itself exactly when the name of the source is a stem with
the extension `b`. No other source can be hit: the default output ends in another name.
-/

namespace MiniatureMachine

namespace FileTree

variable {before after tree : FileTree} {location : Location} {content bytes : ByteArray}
  {source output : String}

theorem read_eq_ok_iff :
    tree.read source = .ok content ↔
      ∃ location, tree.resolve source = .ok location ∧ tree.isDirectory location = false ∧
        tree.content? location = some content := by
  unfold read
  cases tree.resolve source with
  | error error => simp
  | ok location =>
      cases isDirectory : tree.isDirectory location with
      | true => simp [isDirectory]
      | false =>
          cases held : tree.content? location <;> simp [isDirectory, held]

/-- A file that is not the one written is read as before. -/
theorem Replaces.read_eq (replaces : before.Replaces after location bytes)
    (writable : before.target output = .ok location) (read : before.read source = .ok content)
    (elsewhere : before.resolve source ≠ .ok location) : after.read source = .ok content := by
  obtain ⟨place, leads, notDirectory, held⟩ := read_eq_ok_iff.mp read
  obtain ⟨outputLeads, outputFile⟩ := target_eq_ok writable
  have different : place ≠ location := by
    rintro rfl
    exact elsewhere leads
  refine read_eq_ok_iff.mpr ⟨place, replaces.resolve_eq leads, ?_, ?_⟩
  · rw [Bool.eq_false_iff, ne_eq, replaces.isDirectory_iff]
    rintro (wasDirectory | ⟨above, -⟩)
    · cases notDirectory.symm.trans wasDirectory
    · cases notDirectory.symm.trans
        (isDirectory_of_inside outputLeads outputFile above different)
  · rw [replaces.others place different, held]

/-! ## The default output of a readable source -/

private theorem resolve_defaultOutput (leads : tree.resolve source = .ok location)
    (notDirectory : tree.isDirectory location = false) (named : Path.HasImageName source) :
    tree.resolve (Path.defaultOutput source) = .ok location := by
  obtain ⟨front, name, folder, ends, isName, -, -⟩ := exists_name_of_resolve leads notDirectory
  obtain ⟨stem, present, isImage⟩ := named
  rw [Path.name?_of_pieces ends isName, Option.some.injEq] at isImage
  have pieces := Path.pieces_defaultOutput ends isName
  rw [Path.stem_append_eq_iff.mpr ⟨stem, present, isImage⟩] at pieces
  unfold resolve at leads ⊢
  split at leads
  · cases leads
  · have notEmpty : ¬(Path.defaultOutput source).isEmpty = true := by
      intro empty
      rw [String.isEmpty_iff.mp empty] at pieces
      have lone : [[]] = Path.settle front ++ [name] := pieces
      obtain ⟨-, same⟩ := List.append_singleton_inj.mp ((List.nil_append _).trans lone)
      exact isName.ne_nil same.symm
    rw [ends] at leads
    rw [if_neg notEmpty, pieces]
    exact resolvePieces_settle leads

private theorem hasImageName_of_resolve (leads : tree.resolve source = .ok location)
    (notDirectory : tree.isDirectory location = false)
    (outputLeads : tree.resolve (Path.defaultOutput source) = .ok location) :
    Path.HasImageName source := by
  obtain ⟨front, name, folder, ends, isName, -, place⟩ :=
    exists_name_of_resolve leads notDirectory
  obtain ⟨_, _, _, otherEnds, -, -, samePlace⟩ :=
    exists_name_of_resolve outputLeads notDirectory
  obtain ⟨-, sameText⟩ := List.append_singleton_inj.mp (place.symm.trans samePlace)
  obtain ⟨-, isOther⟩ := List.append_singleton_inj.mp
    (otherEnds.symm.trans (Path.pieces_defaultOutput ends isName))
  obtain ⟨start, present, isImage⟩ := Path.stem_append_eq_iff.mp
    (isOther.symm.trans (String.ofList_injective sameText).symm)
  exact ⟨start, present, isImage ▸ Path.name?_of_pieces ends isName⟩

private theorem readText_congr {source output : String} {tree : FileTree}
    (same : tree.resolve source = tree.resolve output) :
    tree.readText source = tree.readText output := by
  rw [readText, readText, read, read, same]

private theorem exists_read_of_readText {source text : String} {tree : FileTree}
    (read : tree.readText source = .ok text) : ∃ content, tree.read source = .ok content := by
  unfold readText at read
  split at read
  · rename_i content held
    exact ⟨content, held⟩
  · cases read

end FileTree

/-! ## Builds at the default output -/

namespace Build

open AssembledProgram FileTree

variable {dialect : Dialect} {source : String} {before after : FileTree}
  {program : AssembledProgram}

/-- A source with another name than its image keeps its bytes. -/
theorem Ends.read_source
    (ends : Ends dialect source (Path.defaultOutput source) before (.ok program) after)
    (unnamed : ¬Path.HasImageName source) : after.read source = before.read source := by
  obtain ⟨readSource, -, -, -, place, replaces, -⟩ := ends
  obtain ⟨content, read⟩ := exists_read_of_readText readSource
  obtain ⟨outputLeads, outputFile⟩ := target_eq_ok place
  rw [read]
  refine replaces.read_eq place read ?_
  intro leads
  exact unnamed (hasImageName_of_resolve leads outputFile outputLeads)

/-- A source with the name of its image holds the image text afterwards. -/
theorem Ends.readText_source
    (ends : Ends dialect source (Path.defaultOutput source) before (.ok program) after)
    (named : Path.HasImageName source) :
    ∃ content text, before.readText source = .ok content ∧
      (ofSource dialect content).imageText? = some text ∧ after.readText source = .ok text := by
  obtain ⟨readSource, -, image, -, place, replaces, readBack⟩ := ends
  obtain ⟨content, read⟩ := exists_read_of_readText readSource
  obtain ⟨location, leads, notDirectory, -⟩ := read_eq_ok_iff.mp read
  have sameInAfter : after.resolve source = after.resolve (Path.defaultOutput source) := by
    rw [replaces.resolve_eq leads,
      replaces.resolve_eq (resolve_defaultOutput leads notDirectory named)]
  exact ⟨_, _, readSource, image, (readText_congr sameInAfter).trans readBack⟩

end Build

/-! ## Command lines that name no output -/

namespace CommandLine

def NamesNoOutput (arguments : List String) : Prop :=
  ∀ argument ∈ arguments, argument ≠ "-o" ∧ argument ≠ "--output"

private theorem NamesNoOutput.outputValues_eq {arguments : List String}
    (namesNone : NamesNoOutput arguments) : outputValues arguments = [] := by
  induction arguments with
  | nil => rfl
  | cons argument arguments inductionHypothesis =>
      obtain ⟨⟨notShort, notLong⟩, later⟩ := List.forall_mem_cons.mp namesNone
      rw [outputValues_of_other (by simp [notShort, notLong])]
      exact inductionHypothesis later

private theorem NamesNoOutput.outputPath_eq {arguments : List String} {options : BuildOptions}
    (namesNone : NamesNoOutput arguments)
    (parsed : parseBuild .initial arguments = .ok options) :
    outputPath options = Path.defaultOutput options.source := by
  rw [outputPath_of_parse parsed, requestedOutput, namesNone.outputValues_eq, List.getLast?_nil,
    Option.getD_none]

/-- A file whose name is a stem with the extension `b`, although it holds a source text. -/
def selfNamed : FileTree :=
  ⟨[(["a.b"], "0 halt".toUTF8)]⟩

/-- The image of such a file takes its place. -/
theorem build_replaces_selfNamed :
    NamesNoOutput ["a.b"] ∧
      ∃ outcome after, invoke 0 ["build", "a.b"] selfNamed .empty = some (outcome, after) ∧
        outcome.status = 0 ∧ after.read "a.b" ≠ selfNamed.read "a.b" := by
  refine ⟨by simp [NamesNoOutput], ?_⟩
  have built : (invoke 0 ["build", "a.b"] selfNamed .empty).map
      (fun left => (left.1.status, left.2.read "a.b")) =
        some (0, .ok "0000 0000 0000 0000\n".toUTF8) := by
    decide +kernel
  obtain ⟨⟨outcome, after⟩, ends, parts⟩ := Option.map_eq_some_iff.mp built
  obtain ⟨status, read⟩ := Prod.mk.inj parts
  refine ⟨outcome, after, ends, status, ?_⟩
  rw [read]
  decide +kernel

/-- A build without an output option leaves its source as it was, unless the name of the
source is a stem with the extension `b` and the build succeeds. Then the source has become
the image of what it was. -/
theorem build_keeps_source_unless_selfNamed {arguments : List String}
    (namesNone : NamesNoOutput arguments) (fuel : Nat) (before : FileTree) (input : ByteArray) :
    ∃ outcome after, invoke fuel ("build" :: arguments) before input = some (outcome, after) ∧
      ((∃ error, parse ("build" :: arguments) = .error error) ∧ after = before ∨
        ∃ options, parse ("build" :: arguments) = .ok (.build options) ∧
          (¬(Path.HasImageName options.source ∧ outcome.status = 0) →
            after.read options.source = before.read options.source) ∧
          (Path.HasImageName options.source ∧ outcome.status = 0 →
            ∃ content text, before.readText options.source = .ok content ∧
              (AssembledProgram.ofSource options.dialect content).imageText? = some text ∧
              after.readText options.source = .ok text)) := by
  have parsing : parse ("build" :: arguments) = (parseBuild .initial arguments).map .build := rfl
  rw [invoke, parsing]
  cases parsed : parseBuild .initial arguments with
  | error error => exact ⟨_, _, rfl, .inl ⟨⟨error, rfl⟩, rfl⟩⟩
  | ok options =>
      refine ⟨_, _, rfl, .inr ⟨options, rfl, ?_⟩⟩
      rw [namesNone.outputPath_eq parsed]
      have ends := Build.ends_run options.dialect options.source
        (Path.defaultOutput options.source) before
      cases built : (Build.run options.dialect options.source
          (Path.defaultOutput options.source) before).1 with
      | ok program =>
          rw [built] at ends
          refine ⟨?_, ?_⟩
          · intro unnamed
            exact ends.read_source fun named => unnamed ⟨named, rfl⟩
          · rintro ⟨named, -⟩
            exact ends.readText_source named
      | error error =>
          rw [built] at ends
          refine ⟨?_, ?_⟩
          · intro _
            rw [ends.eq_of_error]
          · rintro ⟨-, succeeded⟩
            cases (status_reportBuild_error options error).symm.trans succeeded

/-- A source whose name begins with its only dot, so that it has no stem before it. -/
def hiddenSource : FileTree :=
  ⟨[(["src", ".b"], "0 halt".toUTF8)]⟩

/-- The image of the hidden source goes to another file, `.b.b`. -/
theorem build_keeps_hiddenSource :
    ∃ outcome after, invoke 0 ["build", "-q", "src//.b"] hiddenSource .empty =
        some (outcome, after) ∧
      outcome.status = 0 ∧ after.read "src//.b" = .ok "0 halt".toUTF8 := by
  have namesNone : NamesNoOutput ["-q", "src//.b"] := by simp [NamesNoOutput]
  have parsed : parse ["build", "-q", "src//.b"] =
      .ok (.build ⟨"src//.b", none, .canonical, true⟩) := by
    decide +kernel
  have unnamed : ¬Path.HasImageName "src//.b" := by
    rintro ⟨stem, present, isImage⟩
    have name : Path.name? "src//.b" = some ['.', 'b'] := by decide +kernel
    have noStem := List.append_cancel_right
      ((List.nil_append _).trans (Option.some.inj (name.symm.trans isImage)))
    exact present noStem.symm
  have succeeds : (invoke 0 ["build", "-q", "src//.b"] hiddenSource .empty).map
      (fun left => left.1.status) = some 0 := by
    decide +kernel
  have read : hiddenSource.read "src//.b" = .ok "0 halt".toUTF8 := by decide +kernel
  obtain ⟨outcome, after, ends, refused | ⟨options, isBuild, kept, -⟩⟩ :=
    build_keeps_source_unless_selfNamed namesNone 0 hiddenSource .empty
  · obtain ⟨⟨error, refused⟩, -⟩ := refused
    cases parsed.symm.trans refused
  · cases parsed.symm.trans isBuild
    rw [ends] at succeeds
    refine ⟨outcome, after, ends, Option.some.inj succeeds, ?_⟩
    rw [kept fun named => unnamed named.1, read]

end CommandLine

end MiniatureMachine

import Mathlib.Data.List.Infix
import MiniatureMachine.Files.Tree
import MiniatureMachine.Proofs.Files.Path

/-!
Contract: where paths lead in a tree, and what writing a file does to them.

Owns:
- trees that differ in the content of one file;
- the directories on the way to a location, and the pieces of a path that leads there;
- the files, directories and paths of a tree after a file is put into it;
- reading back the text that was written at a path.
-/

namespace MiniatureMachine.FileTree

variable {tree before after : FileTree} {location other : Location} {bytes : ByteArray}

/-- One tree is another with a file at a location, new or with new content. -/
structure Replaces (before after : FileTree) (location : Location) (bytes : ByteArray) :
    Prop where
  written : after.content? location = some bytes
  others : ∀ other, other ≠ location → after.content? other = before.content? other

/-! ## Files -/

private theorem lookup_replaced (files : List (Location × ByteArray)) (location other : Location)
    (bytes : ByteArray) :
    (files.map fun file => if file.1 = location then (location, bytes) else file).lookup other =
      if other = location then (files.lookup other).map fun _ => bytes
      else files.lookup other := by
  induction files with
  | nil => simp
  | cons file files inductionHypothesis =>
      obtain ⟨place, content⟩ := file
      rw [List.map_cons, List.lookup_cons]
      dsimp only
      by_cases replaced : place = location
      · subst replaced
        rw [if_pos rfl, List.lookup_cons, inductionHypothesis]
        by_cases asked : other = place
        · simp [asked]
        · simp only [beq_eq_false_iff_ne.mpr asked, if_neg asked]
      · rw [if_neg replaced, List.lookup_cons, inductionHypothesis]
        by_cases asked : other = place
        · simp [asked, replaced]
        · simp only [beq_eq_false_iff_ne.mpr asked]

private theorem content?_put_same (tree : FileTree) (location : Location) (bytes : ByteArray) :
    (tree.put location bytes).content? location = some bytes := by
  unfold put
  split
  · rename_i present
    obtain ⟨content, held⟩ := Option.isSome_iff_exists.mp present
    unfold content? at held ⊢
    rw [lookup_replaced, if_pos rfl, held]
    rfl
  · rename_i absent
    rw [Option.not_isSome_iff_eq_none] at absent
    unfold content? at absent ⊢
    rw [List.lookup_append, absent]
    simp

private theorem content?_put_other (tree : FileTree) (bytes : ByteArray)
    (different : other ≠ location) :
    (tree.put location bytes).content? other = tree.content? other := by
  unfold put
  split
  · unfold content?
    rw [lookup_replaced, if_neg different]
  · unfold content?
    rw [List.lookup_append, List.lookup_cons, beq_eq_false_iff_ne.mpr different]
    exact Option.or_none

theorem replaces_put (tree : FileTree) (location : Location) (bytes : ByteArray) :
    tree.Replaces (tree.put location bytes) location bytes where
  written := tree.content?_put_same location bytes
  others := fun _ different => tree.content?_put_other bytes different

/-! ## Directories -/

theorem isDirectory_iff :
    tree.isDirectory location = true ↔
      location.isOutward = true ∨
        ∃ inner, (tree.content? inner).isSome = true ∧ location <+: inner ∧ location ≠ inner := by
  simp only [isDirectory, content?, Bool.or_eq_true, List.any_eq_true, Bool.and_eq_true,
    List.isPrefixOf_iff_prefix, bne_iff_ne, List.lookup_isSome_iff, beq_iff_eq]
  refine or_congr_right ⟨?_, ?_⟩
  · rintro ⟨file, member, inside⟩
    exact ⟨file.1, ⟨file, member, rfl⟩, inside⟩
  · rintro ⟨_, ⟨file, member, rfl⟩, inside⟩
    exact ⟨file, member, inside⟩

theorem enter_eq_ok_iff : tree.enter location = .ok () ↔ tree.isDirectory location = true := by
  unfold enter
  split
  · simp_all
  · split <;> simp_all

/-- Only the directories above a new file can be new. -/
theorem Replaces.isDirectory_iff (replaces : before.Replaces after location bytes) :
    after.isDirectory other = true ↔
      before.isDirectory other = true ∨ (other <+: location ∧ other ≠ location) := by
  have files : ∀ place, (after.content? place).isSome = true ↔
      place = location ∨ (before.content? place).isSome = true := by
    intro place
    by_cases same : place = location
    · simp [same, replaces.written]
    · simp [same, replaces.others place same]
  rw [FileTree.isDirectory_iff, FileTree.isDirectory_iff, or_assoc]
  refine or_congr_right ⟨?_, ?_⟩
  · rintro ⟨inner, present, inside⟩
    rcases (files inner).mp present with rfl | wasPresent
    · exact .inr inside
    · exact .inl ⟨inner, wasPresent, inside⟩
  · rintro (⟨inner, wasPresent, inside⟩ | inside)
    · exact ⟨inner, (files inner).mpr (.inr wasPresent), inside⟩
    · exact ⟨location, (files location).mpr (.inl rfl), inside⟩

/-- A path that leads somewhere before a file is put in leads there afterwards. -/
theorem Replaces.walk_eq {start destination : Location} {pieces : List (List Char)}
    (replaces : before.Replaces after location bytes)
    (walks : before.walk start pieces = .ok destination) :
    after.walk start pieces = .ok destination := by
  induction pieces generalizing start with
  | nil => exact walks
  | cons piece pieces inductionHypothesis =>
      unfold walk at walks ⊢
      split at walks
      · rename_i entered
        have still : after.enter start = .ok () := by
          rw [enter_eq_ok_iff] at entered ⊢
          exact replaces.isDirectory_iff.mpr (.inl entered)
        rw [still]
        exact inductionHypothesis walks
      · cases walks

theorem Replaces.resolve_eq {path : String} {destination : Location}
    (replaces : before.Replaces after location bytes)
    (leads : before.resolve path = .ok destination) : after.resolve path = .ok destination := by
  unfold resolve resolvePieces at leads ⊢
  split at leads
  · cases leads
  · rename_i notEmpty
    rw [if_neg notEmpty]
    split at leads
    · exact replaces.walk_eq leads
    · exact replaces.walk_eq leads

/-! ## Directories above -/

private theorem isOutward_of_isPrefix (outward : location.isOutward = true)
    (above : other <+: location) :
    other.isOutward = true := by
  simp only [Location.isOutward, Bool.or_eq_true, beq_iff_eq, List.all_eq_true] at outward ⊢
  rcases outward with rfl | steps
  · rcases List.prefix_cons_iff.mp above with rfl | ⟨rest, rfl, inNothing⟩
    · exact .inr (by simp)
    · exact .inl (by rw [List.prefix_nil.mp inNothing]; rfl)
  · exact .inr fun step member => steps step (above.subset member)

private theorem isDirectory_of_isPrefix (isDirectory : tree.isDirectory location = true)
    (above : other <+: location) : tree.isDirectory other = true := by
  rw [isDirectory_iff] at isDirectory ⊢
  rcases isDirectory with outward | ⟨inner, present, inside, different⟩
  · exact .inl (isOutward_of_isPrefix outward above)
  · refine .inr ⟨inner, present, above.trans inside, ?_⟩
    rintro rfl
    exact different (inside.eq_of_length_le above.length_le)

private theorem isDirectory_parent (isDirectory : tree.isDirectory location = true) :
    tree.isDirectory location.parent = true := by
  unfold Location.parent
  split
  · exact isDirectory_iff.mpr (.inl rfl)
  · rename_i notRoot
    split
    · rename_i outward
      refine isDirectory_iff.mpr (.inl ?_)
      simp only [Location.isOutward, Bool.or_eq_true, beq_iff_eq, notRoot, false_or] at outward ⊢
      exact .inr (by simp [outward])
    · exact isDirectory_of_isPrefix isDirectory (List.dropLast_prefix location)

/-! ## Following a path -/

theorem walk_append (start : Location) (front back : List (List Char)) :
    tree.walk start (front ++ back) = tree.walk start front >>= fun middle =>
      tree.walk middle back := by
  induction front generalizing start with
  | nil => rfl
  | cons piece front inductionHypothesis =>
      rw [List.cons_append, walk, walk]
      cases tree.enter start with
      | error error => rfl
      | ok _ => exact inductionHypothesis (start.follow piece)

/-- Idle pieces lead nowhere, but only from a directory. -/
theorem walk_idle {start destination : Location} {idle back : List (List Char)}
    (areIdle : ∀ piece ∈ idle, Path.isIdle piece = true)
    (walks : tree.walk start (idle ++ back) = .ok destination) :
    tree.walk start back = .ok destination := by
  induction idle with
  | nil => exact walks
  | cons piece idle inductionHypothesis =>
      obtain ⟨pieceIdle, laterIdle⟩ := List.forall_mem_cons.mp areIdle
      rw [List.cons_append, walk] at walks
      split at walks
      · rw [Location.follow, if_pos pieceIdle] at walks
        exact inductionHypothesis laterIdle walks
      · cases walks

/-- The last piece of a path is followed from a directory. -/
theorem walk_concat {start destination : Location} {front : List (List Char)}
    {piece : List Char} (walks : tree.walk start (front ++ [piece]) = .ok destination) :
    ∃ folder, tree.isDirectory folder = true ∧ destination = folder.follow piece := by
  rw [walk_append] at walks
  cases middle : tree.walk start front with
  | error error =>
      rw [middle] at walks
      cases walks
  | ok folder =>
      rw [middle] at walks
      replace walks : tree.walk folder [piece] = .ok destination := walks
      unfold walk at walks
      split at walks
      · rename_i entered
        cases walks
        exact ⟨folder, enter_eq_ok_iff.mp entered, rfl⟩
      · cases walks

def origin (first : List Char) : Location :=
  if first = [] then Location.root else Location.follow [] first

theorem resolvePieces_cons (first : List Char) (rest : List (List Char)) :
    tree.resolvePieces (first :: rest) = tree.walk (origin first) rest := by
  cases first with
  | nil => rfl
  | cons c first =>
      have entered : tree.enter [] = .ok () := enter_eq_ok_iff.mpr (isDirectory_iff.mpr (.inl rfl))
      unfold resolvePieces
      dsimp only
      rw [walk, entered]
      rfl

/-- Whether a path leads somewhere does not depend on idle pieces before the last. -/
theorem resolvePieces_settle {front : List (List Char)} {piece : List Char}
    (leads : tree.resolvePieces (front ++ [piece]) = .ok location) :
    tree.resolvePieces (Path.settle front ++ [piece]) = .ok location := by
  obtain ⟨idle, split, areIdle, shape⟩ := Path.exists_settle front
  cases kept : Path.settle front with
  | nil =>
      rcases shape with rfl | root | ⟨before, last, isLast, -⟩
      · exact leads
      · cases kept.symm.trans root
      · exact absurd (kept.symm.trans isLast) (by simp)
  | cons first rest =>
      rw [split, kept, List.append_assoc, List.cons_append, resolvePieces_cons,
        walk_append] at leads
      rw [List.cons_append, resolvePieces_cons, walk_append]
      cases middle : tree.walk (origin first) rest with
      | error error =>
          rw [middle] at leads
          cases leads
      | ok folder =>
          rw [middle] at leads
          exact walk_idle areIdle leads

/-! ## Paths -/

/-- A path that does not lead to a directory ends in a name, inside a directory. -/
theorem exists_name_of_resolve {path : String} (leads : tree.resolve path = .ok location)
    (notDirectory : tree.isDirectory location = false) :
    ∃ front name folder, Path.pieces path = front ++ [name] ∧ Path.IsName name ∧
      tree.isDirectory folder = true ∧ location = folder ++ [String.ofList name] := by
  unfold resolve at leads
  split at leads
  · cases leads
  rename_i notEmpty
  have lastStep : ∃ front piece folder, Path.pieces path = front ++ [piece] ∧
      tree.isDirectory folder = true ∧ location = folder.follow piece := by
    obtain ⟨first, rest, split⟩ :=
      List.exists_cons_of_ne_nil (Text.pieces_ne_nil (· == '/') path.toList)
    replace split : Path.pieces path = first :: rest := split
    rw [split, resolvePieces_cons] at leads
    rcases List.eq_nil_or_concat' rest with rfl | ⟨front, piece, rfl⟩
    · have present : first ≠ [] := by
        rintro rfl
        exact notEmpty (by simpa using Text.eq_nil_of_pieces split)
      cases leads
      exact ⟨[], first, [], split, isDirectory_iff.mpr (.inl rfl), if_neg present⟩
    · obtain ⟨folder, isDirectory, follows⟩ := walk_concat leads
      exact ⟨first :: front, piece, folder, split, isDirectory, follows⟩
  obtain ⟨front, piece, folder, ends, isDirectory, rfl⟩ := lastStep
  unfold Location.follow at notDirectory ⊢
  split at notDirectory
  · cases isDirectory.symm.trans notDirectory
  · rename_i notIdle
    split at notDirectory
    · cases (isDirectory_parent isDirectory).symm.trans notDirectory
    · rename_i notParent
      refine ⟨front, piece, folder, ends, ?_, isDirectory, ?_⟩
      · exact ⟨Bool.not_eq_true _ ▸ notIdle, Bool.not_eq_true _ ▸ notParent⟩
      · rw [if_neg notIdle, if_neg notParent]

theorem isDirectory_of_inside {path : String} (leads : tree.resolve path = .ok location)
    (notDirectory : tree.isDirectory location = false) (above : other <+: location)
    (different : other ≠ location) : tree.isDirectory other = true := by
  obtain ⟨front, name, folder, -, -, isDirectory, rfl⟩ :=
    exists_name_of_resolve leads notDirectory
  rcases List.prefix_concat_iff.mp above with same | inFolder
  · exact absurd same different
  · exact isDirectory_of_isPrefix isDirectory inFolder

theorem target_eq_ok {path : String} (writable : tree.target path = .ok location) :
    tree.resolve path = .ok location ∧ tree.isDirectory location = false := by
  unfold target at writable
  split at writable
  · split at writable
    · cases writable
    · split at writable <;> cases writable
  · split at writable
    · cases writable
    · rename_i destination leads
      split at writable
      · cases writable
      · rename_i notDirectory
        cases writable
        exact ⟨leads, Bool.not_eq_true _ ▸ notDirectory⟩

theorem textOfBytes_toUTF8 (text : String) : textOfBytes text.toUTF8 = .ok text := by
  rw [textOfBytes, Text.fromUTF8?_toUTF8]

/-- The text that is put at the place of a path is read back from the path. -/
theorem readText_put {path text : String} (writable : tree.target path = .ok location) :
    (tree.put location text.toUTF8).readText path = .ok text := by
  obtain ⟨leads, notDirectory⟩ := target_eq_ok writable
  have replaces := tree.replaces_put location text.toUTF8
  have stillFile : (tree.put location text.toUTF8).isDirectory location = false := by
    rw [Bool.eq_false_iff, ne_eq, replaces.isDirectory_iff, notDirectory]
    simp
  unfold readText read
  rw [replaces.resolve_eq leads]
  dsimp only
  rw [if_neg (Bool.eq_false_iff.mp stillFile), content?_put_same]
  exact textOfBytes_toUTF8 text

end MiniatureMachine.FileTree

import MiniatureMachine.Isa.Operation

/-!
Contract: the spellings of operations that a source program may use.

Owns:
- the two dialects and their tables of spellings;
- the operation of a spelling.

The canonical dialect knows the name of every operation and some shorthands. The
legacy dialect has a table of its own, in which several names mean another
operation and `data` has no spelling.
-/

namespace MiniatureMachine

/-- A set of spellings. -/
inductive Dialect where
  | canonical
  | legacy2012
deriving DecidableEq, Repr

namespace Dialect

abbrev Spelling := String × Operation

/-- The spellings that the canonical dialect adds to the operations' names. -/
def shorthands : List Spelling :=
  [("setn", .loadn), ("copy", .mov), ("jumpn", .jump), ("calln", .call),
    ("jeqzn", .jeqz), ("jnezn", .jnez), ("jgtzn", .jgtz), ("jltzn", .jltz),
    ("jumpr", .jumpi), ("loadr", .loadi), ("storer", .storei), ("storen", .store)]

def legacySpellings : List Spelling :=
  [("halt", .halt), ("read", .read), ("write", .write), ("nop", .nop),
    ("setn", .loadn), ("addn", .addn), ("mov", .mov), ("copy", .mov),
    ("add", .add), ("sub", .sub), ("neg", .neg), ("mul", .mul), ("div", .div),
    ("mod", .mod), ("jumpn", .jump), ("jeqz", .jeqz), ("jeqzn", .jeqz),
    ("jnez", .jnez), ("jnezn", .jnez), ("jgtz", .jgtz), ("jgtzn", .jgtz),
    ("jltz", .jltz), ("jltzn", .jltz), ("call", .call), ("calln", .call),
    ("jump", .jumpi), ("jumpr", .jumpi), ("loadn", .load), ("storen", .store),
    ("load", .loadi), ("loadi", .loadi), ("loadr", .loadi), ("store", .storei),
    ("storei", .storei), ("storer", .storei)]

/-- The table of a dialect, where the first entry of a spelling counts. -/
def table : Dialect → List Spelling
  | canonical => Operation.all.map (fun operation => (operation.name, operation)) ++ shorthands
  | legacy2012 => legacySpellings

def resolve? (dialect : Dialect) (spelling : String) : Option Operation :=
  dialect.table.lookup spelling

def spellings (dialect : Dialect) : List String :=
  dialect.table.map Prod.fst

end Dialect

end MiniatureMachine

import Disasm.Error

/-!
# Symbol tables

A symbol table names indices.  A later name for an index replaces the earlier
one.
-/

namespace Disasm

/-- Names of indices, by increasing index. -/
structure Symbols where
  /-- The named indices with their names. -/
  entries : List (Nat × String) := []
deriving DecidableEq

namespace Symbols

/-- The entries with a name put in its place. -/
def insertEntry (index : Nat) (name : String) : List (Nat × String) → List (Nat × String)
  | [] => [(index, name)]
  | (i, n) :: rest =>
    if index < i then (index, name) :: (i, n) :: rest
    else if index = i then (index, name) :: rest
    else (i, n) :: insertEntry index name rest

/-- Names an index. -/
def insert (s : Symbols) (index : Nat) (name : String) : Symbols :=
  ⟨insertEntry index name s.entries⟩

/-- The name of an index. -/
def get? (s : Symbols) (index : Nat) : Option String := s.entries.lookup index

/-- The name of an index that must have one. -/
def resolve (s : Symbols) (index : Nat) : Except Error String :=
  match s.get? index with
  | some name => .ok name
  | none => .error (.unknownSymbol index)

/-- The number of named indices. -/
def size (s : Symbols) : Nat := s.entries.length

/-- The table of the given names. -/
def ofList (names : List (Nat × String)) : Symbols :=
  names.foldl (fun s (index, name) ↦ s.insert index name) {}

end Symbols

end Disasm

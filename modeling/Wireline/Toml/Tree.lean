import Wireline.Toml.Basic

/-!
# Growing a table

The statements of a TOML text put values under names and open tables. A name that is there already
may only be used again where the table under it is still open: a table that was only implied by a
longer name can be opened by its own header once, and a table that grew from dotted names can grow
by further dotted names within its own section. `openTable`, `openElement` and `assign` carry out
one statement, and give nothing where it is not allowed.
-/

set_option autoImplicit false
set_option relaxedAutoImplicit false

namespace Wireline.Toml

/-- How a table came to be. -/
inductive Origin
  /-- It was named on the way to another table. -/
  | implied
  /-- It was named on the way to a value. -/
  | dotted
  /-- It has a header of its own. -/
  | header
  deriving DecidableEq

/-- What stands under a name while a text is read. -/
inductive Node
  | leaf (value : Toml)
  | table (origin : Origin) (entries : List (String × Node))
  /-- Tables that were added one by one, the latest first. -/
  | elements (latest : List (String × Node)) (earlier : List (List (String × Node)))

abbrev Entries := List (String × Node)

/-- What stands under a name. -/
def Entries.find? (entries : Entries) (name : String) : Option Node :=
  (List.find? (fun entry ↦ entry.1 == name) entries).map Prod.snd

/-- Puts a node under a name, in place of what stands there. -/
def Entries.put (entries : Entries) (name : String) (node : Node) : Entries :=
  if (entries.find? name).isSome then
    List.map (fun entry ↦ if entry.1 == name then (name, node) else entry) entries
  else entries ++ [(name, node)]

/-- Puts a value under a name that is reached by dotted names. -/
def assign (name : String) (value : Toml) : (path : List String) → Entries → Option Entries
  | [], entries =>
    match entries.find? name with
    | none => some (entries.put name (.leaf value))
    | some _ => none
  | step :: path, entries =>
    match entries.find? step with
    | none => (assign name value path []).map fun inner ↦ entries.put step (.table .dotted inner)
    | some (.leaf _) => none
    | some (.elements latest earlier) =>
      if path = [] then none
      else (assign name value path latest).map fun inner ↦
        entries.put step (.elements inner earlier)
    | some (.table origin inner) =>
      if origin = .header ∨ (path = [] ∧ origin ≠ .dotted) then none
      else (assign name value path inner).map fun inner ↦ entries.put step (.table origin inner)

/-- Carries out a change of a table that is reached by names, with `last` for the last step. Tables
on the way are implied if they are not there, and of a list of tables the latest counts. -/
def atPath (last : Entries → Option Entries) : (path : List String) → Entries → Option Entries
  | [], entries => last entries
  | step :: path, entries =>
    match entries.find? step with
    | none => (atPath last path []).map fun inner ↦ entries.put step (.table .implied inner)
    | some (.leaf _) => none
    | some (.elements latest earlier) =>
      (atPath last path latest).map fun inner ↦ entries.put step (.elements inner earlier)
    | some (.table origin inner) =>
      (atPath last path inner).map fun inner ↦ entries.put step (.table origin inner)

/-- Opens a table and fills it. -/
def openTable (path : List String) (name : String) (fill : Entries → Option Entries) :
    Entries → Option Entries :=
  atPath (fun entries ↦
    match entries.find? name with
    | none => (fill []).map fun inner ↦ entries.put name (.table .header inner)
    | some (.table .implied inner) =>
      (fill inner).map fun inner ↦ entries.put name (.table .header inner)
    | some _ => none) path

/-- Adds a table to a list of tables and fills it. -/
def openElement (path : List String) (name : String) (fill : Entries → Option Entries) :
    Entries → Option Entries :=
  atPath (fun entries ↦
    match entries.find? name with
    | none => (fill []).map fun inner ↦ entries.put name (.elements inner [])
    | some (.elements latest earlier) =>
      (fill []).map fun inner ↦ entries.put name (.elements inner (latest :: earlier))
    | some _ => none) path

mutual

/-- The value that a node stands for. -/
def Node.toToml : Node → Toml
  | .leaf value => value
  | .table _ entries => .table (Node.toEntries entries)
  | .elements latest earlier =>
    .list ((.table (Node.toEntries latest) :: Node.toTables earlier).reverse)

def Node.toEntries : List (String × Node) → List (String × Toml)
  | [] => []
  | (name, node) :: rest => (name, node.toToml) :: Node.toEntries rest

def Node.toTables : List (List (String × Node)) → List Toml
  | [] => []
  | entries :: rest => .table (Node.toEntries entries) :: Node.toTables rest

end

end Wireline.Toml

import Wireline.Toml.Scalar
import Wireline.Toml.Text
import Wireline.Toml.Tree

/-!
# TOML texts

A text is a sequence of statements, one a line. Each puts a value under a name, or opens a table
that the following values go into. `Toml.parse?` gives the table that a text stands for, and nothing
if the text does not follow the grammar or uses a name twice.
-/

set_option autoImplicit false
set_option relaxedAutoImplicit false

namespace Wireline.Toml.Grammar

/-! ### Values -/

/-- Reads the items of an array up to its bracket. Line ends and comments may stand between them,
and a comma after the last. -/
def items (value : Reader Toml) : (left : Nat) → Reader (List Toml)
  | 0, _ => none
  | left + 1, input =>
    let input := skipLines (input.length + 1) input
    match symbol ']' input with
    | some rest => some ([], rest)
    | none => do
      let (item, rest) ← value input
      let rest := skipLines (rest.length + 1) rest
      match symbol ',' rest with
      | some rest =>
        let (others, rest) ← items value left rest
        return (item :: others, rest)
      | none => return ([item], ← symbol ']' rest)

/-- Reads a name, an equals sign and a value. -/
def binding (value : Reader Toml) : Reader (List String × String × Toml) := fun input ↦ do
  let ((path, last), rest) ← name input
  let rest ← symbol '=' rest
  let (bound, rest) ← value (skipBlanks rest)
  return ((path, last, bound), rest)

/-- Reads the bindings of an inline table up to its brace, into entries. -/
def bindings (value : Reader Toml) : (left : Nat) → Entries → Reader Entries
  | 0, _, _ => none
  | left + 1, entries, input => do
    let ((path, last, bound), rest) ← binding value input
    let entries ← assign last bound path entries
    let rest := skipBlanks rest
    match symbol ',' rest with
    | some rest => bindings value left entries rest
    | none => return (entries, ← symbol '\x7d' rest)

/-- Reads an inline table after its opening brace. -/
def inlineTable (value : Reader Toml) : Reader Toml := fun input ↦
  match symbol '\x7d' (skipBlanks input) with
  | some rest => some (.table [], rest)
  | none =>
    (bindings value (input.length + 1) [] input).map fun (entries, rest) ↦
      (.table (Node.toEntries entries), rest)

/-- Reads a value, given the reader of the values inside it, if nesting allows for any. -/
def valueWith (inner : Option (Reader Toml)) : Reader Toml := fun input ↦
  match input with
  | [] => none
  | c :: rest =>
    if c = doubleQuote ∨ c = singleQuote then
      (string input).map fun (content, rest) ↦ (.text content, rest)
    else if c = '[' then
      inner.bind fun value ↦ (items value (rest.length + 1) rest).map fun (values, rest) ↦
        (.list values, rest)
    else if c = '\x7b' then inner.bind fun value ↦ inlineTable value rest
    else scalar input

/-- Reads a value in which others nest at most `depth` deep. -/
def value : (depth : Nat) → Reader Toml
  | 0 => valueWith none
  | depth + 1 => valueWith (some (value depth))

/-- Deepest nesting of values. -/
def maxDepth : Nat := 79

/-! ### Statements -/

inductive Statement
  | assign (path : List String) (name : String) (value : Toml)
  | openTable (path : List String) (name : String)
  | openElement (path : List String) (name : String)

/-- Reads one statement. -/
def statement (input : List Char) : Option (Statement × List Char) :=
  match input with
  | '[' :: '[' :: rest => do
    let ((path, last), rest) ← name rest
    return (.openElement path last, ← symbol ']' (← symbol ']' rest))
  | '[' :: rest => do
    let ((path, last), rest) ← name rest
    return (.openTable path last, ← symbol ']' rest)
  | _ => do
    let ((path, last, bound), rest) ← binding (value maxDepth) input
    return (.assign path last bound, rest)

/-- Reads the rest of a line after a statement: blanks, a comment, and the end of the line or of the
text. -/
def endStatement (input : List Char) : Option (List Char) :=
  match skipComment (skipBlanks input) with
  | [] => some []
  | input => lineEnd input

/-- Reads all statements of a text. -/
def statements : (left : Nat) → List Char → Option (List Statement)
  | 0, _ => none
  | left + 1, input =>
    match skipLines (input.length + 1) input with
    | [] => some []
    | input => do
      let (first, rest) ← statement input
      let others ← statements left (← endStatement rest)
      return first :: others

/-! ### The table of a text -/

/-- Carries out the statements at the front that put values under names, and gives the rest. -/
def fill : List Statement → Entries → Option Entries
  | .assign path name value :: rest, entries => (assign name value path entries).bind (fill rest)
  | _, entries => some entries

/-- Carries out all statements. A header is carried out together with the values after it. -/
def build : List Statement → Entries → Option Entries
  | [], entries => some entries
  | .assign _ _ _ :: rest, entries => build rest entries
  | .openTable path name :: rest, entries =>
    (openTable path name (fill rest) entries).bind (build rest)
  | .openElement path name :: rest, entries =>
    (openElement path name (fill rest) entries).bind (build rest)

/-- The text without a mark of its byte order at the front. -/
def withoutMark (input : List Char) : List Char :=
  match input with
  | '\ufeff' :: rest => rest
  | _ => input

/-- The table that a text stands for. -/
def parse? (input : String) : Option (List (String × Toml)) := do
  let input := withoutMark input.toList
  let read ← statements (input.length + 1) input
  let entries ← build read (← fill read [])
  return Node.toEntries entries

end Wireline.Toml.Grammar

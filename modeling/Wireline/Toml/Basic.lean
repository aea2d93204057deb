import Wireline.Binary64.Basic

/-!
# TOML values

A TOML text stands for a table of values under names. This module has the values and the readers of
characters that all parts of the grammar share.
-/

set_option autoImplicit false
set_option relaxedAutoImplicit false

namespace Wireline

inductive Toml
  | text (text : String)
  | integer (n : Int)
  | float (x : Binary64)
  | flag (flag : Bool)
  /-- A date, a time of day, or both. -/
  | moment
  | list (items : List Toml)
  | table (entries : List (String × Toml))

namespace Toml.Grammar

/-- Reading from the front of a text: what was read, and the text after it. -/
abbrev Reader (α : Type) := List Char → Option (α × List Char)

def isBlank (c : Char) : Bool :=
  c == ' ' || c == '\t'

/-- Whether a character may stand in a comment or, unescaped, in a string. Control characters other
than the tabulator may not. -/
def isPlain (c : Char) : Bool :=
  c == '\t' || (0x20 ≤ c.toNat && c.toNat != 0x7f)

def skipBlanks (input : List Char) : List Char :=
  input.dropWhile isBlank

/-- Reads a given character. -/
def symbol (c : Char) : List Char → Option (List Char)
  | [] => none
  | d :: rest => if d = c then some rest else none

/-- Reads the end of a line. -/
def lineEnd : List Char → Option (List Char)
  | '\n' :: rest => some rest
  | '\r' :: '\n' :: rest => some rest
  | _ => none

/-- Skips a comment, if one stands here. It goes up to the end of the line. -/
def skipComment : List Char → List Char
  | '#' :: rest => rest.dropWhile isPlain
  | input => input

/-- Skips blanks, comments and line ends. `left` bounds the number of lines. -/
def skipLines : (left : Nat) → List Char → List Char
  | 0, input => input
  | left + 1, input =>
    let input := skipComment (skipBlanks input)
    match lineEnd input with
    | some rest => skipLines left rest
    | none => input

end Toml.Grammar

end Wireline

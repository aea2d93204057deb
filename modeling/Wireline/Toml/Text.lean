import Wireline.Octets
import Wireline.Toml.Basic

/-!
# TOML strings

Strings stand between double quotes, where a backslash escapes what follows, or between single
quotes, where every character stands for itself. Three quotes begin a string of many lines: a line
end right after them does not count, line ends are read as line feeds, and one or two quotes may
stand anywhere inside, also right before the three that end the string. Between double quotes, a
backslash at the end of a line takes in all blanks and line ends that follow.
-/

set_option autoImplicit false
set_option relaxedAutoImplicit false

namespace Wireline.Toml.Grammar

def singleQuote : Char := '\x27'

def doubleQuote : Char := '\x22'

/-- The character with a code point, if there is one. -/
def scalar? (code : Nat) : Option Char :=
  if h : code.isValidChar then some ⟨code.toUInt32, by
    rw [UInt32.isValidChar]
    have hlt : code < UInt32.size := by
      rcases h with h | ⟨_, h⟩
      · exact Nat.lt_trans h (by decide)
      · exact Nat.lt_trans h (by decide)
    rw [Nat.toUInt32, UInt32.toNat_ofNat', Nat.mod_eq_of_lt hlt]
    exact h⟩
  else none

/-- Reads a code point of a given number of hexadecimal digits. -/
def codePoint (digits : Nat) : Reader Char := fun input ↦ do
  let run := input.take digits
  if run.length ≠ digits then none
  let values ← run.mapM Octets.hexDigit?
  let c ← scalar? (values.foldl (fun n digit ↦ n * 16 + digit) 0)
  return (c, input.drop digits)

/-- Reads what follows a backslash. -/
def escape : Reader Char
  | 'b' :: rest => some ('\x08', rest)
  | 't' :: rest => some ('\t', rest)
  | 'n' :: rest => some ('\n', rest)
  | 'f' :: rest => some ('\x0c', rest)
  | 'r' :: rest => some ('\r', rest)
  | 'u' :: rest => codePoint 4 rest
  | 'U' :: rest => codePoint 8 rest
  | c :: rest => if c = doubleQuote ∨ c = '\\' then some (c, rest) else none
  | [] => none

/-- Reads the rest of a string on one line. `left` bounds its length. -/
def basicRest : (left : Nat) → Reader (List Char)
  | 0, _ => none
  | _ + 1, [] => none
  | left + 1, c :: rest =>
    if c = doubleQuote then some ([], rest)
    else if c = '\\' then do
      let (escaped, rest) ← escape rest
      let (others, rest) ← basicRest left rest
      return (escaped :: others, rest)
    else if isPlain c then do
      let (others, rest) ← basicRest left rest
      return (c :: others, rest)
    else none

/-- Reads the rest of a literal string on one line. -/
def literalRest (input : List Char) : Option (List Char × List Char) := do
  let content := input.takeWhile fun c ↦ isPlain c && c != singleQuote
  let rest ← symbol singleQuote (input.drop content.length)
  return (content, rest)

/-- What a run of quotes means inside a string that three of them end: the quotes that belong to the
string, and whether the string ends here. Up to two quotes right before the end belong to it. -/
def quotesInside (count : Nat) : Nat × Bool :=
  if count < 3 then (count, false) else (min count 5 - 3, true)

/-- Skips blanks and line ends. `left` bounds the number of lines. -/
def skipBlankLines : (left : Nat) → List Char → List Char
  | 0, input => input
  | left + 1, input =>
    match lineEnd (skipBlanks input) with
    | some rest => skipBlankLines left rest
    | none => skipBlanks input

/-- A backslash at the end of a line: the text after all blanks and line ends that follow, if it is
one. -/
def lineContinuation? (input : List Char) : Option (List Char) :=
  (lineEnd (skipBlanks input)).map fun rest ↦ skipBlankLines rest.length rest

/-- Reads the rest of a string of many lines. `escapes` says whether a backslash escapes. -/
def linesRest (quote : Char) (escapes : Bool) : (left : Nat) → Reader (List Char)
  | 0, _ => none
  | _ + 1, [] => none
  | left + 1, c :: rest =>
    let input := c :: rest
    if c = quote then do
      let run := input.takeWhile (· == quote)
      let (inside, ends) := quotesInside run.length
      let quotes := List.replicate inside quote
      if ends then return (quotes, input.drop (inside + 3))
      let (others, rest) ← linesRest quote escapes left (input.drop inside)
      return (quotes ++ others, rest)
    else if escapes && c == '\\' then
      match lineContinuation? rest with
      | some rest => linesRest quote escapes left rest
      | none => do
        let (escaped, rest) ← escape rest
        let (others, rest) ← linesRest quote escapes left rest
        return (escaped :: others, rest)
    else if isPlain c then do
      let (others, rest) ← linesRest quote escapes left rest
      return (c :: others, rest)
    else do
      let rest ← lineEnd input
      let (others, rest) ← linesRest quote escapes left rest
      return ('\n' :: others, rest)

/-- Reads a string of many lines after its opening quotes. -/
def lines (quote : Char) (escapes : Bool) (input : List Char) : Option (List Char × List Char) :=
  let input := (lineEnd input).getD input
  linesRest quote escapes (input.length + 1) input

/-- Reads a string on one line, which may also be a name. -/
def lineString : Reader String
  | [] => none
  | c :: rest => do
    let (content, rest) ←
      if c = doubleQuote then basicRest (rest.length + 1) rest
      else if c = singleQuote then literalRest rest
      else none
    return (String.ofList content, rest)

/-- Reads a string of any kind. -/
def string (input : List Char) : Option (String × List Char) :=
  match input with
  | a :: b :: c :: rest =>
    if a = b ∧ b = c ∧ (a = doubleQuote ∨ a = singleQuote) then
      (lines a (a == doubleQuote) rest).map fun (content, rest) ↦ (String.ofList content, rest)
    else lineString input
  | _ => lineString input

/-! ### Names -/

/-- Whether a character may stand in a name without quotes. -/
def isNameChar (c : Char) : Bool :=
  c.isAlphanum || c == '_' || c == '-'

/-- Reads one part of a name. -/
def namePart (input : List Char) : Option (String × List Char) :=
  match input.takeWhile isNameChar with
  | [] => lineString input
  | run => some (String.ofList run, input.drop run.length)

/-- Names have fewer parts than this. -/
def maxParts : Nat := 80

/-- Reads the parts of a name with dots between them, and blanks around the parts. -/
def nameParts : (left : Nat) → Reader (List String)
  | 0, _ => none
  | left + 1, input => do
    let (part, rest) ← namePart (skipBlanks input)
    let rest := skipBlanks rest
    match symbol '.' rest with
    | some rest =>
      let (parts, rest) ← nameParts left rest
      return (part :: parts, rest)
    | none => return ([part], rest)

/-- Reads a name: the parts before the last, and the last. -/
def name : Reader (List String × String) := fun input ↦ do
  let (parts, rest) ← nameParts (maxParts - 1) input
  let last ← parts.getLast?
  return ((parts.dropLast, last), rest)

end Wireline.Toml.Grammar

/-!
# Identifiers

A table or a key that is a word of ASCII letters, digits and underscores stands for itself, unless
it could be taken for a number. Every other one stands between angle brackets, where a closing
bracket follows a backslash.
-/

set_option autoImplicit false
set_option relaxedAutoImplicit false

namespace Wireline.Ident

/-- Whether a character may stand in a bare identifier. -/
def isWordChar (c : Char) : Bool :=
  c.isAlphanum || c == '_'

/-- Whether an identifier needs no brackets. -/
def isBare (ident : List Char) : Bool :=
  ident.all isWordChar && !ident.all Char.isDigit

/-- A character as it stands between brackets. -/
def escapeChar (c : Char) : List Char :=
  if c = '⟩' then ['\\', '⟩'] else [c]

/-- An identifier as it is printed. -/
def escape (ident : String) : String :=
  if isBare ident.toList then ident
  else String.ofList ('⟨' :: ident.toList.flatMap escapeChar ++ ['⟩'])

end Wireline.Ident

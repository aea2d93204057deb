import Wireline.Text.Bare
import Wireline.Octets

/-!
# Quoted text

Quoted text stands between double quotes. Inside, a quote and a backslash follow a backslash, the
common blanks have letter escapes, and every other character that is not bare is written by its code
point in hexadecimal, without padding. Quoted octets follow the same plan for bytes: visible ASCII
stands for itself and everything else is written with two hexadecimal digits.
-/

set_option autoImplicit false
set_option relaxedAutoImplicit false

namespace Wireline.Text

/-- The hexadecimal digits of a number, lower case and without padding. -/
def hexNumber (n : Nat) : List Char :=
  Nat.toDigits 16 n

/-- A character as it stands in quoted text. -/
def escape (c : Char) : List Char :=
  match c with
  | '"' => ['\\', '"']
  | '\\' => ['\\', '\\']
  | '\n' => ['\\', 'n']
  | '\r' => ['\\', 'r']
  | '\t' => ['\\', 't']
  | '\x00' => ['\\', '0']
  | c => if isBare c then [c] else ['\\', 'u', '\x7b'] ++ hexNumber c.toNat ++ ['\x7d']

/-- A text between quotes. -/
def quoted (text : String) : String :=
  String.ofList ('"' :: text.toList.flatMap escape ++ ['"'])

/-- An octet as it stands among quoted octets. -/
def escapeOctet (octet : UInt8) : List Char :=
  let c := Char.ofNat octet.toNat
  match c with
  | '"' => ['\\', '"']
  | '\\' => ['\\', '\\']
  | '\n' => ['\\', 'n']
  | '\r' => ['\\', 'r']
  | '\t' => ['\\', 't']
  | '\x00' => ['\\', '0']
  | c =>
    if 0x20 ≤ octet.toNat ∧ octet.toNat < 0x7f then [c]
    else '\\' :: 'x' :: Octets.hexDigits [octet]

/-- Octets between quotes, after the letter `b`. -/
def quotedOctets (octets : Octets) : String :=
  String.ofList ('b' :: '"' :: octets.flatMap escapeOctet ++ ['"'])

end Wireline.Text

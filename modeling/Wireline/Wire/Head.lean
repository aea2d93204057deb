import Wireline.Octets
import Wireline.Wire.Error

/-!
# Heads

An item starts with one octet that holds its kind and five bits of additional information, and may
go on with an argument. Values below 24 of the information are the argument themselves, 24 to 27 say
that it follows in one, two, four or eight octets, and 31 announces an indefinite length.

`Head.write` uses the shortest form. The reading functions take the octets that are left, and give
what they read with the rest.
-/

set_option autoImplicit false
set_option relaxedAutoImplicit false

namespace Wireline

/-- Reading from the front of a sequence of octets: what was read, and the octets after it. -/
abbrev Reader (α : Type) := Octets → Except WireError (α × Octets)

namespace Reader

/-- Takes a number of octets from the front. -/
def take (count : Nat) : Reader Octets := fun input ↦
  if count ≤ input.length then .ok (input.take count, input.drop count)
  else .error (.outOfOctets count input.length)

/-- Reads an unsigned number of a given width. -/
def unsigned (width : Nat) : Reader Nat := fun input ↦
  match take width input with
  | .ok (octets, rest) => .ok (octets.toNat, rest)
  | .error e => .error e

/-- Shows the next octet and leaves it. -/
def peek : Reader UInt8
  | [] => .error (.outOfOctets 1 0)
  | octet :: rest => .ok (octet, octet :: rest)

end Reader

namespace Head

/-- The additional information that announces an indefinite length. -/
def indefinite : Nat := 31

/-- The initial octet of an item. -/
def initial (major : Major) (info : Nat) : UInt8 :=
  UInt8.ofNat (major.code * 32 + info)

/-- The head of an item with an argument, in the shortest form. -/
def write (major : Major) (argument : Nat) : Octets :=
  if argument < 24 then [initial major argument]
  else if argument < 0x100 then initial major 24 :: Octets.ofNat 1 argument
  else if argument < 0x10000 then initial major 25 :: Octets.ofNat 2 argument
  else if argument < 0x100000000 then initial major 26 :: Octets.ofNat 4 argument
  else initial major 27 :: Octets.ofNat 8 argument

/-- Reads an initial octet: the kind of item and the additional information. -/
def readInitial : Reader (Major × Nat) := fun input ↦
  match input with
  | [] => .error (.outOfOctets 1 0)
  | octet :: rest => .ok ((Major.ofCode (octet.toNat / 32), octet.toNat % 32), rest)

/-- Reads the argument that the additional information announces. -/
def readArgument (info : Nat) : Reader Nat := fun input ↦
  if info < 24 then .ok (info, input)
  else if info = 24 then Reader.unsigned 1 input
  else if info = 25 then Reader.unsigned 2 input
  else if info = 26 then Reader.unsigned 4 input
  else if info = 27 then Reader.unsigned 8 input
  else .error (.reservedLength info)

end Head

end Wireline

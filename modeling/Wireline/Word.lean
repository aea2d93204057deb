/-!
# Words of 64 bits

Which numbers fit a word. An operation on words is the operation on numbers, followed by the test
whether its result fits.
-/

set_option autoImplicit false
set_option relaxedAutoImplicit false

namespace Wireline

/-- The integer, if it fits a signed word. -/
def word? (n : Int) : Option Int :=
  if -0x8000000000000000 ≤ n ∧ n < 0x8000000000000000 then some n else none

theorem word?_eq {n : Int} (hleast : -0x8000000000000000 ≤ n) (hmost : n < 0x8000000000000000) :
    word? n = some n :=
  if_pos ⟨hleast, hmost⟩

/-- The number, if it fits an unsigned word. -/
def unsignedWord? (n : Nat) : Option Nat :=
  if n < 0x10000000000000000 then some n else none

end Wireline

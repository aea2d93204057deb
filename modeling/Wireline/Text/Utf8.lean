import Wireline.Octets

/-!
# Text as octets

Text travels in its UTF-8 form. `Text.ofOctets?` accepts exactly the well-formed sequences, and
undoes `Text.octets` (`Text.ofOctets?_octets`, `Text.octets_of_ofOctets?`).
-/

set_option autoImplicit false
set_option relaxedAutoImplicit false

namespace Wireline.Text

/-- The UTF-8 form of a text. -/
def octets (text : String) : Octets :=
  text.toByteArray.data.toList

/-- The text that the octets are the UTF-8 form of. -/
def ofOctets? (octets : Octets) : Option String :=
  String.fromUTF8? ⟨octets.toArray⟩

theorem ofOctets?_octets (text : String) : ofOctets? (octets text) = some text := by
  have h : (⟨(octets text).toArray⟩ : ByteArray) = text.toByteArray := by
    simp [octets]
  rw [ofOctets?, h, String.fromUTF8?, dif_pos text.isValidUTF8]
  rfl

theorem octets_of_ofOctets? {octets : Octets} {text : String} (h : ofOctets? octets = some text) :
    Text.octets text = octets := by
  rw [ofOctets?, String.fromUTF8?] at h
  split at h
  · cases h
    rfl
  · cases h

end Wireline.Text

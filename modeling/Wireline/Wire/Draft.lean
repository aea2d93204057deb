import Wireline.Value.Basic
import Wireline.Wire.Head

/-!
# Drafts

A `Draft` is output in the making. It is a run of octets with gaps in it: every sealed segment is
followed by a gap, and the open segment takes further octets. Drafts can be joined, and joining is
associative with the empty draft as its unit (`append_assoc`, `empty_append`, `append_empty`). A
draft without gaps finishes as octets, any draft as a template.
-/

set_option autoImplicit false
set_option relaxedAutoImplicit false

namespace Wireline

structure Draft where
  sealed : List (Octets × Gap)
  segment : Octets

namespace Draft

/-- Nothing written yet. -/
def empty : Draft := ⟨[], []⟩

/-- A draft of octets alone. -/
def ofOctets (octets : Octets) : Draft := ⟨[], octets⟩

/-- A draft of one gap alone. -/
def ofGap (gap : Gap) : Draft := ⟨[([], gap)], []⟩

/-- The second draft after the first. The first segment of the second one continues the open segment
of the first. -/
def append (first second : Draft) : Draft :=
  match second.sealed with
  | [] => ⟨first.sealed, first.segment ++ second.segment⟩
  | (octets, gap) :: chunks =>
    ⟨first.sealed ++ (first.segment ++ octets, gap) :: chunks, second.segment⟩

instance : Append Draft := ⟨append⟩

/-- Writes octets at the end. -/
def write (draft : Draft) (octets : Octets) : Draft :=
  draft ++ ofOctets octets

/-- Seals the open segment and puts a gap after it. -/
def addGap (draft : Draft) (gap : Gap) : Draft :=
  draft ++ ofGap gap

/-- The draft that a template was made from. -/
def ofTemplate (template : Template) : Draft :=
  ⟨template.chunks, template.tail⟩

/-- The number of octets in the open segment. -/
def length (draft : Draft) : Nat :=
  draft.segment.length

def isEmpty (draft : Draft) : Bool :=
  draft.segment.isEmpty && draft.sealed.isEmpty

/-- Whether there is a gap. -/
def isPartial (draft : Draft) : Bool :=
  !draft.sealed.isEmpty

/-- The octets of a draft without gaps. -/
def finish (draft : Draft) : Except WireError Octets :=
  if draft.isPartial then .error .missingFill else .ok draft.segment

/-- The draft as a template, with the substitution for what is put into its gaps. -/
def toTemplate (draft : Draft) (substitution : Option Substitution) : Template :=
  ⟨draft.sealed, draft.segment, substitution⟩

theorem empty_append (draft : Draft) : empty ++ draft = draft := by
  obtain ⟨chunks, segment⟩ := draft
  cases chunks <;> rfl

theorem append_empty (draft : Draft) : draft ++ empty = draft := by
  obtain ⟨chunks, segment⟩ := draft
  change Draft.mk chunks (segment ++ []) = _
  rw [List.append_nil]

theorem append_assoc (a b c : Draft) : a ++ b ++ c = a ++ (b ++ c) := by
  obtain ⟨aChunks, aSegment⟩ := a
  obtain ⟨bChunks, bSegment⟩ := b
  obtain ⟨cChunks, cSegment⟩ := c
  change append (append _ _) _ = append _ (append _ _)
  cases bChunks <;> cases cChunks <;> simp [append]

end Draft

end Wireline

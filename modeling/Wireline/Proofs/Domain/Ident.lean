import Wireline.Domain.Ident

/-!
# Reading printed identifiers

Between brackets a closing bracket follows a backslash, but a backslash stands for itself. So the
text between the brackets determines the identifier (`interior_injective`), and yet the bracket that
closes an identifier cannot be told from one inside where the identifier ends in a backslash
(`RunsOn`). That is the only way to mistake it (`bracketed_eq_iff`).
-/

set_option autoImplicit false
set_option relaxedAutoImplicit false

namespace Wireline.Ident

/-- What stands between the brackets. -/
def interior (ident : List Char) : List Char :=
  ident.flatMap escapeChar

theorem toList_escape_of_bare {ident : String} (h : isBare ident.toList = true) :
    (escape ident).toList = ident.toList := by
  rw [escape, if_pos h]

theorem toList_escape_of_not_bare {ident : String} (h : isBare ident.toList = false) :
    (escape ident).toList = '⟨' :: (interior ident.toList ++ ['⟩']) := by
  rw [escape, if_neg (Bool.eq_false_iff.mp h), String.toList_ofList]
  rfl

theorem isBare_eq_false_of_mem {ident : List Char} {c : Char} (hc : c ∈ ident)
    (hword : isWordChar c = false) : isBare ident = false := by
  rw [isBare, List.all_eq_false.mpr ⟨c, hc, by rw [hword]; decide⟩, Bool.false_and]

/-- A bare identifier has characters of words only. -/
theorem isWordChar_of_isBare {ident : List Char} (h : isBare ident = true) {c : Char}
    (hc : c ∈ ident) : isWordChar c = true := by
  rw [isBare, Bool.and_eq_true] at h
  exact List.all_eq_true.mp h.1 c hc

/-- No text that begins with a bare identifier begins with a bracket. -/
theorem append_ne_bracket_cons_of_isBare {ident : List Char} (h : isBare ident = true)
    (after rest : List Char) : ident ++ after ≠ '⟨' :: rest := by
  intro hident
  cases ident with
  | nil => exact absurd h (by decide)
  | cons c ident =>
    obtain ⟨rfl, -⟩ := List.cons.inj hident
    exact absurd (isWordChar_of_isBare h List.mem_cons_self) (by decide)

/-- The first colon after a bare identifier ends it. -/
theorem eq_of_append_colon_eq {first second : List Char} (hfirst : isBare first = true)
    (hsecond : isBare second = true) {rest rest' : List Char}
    (h : first ++ ':' :: rest = second ++ ':' :: rest') : first = second ∧ rest = rest' := by
  have hlonger {first second rest rest' shared : List Char} (hsecond : isBare second = true)
      (hident : second = first ++ shared) (hrest : ':' :: rest = shared ++ ':' :: rest') :
      first = second ∧ rest = rest' := by
    cases shared with
    | nil =>
      rw [List.append_nil] at hident
      exact ⟨hident.symm, (List.cons.inj hrest).2⟩
    | cons c shared =>
      obtain ⟨rfl, -⟩ := List.cons.inj hrest
      have hmem : ':' ∈ second := hident ▸ List.mem_append_right _ List.mem_cons_self
      exact absurd (isWordChar_of_isBare hsecond hmem) (by decide)
  rcases List.append_eq_append_iff.mp h with ⟨_, hident, hrest⟩ | ⟨_, hident, hrest⟩
  · exact hlonger hsecond hident hrest
  · exact (hlonger hfirst hident hrest).imp Eq.symm Eq.symm

/-! ### Interiors -/

theorem interior_nil : interior [] = [] :=
  rfl

@[simp]
theorem interior_append (front rest : List Char) :
    interior (front ++ rest) = interior front ++ interior rest :=
  List.flatMap_append

@[simp]
theorem interior_bracket (rest : List Char) :
    interior ('⟩' :: rest) = '\\' :: '⟩' :: interior rest :=
  rfl

@[simp]
theorem interior_cons {c : Char} (h : c ≠ '⟩') (rest : List Char) :
    interior (c :: rest) = c :: interior rest := by
  rw [interior, List.flatMap_cons, escapeChar, if_neg h]
  rfl

/-- A closing bracket in an interior comes from one, and follows the backslash that was set before
it. The backslash could as well have been the last character in front of it. -/
theorem exists_of_interior_eq {ident : List Char} : ∀ {front rest : List Char},
    interior ident = front ++ '⟩' :: rest → ∃ before after,
      ident = before ++ '⟩' :: after ∧ front = interior (before ++ ['\\']) ∧
        rest = interior after := by
  induction ident with
  | nil => intro front rest h; cases front <;> cases h
  | cons c ident ih =>
    intro front rest h
    by_cases hc : c = '⟩'
    · subst hc
      rw [interior_bracket] at h
      -- The cut is at the bracket itself, or further on.
      match front, h with
      | [_], h =>
        cases h
        exact ⟨[], ident, rfl, rfl, rfl⟩
      | _ :: _ :: front, h =>
        injection h with hslash h
        injection h with hbracket h
        subst hslash hbracket
        obtain ⟨before, after, rfl, rfl, rfl⟩ := ih h
        exact ⟨'⟩' :: before, after, rfl, rfl, rfl⟩
    · rw [interior_cons hc] at h
      cases front with
      | nil => exact absurd (List.cons.inj h).1 hc
      | cons d front =>
        obtain ⟨rfl, hrest⟩ := List.cons.inj h
        obtain ⟨before, after, rfl, rfl, rfl⟩ := ih hrest
        exact ⟨c :: before, after, rfl, (interior_cons hc _).symm, rfl⟩

/-- No interior begins with a closing bracket. -/
theorem interior_ne_bracket_cons (ident rest : List Char) : interior ident ≠ '⟩' :: rest := by
  intro h
  have hcut : interior ident = [] ++ '⟩' :: rest := h
  obtain ⟨before, _, _, hfront, _⟩ := exists_of_interior_eq hcut
  rw [interior_append] at hfront
  exact List.append_ne_nil_of_right_ne_nil _ (List.cons_ne_nil _ _) hfront.symm

/-- Takes the backslashes in front of closing brackets away. -/
def unescape : List Char → List Char
  | '\\' :: '⟩' :: rest => '⟩' :: unescape rest
  | c :: rest => c :: unescape rest
  | [] => []

theorem unescape_interior (ident : List Char) : unescape (interior ident) = ident := by
  induction ident with
  | nil => rfl
  | cons c rest ih =>
    by_cases hc : c = '⟩'
    · subst hc
      rw [interior_bracket, unescape, ih]
    · rw [interior_cons hc, unescape, ih]
      -- A backslash of the identifier itself is not followed by a bracket.
      intro after _ hrest
      exact interior_ne_bracket_cons rest after hrest

theorem interior_injective {first second : List Char} (h : interior first = interior second) :
    first = second := by
  rw [← unescape_interior first, h, unescape_interior]

/-- The text of an identifier determines it. -/
theorem escape_injective {first second : String} (h : escape first = escape second) :
    first = second := by
  have hlist := congrArg String.toList h
  have hbracket {ident : String} (hbare : isBare ident.toList = true) {rest : List Char} :
      ident.toList ≠ '⟨' :: rest := by
    rw [← List.append_nil ident.toList]
    exact append_ne_bracket_cons_of_isBare hbare [] rest
  cases hfirst : isBare first.toList <;> cases hsecond : isBare second.toList
  · rw [toList_escape_of_not_bare hfirst, toList_escape_of_not_bare hsecond] at hlist
    have hinterior := List.append_cancel_right (List.cons.inj hlist).2
    exact String.toList_inj.mp (interior_injective hinterior)
  · rw [toList_escape_of_not_bare hfirst, toList_escape_of_bare hsecond] at hlist
    exact absurd hlist.symm (hbracket hsecond)
  · rw [toList_escape_of_bare hfirst, toList_escape_of_not_bare hsecond] at hlist
    exact absurd hlist (hbracket hfirst)
  · rw [toList_escape_of_bare hfirst, toList_escape_of_bare hsecond] at hlist
    exact String.toList_inj.mp hlist

/-! ### Closing brackets -/

/-- Other characters than brackets and backslashes stand for themselves. -/
theorem exists_of_cons_eq_interior_append {c : Char} (hslash : c ≠ '\\') (hbracket : c ≠ '⟩')
    {ident rest after : List Char} (h : c :: rest = interior ident ++ '⟩' :: after) :
    ∃ tail, ident = c :: tail ∧ rest = interior tail ++ '⟩' :: after := by
  cases ident with
  | nil => exact absurd (List.cons.inj h).1 hbracket
  | cons d tail =>
    by_cases hd : d = '⟩'
    · subst hd
      exact absurd (List.cons.inj h).1 hslash
    · rw [interior_cons hd] at h
      obtain ⟨rfl, rfl⟩ := List.cons.inj h
      exact ⟨tail, rfl, rfl⟩

/-- The first identifier ends in a backslash, and the second has a bracket in its place. So the
bracket that closes the first is read as one inside the second, whose text runs on into what follows
the first. -/
def RunsOn (first rest second rest' : List Char) : Prop :=
  ∃ front tail, first = front ++ ['\\'] ∧ second = front ++ '⟩' :: tail ∧
    rest = interior tail ++ '⟩' :: rest'

theorem RunsOn.bracketed_eq {first second rest rest' : List Char}
    (h : RunsOn first rest second rest') :
    interior first ++ '⟩' :: rest = interior second ++ '⟩' :: rest' := by
  obtain ⟨front, tail, rfl, rfl, rfl⟩ := h
  simp only [interior_append, interior_bracket, List.append_assoc, List.cons_append]
  rfl

/-- Two identifiers, each closed by a bracket and with something after it, have one text if and only
if they are the same before the same, or the text of one runs on into what follows the other. -/
theorem bracketed_eq_iff {first second rest rest' : List Char} :
    interior first ++ '⟩' :: rest = interior second ++ '⟩' :: rest' ↔
      (first = second ∧ rest = rest') ∨ RunsOn first rest second rest' ∨
        RunsOn second rest' first rest := by
  -- The shorter of the two interiors is a front of the longer one.
  have hlonger {first second rest rest' shared : List Char}
      (hinterior : interior second = interior first ++ shared)
      (hrest : '⟩' :: rest = shared ++ '⟩' :: rest') :
      (first = second ∧ rest = rest') ∨ RunsOn first rest second rest' := by
    cases shared with
    | nil =>
      rw [List.append_nil] at hinterior
      exact .inl ⟨interior_injective hinterior.symm, (List.cons.inj hrest).2⟩
    | cons c shared =>
      obtain ⟨rfl, rfl⟩ := List.cons.inj hrest
      obtain ⟨before, after, rfl, hfirst, rfl⟩ := exists_of_interior_eq hinterior
      exact .inr ⟨before, after, interior_injective hfirst, rfl, rfl⟩
  constructor
  · intro h
    rcases List.append_eq_append_iff.mp h with ⟨_, hinterior, hrest⟩ | ⟨_, hinterior, hrest⟩
    · exact (hlonger hinterior hrest).imp_right .inl
    · rcases hlonger hinterior hrest with ⟨rfl, rfl⟩ | hruns
      · exact .inl ⟨rfl, rfl⟩
      · exact .inr (.inr hruns)
  · rintro (⟨rfl, rfl⟩ | hruns | hruns)
    · rfl
    · exact hruns.bracketed_eq
    · exact hruns.bracketed_eq.symm

end Wireline.Ident

import Wireline.Wire.Head

/-!
# Scans

A `Scan` says what may come of an input when it is read, and how many heads are begun for that. It
is put together from steps (`Scan.AndThen`), from a number of turns (`Scan.Times`) and from turns
for as long as there is something to read (`Scan.Run`), the last an inductive relation that nothing
counts down. So that a scan ends is a statement of its own.

What carries it is that a head pays for itself: it uses an octet, or it finds that there is none and
so is the last. A scan that `Settles` on a reader ends on every input with the outcome of the
reader, after at most one head more than there are octets, and one that `Opens` also begins with a
head. Steps keep both, turns settle however many are declared, and a run settles on the reader that
is allowed as many turns as there are octets (`Scan.Opens.run`).
-/

set_option autoImplicit false
set_option relaxedAutoImplicit false

namespace Wireline

/-! ### Readers in steps -/

namespace Reader

variable {α β : Type}

/-- Reads nothing. -/
def done (a : α) : Reader α := fun input ↦ .ok (a, input)

def fail (error : WireError) : Reader α := fun _ ↦ .error error

/-- Goes on with what comes out of a first step. -/
def andThen (first : Reader α) (next : α → Reader β) : Reader β := fun input ↦ do
  let (a, rest) ← first input
  next a rest

/-- A number of times. -/
def times (turn : Reader α) : (count : Nat) → Reader (List α)
  | 0 => done []
  | count + 1 => turn.andThen fun a ↦ (times turn count).andThen fun others ↦ done (a :: others)

/-- As often as there is something, and no more often than a count allows. -/
def run (turn : Reader (Option α)) : (left : Nat) → Reader (List α)
  | 0 => fail (.outOfOctets 1 0)
  | left + 1 => turn.andThen fun
    | none => done []
    | some a => (run turn left).andThen fun others ↦ done (a :: others)

/-- As often as there is something. Each turn is to use an octet, so as many turns are allowed. -/
def loop (turn : Reader (Option α)) : Reader (List α) := fun input ↦ turn.run input.length input

end Reader

/-! ### Scans -/

/-- What comes of an input when it is read, and how many heads are begun for that. -/
abbrev Scan (α : Type) := Octets → Except WireError (α × Octets) → Nat → Prop

namespace Scan

open Reader (done fail)

variable {α β : Type}

/-- Scan straight on, with a number of heads that no input changes. -/
def Straight (reader : Reader α) (heads : Nat) : Scan α := fun input outcome begun ↦
  outcome = reader input ∧ begun = heads

/-- Two steps, of which the second one sees what comes out of the first. -/
inductive AndThen (first : Scan α) (next : α → Scan β) : Scan β
  | failed {input : Octets} {error : WireError} {heads : Nat}
      (h : first input (.error error) heads) : AndThen first next input (.error error) heads
  | next {input rest : Octets} {a : α} {outcome : Except WireError (β × Octets)}
      {heads others : Nat} (h : first input (.ok (a, rest)) heads)
      (hnext : next a rest outcome others) : AndThen first next input outcome (heads + others)

/-- One turn after the other for as long as there is something. -/
inductive Run (turn : Scan (Option α)) : Scan (List α)
  | failed {input : Octets} {error : WireError} {heads : Nat}
      (h : turn input (.error error) heads) : Run turn input (.error error) heads
  | stop {input rest : Octets} {heads : Nat} (h : turn input (.ok (none, rest)) heads) :
      Run turn input (.ok ([], rest)) heads
  | more {input rest last : Octets} {a : α} {others : List α} {heads later : Nat}
      (h : turn input (.ok (some a, rest)) heads)
      (hrest : Run turn rest (.ok (others, last)) later) :
      Run turn input (.ok (a :: others, last)) (heads + later)
  | moreFailed {input rest : Octets} {a : α} {error : WireError} {heads later : Nat}
      (h : turn input (.ok (some a, rest)) heads) (hrest : Run turn rest (.error error) later) :
      Run turn input (.error error) (heads + later)

/-- A number of turns. -/
def Times (turn : Scan α) : (count : Nat) → Scan (List α)
  | 0 => Straight (done []) 0
  | count + 1 =>
    AndThen turn fun a ↦ AndThen (Times turn count) fun others ↦ Straight (done (a :: others)) 0

/-- Every input is read to an end with the outcome of the reader and no other. Each head that is
begun uses an octet, except that a last one may fail for want of one. -/
structure Settles (scan : Scan α) (reader : Reader α) : Prop where
  ends : ∀ input, ∃ heads, scan input (reader input) heads
  outcome_eq : ∀ {input outcome heads}, scan input outcome heads → outcome = reader input
  used : ∀ {input a rest heads}, scan input (.ok (a, rest)) heads →
    heads + rest.length ≤ input.length
  begun : ∀ {input error heads}, scan input (.error error) heads → heads ≤ input.length + 1

/-- The scan also begins with a head. -/
structure Opens (scan : Scan α) (reader : Reader α) : Prop
    extends Settles scan reader where
  heads_pos : ∀ {input outcome heads}, scan input outcome heads → 0 < heads
  nil : reader [] = .error (.outOfOctets 1 0)

/-! ### Steps -/

theorem Settles.length_le {scan : Scan α} {reader : Reader α} (h : Settles scan reader)
    {input rest : Octets} {a : α} (hread : reader input = .ok (a, rest)) :
    rest.length ≤ input.length := by
  obtain ⟨heads, hends⟩ := h.ends input
  rw [hread] at hends
  exact Nat.le_trans (Nat.le_add_left _ _) (h.used hends)

theorem Opens.length_lt {scan : Scan α} {reader : Reader α} (h : Opens scan reader)
    {input rest : Octets} {a : α} (hread : reader input = .ok (a, rest)) :
    rest.length < input.length := by
  obtain ⟨heads, hends⟩ := h.ends input
  rw [hread] at hends
  have hpos := h.heads_pos hends
  have hused := h.used hends
  omega

theorem settles_straight {reader : Reader α}
    (h : ∀ {input a rest}, reader input = .ok (a, rest) → rest.length ≤ input.length) :
    Settles (Straight reader 0) reader where
  ends _ := ⟨0, rfl, rfl⟩
  outcome_eq := And.left
  used := by
    rintro input a rest heads ⟨houtcome, rfl⟩
    rw [Nat.zero_add]
    exact h houtcome.symm
  begun := by
    rintro input error heads ⟨-, rfl⟩
    exact Nat.zero_le _

theorem settles_done (a : α) : Settles (Straight (done a) 0) (done a) := by
  refine settles_straight fun h ↦ ?_
  cases h
  exact Nat.le_refl _

theorem settles_fail (error : WireError) :
    Settles (Straight (fail error : Reader α) 0) (fail error) :=
  settles_straight nofun

theorem Settles.andThen {first : Scan α} {next : α → Scan β} {reader : Reader α}
    {nextReader : α → Reader β} (h : Settles first reader)
    (hnext : ∀ a, Settles (next a) (nextReader a)) :
    Settles (AndThen first next) (reader.andThen nextReader) where
  ends input := by
    obtain ⟨heads, hends⟩ := h.ends input
    rw [Reader.andThen]
    cases hread : reader input with
    | error error => exact ⟨heads, .failed (hread ▸ hends)⟩
    | ok result =>
      obtain ⟨a, rest⟩ := result
      obtain ⟨others, hothers⟩ := (hnext a).ends rest
      exact ⟨heads + others, .next (hread ▸ hends) hothers⟩
  outcome_eq := by
    intro input outcome heads hscan
    cases hscan with
    | failed hfirst => rw [Reader.andThen, ← h.outcome_eq hfirst]; rfl
    | next hfirst hothers =>
      rw [Reader.andThen, ← h.outcome_eq hfirst, (hnext _).outcome_eq hothers]
      rfl
  used := by
    intro input b last heads hscan
    cases hscan with
    | next hfirst hothers =>
      have hused := h.used hfirst
      have hlater := (hnext _).used hothers
      omega
  begun := by
    intro input error heads hscan
    cases hscan with
    | failed hfirst => exact h.begun hfirst
    | next hfirst hothers =>
      have hused := h.used hfirst
      have hlater := (hnext _).begun hothers
      omega

theorem Opens.andThen {first : Scan α} {next : α → Scan β} {reader : Reader α}
    {nextReader : α → Reader β} (h : Opens first reader)
    (hnext : ∀ a, Settles (next a) (nextReader a)) :
    Opens (AndThen first next) (reader.andThen nextReader) where
  toSettles := h.toSettles.andThen hnext
  heads_pos := by
    intro input outcome heads hscan
    cases hscan with
    | failed hfirst => exact h.heads_pos hfirst
    | next hfirst hothers => exact Nat.add_pos_left (h.heads_pos hfirst) _
  nil := by rw [Reader.andThen, h.nil]; rfl

/-! ### Loops -/

section Loops

/-- The declared count does not show in the bound: every turn begins a head of its own, or the
repetition has failed. -/
theorem Settles.times {turn : Scan α} {reader : Reader α} (h : Settles turn reader)
    (count : Nat) : Settles (Times turn count) (reader.times count) := by
  induction count with
  | zero => exact settles_done []
  | succ count ih => exact h.andThen fun a ↦ ih.andThen fun others ↦ settles_done (a :: others)

variable {turn : Scan (Option α)} {reader : Reader (Option α)}

/-- A run is not cut off: no turn is left where no octet is, and there the turn fails as the count
does. -/
theorem Opens.run_eq_run (h : Opens turn reader) (left : Nat) :
    ∀ {longer : Nat} {input : Octets}, input.length ≤ left → input.length ≤ longer →
      reader.run left input = reader.run longer input := by
  have hnil (longer : Nat) : reader.run longer [] = .error (.outOfOctets 1 0) := by
    cases longer with
    | zero => rfl
    | succ longer => rw [Reader.run, Reader.andThen, h.nil]; rfl
  induction left with
  | zero =>
    intro longer input hleft hlonger
    rw [List.length_eq_zero_iff.mp (Nat.le_zero.mp hleft), hnil, hnil]
  | succ left ih =>
    intro longer input hleft hlonger
    cases longer with
    | zero => rw [List.length_eq_zero_iff.mp (Nat.le_zero.mp hlonger), hnil, hnil]
    | succ longer =>
      rw [Reader.run, Reader.run, Reader.andThen, Reader.andThen]
      cases hread : reader input with
      | error error => rfl
      | ok result =>
        obtain ⟨found, rest⟩ := result
        have hrest := h.length_lt hread
        cases found with
        | none => rfl
        | some a =>
          have hsame : reader.run left rest = reader.run longer rest :=
            ih (by omega) (by omega)
          simp only [bind, Except.bind, Reader.andThen, hsame]

/-- The loop goes on with itself, and nothing is counted down. -/
theorem Opens.loop_eq (h : Opens turn reader) (input : Octets) :
    reader.loop input = reader.andThen (fun
      | none => done []
      | some a => reader.loop.andThen fun others ↦ done (a :: others)) input := by
  rw [Reader.loop, h.run_eq_run input.length (Nat.le_refl _) (Nat.le_succ _), Reader.run,
    Reader.andThen, Reader.andThen]
  cases hread : reader input with
  | error error => rfl
  | ok result =>
    obtain ⟨found, rest⟩ := result
    cases found with
    | none => rfl
    | some a =>
      have hsame : reader.run input.length rest = reader.loop rest :=
        h.run_eq_run _ (Nat.le_of_lt (h.length_lt hread)) (Nat.le_refl _)
      simp only [bind, Except.bind, Reader.andThen, hsame]

/-- A run ends, since every turn uses an octet. -/
theorem Opens.run (h : Opens turn reader) : Settles (Run turn) reader.loop where
  ends input := by
    induction hlength : input.length using Nat.strongRecOn generalizing input with
    | ind length ih =>
      subst hlength
      obtain ⟨heads, hends⟩ := h.ends input
      rw [h.loop_eq, Reader.andThen]
      cases hread : reader input with
      | error error => exact ⟨heads, .failed (hread ▸ hends)⟩
      | ok result =>
        obtain ⟨found, rest⟩ := result
        rw [hread] at hends
        cases found with
        | none => exact ⟨heads, .stop hends⟩
        | some a =>
          obtain ⟨later, hlater⟩ := ih rest.length (h.length_lt hread) rest rfl
          refine ⟨heads + later, ?_⟩
          simp only [bind, Except.bind, Reader.andThen]
          cases hrest : reader.loop rest with
          | error error => exact .moreFailed hends (hrest ▸ hlater)
          | ok result => exact .more hends (hrest ▸ hlater)
  outcome_eq := by
    intro input outcome heads hscan
    induction hscan with
    | failed hturn | stop hturn =>
      rw [h.loop_eq, Reader.andThen, ← h.outcome_eq hturn]
      rfl
    | more hturn _ ih | moreFailed hturn _ ih =>
      rw [h.loop_eq, Reader.andThen, ← h.outcome_eq hturn]
      simp only [bind, Except.bind, Reader.andThen, ← ih, done]
  used := by
    intro input a rest heads hscan
    generalize houtcome : (Except.ok (a, rest) : Except WireError _) = outcome at hscan
    induction hscan generalizing a rest with
    | failed | moreFailed => cases houtcome
    | stop hturn =>
      cases houtcome
      exact h.used hturn
    | more hturn _ ih =>
      cases houtcome
      have hused := h.used hturn
      have hlater := ih rfl
      omega
  begun := by
    intro input error heads hscan
    generalize houtcome : (Except.error error : Except WireError _) = outcome at hscan
    induction hscan with
    | stop | more => cases houtcome
    | failed hturn => exact h.begun hturn
    | moreFailed hturn _ ih =>
      have hused := h.used hturn
      have hlater := ih houtcome
      omega

end Loops

end Scan

end Wireline

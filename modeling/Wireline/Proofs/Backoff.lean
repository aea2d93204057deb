import Mathlib.Data.List.Induction
import Wireline.Client.Backoff

/-!
# Connections within the window

A backoff is called at times that never run backwards, and each `reset` records a connection. What
it keeps of the connections are those of the window that ends with the last call (`Records`), in
order: `records_after` for a list of calls. So the oldest connections may be forgotten from the
front (`prune_history`), and a permitted attempt finds room in the window (`beginAttempt_ok`).
-/

set_option autoImplicit false
set_option relaxedAutoImplicit false

namespace Wireline

namespace Backoff

/-! ### Calls -/

/-- What a backoff is called for. -/
inductive Call
  | allow
  | beginAttempt (draw : Binary64)
  | reset

/-- What a call at a time makes of a backoff. -/
def perform (backoff : Backoff) (now : Nat) : Call → Backoff
  | .allow => (backoff.allow now).1
  | .beginAttempt draw => (backoff.beginAttempt now draw).1
  | .reset => backoff.reset now

/-- What calls make of a backoff, each with its time. -/
def after (backoff : Backoff) (calls : List (Nat × Call)) : Backoff :=
  calls.foldl (fun backoff call ↦ backoff.perform call.1 call.2) backoff

/-- The time that a call records. -/
def recorded? : Nat × Call → Option Nat
  | (now, .reset) => some now
  | _ => none

/-- The times of the connections that calls record. -/
def recorded (calls : List (Nat × Call)) : List Nat :=
  calls.filterMap recorded?

theorem after_concat (backoff : Backoff) (calls : List (Nat × Call)) (call : Nat × Call) :
    backoff.after (calls ++ [call]) = (backoff.after calls).perform call.1 call.2 :=
  List.foldl_append

theorem recorded_concat (calls : List (Nat × Call)) (call : Nat × Call) :
    recorded (calls ++ [call]) = recorded calls ++ (recorded? call).toList := by
  rw [recorded, List.filterMap_append]
  cases hcall : recorded? call <;> simp [recorded, hcall]

/-- The times are those of a clock that never runs backwards. -/
def InOrder (calls : List (Nat × Call)) : Prop :=
  calls.Pairwise fun earlier later ↦ earlier.1 ≤ later.1

/-! ### The window -/

/-- The connections that are newer than a window that ends now. -/
def recent (window now : Nat) (connections : List Nat) : List Nat :=
  connections.filter fun connection ↦ decide (now < connection + window)

section Recent

variable {window time now : Nat} {connections : List Nat}

theorem recent_recent (h : time ≤ now) :
    recent window now (recent window time connections) = recent window now connections := by
  rw [recent, recent, recent, List.filter_filter]
  refine List.filter_congr fun connection _ ↦ ?_
  rw [← Bool.decide_and]
  exact decide_eq_decide.mpr ⟨And.left, fun hnow ↦ ⟨hnow, Nat.lt_of_le_of_lt h hnow⟩⟩

/-- The oldest connections come first, so those that are too old are all in front. -/
theorem dropWhile_eq_recent (hordered : connections.Pairwise (· ≤ ·))
    (hpast : ∀ connection ∈ connections, connection ≤ now) :
    connections.dropWhile (fun connection ↦ decide (window ≤ now - connection)) =
      recent window now connections := by
  induction connections with
  | nil => rfl
  | cons oldest rest ih =>
    obtain ⟨holdest, hrest⟩ := List.pairwise_cons.mp hordered
    have hnow := hpast oldest List.mem_cons_self
    by_cases hgone : window ≤ now - oldest
    · have hnot : ¬ now < oldest + window := by omega
      rw [List.dropWhile_cons_of_pos (by simpa using hgone), recent,
        List.filter_cons_of_neg (by simpa using hnot)]
      exact ih hrest fun connection hmem ↦ hpast connection (List.mem_cons_of_mem _ hmem)
    · -- the oldest is recent, so all that follow are
      rw [List.dropWhile_cons_of_neg (by simpa using hgone)]
      refine (List.filter_eq_self.mpr fun connection hmem ↦ ?_).symm
      have hlater : oldest ≤ connection := by
        rcases List.mem_cons.mp hmem with rfl | hother
        · exact Nat.le_refl _
        · exact holdest connection hother
      exact decide_eq_true (by omega)

end Recent

/-! ### What a call does -/

section Calls

variable (backoff : Backoff) (now : Nat) (draw : Binary64)

theorem allow_iff :
    (backoff.allow now).2 = true ↔ backoff.policy.enabled ∧
      backoff.attempts < backoff.policy.attempts ∧
        (backoff.prune now).history.length < backoff.policy.windowAttempts := by
  simp only [allow, Bool.and_eq_true, decide_eq_true_eq, and_assoc]
  rfl

/-- A permitted attempt counts if there is a delay before it, and one that is refused changes
nothing. Old connections are forgotten either way. -/
theorem beginAttempt_eq : backoff.beginAttempt now draw =
    if (backoff.allow now).2 then
      match (backoff.prune now).nextDelay draw with
      | some delay =>
        ({ backoff.prune now with attempts := backoff.attempts + 1 }, .ok (some delay))
      | none => (backoff.prune now, .ok none)
    else (backoff.prune now, .error .reconnectExhausted) := by
  have hpruned : (backoff.allow now).1 = backoff.prune now := rfl
  unfold beginAttempt
  split
  · next pruned hallowed =>
    rw [hallowed] at hpruned ⊢
    cases hpruned
    rw [if_pos rfl]
    rfl
  · next pruned hrefused =>
    rw [hrefused] at hpruned ⊢
    cases hpruned
    rfl

theorem beginAttempt_ok {backoff : Backoff} {now : Nat} {draw : Binary64} {next : Backoff}
    {delay : Span} (h : backoff.beginAttempt now draw = (next, .ok (some delay))) :
    next = { backoff.prune now with attempts := backoff.attempts + 1 } ∧
      backoff.policy.enabled = true ∧ backoff.attempts < backoff.policy.attempts ∧
      (backoff.prune now).history.length < backoff.policy.windowAttempts := by
  rw [beginAttempt_eq] at h
  split at h
  · next hallowed =>
    split at h
    · cases h
      exact ⟨rfl, (allow_iff backoff now).mp hallowed⟩
    · cases h
  · cases h

theorem beginAttempt_isOk_iff :
    (∃ delay, (backoff.beginAttempt now draw).2 = .ok delay) ↔
      backoff.policy.enabled ∧ backoff.attempts < backoff.policy.attempts ∧
        (backoff.prune now).history.length < backoff.policy.windowAttempts := by
  rw [← allow_iff, beginAttempt_eq]
  split
  · next hallowed => split <;> simp [hallowed]
  · next hrefused => simp [hrefused]

/-- An attempt that is permitted waits for the delay that the policy gives. -/
theorem delay_of_beginAttempt {delay : Option Span}
    (h : (backoff.beginAttempt now draw).2 = .ok delay) :
    delay = backoff.nextDelay draw := by
  rw [beginAttempt_eq] at h
  split at h
  · split at h
    · next hsome =>
      cases h
      exact hsome.symm
    · next hnone =>
      cases h
      exact hnone.symm
  · cases h

/-- An attempt at most counts, once old connections are forgotten. -/
theorem beginAttempt_fst :
    ∃ attempts, (backoff.beginAttempt now draw).1 = { backoff.prune now with attempts } := by
  rw [beginAttempt_eq]
  split
  · split
    · exact ⟨backoff.attempts + 1, rfl⟩
    · exact ⟨backoff.attempts, rfl⟩
  · exact ⟨backoff.attempts, rfl⟩

theorem perform_policy (call : Call) : (backoff.perform now call).policy = backoff.policy := by
  cases call with
  | allow | reset => rfl
  | beginAttempt draw =>
    obtain ⟨attempts, h⟩ := beginAttempt_fst backoff now draw
    simp only [perform, h]
    rfl

end Calls

/-! ### What is recorded -/

/-- Of the connections that were made, a backoff keeps those of the window that ends at a time. -/
structure Records (backoff : Backoff) (connections : List Nat) (time : Nat) : Prop where
  ordered : connections.Pairwise (· ≤ ·)
  past : ∀ connection ∈ connections, connection ≤ time
  history : backoff.history = recent backoff.policy.window.nanoseconds time connections

namespace Records

variable {backoff : Backoff} {connections : List Nat} {time now : Nat}

theorem new (policy : BackoffPolicy) (now : Nat) : Records { policy } [] now :=
  ⟨.nil, by simp, rfl⟩

theorem history_ordered (h : Records backoff connections time) :
    backoff.history.Pairwise (· ≤ ·) := by
  rw [h.history]
  exact h.ordered.filter _

/-- Connections that are older than the window are forgotten, and no others. -/
theorem prune (h : Records backoff connections time) (hle : time ≤ now) :
    Records (backoff.prune now) connections now := by
  have hpast (connection : Nat) (hmem : connection ∈ connections) : connection ≤ now :=
    Nat.le_trans (h.past connection hmem) hle
  refine ⟨h.ordered, hpast, ?_⟩
  have hkept : ∀ connection ∈ backoff.history, connection ≤ now := by
    rw [h.history]
    exact fun connection hmem ↦ hpast connection (List.mem_filter.mp hmem).1
  simp only [Backoff.prune]
  rw [dropWhile_eq_recent h.history_ordered hkept, h.history, recent_recent hle]

/-- Assumes: the window is not empty, so that a connection is newer than it when it is made. -/
theorem reset (h : Records backoff connections time) (hle : time ≤ now)
    (hwindow : 0 < backoff.policy.window.nanoseconds) :
    Records (backoff.reset now) (connections ++ [now]) now := by
  obtain ⟨hordered, hpast, hhistory⟩ := h.prune hle
  refine ⟨?_, ?_, ?_⟩
  · exact List.pairwise_append.mpr ⟨hordered, List.pairwise_singleton _ _, by simpa using hpast⟩
  · intro connection hmem
    rcases List.mem_append.mp hmem with hold | hnew
    · exact hpast connection hold
    · exact Nat.le_of_eq (List.mem_singleton.mp hnew)
  · have hnow : recent backoff.policy.window.nanoseconds now [now] = [now] := by
      simpa [recent] using hwindow
    simp only [Backoff.reset]
    rw [hhistory, recent, recent, List.filter_append, ← recent, ← recent]
    exact congrArg (_ ++ ·) hnow.symm

theorem perform (h : Records backoff connections time) (hle : time ≤ now)
    (hwindow : 0 < backoff.policy.window.nanoseconds) (call : Call) :
    Records (backoff.perform now call) (connections ++ (recorded? (now, call)).toList) now := by
  cases call with
  | reset => exact h.reset hle hwindow
  | allow =>
    rw [show (recorded? (now, .allow)).toList = [] from rfl, List.append_nil]
    exact h.prune hle
  | beginAttempt draw =>
    obtain ⟨attempts, hbegun⟩ := beginAttempt_fst backoff now draw
    rw [show (recorded? (now, .beginAttempt draw)).toList = [] from rfl, List.append_nil,
      Backoff.perform, hbegun]
    exact { h.prune hle with }

end Records

theorem after_policy (backoff : Backoff) (calls : List (Nat × Call)) :
    (backoff.after calls).policy = backoff.policy := by
  induction calls generalizing backoff with
  | nil => rfl
  | cons call rest ih => exact (ih _).trans (perform_policy backoff call.1 call.2)

/-- After a call, a new backoff keeps the connections of the window that ends then. -/
theorem records_after {policy : BackoffPolicy} (hwindow : 0 < policy.window.nanoseconds)
    (calls : List (Nat × Call)) : ∀ now call, InOrder (calls ++ [(now, call)]) →
      Records (({ policy } : Backoff).after (calls ++ [(now, call)]))
        (recorded (calls ++ [(now, call)])) now := by
  induction calls using List.reverseRecOn with
  | nil => exact fun now call _ ↦ (Records.new policy now).perform (Nat.le_refl now) hwindow call
  | append_singleton calls previous ih =>
    intro now call hordered
    obtain ⟨hcalls, -, hnow⟩ := List.pairwise_append.mp hordered
    have hle : previous.1 ≤ now :=
      hnow previous (by simp) (now, call) (List.mem_singleton.mpr rfl)
    have hpolicy := after_policy { policy } (calls ++ [previous])
    rw [after_concat, recorded_concat]
    exact (ih previous.1 previous.2 hcalls).perform hle (hpolicy ▸ hwindow) call

/-- What is kept is in order, and is what is recent at the last call. -/
theorem history_after {policy : BackoffPolicy} (hwindow : 0 < policy.window.nanoseconds)
    {calls : List (Nat × Call)} (hordered : InOrder calls) :
    (({ policy } : Backoff).after calls).history.Pairwise (· ≤ ·) ∧
      ∀ last, calls.getLast? = some last → (({ policy } : Backoff).after calls).history =
        recent policy.window.nanoseconds last.1 (recorded calls) := by
  cases calls using List.reverseRecOn with
  | nil => exact ⟨.nil, fun _ hlast ↦ absurd hlast (Option.some_ne_none _).symm⟩
  | append_singleton calls call =>
    have hrecords := records_after hwindow calls call.1 call.2 hordered
    refine ⟨hrecords.history_ordered, fun last hlast ↦ ?_⟩
    rw [List.getLast?_concat] at hlast
    cases hlast
    rw [hrecords.history, after_policy]

end Backoff

end Wireline

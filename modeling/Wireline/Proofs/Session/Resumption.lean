import Wireline.Proofs.Session.RestoreOrder

/-!
# The way back

A session that reconnects says that it is connected only when a fresh link is restored to the end
(`resumption`). Whatever happened before, the restoration began when that link was opened, and the
session comes out of it with everything restored: nothing is left for the standing, and no open
stream is without a restart on the link.
-/

set_option autoImplicit false
set_option relaxedAutoImplicit false

namespace Wireline

namespace Session

/-! ### Phases -/

/-- The session restores a link. -/
def IsRestoring (s : Session) : Prop :=
  ∃ restoration, s.phase = .restoring restoration

theorem not_isRestoring_ofConfig (url : String) (config : ClientConfig)
    (payloadLimit : Option Nat) : ¬ (ofConfig url config payloadLimit).IsRestoring := by
  rintro ⟨restoration, hphase⟩
  cases hphase

theorem not_isRestoring_of_isOver {s : Session} (h : s.IsOver) : ¬ s.IsRestoring :=
  fun hrestoring ↦ h.not_isRecovering (.inr (.inr hrestoring))

theorem lose_not_isRestoring (s : Session) : ¬ s.lose.IsRestoring := by
  unfold lose
  split
  · exact fun ⟨restoration, hs⟩ ↦ retryLater_phase _ restoration hs
  · exact not_isRestoring_of_isOver (shutdown_isOver _ _)

theorem attend_not_isRestoring {s : Session} (h : s.IsServing) : ¬ s.attend.IsRestoring := by
  unfold attend
  split
  · exact not_isRestoring_of_isOver (shutdown_isOver _ _)
  · split
    · exact lose_not_isRestoring s
    · rintro ⟨restoration, hs⟩
      obtain ⟨tick, hserving⟩ := h
      cases hs.symm.trans hserving

theorem resume_not_isRestoring (s : Session) : ¬ s.resume.IsRestoring := by
  obtain ⟨backoff, tick, hresume⟩ := resume_eq s
  rw [hresume]
  exact attend_not_isRestoring ⟨tick, rfl⟩

/-- A session begins to restore a link only once it is open. -/
theorem Turn.isRestoring {s t : Session} {event : Event} (h : Turn s event t)
    (hrestoring : t.IsRestoring) :
    (s.phase = .dialing ∧ event = .linked) ∨ s.IsRestoring := by
  obtain ⟨restoration, ht⟩ := hrestoring
  cases h with
  | rest heq _ _ =>
    refine .inr ⟨restoration, ?_⟩
    rw [heq] at ht
    exact ht
  | started _ => cases ht
  | opened _ =>
    simp only [beginServing, push, phase_eq_of_controlState (setStatus_controlState _ _)] at ht
    cases ht
  | failed _ _ => cases ht
  | @obeyed command _ _ _ => exact .inr ⟨restoration, (obey_keeps s command).1.symm.trans ht⟩
  | called hserving ticket request =>
    obtain ⟨tick, hs⟩ := hserving
    have hcalled : (s.dispatchCall ticket request).IsServing :=
      ⟨tick, (dispatchCall_phase s ticket request).trans hs⟩
    exact absurd ⟨restoration, ht⟩ (attend_not_isRestoring hcalled)
  | pinged _ _ => exact absurd ⟨restoration, ht⟩ (attend_not_isRestoring ⟨_, rfl⟩)
  | @notified frame message _ _ =>
    have hstreams := StreamsOnly.routeNotification s message
    exact .inr ⟨restoration, (phase_eq_of_controlState hstreams.controlState).symm.trans ht⟩
  | @answered frame n response _ _ =>
    rcases routeReply_phase s n.toNat response with hsame | ⟨-, earlier, hs, -⟩
    · exact .inr ⟨restoration, hsame.symm.trans ht⟩
    · exact .inr ⟨earlier, hs⟩
  | lost _ => exact absurd ⟨restoration, ht⟩ (lose_not_isRestoring s)
  | lostAgain hphase => exact .inr ⟨_, hphase⟩
  | dialed _ _ => cases ht
  | refused _ _ => exact absurd ht (retryLater_phase s restoration)
  | linked hphase => exact .inl ⟨hphase, rfl⟩
  | restored hphase _ _ => exact .inr ⟨_, hphase⟩
  | ended _ _ _ reason =>
    exact absurd ⟨restoration, ht⟩ (not_isRestoring_of_isOver (shutdown_isOver _ reason))
  | stopped _ _ _ => cases (stop_phase _).symm.trans ht

theorem Outcome.awaiting {s₀ t : Session} {events : List Event} (h : Outcome s₀ events t)
    {restoration : Restoration} (ht : t.phase = .restoring restoration) :
    Awaiting s₀ events t restoration := by
  cases h with
  | awaits h =>
    cases h.phase.symm.trans ht
    exact h
  | gone _ _ _ _ _ hphase => exact absurd ht (hphase restoration)
  | resumes _ _ => exact absurd ⟨restoration, ht⟩ (resume_not_isRestoring _)

/-- A restoration that is under way began when its link was opened. -/
theorem awaiting_run {s : Session} (hs : s.Steady) (hbegin : ¬ s.IsRestoring)
    (events : List Event) :
    ∀ restoration, (s.run events).phase = .restoring restoration →
      ∃ earlier later, events = earlier ++ .linked :: later ∧
        (s.run earlier).phase = .dialing ∧
        Awaiting (s.run earlier) (.linked :: later) (s.run events) restoration := by
  induction events using List.reverseRecOn with
  | nil => exact fun restoration hphase ↦ absurd ⟨restoration, hphase⟩ hbegin
  | append_singleton events event ih =>
    intro restoration hphase
    have hsteady := hs.run events
    rw [run_concat] at hphase ⊢
    rcases (hsteady.turn event).isRestoring ⟨restoration, hphase⟩ with
      ⟨hdialing, rfl⟩ | ⟨previous, hprevious⟩
    · exact ⟨events, [], rfl, hdialing, (hsteady.linked_outcome hdialing).awaiting hphase⟩
    · obtain ⟨earlier, later, rfl, hdialing, hawaiting⟩ := ih previous hprevious
      have hrun : (s.run earlier).run (.linked :: later) = s.run (earlier ++ .linked :: later) :=
        (run_append s earlier _).symm
      refine ⟨earlier, later ++ [event], by simp, hdialing, ?_⟩
      exact (hawaiting.outcome hsteady hrun event).awaiting hphase

/-! ### What is said -/

/-- The event makes a session that reconnects say that it is connected. -/
def Reconnects (s : Session) (event : Event) : Prop :=
  s.status = .reconnecting ∧ .status .connected ∈ s.emitted event

instance (s : Session) (event : Event) : Decidable (Reconnects s event) :=
  have hsaid : (s.emitted event).any (fun effect ↦ effect matches .status .connected) = true ↔
      .status .connected ∈ s.emitted event := by
    rw [List.any_eq_true]
    constructor
    · rintro ⟨effect, heffect, hmatches⟩
      split at hmatches
      · exact heffect
      · cases hmatches
    · exact fun h ↦ ⟨_, h, rfl⟩
  decidable_of_iff (s.status = .reconnecting ∧
    (s.emitted event).any (fun effect ↦ effect matches .status .connected) = true)
    (and_congr_right' hsaid)

theorem Effect.IsQuiet.ne_connected {effect : Effect} (h : effect.IsQuiet) :
    effect ≠ .status .connected := by
  rintro rfl
  exact h

theorem obey_emits (s : Session) {command : Command}
    (hcall : s.IsServing → ∀ ticket request, command ≠ .request ticket request) :
    Emits Effect.IsQuiet s (s.obey command) := by
  cases command with
  | request ticket request =>
    simp only [obey, Session.request]
    split
    · next tick hphase => exact absurd rfl (hcall ⟨tick, hphase⟩ ticket request)
    · exact .of_eq rfl
    · exact .of_eq rfl
    · exact .of_eq rfl
    · exact .push s (by trivial)
  | subscribe ticket id query =>
    simp only [obey, subscribe]
    split
    · exact (Emits.streamsOnly (.register s id query)).trans (.push _ (by trivial))
    · exact .push s (by trivial)
  | kill ticket handle =>
    exact (Emits.streamsOnly (.closeStream s .killed handle)).trans (.push _ (by trivial))
  | standing ticket => exact .push s (by trivial)
  | close ticket => exact .of_eq rfl

/-- While a session reconnects, it says nothing about the link before it has a fresh one. -/
theorem Turn.emits_of_recovering {s t : Session} {event : Event} (h : Turn s event t)
    (hrecovering : s.IsRecovering ∨ s.phase = .halted) (hrestoring : ¬ s.IsRestoring)
    (hlinked : ¬ (s.phase = .dialing ∧ event = .linked)) : Emits Effect.IsQuiet s t := by
  have hphase : (∃ wake, s.phase = .backingOff wake) ∨ s.phase = .dialing ∨ s.phase = .halted := by
    rcases hrecovering with (h | h | h) | h
    · exact .inl h
    · exact .inr (.inl h)
    · exact absurd h hrestoring
    · exact .inr (.inr h)
  have hserving : ¬ s.IsServing := by
    rintro ⟨tick, hs⟩
    rcases hphase with ⟨wake, h⟩ | h | h <;> cases hs.symm.trans h
  cases h with
  | rest heq _ _ => exact .of_eq (by rw [heq])
  | started hs | opened hs | failed hs _ | stopped _ hs _ =>
    rcases hphase with ⟨wake, h⟩ | h | h <;> cases hs.symm.trans h
  | obeyed _ _ hcall => exact obey_emits s hcall
  | called hs _ _ | pinged hs _ | lost hs => exact absurd hs hserving
  | notified _ _ => exact .streamsOnly (.routeNotification s _)
  | answered _ _ => exact (Emits.routeReply s _ _).mono fun _ ↦ Effect.IsIdle.isQuiet
  | lostAgain hs | restored hs _ _ => exact absurd ⟨_, hs⟩ hrestoring
  | dialed _ _ => exact ⟨[.dial s.url], rfl, by simp [Effect.IsQuiet]⟩
  | refused _ _ => exact .retryLater s
  | linked hs => exact absurd ⟨hs, rfl⟩ hlinked
  | @ended _ u heq _ _ reason =>
    have houtbox : u.outbox = s.outbox := by rw [heq]
    exact (Emits.of_eq houtbox).trans (.shutdown u reason)

/-- A session that says again that it is connected has just restored a link to the end. -/
theorem Outcome.resumption {s₀ s t : Session} {events : List Event} (h : Outcome s₀ events t)
    (hs : Emits (fun _ ↦ True) s₀ s) {effects : List Effect} (ht : t.outbox = s.outbox ++ effects)
    (hsaid : .status .connected ∈ effects) :
    ∃ begun u, Ready s₀ events u [] begun ∧ u.unrestarted begun = [] ∧ t = u.resume := by
  cases h with
  | awaits h => exact absurd trivial (h.uncut.last hs ht _ hsaid)
  | gone huncut _ _ hgone hquiet _ =>
    have hhungUp : Emits (fun effect ↦ effect ≠ .status .connected) s₀ t := by
      obtain ⟨during, houtbox, hduring⟩ := huncut
      rw [houtbox, List.append_assoc] at hgone
      refine ⟨_, hgone, fun effect heffect ↦ ?_⟩
      rcases List.mem_append.mp heffect with hmem | hmem
      · rintro rfl
        exact hduring _ hmem trivial
      · rcases List.mem_cons.mp hmem with rfl | hrest
        · simp
        · exact (hquiet effect hrest).ne_connected
    exact absurd rfl (hhungUp.last hs ht _ hsaid)
  | resumes h hbegun => exact ⟨_, _, h, hbegun, rfl⟩

/-- A session that gets back to its callers has restored a link, since that was opened, to the end,
and serves again. -/
theorem resumption {s : Session} (hs : s.Steady) (hbegin : ¬ s.IsRestoring) (events : List Event)
    (event : Event) (h : Reconnects (s.run events) event) :
    ∃ earlier since later begun t, events = earlier ++ since ∧
      (s.run earlier).phase = .dialing ∧ since ++ [event] = .linked :: later ∧
      Ready (s.run earlier) (.linked :: later) t [] begun ∧ t.unrestarted begun = [] ∧
      (s.run events).step event = t.resume := by
  obtain ⟨hstatus, hsaid⟩ := h
  have hsteady := hs.run events
  have houtbox := outbox_eq_emitted hsteady.quiescent event
  by_cases hrestoring : (s.run events).IsRestoring
  · obtain ⟨restoration, hphase⟩ := hrestoring
    obtain ⟨earlier, later, rfl, hdialing, hawaiting⟩ := awaiting_run hs hbegin events _ hphase
    have hrun : (s.run earlier).run (.linked :: later) = s.run (earlier ++ .linked :: later) :=
      (run_append s earlier _).symm
    have hsofar := run_emits (hs.run earlier).quiescent (.linked :: later)
    rw [hrun] at hsofar
    obtain ⟨begun, t, hready, hnone, hresume⟩ :=
      (hawaiting.outcome hsteady hrun event).resumption hsofar houtbox hsaid
    exact ⟨earlier, .linked :: later, later ++ [event], begun, t, rfl, hdialing, rfl, hready, hnone,
      hresume⟩
  by_cases hlinked : (s.run events).phase = .dialing ∧ event = .linked
  · obtain ⟨hdialing, rfl⟩ := hlinked
    obtain ⟨begun, t, hready, hnone, hresume⟩ :=
      (hsteady.linked_outcome hdialing).resumption (.refl _) houtbox hsaid
    exact ⟨events, [], [], begun, t, (List.append_nil _).symm, hdialing, rfl, hready, hnone,
      hresume⟩
  · have hquiet := (hsteady.turn event).emits_of_recovering (hsteady.coherent.isRecovering hstatus)
      hrestoring hlinked
    exact absurd rfl (hquiet.last (.refl _) houtbox _ hsaid).ne_connected

end Session

end Wireline

import Mathlib.Data.List.Induction
import Wireline.Proofs.Session.Progress

/-!
# The order in which a link is restored

A restoration begins when a fresh link is open (`Steady.ready`) and goes on with each answer to the
call that is awaited (`Awaiting.conclude`); what else happens in the meantime does not matter
(`Awaiting.beside`). So whatever happens after a fresh link was opened, what the session writes
until the restoration is over restores the link in order (`restored_run`).
-/

set_option autoImplicit false
set_option relaxedAutoImplicit false

namespace Wireline

namespace Session

/-! ### What happens while a call is awaited -/

/-- A fresh link is about to be restored. -/
theorem Steady.ready {s₀ : Session} (hs : s₀.Steady) (hphase : s₀.phase = .dialing) :
    Ready s₀ [.linked] s₀.attach s₀.standing.restoreRequests [] := by
  have hunlinked := hs.quiescent.unlinked (.inr (.inr (.inr (.inl hphase))))
  exact {
    payloadLimit := rfl
    uncut := .of_eq rfl
    frames := by
      have hlimit : s₀.attach.payloadLimit = s₀.payloadLimit := rfl
      refine ⟨[], [], (List.append_nil _).symm, ?_, .nil⟩
      rw [List.append_nil, List.nil_append, framed_congr hlimit]
      rfl
    inOrder := .inr rfl
    descending := .nil
    below := by simp
    ahead := by simp
    linked := ⟨by simp [attach], rfl, hunlinked.closer⟩
    reconnecting := (Proceeds.linked hphase).isReconnecting hs.coherent
    accounted := hs.accounted.aside (.silent rfl rfl rfl)
    liveTable := hs.liveTable.of_streamState rfl
    ascending := hs.ascending
    inflight := by
      have hempty : s₀.attach.inflight = .empty := hunlinked.inflight
      rw [hempty, Table.keys_empty]
    proceeded := ⟨[], .linked, s₀.attach, rfl, .linked hphase, .refl⟩
    restarted := by simp }

theorem Steady.linked_outcome {s₀ : Session} (hs : s₀.Steady) (hphase : s₀.phase = .dialing) :
    Outcome s₀ [.linked] (s₀.step .linked) := by
  have hstep : s₀.step .linked = s₀.attach.restore s₀.standing.restoreRequests := by
    simp only [Session.step, hphase]
  have hready := hs.ready hphase
  rw [hstep]
  exact hready.pass (restore_pass _ _ hready.liveTable)

namespace Awaiting

variable {s₀ s t : Session} {events later : List Event} {restoration : Restoration}

/-- What does not concern the call that is awaited. Fresh streams may be opened, and others
closed. -/
theorem beside (h : Awaiting s₀ events s restoration) (hlater : events <+: later)
    (hphase : t.phase = s.phase) (hrequests : t.requestState = s.requestState)
    (hlimit : t.payloadLimit = s.payloadLimit) (hnextHandle : s.nextHandle ≤ t.nextHandle)
    (hsaid : Emits (fun effect ↦ effect.IsQuiet ∧ ¬ effect.IsCut) s t)
    (hopen : ∀ handle subscription, t.subscriptions.get? handle = some subscription →
      s.subscriptions.get? handle = some subscription ∨ s.nextHandle ≤ handle) :
    Awaiting s₀ later t restoration := by
  have hold {handle : Nat} (hhandle : handle ∈ restoration.begun) {subscription : Subscription}
      (hget : t.subscriptions.get? handle = some subscription) :
      s.subscriptions.get? handle = some subscription := by
    refine (hopen handle subscription hget).resolve_right fun hfresh ↦ ?_
    exact Nat.lt_irrefl _ (Nat.lt_of_lt_of_le (h.below handle hhandle) hfresh)
  have hwritten : t.written = s.written := (hsaid.mono fun _ ↦ And.left).written
  have hreplies := replies_eq_of_requestState hrequests
  exact {
    payloadLimit := hlimit.trans h.payloadLimit
    uncut := h.uncut.trans (hsaid.mono fun _ ↦ And.right)
    frames := by
      obtain ⟨frames, lives, hframes, heq, hlives⟩ := h.frames
      refine ⟨frames, lives, hwritten.trans hframes, ?_, forall₂_restartOf_mono hlives hlater⟩
      rw [framed_congr hlimit, nextId_eq_of_requestState hrequests]
      exact heq
    inOrder := h.inOrder
    descending := h.descending
    below := fun handle hhandle ↦ Nat.lt_of_lt_of_le (h.below handle hhandle) hnextHandle
    ahead := by
      intro handle hhandle hnot earlier hearlier
      obtain ⟨subscription, hget⟩ := Table.exists_get?_of_mem_keys hhandle
      rcases hopen handle subscription hget with hopened | hfresh
      · exact h.ahead handle (Table.mem_keys_of_get? hopened) hnot earlier hearlier
      · exact Nat.lt_of_lt_of_le (h.below earlier hearlier) hfresh
    phase := hphase.trans h.phase
    begins := h.begins
    call := by
      obtain ⟨outgoing, frames, hframes, hmem, hinflight, hawaited, hcall⟩ := h.call
      refine ⟨outgoing, frames, hwritten.trans hframes, hmem, ?_, ?_, ?_⟩
      · rw [inflight_eq_of_requestState hrequests, hinflight]
      · rw [awaited, hreplies]
        exact hawaited
      · exact fun handle subscription hstream hget ↦
          hcall handle subscription hstream (hold (h.begins handle hstream) hget)
    restarted := fun handle hhandle hother subscription hget ↦
      (h.restarted handle hhandle hother subscription (hold hhandle hget)).mono hlater }

/-- The call that is awaited is the only one in flight, and it is answered. -/
theorem answered (h : Awaiting s₀ events s restoration) (hs : s.Steady) {n : UInt64}
    (hexpected : s.Expects n) (response : Response) :
    n.toNat ∈ s.inflight.keys ∧ (s.routeReply n.toNat response).inflight.keys = [] ∧
      (s.routeReply n.toNat response).nextId = s.nextId ∧
      (s.routeReply n.toNat response).written = s.written ∧
      Emits (fun effect ↦ ¬ effect.IsCut) s (s.routeReply n.toNat response) := by
  obtain ⟨outgoing, -, -, -, hinflight, -⟩ := h.call
  have hkey : n.toNat ∈ s.inflight.keys := hs.accounted.keys ▸ mem_keys_of_mem_awaited hexpected
  have hid : n.toNat = outgoing.id := by rwa [hinflight, List.mem_singleton] at hkey
  obtain ⟨-, origin, -, hrequests, houtbox⟩ :=
    (hs.accounted.routeReply_cases n.toNat response).resolve_left fun hunknown ↦ hunknown.1 hkey
  simp only [requestState, Prod.mk.injEq] at hrequests
  have hidle := Emits.routeReply s n.toNat response
  refine ⟨hkey, ?_, hrequests.2.2, (hidle.mono fun _ ↦ Effect.IsIdle.isQuiet).written, _, houtbox,
    by simp [Delivery.effect, Effect.IsCut]⟩
  rw [hrequests.2.1, Table.keys_erase, hinflight, hid]
  simp

/-- An answer to anything else answers nothing. -/
theorem unexpected (h : Awaiting s₀ events s restoration) {n : UInt64}
    (hunexpected : ¬ s.Expects n) (response : Response) : s.routeReply n.toNat response = s := by
  obtain ⟨outgoing, frames, -, -, hinflight, hawaited, -⟩ := h.call
  have hunknown : n.toNat ∉ s.inflight.keys := by
    rw [hinflight, List.mem_singleton]
    intro hid
    rw [Expects, hid] at hunexpected
    exact hunexpected hawaited
  rw [routeReply, Table.get?_eq_none_iff.mpr hunknown]

/-- The answer to the call that is awaited. -/
theorem conclude (h : Awaiting s₀ events s restoration) (hs : s.Steady)
    (hrun : s₀.run events = s) {frame : Octets} {n : UInt64} {response : Response}
    (hexpected : s.Expects n) (hread : read frame = .ok (.reply n response)) :
    Ready s₀ (events ++ [.frame frame])
      ((s.routeReply n.toNat response).conclude response restoration.awaited) restoration.left
      restoration.begun := by
  obtain ⟨hkey, hnone, hnextId, hwritten, huncut⟩ := h.answered hs hexpected response
  have hlater : events <+: events ++ [.frame frame] := List.prefix_append _ _
  have hrequests := RequestsOnly.routeReply s n.toNat response
  have hlinked : (s.routeReply n.toNat response).Linked := by
    obtain ⟨hlinked, -⟩ := hs.quiescent.linked_of_restoring h.phase
    refine ⟨?_, (routeReply_isBroken _ _ _).trans hlinked.isBroken,
      hrequests.closer.trans hlinked.closer⟩
    rw [hrequests.link]
    exact hlinked.link
  have hsubscriptions := hrequests.subscriptions
  have hstreams := hrequests.streamState
  have haccounted := hs.accounted.answer n.toNat response
  have hproceeds := Proceeds.restored h.phase hexpected hread
  have hreconnecting := hproceeds.isReconnecting hs.coherent
  have hlimit := hrequests.payloadLimit
  generalize s.routeReply n.toNat response = u at *
  have hconcludes := concludes u response restoration.awaited
  have hpassed := hconcludes.passed
  have hkeys := hconcludes.keys_sublist
  have hopened {handle : Nat} {subscription : Subscription}
      (hget : (u.conclude response restoration.awaited).subscriptions.get? handle =
        some subscription) := hconcludes.get?_of_get? hget
  rw [hsubscriptions] at hkeys hopened
  exact {
    payloadLimit := (hpassed.payloadLimit.trans hlimit).trans h.payloadLimit
    uncut := (h.uncut.trans huncut).trans (.of_eq hpassed.outbox)
    frames := by
      obtain ⟨frames, lives, hframes, heq, hlives⟩ := h.frames
      have hsame : (u.conclude response restoration.awaited).written = s.written :=
        (congrArg (List.filterMap Effect.outgoing?) hpassed.outbox).trans hwritten
      refine ⟨frames, lives, hsame.trans hframes, ?_, forall₂_restartOf_mono hlives hlater⟩
      rw [hconcludes.nextId, hnextId, framed_congr (hpassed.payloadLimit.trans hlimit)]
      exact heq
    inOrder := h.inOrder
    descending := h.descending
    below := by
      rw [hpassed.nextHandle, show u.nextHandle = s.nextHandle from congrArg (·.2.2.2.2) hstreams]
      exact h.below
    ahead := fun handle hhandle ↦ h.ahead handle (hkeys.subset hhandle)
    linked := hlinked.congr hpassed.controlState
    reconnecting := hreconnecting
    accounted := hconcludes.accounted haccounted
    liveTable := hconcludes.liveTable (hs.liveTable.of_streamState hstreams)
    ascending := hs.ascending.sublist hkeys
    inflight := hpassed.inflight ▸ hnone
    proceeded := ⟨events, .frame frame, _, rfl, hrun.symm ▸ hproceeds, .refl⟩
    restarted := by
      intro handle hhandle subscription hget
      obtain ⟨old, hold, hquery, hnew, hkept⟩ := hopened hget
      by_cases hawaited : restoration.awaited = .stream handle
      · obtain ⟨result, rfl, hid⟩ := hnew hawaited
        obtain ⟨outgoing, frames, hframes, hmem, hinflight, -, hcall⟩ := h.call
        obtain ⟨query, hknown, hrequest⟩ := hcall handle old hawaited hold
        rw [hinflight, List.mem_singleton] at hkey
        exact ⟨events, frame, n, result, query, frames, outgoing, List.prefix_refl _,
          hquery ▸ hknown, hrun.symm ▸ hframes, hmem, hrequest, hkey.symm, hrun.symm ▸ hexpected,
          hread, hid⟩
      · exact ((h.restarted handle hhandle hawaited old hold).congr hquery
          (hkept hawaited)).mono hlater }

theorem beside_passed (h : Awaiting s₀ events s restoration) (hlater : events <+: later)
    (hpassed : Passed s t) (hrequests : t.requestState = s.requestState)
    (hopen : ∀ handle subscription, t.subscriptions.get? handle = some subscription →
      s.subscriptions.get? handle = some subscription) : Awaiting s₀ later t restoration :=
  h.beside hlater (phase_eq_of_controlState hpassed.controlState) hrequests hpassed.payloadLimit
    (Nat.le_of_eq hpassed.nextHandle.symm) (.of_eq hpassed.outbox)
    fun handle subscription hget ↦ .inl (hopen handle subscription hget)

theorem tell (h : Awaiting s₀ events s restoration) (ticket : Ticket) (answer : Answer) :
    Awaiting s₀ events (s.tell ticket answer) restoration :=
  h.beside (List.prefix_refl _) rfl rfl rfl (Nat.le_refl _)
    (.push s ⟨by trivial, fun hcut ↦ hcut⟩) fun _ _ hget ↦ .inl hget

theorem obey (h : Awaiting s₀ events s restoration) (hlater : events <+: later) {command : Command}
    (hclose : ∀ ticket, command ≠ .close ticket) :
    Awaiting s₀ later (s.obey command) restoration := by
  have hlater := h.beside hlater rfl rfl rfl (Nat.le_refl _) (.of_eq rfl) fun _ _ hget ↦ .inl hget
  cases command with
  | request ticket request =>
    simp only [Session.obey, Session.request, h.phase]
    exact hlater.beside (List.prefix_refl _) h.phase.symm rfl rfl (Nat.le_refl _) (.of_eq rfl)
      fun _ _ hget ↦ .inl hget
  | subscribe ticket id query =>
    simp only [Session.obey, subscribe]
    split
    · have hregistered : Awaiting s₀ later (s.register id query).1 restoration := by
        refine hlater.beside (List.prefix_refl _) rfl rfl rfl (Nat.le_succ _) (.of_eq rfl)
          fun handle subscription hget ↦ ?_
        simp only [register, Table.get?_set] at hget
        split at hget
        · next hfresh => exact .inr (Nat.le_of_eq hfresh)
        · exact .inl hget
      exact hregistered.tell _ _
    · exact hlater.tell _ _
  | kill ticket handle =>
    refine (hlater.beside_passed (List.prefix_refl _) (.closeStream s .killed handle)
      (StreamsOnly.closeStream s .killed handle).requestState
      fun other subscription hget ↦ ?_).tell _ _
    rw [get?_closeStream] at hget
    split at hget
    · cases hget
    · exact hget
  | standing ticket => exact hlater.tell _ _
  | close ticket => exact absurd rfl (hclose ticket)

theorem notify (h : Awaiting s₀ events s restoration) (hlater : events <+: later)
    (message : LiveMessage) : Awaiting s₀ later (s.routeNotification message) restoration := by
  refine h.beside_passed hlater (.routeNotification s message)
    (StreamsOnly.routeNotification s message).requestState fun handle subscription hget ↦ ?_
  rcases routeNotification_subscriptions s message with hkept | ⟨closed, -, -, -, hclosed⟩
  · rwa [hkept] at hget
  · rw [hclosed, Table.get?_erase] at hget
    split at hget
    · cases hget
    · exact hget

/-- To end the session lets the link go. -/
theorem shutdown (h : Awaiting s₀ events s restoration) (hlater : events <+: later)
    (hlink : t.link ≠ .none) (houtbox : t.outbox = s.outbox) (reason : DisconnectReason) :
    Outcome s₀ later (t.shutdown reason) := by
  have hwritten : t.written = s.written := congrArg (List.filterMap Effect.outgoing?) houtbox
  obtain ⟨frames, lives, hframes, -⟩ := h.frames
  refine .of_hangUp (h.uncut.trans (.of_eq houtbox)) (hwritten.trans hframes)
    ((h.restores hframes).mono hlater) hlink (.shutdown_of_hangUp t reason) fun other hphase ↦ ?_
  rcases shutdown_isOver t reason with hover | hover <;> cases hphase.symm.trans hover

/-- What an event comes to while a call is awaited. -/
theorem outcome (h : Awaiting s₀ events s restoration) (hs : s.Steady) (hrun : s₀.run events = s)
    (event : Event) : Outcome s₀ (events ++ [event]) (s.step event) := by
  have hlater : events <+: events ++ [event] := List.prefix_append _ _
  have hphase := h.phase
  have hrecovering : s.IsRecovering := .inr (.inr ⟨restoration, hphase⟩)
  have hlink := (hs.quiescent.linked_of_restoring hphase).1.link
  have hturn := hs.turn event
  generalize s.step event = t at *
  cases hturn with
  | rest heq _ _ =>
    rw [heq]
    exact .awaits (h.beside hlater rfl rfl rfl (Nat.le_refl _) (.of_eq rfl)
      fun _ _ hget ↦ .inl hget)
  | obeyed hopen hclose hcall => exact .awaits (h.obey hlater hclose)
  | notified _ _ => exact .awaits (h.notify hlater _)
  | @answered frame n response hother _ =>
    rw [h.unexpected (hother.resolve_left hrecovering.not_isServing).2]
    exact .awaits (h.beside hlater rfl rfl rfl (Nat.le_refl _) (.of_eq rfl)
      fun _ _ hget ↦ .inl hget)
  | @restored frame n response other hother hexpected hread =>
    cases hphase.symm.trans hother
    exact (h.conclude hs hrun hexpected hread).pass
      (answered_pass s response hs.liveTable n.toNat restoration)
  | lostAgain _ =>
    obtain ⟨frames, lives, hframes, -⟩ := h.frames
    exact .of_loseAgain h.uncut hframes ((h.restores hframes).mono hlater) hlink
  | @ended event u heq _ _ reason =>
    have hkept : u.link = s.link ∧ u.outbox = s.outbox := by
      rw [heq]
      exact ⟨rfl, rfl⟩
    exact h.shutdown hlater (hkept.1 ▸ hlink) hkept.2 reason
  | started hother | opened hother | failed hother _ | dialed hother _ | refused hother _
  | linked hother | stopped _ hother _ => cases hphase.symm.trans hother
  | called hserving _ _ | pinged hserving _ | lost hserving =>
    exact absurd hserving hrecovering.not_isServing

end Awaiting

/-! ### Runs -/

/-- A session that serves again says so before anything else. -/
theorem resume_outbox {s : Session} (hstatus : s.status ≠ .connected) :
    ∃ rest, s.resume.outbox = s.outbox ++ .status .connected :: rest := by
  have hcall (t : Session) (call : Ticket × Request) :
      Emits (fun _ ↦ True) t (t.dispatchCall call.1 call.2) := by
    have hdispatched := dispatch_emits t (.caller call.1) call.2
    rcases dispatchCall_cases t call.1 call.2 with h | ⟨error, h⟩
    · rw [h]
      exact hdispatched
    · rw [h]
      exact hdispatched.trans (.push _ trivial)
  have hserved : Emits (fun _ ↦ True) (s.setStatus .connected) s.served :=
    (Emits.of_eq rfl).trans (.foldl hcall _ { s.setStatus .connected with deferred := [] })
  obtain ⟨backoff, tick, hresume⟩ := resume_eq s
  rw [hresume]
  generalize s.served = t at *
  have hresting : Emits (fun _ ↦ True) t { t with backoff := backoff, phase := .serving tick } :=
    .of_eq rfl
  obtain ⟨rest, houtbox, -⟩ := (hserved.trans hresting).trans
    ((attend_quiet _).mono fun _ _ ↦ trivial)
  have hsaid : (s.setStatus .connected).outbox = s.outbox ++ [.status .connected] := by
    unfold setStatus
    rw [if_neg hstatus]
    rfl
  exact ⟨rest, by rw [houtbox, hsaid, List.append_assoc, List.singleton_append]⟩

/-- The restoration of the link that was open in `s₀` is over: the link was let go, or the session
serves again, and then the whole standing was restored. Until then, all that was written restores
the link. -/
def RestoredInOrder (s₀ : Session) (events : List Event) (s : Session) : Prop :=
  ∃ during after, s.outbox = s₀.outbox ++ during ++ after ∧
    (∀ effect ∈ during, ¬ effect.IsCut) ∧ Restores s₀ events (during.filterMap Effect.outgoing?) ∧
    ((∃ rest, after = .hangUp :: rest) ∨ ∃ rest, after = .status .connected :: rest ∧
      RestoresStanding s₀ events (during.filterMap Effect.outgoing?))

section RestoredInOrder

variable {s₀ s t : Session} {events later : List Event}

theorem filterMap_outgoing?_eq {frames : List Outgoing} {during : List Effect}
    (houtbox : s.outbox = s₀.outbox ++ during) (hframes : s.written = s₀.written ++ frames) :
    during.filterMap Effect.outgoing? = frames := by
  rw [written, houtbox, List.filterMap_append] at hframes
  exact List.append_cancel_left hframes

theorem Outcome.awaits_or_restored (h : Outcome s₀ events t) :
    (∃ restoration, Awaiting s₀ events t restoration) ∨ RestoredInOrder s₀ events t := by
  cases h with
  | awaits h => exact .inl ⟨_, h⟩
  | @gone u _ frames rest huncut hframes hrestores hgone _ _ =>
    obtain ⟨during, houtbox, hduring⟩ := huncut
    have hsame := filterMap_outgoing?_eq houtbox hframes
    exact .inr ⟨during, _, by rw [hgone, houtbox], hduring, hsame.symm ▸ hrestores,
      .inl ⟨rest, rfl⟩⟩
  | @resumes u begun h _ =>
    obtain ⟨during, houtbox, hduring⟩ := h.uncut
    obtain ⟨frames, lives, hframes, -⟩ := h.frames
    have hsame := filterMap_outgoing?_eq houtbox hframes
    obtain ⟨rest, hresume⟩ := resume_outbox (s := u) (by simp [h.reconnecting.status])
    exact .inr ⟨during, _, by rw [hresume, houtbox], hduring, hsame.symm ▸ h.restores hframes,
      .inr ⟨rest, rfl, hsame.symm ▸ h.restoresStanding hframes⟩⟩

theorem RestoredInOrder.mono (h : RestoredInOrder s₀ events s) (hlater : events <+: later)
    (hsaid : Emits (fun _ ↦ True) s t) : RestoredInOrder s₀ later t := by
  obtain ⟨during, after, houtbox, hduring, hrestores, hafter⟩ := h
  obtain ⟨more, hmore, -⟩ := hsaid
  refine ⟨during, after ++ more, by rw [hmore, houtbox, List.append_assoc], hduring,
    hrestores.mono hlater, ?_⟩
  rcases hafter with ⟨rest, rfl⟩ | ⟨rest, rfl, hall⟩
  · exact .inl ⟨rest ++ more, rfl⟩
  · exact .inr ⟨rest ++ more, rfl, hall.mono hlater⟩

end RestoredInOrder

/-- After all that follows the opening of a fresh link, either a call of the session is awaited over
it, or its restoration is over. -/
theorem restored_run {s₀ : Session} (hs : s₀.Steady) (hphase : s₀.phase = .dialing)
    (events : List Event) :
    (∃ restoration, Awaiting s₀ (.linked :: events) (s₀.run (.linked :: events)) restoration) ∨
      RestoredInOrder s₀ (.linked :: events) (s₀.run (.linked :: events)) := by
  induction events using List.reverseRecOn with
  | nil => exact (hs.linked_outcome hphase).awaits_or_restored
  | append_singleton events event ih =>
    have hsteady := hs.run (.linked :: events)
    have hrun := run_concat s₀ (.linked :: events) event
    rw [List.cons_append] at hrun
    rw [hrun]
    rcases ih with ⟨restoration, h⟩ | h
    · exact (h.outcome hsteady rfl event).awaits_or_restored
    · exact .inr (h.mono (List.prefix_append (.linked :: events) [event])
        (step_emits hsteady.quiescent event))

end Session

end Wireline

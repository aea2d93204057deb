import Wireline.Proofs.Session.Coherence

/-!
# Closing events

A stream gets its closing event when it stops to be open, and no other. `Sheds` says so of all that
lies between two states, together with a reason for each stream that is closed. It holds of what a
session does with its streams, of the loss of a link and of the end, and what holds of two parts
holds of both together (`Sheds.trans`).
-/

set_option autoImplicit false
set_option relaxedAutoImplicit false

namespace Wireline

namespace Session

/-! ### Closing events -/

/-- The reason that a closing event gives. -/
def reason? : LiveEvent → Option CloseReason
  | .closed reason => some reason
  | .message _ => none

/-- The reasons of the closing events that a stream was given. -/
def closings (s : Session) (handle : Nat) : List CloseReason :=
  ((s.streams.get? handle).map fun stream ↦ stream.events.filterMap reason?).getD []

theorem closings_congr {s t : Session} (h : t.streams = s.streams) (handle : Nat) :
    t.closings handle = s.closings handle := by
  rw [closings, h, closings]

/-- A stream that is changed without a closing event. -/
theorem closings_modify {s t : Session} {bound : Nat} {change : LiveStream → LiveStream}
    (h : t.streams = s.streams.modify bound change)
    (hchange : ∀ stream, (change stream).events.filterMap reason? =
      stream.events.filterMap reason?) (handle : Nat) :
    t.closings handle = s.closings handle := by
  rw [closings, closings, h, Table.get?_modify]
  split
  · next hsame =>
    subst hsame
    cases s.streams.get? bound with
    | none => rfl
    | some stream => exact hchange stream
  · rfl

theorem closings_deliverTo (message : LiveMessage) (s : Session) (bound handle : Nat) :
    (deliverTo message s bound).closings handle = s.closings handle := by
  refine closings_modify rfl (fun stream ↦ ?_) handle
  rw [LiveStream.push, List.filterMap_append]
  exact List.append_nil _

theorem closings_closeStream {s : Session} (hs : s.LiveTable) {closed : Nat}
    (hclosed : closed ∈ s.subscriptions.keys) (reason : CloseReason) (handle : Nat) :
    (s.closeStream reason closed).closings handle =
      s.closings handle ++ if closed = handle then [reason] else [] := by
  obtain ⟨stream, hstream, -⟩ := hs.alive closed hclosed
  rw [closings, closings, closeStream_streams hclosed, Table.get?_modify]
  split
  · next hsame =>
    subst hsame
    simp [hstream, LiveStream.close, reason?]
  · rw [List.append_nil]

/-! ### What is closed between two states -/

/-- Every stream that was open before and is not any more has got one closing event, for a reason;
no other stream has got any. -/
structure Sheds (why : Nat → CloseReason → Prop) (s t : Session) : Prop where
  nextHandle : s.nextHandle ≤ t.nextHandle
  closed : ∀ handle ∈ s.subscriptions.keys, handle ∉ t.subscriptions.keys →
    ∃ reason, why handle reason ∧ t.closings handle = s.closings handle ++ [reason]
  kept : ∀ handle subscription, t.subscriptions.get? handle = some subscription →
    handle < s.nextHandle → t.closings handle = s.closings handle ∧
      ∃ old, s.subscriptions.get? handle = some old ∧ old.query = subscription.query
  opened : ∀ handle ∈ t.subscriptions.keys, s.nextHandle ≤ handle → t.closings handle = []
  unlisted : ∀ handle < s.nextHandle, handle ∉ s.subscriptions.keys →
    t.closings handle = s.closings handle

namespace Sheds

variable {why : Nat → CloseReason → Prop} {s t u : Session}

theorem mem_keys (h : Sheds why s t) {handle : Nat} (hmem : handle ∈ t.subscriptions.keys)
    (hold : handle < s.nextHandle) : handle ∈ s.subscriptions.keys := by
  obtain ⟨subscription, hget⟩ := Table.exists_get?_of_mem_keys hmem
  obtain ⟨-, old, hopen, -⟩ := h.kept handle subscription hget hold
  exact Table.mem_keys_of_get? hopen

theorem mono {why' : Nat → CloseReason → Prop} (h : Sheds why s t)
    (hwhy : ∀ handle reason, why handle reason → why' handle reason) : Sheds why' s t :=
  { h with
    closed := fun handle hopen hclosed ↦ by
      obtain ⟨reason, hreason, hclosings⟩ := h.closed handle hopen hclosed
      exact ⟨reason, hwhy handle reason hreason, hclosings⟩ }

/-- Assumes: the handles of open streams were given out. -/
theorem trans (hs : s.LiveTable) (hst : Sheds why s t) (htu : Sheds why t u) : Sheds why s u where
  nextHandle := Nat.le_trans hst.nextHandle htu.nextHandle
  closed := by
    intro handle hopen hclosed
    have hold := hs.below handle hopen
    have hold' := Nat.lt_of_lt_of_le hold hst.nextHandle
    by_cases hmid : handle ∈ t.subscriptions.keys
    · obtain ⟨reason, hreason, hclosings⟩ := htu.closed handle hmid hclosed
      obtain ⟨subscription, hget⟩ := Table.exists_get?_of_mem_keys hmid
      exact ⟨reason, hreason, by rw [hclosings, (hst.kept handle subscription hget hold).1]⟩
    · obtain ⟨reason, hreason, hclosings⟩ := hst.closed handle hopen hmid
      exact ⟨reason, hreason, (htu.unlisted handle hold' hmid).trans hclosings⟩
  kept := by
    intro handle subscription hget hold
    have hold' := Nat.lt_of_lt_of_le hold hst.nextHandle
    obtain ⟨hclosings, middle, hmiddle, hquery⟩ := htu.kept handle subscription hget hold'
    obtain ⟨hclosings', old, hopen, hquery'⟩ := hst.kept handle middle hmiddle hold
    exact ⟨hclosings.trans hclosings', old, hopen, hquery'.trans hquery⟩
  opened := by
    intro handle hopen hnew
    by_cases hold : handle < t.nextHandle
    · obtain ⟨subscription, hget⟩ := Table.exists_get?_of_mem_keys hopen
      rw [(htu.kept handle subscription hget hold).1]
      exact hst.opened handle (htu.mem_keys hopen hold) hnew
    · exact htu.opened handle hopen (Nat.le_of_not_lt hold)
  unlisted := by
    intro handle hold hclosed
    have hold' := Nat.lt_of_lt_of_le hold hst.nextHandle
    have hclosed' : handle ∉ t.subscriptions.keys := fun hmem ↦ hclosed (hst.mem_keys hmem hold)
    exact (htu.unlisted handle hold' hclosed').trans (hst.unlisted handle hold hclosed)

/-- Nothing is closed, and no stream is given a closing event. -/
theorem of_same (hs : s.LiveTable) (hnextHandle : t.nextHandle = s.nextHandle)
    (hkeys : t.subscriptions.keys = s.subscriptions.keys) (hopen : OpenBefore s t)
    (hclosings : ∀ handle, t.closings handle = s.closings handle) : Sheds why s t where
  nextHandle := Nat.le_of_eq hnextHandle.symm
  closed := fun _ hopen hclosed ↦ absurd (hkeys ▸ hopen) hclosed
  kept := fun handle subscription hget _ ↦ ⟨hclosings handle, hopen handle subscription hget⟩
  opened := fun _ hmem hnew ↦
    absurd (hs.below _ (hkeys ▸ hmem)) (Nat.not_lt.mpr hnew)
  unlisted := fun handle _ _ ↦ hclosings handle

theorem of_streamState (hs : s.LiveTable) (h : t.streamState = s.streamState) : Sheds why s t := by
  simp only [streamState, Prod.mk.injEq] at h
  obtain ⟨-, hsubscriptions, hstreams, -, hnextHandle⟩ := h
  exact of_same hs hnextHandle (by rw [hsubscriptions]) (.of_eq hsubscriptions)
    (closings_congr hstreams)

theorem closeStream (hs : s.LiveTable) {reason : CloseReason} {closed : Nat}
    (hwhy : closed ∈ s.subscriptions.keys → why closed reason) :
    Sheds why s (s.closeStream reason closed) := by
  by_cases hopen : closed ∈ s.subscriptions.keys
  · constructor
    · exact Nat.le_of_eq (closeStream_nextHandle s reason closed).symm
    · intro handle hmem hclosed
      rw [closeStream_subscriptions, Table.keys_erase, List.mem_filter] at hclosed
      have hsame : closed = handle := by
        refine Classical.byContradiction fun hne ↦ hclosed ⟨hmem, ?_⟩
        simpa using Ne.symm hne
      subst hsame
      exact ⟨reason, hwhy hmem, by rw [closings_closeStream hs hopen, if_pos rfl]⟩
    · intro handle subscription hget _
      rw [get?_closeStream] at hget
      split at hget
      · cases hget
      · next hne =>
        refine ⟨?_, subscription, hget, rfl⟩
        rw [closings_closeStream hs hopen, if_neg hne, List.append_nil]
    · intro handle hmem hnew
      exact absurd (hs.below handle ((keys_closeStream_sublist s reason closed).subset hmem))
        (Nat.not_lt.mpr hnew)
    · intro handle _ hclosed
      have hne : closed ≠ handle := fun hsame ↦ hclosed (hsame ▸ hopen)
      rw [closings_closeStream hs hopen, if_neg hne, List.append_nil]
  · rw [closeStream_of_notMem hopen]
    exact of_streamState hs rfl

theorem rebind (hs : s.LiveTable) (bound : Nat) (id : Uuid) : Sheds why s (s.rebind bound id) := by
  refine of_same hs (Passed.rebind s bound id).nextHandle (keys_rebind s bound id) ?_ ?_
  · intro handle subscription hget
    obtain ⟨old, hold, hquery, -⟩ := get?_of_rebind hget
    exact ⟨old, hold, hquery⟩
  · intro handle
    have hhistory (t : Session) (messages : List LiveMessage) :
        (messages.foldl (fun t message ↦ deliverTo message t bound) t).closings handle =
          t.closings handle := by
      refine foldl_keeps (closings · handle) (fun t message ↦ ?_) _ _
      exact closings_deliverTo message t bound handle
    have hid (stream : LiveStream) : { stream with id }.events.filterMap reason? =
        stream.events.filterMap reason? := rfl
    simp only [Session.rebind]
    split
    · rfl
    · split
      · rw [hhistory]
        exact closings_modify (by rfl) hid handle
      · rw [closings_congr (retire_streams _ _), hhistory]
        exact closings_modify (by rfl) hid handle

theorem register (hs : s.LiveTable) (id : Uuid) (query : Option LiveQuery) :
    Sheds why s (s.register id query).1 := by
  have hclosings (handle : Nat) : (s.register id query).1.closings handle =
      if s.nextHandle = handle then [] else s.closings handle := by
    simp only [closings, Session.register, Table.get?_set]
    split
    · simp [List.filterMap_map, Function.comp_def, reason?]
    · rfl
  constructor
  · exact Nat.le_succ _
  · intro handle hmem hclosed
    refine absurd ?_ hclosed
    simp only [Session.register, Table.keys_set]
    split
    · exact hmem
    · exact List.mem_append_left _ hmem
  · intro handle subscription hget hold
    have hne : s.nextHandle ≠ handle := fun hsame ↦ Nat.lt_irrefl _ (hsame ▸ hold)
    simp only [Session.register, Table.get?_set, if_neg hne] at hget
    exact ⟨by rw [hclosings, if_neg hne], subscription, hget, rfl⟩
  · intro handle hmem hnew
    rw [hclosings]
    split
    · rfl
    · next hne =>
      obtain ⟨subscription, hget⟩ := Table.exists_get?_of_mem_keys hmem
      simp only [Session.register, Table.get?_set, if_neg hne] at hget
      exact absurd (hs.below handle (Table.mem_keys_of_get? hget)) (Nat.not_lt.mpr hnew)
  · intro handle hold _
    rw [hclosings, if_neg fun hsame ↦ Nat.lt_irrefl _ (hsame ▸ hold)]

theorem routeNotification (hs : s.LiveTable) {message : LiveMessage}
    (hwhy : ∀ handle, message.action = .killed → message.id ∉ s.retired →
      s.handleFor? message.id = some handle → why handle .killed) :
    Sheds why s (s.routeNotification message) := by
  have hclosings (handle : Nat) : (s.announce message).closings handle = s.closings handle :=
    foldl_keeps (closings · handle) (fun t bound ↦ closings_deliverTo message t bound handle) _ _
  have hsubscriptions := announce_subscriptions s message
  have hannounced : Sheds why s (s.announce message) :=
    of_same hs (by rw [(EventsOnly.announce s message).1]) (by rw [hsubscriptions])
      (.of_eq hsubscriptions) hclosings
  rcases routeNotification_cases s message with h | ⟨-, -, h⟩ | ⟨hretired, hkilled, h⟩
  · rw [h]
    exact of_streamState hs rfl
  · rw [h]
    exact hannounced
  · rw [h]
    refine hannounced.trans hs ?_
    rw [endQuery, handleFor?_announce]
    cases hhandle : s.handleFor? message.id with
    | none => exact of_same (hs.announce message) rfl rfl (.of_eq rfl) fun _ ↦ rfl
    | some handle =>
      exact closeStream (hs.announce message) fun _ ↦ hwhy handle hkilled hretired hhandle

theorem closeStreams (hs : s.LiveTable) {reason : CloseReason} {test : Subscription → Bool}
    (hwhy : ∀ handle subscription, s.subscriptions.get? handle = some subscription →
      test subscription = true → why handle reason) :
    Sheds why s (s.closeStreams reason test) := by
  have hfold (handles : List Nat) : ∀ t : Session, t.LiveTable →
      (∀ handle ∈ handles, why handle reason) →
        Sheds why t (handles.foldl (fun t handle ↦ t.closeStream reason handle) t) := by
    induction handles with
    | nil => exact fun t ht _ ↦ of_streamState ht rfl
    | cons first rest ih =>
      intro t ht hall
      have hfirst : Sheds why t (t.closeStream reason first) :=
        closeStream ht fun _ ↦ hall first List.mem_cons_self
      exact hfirst.trans ht (ih _ (ht.closeStream reason first) fun handle hhandle ↦
        hall handle (List.mem_cons_of_mem _ hhandle))
  refine hfold _ s hs fun handle hhandle ↦ ?_
  obtain ⟨⟨same, subscription⟩, hentry, rfl⟩ := List.mem_map.mp hhandle
  rw [List.mem_filter] at hentry
  exact hwhy same subscription ((Table.get?_eq_some_iff hs.nodup).mpr hentry.1) hentry.2

/-- What is closed from one state on does not depend on more than its streams. -/
theorem congr_left (h : t.streamState = s.streamState) (ht : Sheds why t u) : Sheds why s u := by
  simp only [streamState, Prod.mk.injEq] at h
  obtain ⟨-, hsubscriptions, hstreams, -, hnextHandle⟩ := h
  have hclosings := closings_congr hstreams
  constructor
  · exact hnextHandle ▸ ht.nextHandle
  · simpa only [hsubscriptions, hclosings] using ht.closed
  · simpa only [hsubscriptions, hclosings, hnextHandle] using ht.kept
  · simpa only [hnextHandle] using ht.opened
  · simpa only [hsubscriptions, hclosings, hnextHandle] using ht.unlisted

theorem congr_right (h : u.streamState = t.streamState) (ht : Sheds why s t) : Sheds why s u := by
  simp only [streamState, Prod.mk.injEq] at h
  obtain ⟨-, hsubscriptions, hstreams, -, hnextHandle⟩ := h
  have hclosings := closings_congr hstreams
  constructor
  · exact hnextHandle ▸ ht.nextHandle
  · simpa only [hsubscriptions, hclosings] using ht.closed
  · simpa only [hsubscriptions, hclosings] using ht.kept
  · simpa only [hsubscriptions, hclosings] using ht.opened
  · simpa only [hclosings] using ht.unlisted

end Sheds

/-! ### The end and the loss of a link -/

section Recovery

variable {why : Nat → CloseReason → Prop} {s : Session}

theorem shutdown_sheds (hs : s.LiveTable) (reason : DisconnectReason)
    (hwhy : ∀ handle, why handle .disconnected) : Sheds why s (s.shutdown reason) := by
  have hrefused : ((s.hangUp.replyToAll (.failed (.disconnected reason))).refuseDeferred
      (.disconnected reason)).streamState = s.streamState :=
    ((Aside.refuseDeferred _ _).streamState.trans (RequestsOnly.replyToAll _ _).streamState).trans
      (Aside.hangUp s).streamState
  have hclosed : Sheds why ((s.hangUp.replyToAll (.failed (.disconnected reason))).refuseDeferred
      (.disconnected reason)) (s.ended reason) :=
    .closeStreams (hs.of_streamState hrefused) fun handle _ _ _ ↦ hwhy handle
  exact (hclosed.congr_left hrefused).congr_right (ended_aside_shutdown s reason).streamState

theorem retryLater_sheds (hs : s.LiveTable)
    (hover : s.retryLater.IsOver → ∀ handle, why handle .disconnected) :
    Sheds why s s.retryLater := by
  unfold retryLater at hover ⊢
  split
  · exact .of_streamState hs rfl
  · next backoff error hattempt =>
    simp only [hattempt] at hover
    have hbackoff : LiveTable { s with backoff } := hs.of_streamState rfl
    have hended := shutdown_sheds hbackoff .reconnectExhausted (hover (shutdown_isOver _ _))
    exact Sheds.congr_left (t := { s with backoff }) rfl hended

theorem loseAgain_sheds (hs : s.LiveTable)
    (hover : s.loseAgain.IsOver → ∀ handle, why handle .disconnected) :
    Sheds why s s.loseAgain := by
  have hgiven : (s.hangUp.replyToAll .retry).streamState = s.streamState :=
    (RequestsOnly.replyToAll _ _).streamState.trans (Aside.hangUp s).streamState
  exact (retryLater_sheds (hs.of_streamState hgiven) hover).congr_left hgiven

/-- A session that retries later says that it reconnects, unless it is over. -/
theorem retryLater_cases (s : Session) :
    s.retryLater.IsOver ∨ s.retryLater.status = s.status := by
  unfold retryLater
  split
  · exact .inr rfl
  · exact .inl (shutdown_isOver _ _)

theorem attend_cases (s : Session) :
    s.attend = s ∨ s.attend.IsOver ∨ s.attend.status = .reconnecting := by
  unfold attend
  split
  · exact .inr (.inl (shutdown_isOver s .closed))
  split
  · unfold lose
    split
    · refine .inr ?_
      have hgiven := RequestsOnly.replyToAll (s.hangUp.setStatus .reconnecting) .retry
      have hclosed := StreamsOnly.closeStreams
        ((s.hangUp.setStatus .reconnecting).replyToAll .retry) .disconnected
        fun subscription ↦ subscription.query.isNone
      exact (retryLater_cases _).imp_right fun hsame ↦
        hsame.trans (hclosed.status.trans (hgiven.status.trans (setStatus_status _ _)))
    · exact .inr (.inl (shutdown_isOver s .transportLost))
  · exact .inl rfl

theorem lose_sheds (hs : s.LiveTable)
    (hunmanaged : s.lose.status = .reconnecting → ∀ handle subscription,
      s.subscriptions.get? handle = some subscription → subscription.query = none →
      why handle .disconnected)
    (hover : s.lose.IsOver → ∀ handle, why handle .disconnected) : Sheds why s s.lose := by
  unfold lose at hunmanaged hover ⊢
  split
  · next henabled =>
    simp only [if_pos henabled] at hunmanaged hover
    have hgiven : ((s.hangUp.setStatus .reconnecting).replyToAll .retry).streamState =
        s.streamState :=
      ((RequestsOnly.replyToAll _ _).streamState.trans (Aside.setStatus _ _).streamState).trans
        (Aside.hangUp s).streamState
    have hstatus : ((s.hangUp.setStatus .reconnecting).replyToAll .retry).status =
        .reconnecting :=
      (RequestsOnly.replyToAll _ _).status.trans (setStatus_status _ _)
    have hlive := hs.of_streamState hgiven
    generalize (s.hangUp.setStatus .reconnecting).replyToAll .retry = t at *
    have hsubscriptions : t.subscriptions = s.subscriptions := congrArg (·.2.1) hgiven
    have hclosing := StreamsOnly.closeStreams t .disconnected fun stream ↦ stream.query.isNone
    refine Sheds.congr_left hgiven (Sheds.trans hlive (.closeStreams hlive ?_)
      (retryLater_sheds (hlive.closeStreams _ _) hover))
    · intro handle subscription hget hquery
      rcases retryLater_cases (t.closeStreams .disconnected fun stream ↦ stream.query.isNone) with
        hend | hsame
      · exact hover hend handle
      · refine hunmanaged ?_ handle subscription (hsubscriptions ▸ hget)
          (Option.isNone_iff_eq_none.mp hquery)
        rw [hsame, hclosing.status, hstatus]
  · exact shutdown_sheds hs _ (hover (by simp [*, shutdown_isOver]))

theorem attend_sheds (hs : s.LiveTable)
    (hunmanaged : s.attend.status = .reconnecting → ∀ handle subscription,
      s.subscriptions.get? handle = some subscription → subscription.query = none →
      why handle .disconnected)
    (hover : s.attend.IsOver → ∀ handle, why handle .disconnected) : Sheds why s s.attend := by
  unfold attend at hunmanaged hover ⊢
  split
  · exact shutdown_sheds hs _ (hover (by simp [*, shutdown_isOver]))
  · next hcloser =>
    simp only [if_neg hcloser] at hunmanaged hover
    split
    · next hbroken =>
      simp only [if_pos hbroken] at hunmanaged hover
      exact lose_sheds hs hunmanaged hover
    · exact .of_streamState hs rfl

end Recovery

end Session

end Wireline

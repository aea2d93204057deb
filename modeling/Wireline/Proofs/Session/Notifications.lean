import Wireline.Proofs.Session.LiveTable
import Wireline.Proofs.Session.Replies

/-!
# Who gets a notification

A notification for an open stream reaches all open streams of its query and nobody else, provided
that the query is not retired (`routeNotification_delivers`). The id of an open stream is retired
only if its query was started again under an id that had been given up before (`Revives`): a fresh
stream takes its id out of the retired ones, but a stream that is led to a new id does not.
`barred_step_iff` says so for a single step, and `notification_delivery` for whole runs.
-/

set_option autoImplicit false
set_option relaxedAutoImplicit false

namespace Wireline

namespace Session

/-! ### Delivery -/

/-- A notification was added to each open stream of its query, once, and nothing else has changed.
-/
structure Delivered (s : Session) (message : LiveMessage) (t : Session) : Prop where
  streamsOnly : t = { s with streams := t.streams }
  streams : ∀ handle, t.streams.get? handle =
    if handle ∈ s.listening message.id then (s.streams.get? handle).map (·.push message)
    else s.streams.get? handle
  alive : ∀ handle ∈ s.listening message.id, ∃ stream,
    s.streams.get? handle = some stream ∧ stream.isAlive = true

theorem get?_foldl_deliverTo (message : LiveMessage) (handles : List Nat) :
    ∀ s : Session, handles.Nodup → ∀ handle,
      (handles.foldl (deliverTo message) s).streams.get? handle =
        if handle ∈ handles then (s.streams.get? handle).map (·.push message)
        else s.streams.get? handle := by
  induction handles with
  | nil => simp
  | cons first rest ih =>
    intro s hnodup handle
    rw [List.nodup_cons] at hnodup
    rw [List.foldl_cons, ih _ hnodup.2]
    simp only [deliverTo, Table.get?_modify, List.mem_cons]
    by_cases hfirst : first = handle
    · subst hfirst
      simp [hnodup.1]
    · simp [hfirst, Ne.symm hfirst]

/-! ### The streams of a query -/

section Listening

variable {s : Session} {id : Uuid}

theorem handleFor?_eq_none_iff : s.handleFor? id = none ↔ s.listening id = [] := by
  rw [handleFor?, List.getElem?_eq_none_iff, ← List.length_eq_zero_iff]
  refine ⟨fun hpast ↦ ?_, fun hnobody ↦ ?_⟩
  · rcases Nat.eq_zero_or_pos (s.listening id).length with hnobody | hsome
    · exact hnobody
    · exact absurd (Nat.mod_lt s.circumstances.pick hsome) (Nat.not_lt.mpr hpast)
  · rw [hnobody]
    exact Nat.zero_le _

theorem isSome_handleFor?_iff : (s.handleFor? id).isSome ↔ s.listening id ≠ [] := by
  rw [Option.isSome_iff_ne_none, ne_eq, handleFor?_eq_none_iff]

theorem mem_listening_of_handleFor? {handle : Nat} (h : s.handleFor? id = some handle) :
    handle ∈ s.listening id :=
  List.mem_of_getElem? h

/-- Of one stream it does not matter which is picked. -/
theorem handleFor?_eq_some {handle : Nat} (h : s.listening id = [handle]) :
    s.handleFor? id = some handle := by
  rw [handleFor?, h, List.length_singleton, Nat.mod_one]
  rfl

/-- An id is retired unless an open stream has it. -/
theorem retired_retire (s : Session) (id : Uuid) : (s.retire id).retired =
    if s.listening id = [] then s.retired.insert id else s.retired := by
  unfold retire
  by_cases hnobody : s.listening id = []
  · rw [if_pos hnobody, if_neg (mt isSome_handleFor?_iff.mp (not_not_intro hnobody))]
  · rw [if_neg hnobody, if_pos (isSome_handleFor?_iff.mpr hnobody)]

theorem mem_keys_of_mem_listening {handle : Nat} (h : handle ∈ s.listening id) :
    handle ∈ s.subscriptions.keys :=
  (List.filter_sublist.map Prod.fst).subset h

theorem LiveTable.mem_listening_iff (h : LiveTable s) {handle : Nat} :
    handle ∈ s.listening id ↔ ∃ subscription,
      s.subscriptions.get? handle = some subscription ∧ subscription.id = id := by
  simp only [listening, List.mem_map, List.mem_filter, decide_eq_true_eq]
  constructor
  · rintro ⟨⟨other, subscription⟩, ⟨hentry, hid⟩, rfl⟩
    exact ⟨subscription, (Table.get?_eq_some_iff h.nodup).mpr hentry, hid⟩
  · rintro ⟨subscription, hget, hid⟩
    exact ⟨(handle, subscription), ⟨Table.mem_entries_of_get? hget, hid⟩, rfl⟩

theorem LiveTable.nodup_listening (h : LiveTable s) (id : Uuid) : (s.listening id).Nodup :=
  h.nodup.sublist (List.filter_sublist.map Prod.fst)

theorem LiveTable.listening_closeStream (h : LiveTable s) (reason : CloseReason) (handle : Nat) :
    (s.closeStream reason handle).listening id = (s.listening id).erase handle := by
  rw [(h.nodup_listening id).erase_eq_filter, listening, closeStream_subscriptions, Table.erase,
    listening, List.filter_map, List.filter_filter, List.filter_filter]
  congr 1
  refine List.filter_congr fun entry _ ↦ ?_
  simp [bne, beq_eq_decide, Bool.and_comm]

/-- A query is retired once its last stream is closed. -/
theorem LiveTable.mem_retired_closeStream (h : LiveTable s) {handle : Nat}
    (hopen : handle ∈ s.listening id) (reason : CloseReason) :
    id ∈ (s.closeStream reason handle).retired ↔
      id ∈ s.retired ∨ (s.listening id).erase handle = [] := by
  obtain ⟨subscription, hget, rfl⟩ := h.mem_listening_iff.mp hopen
  have hleft : (s.unlisted handle subscription).listening subscription.id =
      (s.listening subscription.id).erase handle := by
    rw [← h.listening_closeStream reason handle, listening, listening, closeStream_eq hget,
      retire_subscriptions]
  have hclosed : (s.closeStream reason handle).retired =
      ((s.unlisted handle subscription).retire subscription.id).retired := by
    rw [closeStream_eq hget]
  rw [hclosed, ← hleft, retired_retire]
  by_cases hnobody : (s.unlisted handle subscription).listening subscription.id = []
  · rw [if_pos hnobody]
    exact iff_of_true List.mem_insert_self (.inr hnobody)
  · rw [if_neg hnobody]
    exact (or_iff_left hnobody).symm

end Listening

/-! ### Who is told -/

section LiveTable

variable {s : Session}

/-- The listeners under an id lead to the open streams of that query, each once. -/
theorem LiveTable.mem_sinks_iff (h : LiveTable s) {id : Uuid} {handle : Nat} :
    handle ∈ (s.live.listenersOf id).map Listener.sink ↔ handle ∈ s.listening id := by
  rw [h.mem_listening_iff, List.mem_map]
  constructor
  · rintro ⟨listener, hlistener, rfl⟩
    obtain ⟨other, subscription, hget, hid, rfl⟩ := (h.listens.mem_iff id listener).mp hlistener
    exact ⟨subscription, hget, hid⟩
  · rintro ⟨subscription, hget, hid⟩
    exact ⟨_, (h.listens.mem_iff id _).mpr ⟨handle, subscription, hget, hid, rfl⟩, rfl⟩

theorem LiveTable.sinks_nodup (h : LiveTable s) (id : Uuid) :
    ((s.live.listenersOf id).map Listener.sink).Nodup := by
  refine List.Nodup.map_on ?_ (h.listens.distinct id).of_map
  intro listener hlistener other hother hsink
  obtain ⟨handle, subscription, hget, -, rfl⟩ := (h.listens.mem_iff id listener).mp hlistener
  obtain ⟨handle', subscription', hget', -, rfl⟩ := (h.listens.mem_iff id other).mp hother
  have hsame : handle = handle' := hsink
  subst hsame
  rw [hget] at hget'
  cases hget'
  rfl

theorem routeNotification_of_retired {message : LiveMessage} (hretired : message.id ∈ s.retired) :
    s.routeNotification message = s := by
  simp only [routeNotification, if_pos hretired]

theorem LiveTable.hasListeners (h : LiveTable s) {id : Uuid} (hopen : s.listening id ≠ []) :
    s.live.hasListeners id = true := by
  rw [Emitter.hasListeners, Bool.not_eq_true', List.isEmpty_eq_false_iff]
  obtain ⟨handle, hhandle⟩ := List.exists_mem_of_ne_nil _ hopen
  obtain ⟨listener, hlistener, -⟩ := List.mem_map.mp (h.mem_sinks_iff.mpr hhandle)
  exact List.ne_nil_of_mem hlistener

theorem LiveTable.listenersOf_eq_nil (h : LiveTable s) {id : Uuid}
    (hunheard : s.listening id = []) : s.live.listenersOf id = [] := by
  have hsinks : (s.live.listenersOf id).map Listener.sink = [] := by
    refine List.eq_nil_iff_forall_not_mem.mpr fun handle hhandle ↦ ?_
    have hlistening := h.mem_sinks_iff.mp hhandle
    rw [hunheard] at hlistening
    exact List.not_mem_nil hlistening
  exact List.map_eq_nil_iff.mp hsinks

/-- A notification of a query that has open streams goes to these, and is not kept. -/
theorem LiveTable.emitCollectable_eq (h : LiveTable s) {message : LiveMessage}
    (hopen : s.listening message.id ≠ []) : s.live.emitCollectable message.id message =
      (s.live, (s.live.listenersOf message.id).map Listener.sink) := by
  have hsome := h.hasListeners hopen
  rw [Emitter.emitCollectable, if_pos hsome]
  exact Emitter.emit_of_persistent hsome (h.persistent message.id)

theorem LiveTable.emitCollectable_sinks (h : LiveTable s) (message : LiveMessage) :
    (s.live.emitCollectable message.id message).2 =
      (s.live.listenersOf message.id).map Listener.sink := by
  by_cases hunheard : s.listening message.id = []
  · have hnobody := h.listenersOf_eq_nil hunheard
    have hsilent : s.live.hasListeners message.id = false := by
      rw [Emitter.hasListeners, hnobody]
      rfl
    rw [Emitter.emitCollectable, hsilent, hnobody, if_neg Bool.false_ne_true]
    split <;> rfl
  · rw [h.emitCollectable_eq hunheard]

theorem LiveTable.delivered (h : LiveTable s) (message : LiveMessage) :
    Delivered s message
      (((s.live.listenersOf message.id).map Listener.sink).foldl (deliverTo message) s) where
  streamsOnly := (EventsOnly.foldl (EventsOnly.deliverTo message) _ s).1
  streams := by
    intro handle
    rw [get?_foldl_deliverTo message _ s (h.sinks_nodup message.id)]
    simp only [h.mem_sinks_iff]
  alive := fun handle hhandle ↦ h.alive handle (mem_keys_of_mem_listening hhandle)

/-- A notification for an open stream is delivered unless its query is retired. -/
theorem routeNotification_delivers (h : LiveTable s) {message : LiveMessage}
    (haction : message.action ≠ .killed) (hopen : s.listening message.id ≠ [])
    (hretired : message.id ∉ s.retired) : Delivered s message (s.routeNotification message) := by
  have hsome := h.hasListeners hopen
  have hemit := h.emitCollectable_eq hopen
  have hrouted : s.routeNotification message =
      ((s.live.listenersOf message.id).map Listener.sink).foldl (deliverTo message) s := by
    simp [routeNotification, hretired, haction, hsome, hemit]
  rw [hrouted]
  exact h.delivered message

/-- The end of a query that has open streams is delivered to them, and then one of them is closed.
-/
theorem routeNotification_delivers_end (h : LiveTable s) {message : LiveMessage}
    (hkilled : message.action = .killed) (hopen : s.listening message.id ≠ [])
    (hretired : message.id ∉ s.retired) :
    ∃ t : Session, Delivered s message t ∧ s.routeNotification message = t.endQuery message.id := by
  refine ⟨_, h.delivered message, ?_⟩
  rw [routeNotification_of_killed hkilled hretired, announce, h.emitCollectable_eq hopen]

end LiveTable

/-! ### Retired ids -/

/-- The query of an open stream is retired, so that the stream gets no notifications. -/
def Barred (s : Session) (handle : Nat) : Prop :=
  ∃ subscription, s.subscriptions.get? handle = some subscription ∧
    subscription.id ∈ s.retired

/-- The session is told that the query of a stream runs again, under an id that was given up. -/
def Revives (s : Session) (event : Event) (handle : Nat) : Prop :=
  ∃ id, s.Restarts event handle id ∧ id ∈ s.retired

section Moves

variable {s : Session}

theorem barred_congr {t : Session} (hsubscriptions : t.subscriptions = s.subscriptions)
    (hretired : t.retired = s.retired) (handle : Nat) : Barred t handle ↔ Barred s handle := by
  rw [Barred, hsubscriptions, hretired, Barred]

theorem barred_of_streamState {t : Session} (hstreams : t.streamState = s.streamState)
    (handle : Nat) : Barred t handle ↔ Barred s handle := by
  simp only [streamState, Prod.mk.injEq] at hstreams
  exact barred_congr hstreams.2.1 hstreams.2.2.2.1 handle

/-- An id that an open stream uses is not retired by closing another one. -/
theorem barred_retire (id : Uuid) (handle : Nat) :
    Barred (s.retire id) handle ↔ Barred s handle := by
  unfold retire
  split
  · rfl
  · next hunused =>
    have hother (subscription : Subscription)
        (hget : s.subscriptions.get? handle = some subscription) : subscription.id ≠ id := by
      intro hid
      have hlistens : handle ∈ s.listening id := List.mem_map_of_mem (List.mem_filter.mpr
        ⟨Table.mem_entries_of_get? hget, decide_eq_true hid⟩)
      exact hunused (isSome_handleFor?_iff.mpr (List.ne_nil_of_mem hlistens))
    constructor
    · rintro ⟨subscription, hget, hmem⟩
      rcases List.mem_insert_iff.mp hmem with hid | hold
      · exact absurd hid (hother subscription hget)
      · exact ⟨subscription, hget, hold⟩
    · rintro ⟨subscription, hget, hold⟩
      exact ⟨subscription, hget, List.mem_insert_of_mem hold⟩

theorem barred_closeStream (reason : CloseReason) (closed handle : Nat) :
    Barred (s.closeStream reason closed) handle ↔ closed ≠ handle ∧ Barred s handle := by
  cases hget : s.subscriptions.get? closed with
  | none =>
    rw [closeStream_of_notMem (Table.get?_eq_none_iff.mp hget)]
    refine ⟨fun hbarred ↦ ⟨?_, hbarred⟩, fun hbarred ↦ hbarred.2⟩
    rintro rfl
    obtain ⟨subscription, hopen, -⟩ := hbarred
    rw [hget] at hopen
    cases hopen
  | some subscription =>
    have hunlisted : Barred (s.unlisted closed subscription) handle ↔
        closed ≠ handle ∧ Barred s handle := by
      simp only [Barred, unlisted, Table.get?_erase]
      by_cases hne : closed = handle
      · simp [hne]
      · simp [hne]
    rw [closeStream_eq hget, ← hunlisted]
    exact (barred_congr rfl rfl handle).trans (barred_retire subscription.id handle)

/-- Leading a stream to an id leaves that id retired if it was. -/
theorem barred_rebind {bound : Nat} (hopen : bound ∈ s.subscriptions.keys) (id : Uuid)
    (handle : Nat) : Barred (s.rebind bound id) handle ↔
      if bound = handle then id ∈ s.retired else Barred s handle := by
  obtain ⟨subscription, hget⟩ := Table.exists_get?_of_mem_keys hopen
  obtain ⟨t, hevents, hrebind⟩ := rebind_eq hget id
  have hrebound : Barred (s.rebound bound id subscription) handle ↔
      if bound = handle then id ∈ s.retired else Barred s handle := by
    simp only [Barred, rebound, Table.get?_set]
    by_cases hsame : bound = handle
    · simp [hsame]
    · simp [hsame]
  have ht : Barred t handle ↔ Barred (s.rebound bound id subscription) handle := by
    rw [hevents.1]
    exact barred_congr rfl rfl handle
  rw [hrebind, ← hrebound, ← ht]
  split
  · rfl
  · exact barred_retire subscription.id handle

theorem rebind_of_notMem {bound : Nat} (hclosed : bound ∉ s.subscriptions.keys) (id : Uuid) :
    s.rebind bound id = s := by
  simp only [rebind, Table.get?_eq_none_iff.mpr hclosed]

/-- A fresh stream is not barred, and opening it bars no other. -/
theorem barred_of_register {id : Uuid} {query : Option LiveQuery} {handle : Nat}
    (h : Barred (s.register id query).1 handle) : Barred s handle := by
  obtain ⟨subscription, hget, hmem⟩ := h
  simp only [register, List.mem_filter, Table.get?_set] at hget hmem
  split at hget
  · cases hget
    simp at hmem
  · exact ⟨subscription, hget, hmem.1⟩

theorem barred_of_routeNotification {message : LiveMessage} {handle : Nat}
    (h : Barred (s.routeNotification message) handle) : Barred s handle := by
  have hannounced : Barred (s.announce message) handle → Barred s handle :=
    (barred_congr (announce_subscriptions s message) (announce_retired s message) handle).mp
  rcases routeNotification_cases s message with hs | ⟨-, -, hs⟩ | ⟨-, -, hs⟩
  · rwa [hs] at h
  · rw [hs] at h
    exact hannounced h
  · rw [hs] at h
    refine hannounced ?_
    simp only [endQuery] at h
    split at h
    · exact ((barred_closeStream _ _ _).mp h).2
    · exact (barred_congr rfl rfl handle).mp h

theorem mem_keys_of_closeStream {reason : CloseReason} {closed handle : Nat}
    (h : handle ∈ (s.closeStream reason closed).subscriptions.keys) :
    closed ≠ handle ∧ handle ∈ s.subscriptions.keys := by
  rw [closeStream_subscriptions, Table.keys_erase, List.mem_filter] at h
  exact ⟨(of_decide_eq_true h.2).symm, h.1⟩

theorem mem_keys_of_rebind {bound handle : Nat} {id : Uuid}
    (h : handle ∈ (s.rebind bound id).subscriptions.keys) : handle ∈ s.subscriptions.keys := by
  cases hget : s.subscriptions.get? bound with
  | none =>
    rwa [rebind_of_notMem (Table.get?_eq_none_iff.mp hget)] at h
  | some subscription =>
    obtain ⟨t, hevents, hrebind⟩ := rebind_eq hget id
    have hkeys : t.subscriptions.keys = s.subscriptions.keys := by
      rw [hevents.1]
      simp only [rebound, Table.keys_set, if_pos (Table.mem_keys_of_get? hget)]
    rw [hrebind] at h
    split at h
    · rwa [hkeys] at h
    · rwa [retire_subscriptions, hkeys] at h

end Moves

/-! ### What bars a stream -/

/-- A stream that is barred after a step was barred before, or its query was started again under a
retired id. -/
theorem barred_of_step {s : Session} (hs : s.Quiescent) (event : Event) (handle : Nat)
    (h : Barred (s.step event) handle) : Barred s handle ∨ Revives s event handle := by
  refine (step_path hs event).invariant
    (fun t ↦ Barred t handle → Barred s handle ∨ Revives s event handle) ?_ .inl h
  intro t action u hpermits hmove ih hbarred
  cases hmove.onStreams with
  | same _ hstreams => exact ih ((barred_of_streamState hstreams handle).mp hbarred)
  | notify message => exact ih (barred_of_routeNotification hbarred)
  | register id query => exact ih (barred_of_register hbarred)
  | close reason closed => exact ih ((barred_closeStream reason closed handle).mp hbarred).2
  | rebind bound id =>
    by_cases hopen : bound ∈ t.subscriptions.keys
    · rw [barred_rebind hopen] at hbarred
      split at hbarred
      · next hsame =>
        subst hsame
        -- only the event itself leads a stream to an id, and before that no stream was touched
        rcases hpermits with ⟨hstreams, hrestarts⟩ | hfollows
        · simp only [streamState, Prod.mk.injEq] at hstreams
          exact .inr ⟨id, hrestarts, hstreams.2.2.2.1 ▸ hbarred⟩
        · exact hfollows.elim
      · exact ih hbarred
    · rw [rebind_of_notMem hopen] at hbarred
      exact ih hbarred

/-- What follows an event leaves a barred stream barred, or closes it. -/
theorem barred_of_settles {lossy : Prop} {s final : Session} (h : Settles lossy s final)
    {handle : Nat} (hs : handle ∈ s.subscriptions.keys → Barred s handle)
    (hopen : handle ∈ final.subscriptions.keys) : Barred final handle := by
  refine h.path.invariant (fun t ↦ handle ∈ t.subscriptions.keys → Barred t handle) ?_ hs hopen
  intro t action u hfollows hmove ih
  cases hmove.onStreams with
  | same _ hstreams =>
    intro hkey
    refine (barred_of_streamState hstreams handle).mpr (ih ?_)
    simp only [streamState, Prod.mk.injEq] at hstreams
    rwa [hstreams.2.1] at hkey
  | close reason closed =>
    intro hkey
    obtain ⟨hne, hold⟩ := mem_keys_of_closeStream hkey
    exact (barred_closeStream reason closed handle).mpr ⟨hne, ih hold⟩
  | notify message => exact hfollows.elim
  | register id query => exact hfollows.elim
  | rebind bound id => exact hfollows.elim

/-- When a query is started again, its stream is led to the new id before anything else happens. -/
theorem step_restarts {s : Session} (hs : s.Quiescent) (haccounted : Accounted s) {event : Event}
    {handle : Nat} {id : Uuid} (h : s.Restarts event handle id) :
    ∃ t : Session, t.streamState = s.streamState ∧
      Settles True (t.rebind handle id) (s.step event) := by
  obtain ⟨frame, n, result, restoration, rfl, hread, hawaited, hphase, hstream, hid⟩ := h
  have hlinked := (hs.linked_of_restoring hphase).1
  have hanswered := haccounted.routeReply_restoring hawaited hphase (.ok result)
  have hstep : s.step (.frame frame) =
      ((s.routeReply n.toNat (.ok result)).rebind handle id).restartStreams
        restoration.restarted := by
    simp only [step, hphase, receive, hread, route, settle, hanswered, attendRestoration, hstream,
      settleStream, hid]
  have hrequests := RequestsOnly.routeReply s n.toNat (.ok result)
  refine ⟨_, hrequests.streamState, ?_⟩
  rw [hstep]
  have hbound := (StreamsOnly.rebind (s.routeReply n.toNat (.ok result)) handle id).controlState
  refine restartStreams_settles ⟨?_, .inl trivial⟩ ?_ _
  · rw [link_eq_of_controlState hbound, hrequests.link]
    exact hlinked.link
  · rw [closer_eq_of_controlState hbound, hrequests.closer]
    exact hlinked.closer

theorem barred_of_revives {s : Session} (hs : s.Quiescent) (haccounted : Accounted s)
    {event : Event} {handle : Nat} (h : Revives s event handle)
    (hopen : handle ∈ (s.step event).subscriptions.keys) : Barred (s.step event) handle := by
  obtain ⟨id, hrestarts, hretired⟩ := h
  obtain ⟨t, hstreams, hsettles⟩ := step_restarts hs haccounted hrestarts
  refine barred_of_settles hsettles (fun hkey ↦ ?_) hopen
  rw [barred_rebind (mem_keys_of_rebind hkey), if_pos rfl]
  simp only [streamState, Prod.mk.injEq] at hstreams
  rwa [hstreams.2.2.2.1]

/-- Seen from a state in which every open stream gets its notifications, a step bars exactly the
streams whose queries it starts again under a retired id, unless it closes them. -/
theorem barred_step_iff {s : Session} (hs : s.Quiescent) (haccounted : Accounted s)
    (hfree : ∀ handle, ¬ s.Barred handle) (event : Event) (handle : Nat) :
    (s.step event).Barred handle ↔
      handle ∈ (s.step event).subscriptions.keys ∧ s.Revives event handle := by
  constructor
  · intro hbarred
    have hopen : handle ∈ (s.step event).subscriptions.keys := by
      obtain ⟨subscription, hget, -⟩ := hbarred
      exact Table.mem_keys_of_get? hget
    exact ⟨hopen, (barred_of_step hs event handle hbarred).resolve_left (hfree handle)⟩
  · rintro ⟨hopen, hrevives⟩
    exact barred_of_revives hs haccounted hrevives hopen

/-- In no step of a run a query is started again under a retired id. -/
def NeverRevives (s : Session) : List Event → Prop
  | [] => True
  | event :: events => (∀ handle, ¬ s.Revives event handle) ∧ (s.step event).NeverRevives events

theorem not_barred_of_neverRevives (events : List Event) :
    ∀ s : Session, s.Quiescent → (∀ handle, ¬ s.Barred handle) → s.NeverRevives events →
      ∀ handle, ¬ (s.run events).Barred handle := by
  induction events with
  | nil => exact fun s _ h _ ↦ h
  | cons event rest ih =>
    intro s hs h hnever
    refine ih (s.step event) (step_quiescent hs event) (fun handle hbarred ↦ ?_) hnever.2
    rcases barred_of_step hs event handle hbarred with hbefore | hrevives
    · exact h handle hbefore
    · exact hnever.1 handle hrevives

/-- After every run, a notification for an open stream that does not end the query is delivered if
and only if the id is not retired, and otherwise it is dropped. The ids of open streams are not
retired unless a query is started again under a retired id, and then they are. -/
theorem notification_delivery (url : String) (config : ClientConfig) (payloadLimit : Option Nat)
    (events : List Event) :
    let s := (ofConfig url config payloadLimit).run events
    (∀ message, message.action ≠ .killed → s.listening message.id ≠ [] →
      if message.id ∈ s.retired then s.routeNotification message = s
      else Delivered s message (s.routeNotification message)) ∧
    ((∀ handle, ¬ s.Barred handle) → ∀ event handle, (s.step event).Barred handle ↔
      handle ∈ (s.step event).subscriptions.keys ∧ s.Revives event handle) ∧
    ((ofConfig url config payloadLimit).NeverRevives events → ∀ handle, ¬ s.Barred handle) := by
  have hbegin := ofConfig_quiescent url config payloadLimit
  intro s
  have hquiescent : s.Quiescent := run_quiescent hbegin events
  have hlive : s.LiveTable :=
    liveTable_run hbegin (liveTable_ofConfig url config payloadLimit) events
  have haccounted : s.Accounted :=
    accounted_run hbegin (accounted_ofConfig url config payloadLimit) events
  refine ⟨?_, fun hfree ↦ barred_step_iff hquiescent haccounted hfree, ?_⟩
  · intro message haction hopen
    split
    · next hretired => exact routeNotification_of_retired hretired
    · next hretired => exact routeNotification_delivers hlive haction hopen hretired
  · refine not_barred_of_neverRevives events _ hbegin ?_
    rintro handle ⟨subscription, hget, -⟩
    cases hget

end Session

end Wireline

import Wireline.Proofs.Session.LiveTable

/-!
# What is kept for streams to come

A notification for a query that no stream listens to is kept, unless the query is retired.
`Backlog` states what this leaves in the emitter of live queries: nothing for a query that has a
listener, nothing for a retired one, and never more than there is room for. It is a statement about
the emitter and the retired ids alone. The emitter changes in two ways only, in the listeners of an
id (`Backlog.setListeners`) and in what is kept for one (`Backlog.setKept`), and every operation on
streams is made of these.

`Consistent` adds that listeners and open streams correspond one to one. Every move keeps a session
in this state (`Consistent.move`), and every run leaves it so (`live_table_consistent`).
-/

set_option autoImplicit false
set_option relaxedAutoImplicit false

namespace Wireline

namespace Session

/-! ### Kept notifications -/

/-- Notifications are kept for queries that nobody listens to and that are not retired, no more of
them than the capacity. -/
structure Backlog (capacity : Nat) (live : Emitter Uuid Nat LiveMessage) (retired : List Uuid) :
    Prop where
  wellFormed : live.WellFormed
  limit : live.limit = some capacity
  heard : ∀ id, live.listenersOf id ≠ [] → live.keptFor id = []
  dropped : ∀ id ∈ retired, live.keptFor id = []

namespace Backlog

variable {capacity : Nat} {live : Emitter Uuid Nat LiveMessage} {retired fewer : List Uuid}

/-- Fewer ids may be retired. -/
theorem mono (h : Backlog capacity live retired) (hfewer : ∀ id ∈ fewer, id ∈ retired) :
    Backlog capacity live fewer :=
  { h with dropped := fun id hid ↦ h.dropped id (hfewer id hid) }

/-- An id may get listeners if nothing is kept for it. -/
theorem setListeners (h : Backlog capacity live retired) (id : Uuid)
    {listeners : List (Listener Nat)} (hlisteners : listeners ≠ [] → live.keptFor id = []) :
    Backlog capacity (live.setListeners id listeners) retired where
  wellFormed := h.wellFormed.setListeners id listeners
  limit := h.limit
  heard other hother := by
    rw [Emitter.listenersOf_setListeners] at hother
    rw [Emitter.keptFor_setListeners]
    split at hother
    · next hsame => exact hsame ▸ hlisteners hother
    · exact h.heard other hother
  dropped := h.dropped

/-- Something may be kept for an id that has no listeners and is not retired. -/
theorem setKept (h : Backlog capacity live retired) (id : Uuid) {messages : List LiveMessage}
    (hwellFormed : (live.setKept id messages).WellFormed)
    (hmessages : messages ≠ [] → live.listenersOf id = [] ∧ id ∉ retired) :
    Backlog capacity (live.setKept id messages) retired := by
  have hkept (other : Uuid) (hnone : live.keptFor other = [])
      (hid : id = other → messages = []) : (live.setKept id messages).keptFor other = [] := by
    rw [Emitter.keptFor_setKept]
    split
    · next hsame => exact hid hsame
    · exact hnone
  constructor
  · exact hwellFormed
  · exact h.limit
  · intro other hother
    refine hkept other (h.heard other hother) fun hsame ↦ ?_
    subst hsame
    by_contra hsome
    exact hother (hmessages hsome).1
  · intro other hother
    refine hkept other (h.dropped other hother) fun hsame ↦ ?_
    subst hsame
    by_contra hsome
    exact (hmessages hsome).2 hother

theorem resetCollectable (h : Backlog capacity live retired) (id : Uuid) :
    Backlog capacity (live.resetCollectable id) retired :=
  h.setKept id (h.wellFormed.resetCollectable id) fun hsome ↦ absurd rfl hsome

/-- An id can be retired once what was kept for it is discarded. -/
theorem insert (h : Backlog capacity live retired) (id : Uuid) :
    Backlog capacity (live.resetCollectable id) (retired.insert id) where
  wellFormed := (h.resetCollectable id).wellFormed
  limit := h.limit
  heard := (h.resetCollectable id).heard
  dropped other hother := by
    rcases List.mem_insert_iff.mp hother with rfl | hold
    · rw [Emitter.resetCollectable, Emitter.keptFor_setKept, if_pos rfl]
    · exact (h.resetCollectable id).dropped other hold

theorem unsubscribe (h : Backlog capacity live retired) (id : Uuid) (number : Nat) :
    Backlog capacity (live.unsubscribe id number).1 retired := by
  refine h.setListeners id fun hsome ↦ h.heard id fun hnone ↦ hsome ?_
  rw [hnone, List.filter_nil]

/-- The new listener takes over what was kept for it. -/
theorem subscribeHistoric (h : Backlog capacity live retired) (id : Uuid) (handle : Nat) :
    Backlog capacity (live.subscribeHistoric id handle).1 retired := by
  have hheard : Backlog capacity ((live.resetCollectable id).setListeners id
      (live.listenersOf id ++ [⟨live.nextId, handle, .persistent⟩])) retired := by
    refine (h.resetCollectable id).setListeners id fun _ ↦ ?_
    rw [Emitter.resetCollectable, Emitter.keptFor_setKept, if_pos rfl]
  -- only the next number of a listener differs from this
  exact ⟨{ hheard.wellFormed with }, hheard.limit, hheard.heard, hheard.dropped⟩

/-- A notification whose query is not retired is handed out, or kept if there is room. -/
theorem emitCollectable (h : Backlog capacity live retired) {id : Uuid} (hid : id ∉ retired)
    (message : LiveMessage) : Backlog capacity (live.emitCollectable id message).1 retired := by
  unfold Emitter.emitCollectable
  split
  · refine h.setListeners id fun hsome ↦ h.heard id fun hnone ↦ hsome ?_
    rw [hnone, List.filter_nil]
  · next hunheard =>
    have hnone : live.listenersOf id = [] := by
      simpa [Emitter.hasListeners] using hunheard
    split
    · exact h
    · next hroom =>
      exact h.setKept id (h.wellFormed.keep id message (by simpa using hroom))
        fun _ ↦ ⟨hnone, hid⟩

end Backlog

/-! ### Sessions -/

/-- The listeners that the open streams ought to have, each under the id of its query. -/
def roster (s : Session) : List (Uuid × Listener Nat) :=
  s.subscriptions.entries.map fun entry ↦ (entry.2.id, entry.2.toListener entry.1)

/-- The tables that concern live queries agree with each other. -/
structure Consistent (capacity : Nat) (s : Session) : Prop where
  table : s.LiveTable
  backlog : Backlog capacity s.live s.retired

/-- Each open stream has one listener, with the number that it notes and under the id of its query,
and there are no others. -/
theorem LiveTable.roster_perm {s : Session} (h : s.LiveTable) (hlive : s.live.WellFormed) :
    s.live.roster.Perm s.roster := by
  have hlisteners : s.live.roster.Nodup :=
    Emitter.nodup_roster hlive.listed fun id ↦ (h.listens.distinct id).of_map
  have hstreams : s.roster.Nodup := by
    refine List.Nodup.map_on ?_ h.nodup.of_map
    rintro ⟨handle, subscription⟩ hfirst ⟨other, second⟩ hsecond hsame
    have hhandle : handle = other := congrArg (fun listed ↦ listed.2.sink) hsame
    subst hhandle
    have hget := (Table.get?_eq_some_iff h.nodup).mpr hfirst
    rw [(Table.get?_eq_some_iff h.nodup).mpr hsecond] at hget
    cases hget
    rfl
  refine (List.perm_ext_iff_of_nodup hlisteners hstreams).mpr fun ⟨id, listener⟩ ↦ ?_
  rw [Emitter.mem_roster hlive.listed, h.listens.mem_iff, roster, List.mem_map]
  constructor
  · rintro ⟨handle, subscription, hget, rfl, rfl⟩
    exact ⟨(handle, subscription), Table.mem_entries_of_get? hget, rfl⟩
  · rintro ⟨⟨handle, subscription⟩, hentry, hlisted⟩
    cases hlisted
    exact ⟨handle, subscription, (Table.get?_eq_some_iff h.nodup).mpr hentry, rfl, rfl⟩

namespace Backlog

variable {capacity : Nat} {s t : Session}

theorem eventsOnly (h : Backlog capacity s.live s.retired) (hevents : EventsOnly s t) :
    Backlog capacity t.live t.retired := by
  rw [hevents.1]
  exact h

theorem of_streamState (h : Backlog capacity s.live s.retired)
    (hstreams : t.streamState = s.streamState) : Backlog capacity t.live t.retired := by
  simp only [streamState, Prod.mk.injEq] at hstreams
  rw [hstreams.1, hstreams.2.2.2.1]
  exact h

theorem retire (h : Backlog capacity s.live s.retired) (id : Uuid) :
    Backlog capacity (s.retire id).live (s.retire id).retired := by
  unfold Session.retire
  split
  · exact h
  · exact h.insert id

theorem register (h : Backlog capacity s.live s.retired) (id : Uuid) (query : Option LiveQuery) :
    Backlog capacity (s.register id query).1.live (s.register id query).1.retired :=
  (h.subscribeHistoric id s.nextHandle).mono fun _ hmem ↦ (List.mem_filter.mp hmem).1

theorem closeStream (h : Backlog capacity s.live s.retired) (reason : CloseReason) (handle : Nat) :
    Backlog capacity (s.closeStream reason handle).live (s.closeStream reason handle).retired := by
  cases hget : s.subscriptions.get? handle with
  | none =>
    rw [closeStream_of_notMem (Table.get?_eq_none_iff.mp hget)]
    exact h
  | some subscription =>
    rw [closeStream_eq hget]
    have hunlisted : Backlog capacity (s.unlisted handle subscription).live
        (s.unlisted handle subscription).retired :=
      (h.unsubscribe subscription.id subscription.listener).resetCollectable subscription.id
    exact hunlisted.retire subscription.id

theorem rebind (h : Backlog capacity s.live s.retired) (handle : Nat) (id : Uuid) :
    Backlog capacity (s.rebind handle id).live (s.rebind handle id).retired := by
  cases hget : s.subscriptions.get? handle with
  | none =>
    simp only [Session.rebind, hget]
    exact h
  | some subscription =>
    obtain ⟨t, hevents, hrebind⟩ := rebind_eq hget id
    have hrebound : Backlog capacity (s.rebound handle id subscription).live
        (s.rebound handle id subscription).retired :=
      ((h.unsubscribe subscription.id subscription.listener).resetCollectable
        subscription.id).subscribeHistoric id handle
    have ht := hrebound.eventsOnly hevents
    rw [hrebind]
    split
    · exact ht
    · exact ht.retire subscription.id

theorem endQuery (h : Backlog capacity s.live s.retired) (id : Uuid) :
    Backlog capacity (s.endQuery id).live (s.endQuery id).retired := by
  unfold Session.endQuery
  split
  · exact h.closeStream _ _
  · exact h.resetCollectable id

theorem routeNotification (h : Backlog capacity s.live s.retired) (message : LiveMessage) :
    Backlog capacity (s.routeNotification message).live (s.routeNotification message).retired := by
  rcases routeNotification_cases s message with hs | ⟨hretired, -, hs⟩ | ⟨hretired, -, hs⟩
  · rw [hs]
    exact h
  · rw [hs]
    exact eventsOnly (h.emitCollectable hretired message) (.announce s message)
  · rw [hs]
    exact (eventsOnly (h.emitCollectable hretired message) (.announce s message)).endQuery
      message.id

end Backlog

namespace Consistent

variable {capacity : Nat} {s t : Session}

/-- Every move keeps the tables consistent. -/
theorem move {action : Action} (h : Consistent capacity s) (hmove : Move s action t) :
    Consistent capacity t := by
  refine ⟨h.table.move hmove, ?_⟩
  cases hmove.onStreams with
  | same _ hstreams => exact h.backlog.of_streamState hstreams
  | notify message => exact h.backlog.routeNotification message
  | register id query => exact h.backlog.register id query
  | close reason handle => exact h.backlog.closeStream reason handle
  | rebind handle id => exact h.backlog.rebind handle id

theorem ofConfig (url : String) (config : ClientConfig) (payloadLimit : Option Nat) :
    Consistent config.notificationCapacity (ofConfig url config payloadLimit) where
  table := liveTable_ofConfig url config payloadLimit
  backlog := by
    constructor
    · constructor
      · exact List.nodup_nil
      · exact fun _ hsome ↦ Option.some_ne_none [] hsome.symm
      · exact List.nodup_nil
      · rfl
      · exact fun _ _ ↦ Nat.zero_le _
    · rfl
    · exact fun _ hsome ↦ absurd rfl hsome
    · exact fun _ hmem ↦ absurd hmem List.not_mem_nil

theorem run (h : Consistent capacity s) (hs : s.Quiescent) (events : List Event) :
    Consistent capacity (s.run events) :=
  (run_invariant (Consistent capacity) (fun _ _ _ _ _ h _ hmove ↦ h.move hmove) events s hs h).2

theorem step (h : Consistent capacity s) (hs : s.Quiescent) (event : Event) :
    Consistent capacity (s.step event) :=
  h.run hs [event]

theorem keptTotal_le (h : Consistent capacity s) : s.live.keptTotal ≤ capacity :=
  h.backlog.wellFormed.bounded capacity h.backlog.limit

theorem keptFor_of_hasListeners (h : Consistent capacity s) {id : Uuid}
    (hid : s.live.hasListeners id) : s.live.keptFor id = [] := by
  rw [Emitter.hasListeners, Bool.not_eq_true', List.isEmpty_eq_false_iff] at hid
  exact h.backlog.heard id hid

end Consistent

/-- After every run the listeners of live queries are those of the open streams, each under the id
of its query and with the number that the stream notes. Nothing is kept for an id that has a
listener or is retired, and what is kept is counted and within the capacity. Every move keeps the
tables in this state, and so does every step. -/
theorem live_table_consistent (url : String) (config : ClientConfig) (payloadLimit : Option Nat) :
    (∀ events, let s := (ofConfig url config payloadLimit).run events
      s.live.roster.Perm s.roster ∧
      (∀ id, s.live.hasListeners id → s.live.keptFor id = []) ∧
      (∀ id ∈ s.retired, s.live.keptFor id = []) ∧
      s.live.kept.total List.length = s.live.keptTotal ∧
      s.live.keptTotal ≤ config.notificationCapacity) ∧
    (∀ capacity s action t, Consistent capacity s → Move s action t → Consistent capacity t) ∧
    ∀ capacity s, s.Quiescent → Consistent capacity s → ∀ event,
      Consistent capacity (s.step event) := by
  refine ⟨fun events ↦ ?_, fun _ _ _ _ h hmove ↦ h.move hmove,
    fun _ _ hs h event ↦ h.step hs event⟩
  have hconsistent := (Consistent.ofConfig url config payloadLimit).run
    (ofConfig_quiescent url config payloadLimit) events
  have hlive := hconsistent.backlog.wellFormed
  intro s
  refine ⟨hconsistent.table.roster_perm hlive, ?_, hconsistent.backlog.dropped, hlive.counted,
    hconsistent.keptTotal_le⟩
  exact fun id hid ↦ hconsistent.keptFor_of_hasListeners hid

end Session

end Wireline

import Mathlib.Data.List.Nodup
import Wireline.Proofs.Emitter
import Wireline.Proofs.Session.Stepping

/-!
# Open streams and their listeners

`LiveTable` states how the tables of a session that concern streams fit together: every open stream
has one listener, with the number that its subscription notes and under the id of its query, there
are no other listeners, and the stream was handed out and is alive. Closing a stream removes a
listener (`Listens.remove`), opening one adds a listener (`Listens.add`), and leading a stream to
the new id of its query does one after the other. Every move keeps the tables in this form
(`LiveTable.move`), and so does every run (`liveTable_run`).
-/

set_option autoImplicit false
set_option relaxedAutoImplicit false

namespace Wireline

namespace Session

/-! ### Listeners of subscriptions -/

/-- The listener of a subscription that leads to the stream with a handle. -/
def Subscription.toListener (subscription : Subscription) (handle : Nat) :
    Listener Nat :=
  ⟨subscription.listener, handle, .persistent⟩

/-- The listeners under each id are those of the open subscriptions with that id. Numbers from
`next` on are free. -/
structure Listens (open? : Nat → Option Subscription) (listeners : Uuid → List (Listener Nat))
    (next : Nat) : Prop where
  mem_iff : ∀ id listener, listener ∈ listeners id ↔ ∃ handle subscription,
    open? handle = some subscription ∧ subscription.id = id ∧
      listener = subscription.toListener handle
  distinct : ∀ id, ((listeners id).map Listener.id).Nodup
  numbered : ∀ id, ∀ listener ∈ listeners id, listener.id < next

namespace Listens

variable {open? : Nat → Option Subscription} {listeners : Uuid → List (Listener Nat)} {next : Nat}

/-- A number leads to one stream. -/
theorem handle_unique (h : Listens open? listeners next) {handle other : Nat}
    {subscription second : Subscription} (hfirst : open? handle = some subscription)
    (hsecond : open? other = some second) (hid : second.id = subscription.id)
    (hnumber : second.listener = subscription.listener) : other = handle := by
  have hmem := (h.mem_iff subscription.id _).mpr ⟨handle, subscription, hfirst, rfl, rfl⟩
  have hmem' := (h.mem_iff subscription.id _).mpr ⟨other, second, hsecond, hid, rfl⟩
  have hsame := List.inj_on_of_nodup_map (h.distinct subscription.id) hmem' hmem hnumber
  exact congrArg Listener.sink hsame

theorem remove (h : Listens open? listeners next) {handle : Nat} {subscription : Subscription}
    (hopen : open? handle = some subscription) :
    Listens (fun other ↦ if handle = other then none else open? other)
      (fun id ↦ if subscription.id = id then
        (listeners subscription.id).filter (·.id != subscription.listener) else listeners id)
      next where
  mem_iff id listener := by
    have hleft (other : Nat) (second : Subscription) :
        (if handle = other then none else open? other) = some second ↔
          handle ≠ other ∧ open? other = some second := by
      by_cases hsame : handle = other
      · simp [hsame]
      · simp [hsame]
    have hne {other : Nat} {second : Subscription} (hsecond : open? other = some second)
        (hother : second ≠ subscription) : handle ≠ other := by
      rintro rfl
      rw [hopen] at hsecond
      cases hsecond
      exact hother rfl
    simp only [hleft]
    by_cases hid : subscription.id = id
    · subst hid
      rw [if_pos rfl, List.mem_filter, h.mem_iff]
      constructor
      · rintro ⟨⟨other, second, hsecond, hsame, rfl⟩, hnumber⟩
        refine ⟨other, second, ⟨hne hsecond ?_, hsecond⟩, hsame, rfl⟩
        rintro rfl
        simp [Subscription.toListener] at hnumber
      · rintro ⟨other, second, ⟨hother, hsecond⟩, hsame, rfl⟩
        -- two open subscriptions of one query differ in their numbers
        have hnumber : second.listener ≠ subscription.listener :=
          fun heq ↦ hother (h.handle_unique hopen hsecond hsame heq).symm
        refine ⟨⟨other, second, hsecond, hsame, rfl⟩, ?_⟩
        simpa [Subscription.toListener] using hnumber
    · rw [if_neg hid, h.mem_iff]
      constructor
      · rintro ⟨other, second, hsecond, rfl, rfl⟩
        refine ⟨other, second, ⟨hne hsecond ?_, hsecond⟩, rfl, rfl⟩
        rintro rfl
        exact hid rfl
      · rintro ⟨other, second, ⟨-, hsecond⟩, rfl, rfl⟩
        exact ⟨other, second, hsecond, rfl, rfl⟩
  distinct id := by
    split
    · exact (h.distinct _).sublist (List.filter_sublist.map _)
    · exact h.distinct id
  numbered id listener hlistener := by
    split at hlistener
    · exact h.numbered _ listener (List.mem_filter.mp hlistener).1
    · exact h.numbered id listener hlistener

theorem add (h : Listens open? listeners next) {handle : Nat} (hfree : open? handle = none)
    (id : Uuid) (query : Option LiveQuery) :
    Listens (fun other ↦ if handle = other then some ⟨id, query, next⟩ else open? other)
      (fun other ↦ if id = other then listeners id ++ [⟨next, handle, .persistent⟩]
        else listeners other)
      (next + 1) where
  mem_iff other listener := by
    have hkept {third : Nat} {second : Subscription} (hsecond : open? third = some second) :
        handle ≠ third := by
      rintro rfl
      rw [hfree] at hsecond
      cases hsecond
    have hold : (∃ third second, open? third = some second ∧ second.id = other ∧
        listener = second.toListener third) → ∃ third second,
        (if handle = third then some ⟨id, query, next⟩ else open? third) = some second ∧
          second.id = other ∧ listener = second.toListener third := by
      rintro ⟨third, second, hsecond, hid, hlistener⟩
      exact ⟨third, second, by rw [if_neg (hkept hsecond), hsecond], hid, hlistener⟩
    by_cases hid : id = other
    · subst hid
      rw [if_pos rfl, List.mem_append, List.mem_singleton, h.mem_iff]
      constructor
      · rintro (hlisted | rfl)
        · exact hold hlisted
        · exact ⟨handle, ⟨id, query, next⟩, if_pos rfl, rfl, rfl⟩
      · rintro ⟨third, second, hsecond, hsame, rfl⟩
        split at hsecond
        · next hnew =>
          cases hsecond
          exact .inr (hnew ▸ rfl)
        · exact .inl ⟨third, second, hsecond, hsame, rfl⟩
    · rw [if_neg hid, h.mem_iff]
      constructor
      · exact hold
      · rintro ⟨third, second, hsecond, hsame, rfl⟩
        split at hsecond
        · cases hsecond
          exact absurd hsame hid
        · exact ⟨third, second, hsecond, hsame, rfl⟩
  distinct other := by
    split
    · rw [List.map_append, List.nodup_append]
      refine ⟨h.distinct id, by simp, ?_⟩
      -- all numbers so far are below the one that the new listener gets
      intro a ha b hb hab
      obtain ⟨listener, hlistener, rfl⟩ := List.mem_map.mp ha
      rw [List.map_singleton, List.mem_singleton] at hb
      exact Nat.ne_of_lt (h.numbered id listener hlistener) (hab.trans hb)
    · exact h.distinct other
  numbered other listener hlistener := by
    split at hlistener
    · rcases List.mem_append.mp hlistener with hold | hnew
      · exact Nat.lt_succ_of_lt (h.numbered id listener hold)
      · rw [List.mem_singleton.mp hnew]
        exact Nat.lt_succ_self _
    · exact Nat.lt_succ_of_lt (h.numbered other listener hlistener)

end Listens

/-! ### Events of streams -/

/-- The second state differs from the first in the events and ids of its streams alone. -/
def EventsOnly (s t : Session) : Prop :=
  t = { s with streams := t.streams } ∧
    ∀ handle, (t.streams.get? handle).map LiveStream.isAlive =
      (s.streams.get? handle).map LiveStream.isAlive

namespace EventsOnly

variable {s t u : Session}

theorem refl (s : Session) : EventsOnly s s :=
  ⟨rfl, fun _ ↦ rfl⟩

theorem trans (hst : EventsOnly s t) (htu : EventsOnly t u) : EventsOnly s u := by
  refine ⟨htu.1.trans ?_, fun handle ↦ (htu.2 handle).trans (hst.2 handle)⟩
  rw [hst.1]

theorem modify (s : Session) (handle : Nat) {change : LiveStream → LiveStream}
    (hchange : ∀ stream, (change stream).isAlive = stream.isAlive) :
    EventsOnly s { s with streams := s.streams.modify handle change } := by
  refine ⟨rfl, fun other ↦ ?_⟩
  simp only [Table.get?_modify]
  split
  · next hsame =>
    subst hsame
    cases s.streams.get? handle with
    | none => rfl
    | some stream => exact congrArg some (hchange stream)
  · rfl

theorem deliverTo (message : LiveMessage) (s : Session) (handle : Nat) :
    EventsOnly s (deliverTo message s handle) :=
  modify s handle fun _ ↦ rfl

theorem foldl {α : Type} {f : Session → α → Session} (hf : ∀ s a, EventsOnly s (f s a))
    (items : List α) (s : Session) : EventsOnly s (items.foldl f s) :=
  foldl_related refl trans hf items s

/-- A notification that is announced is taken in, and then added to streams. -/
theorem announce (s : Session) (message : LiveMessage) :
    EventsOnly { s with live := (s.live.emitCollectable message.id message).1 }
      (s.announce message) :=
  foldl (deliverTo message) _ _

end EventsOnly

theorem announce_subscriptions (s : Session) (message : LiveMessage) :
    (s.announce message).subscriptions = s.subscriptions := by
  rw [(EventsOnly.announce s message).1]

theorem announce_retired (s : Session) (message : LiveMessage) :
    (s.announce message).retired = s.retired := by
  rw [(EventsOnly.announce s message).1]

theorem handleFor?_congr {s t : Session} (hsubscriptions : t.subscriptions = s.subscriptions)
    (hcircumstances : t.circumstances = s.circumstances) (id : Uuid) :
    t.handleFor? id = s.handleFor? id := by
  rw [handleFor?, handleFor?, listening, listening, hsubscriptions, hcircumstances]

theorem handleFor?_announce (s : Session) (message : LiveMessage) (id : Uuid) :
    (s.announce message).handleFor? id = s.handleFor? id :=
  handleFor?_congr (announce_subscriptions s message)
    (by rw [(EventsOnly.announce s message).1]) id

/-! ### What becomes of the tables -/

/-- How the tables of a session that concern streams fit together. -/
structure LiveTable (s : Session) : Prop where
  nodup : s.subscriptions.keys.Nodup
  below : ∀ handle ∈ s.subscriptions.keys, handle < s.nextHandle
  listens : Listens s.subscriptions.get? s.live.listenersOf s.live.nextId
  alive : ∀ handle ∈ s.subscriptions.keys, ∃ stream,
    s.streams.get? handle = some stream ∧ stream.isAlive = true

section Retire

variable (s : Session) (id : Uuid)

theorem retire_subscriptions : (s.retire id).subscriptions = s.subscriptions := by
  unfold retire
  split <;> rfl

theorem retire_streams : (s.retire id).streams = s.streams := by
  unfold retire
  split <;> rfl

theorem retire_nextHandle : (s.retire id).nextHandle = s.nextHandle := by
  unfold retire
  split <;> rfl

theorem retire_listenersOf : (s.retire id).live.listenersOf = s.live.listenersOf := by
  unfold retire
  split <;> rfl

theorem retire_nextId : (s.retire id).live.nextId = s.live.nextId := by
  unfold retire
  split <;> rfl

end Retire

namespace LiveTable

variable {s t : Session}

theorem congr (h : LiveTable s) (hsubscriptions : t.subscriptions = s.subscriptions)
    (hnextHandle : t.nextHandle = s.nextHandle)
    (hlisteners : t.live.listenersOf = s.live.listenersOf) (hnextId : t.live.nextId = s.live.nextId)
    (halive : ∀ handle, (t.streams.get? handle).map LiveStream.isAlive =
      (s.streams.get? handle).map LiveStream.isAlive) : LiveTable t := by
  constructor
  · rw [hsubscriptions]
    exact h.nodup
  · rw [hsubscriptions, hnextHandle]
    exact h.below
  · rw [hsubscriptions, hlisteners, hnextId]
    exact h.listens
  · intro handle hhandle
    rw [hsubscriptions] at hhandle
    obtain ⟨stream, hstream, hopen⟩ := h.alive handle hhandle
    have hsame := halive handle
    rw [hstream, Option.map_some, Option.map_eq_some_iff] at hsame
    obtain ⟨other, hother, heq⟩ := hsame
    exact ⟨other, hother, heq.trans hopen⟩

theorem of_streamState (h : LiveTable s) (hstreams : t.streamState = s.streamState) :
    LiveTable t := by
  simp only [streamState, Prod.mk.injEq] at hstreams
  obtain ⟨hlive, hsubscriptions, htable, -, hnextHandle⟩ := hstreams
  exact h.congr hsubscriptions hnextHandle (by rw [hlive]) (by rw [hlive]) (by simp [htable])

theorem eventsOnly (h : LiveTable s) (hevents : EventsOnly s t) : LiveTable t := by
  obtain ⟨hsame, halive⟩ := hevents
  refine h.congr ?_ ?_ ?_ ?_ halive
  all_goals rw [hsame]

theorem retire (h : LiveTable s) (id : Uuid) : LiveTable (s.retire id) :=
  h.congr (retire_subscriptions s id) (retire_nextHandle s id) (retire_listenersOf s id)
    (retire_nextId s id) (by simp [retire_streams])

theorem register (h : LiveTable s) (id : Uuid) (query : Option LiveQuery) :
    LiveTable (s.register id query).1 := by
  have hfree : s.subscriptions.get? s.nextHandle = none :=
    Table.get?_eq_none_iff.mpr fun hmem ↦ Nat.lt_irrefl _ (h.below _ hmem)
  have hkeys :
      (s.register id query).1.subscriptions.keys = s.subscriptions.keys ++ [s.nextHandle] := by
    simp only [Session.register, Table.keys_set]
    exact if_neg (Table.get?_eq_none_iff.mp hfree)
  constructor
  · exact Table.nodup_keys_set h.nodup _ _
  · intro handle hhandle
    rw [hkeys] at hhandle
    rcases List.mem_append.mp hhandle with hold | hnew
    · exact Nat.lt_succ_of_lt (h.below handle hold)
    · rw [List.mem_singleton.mp hnew]
      exact Nat.lt_succ_self _
  · have hadded := h.listens.add hfree id query
    refine Eq.mp ?_ hadded
    congr 1
    · funext other
      exact (Table.get?_set _ _ _ _).symm
    · funext other
      exact (Emitter.listenersOf_subscribeHistoric s.live id other s.nextHandle).symm
  · intro handle hhandle
    rw [hkeys] at hhandle
    simp only [Session.register, Table.get?_set]
    split
    · exact ⟨_, rfl, rfl⟩
    · next hne =>
      refine h.alive handle ?_
      rcases List.mem_append.mp hhandle with hold | hnew
      · exact hold
      · exact absurd (List.mem_singleton.mp hnew).symm hne

end LiveTable

/-- The state in which an open stream is not listed any more, before its query is retired. -/
def unlisted (s : Session) (handle : Nat) (subscription : Subscription) : Session :=
  { s with
    live := (s.live.unsubscribe subscription.id subscription.listener).1.resetCollectable
      subscription.id
    subscriptions := s.subscriptions.erase handle }

theorem closeStream_eq {s : Session} {handle : Nat} {subscription : Subscription}
    (hget : s.subscriptions.get? handle = some subscription) (reason : CloseReason) :
    s.closeStream reason handle =
      { (s.unlisted handle subscription).retire subscription.id with
        streams := ((s.unlisted handle subscription).retire subscription.id).streams.modify handle
          (·.close reason) } := by
  simp only [closeStream, hget, unlisted]

theorem closeStream_streams {s : Session} {handle : Nat} (hopen : handle ∈ s.subscriptions.keys)
    (reason : CloseReason) :
    (s.closeStream reason handle).streams = s.streams.modify handle (·.close reason) := by
  obtain ⟨subscription, hget⟩ := Table.exists_get?_of_mem_keys hopen
  rw [closeStream_eq hget, retire_streams]
  rfl

theorem closeStream_of_notMem {s : Session} {handle : Nat} (hclosed : handle ∉ s.subscriptions.keys)
    (reason : CloseReason) : s.closeStream reason handle = s := by
  simp only [closeStream, Table.get?_eq_none_iff.mpr hclosed]

theorem closeStream_subscriptions (s : Session) (reason : CloseReason) (handle : Nat) :
    (s.closeStream reason handle).subscriptions = s.subscriptions.erase handle := by
  cases hget : s.subscriptions.get? handle with
  | none =>
    have hclosed := Table.get?_eq_none_iff.mp hget
    rw [closeStream_of_notMem hclosed, Table.erase_eq_self hclosed]
  | some subscription =>
    rw [closeStream_eq hget]
    exact retire_subscriptions _ _

theorem closeStream_nextHandle (s : Session) (reason : CloseReason) (handle : Nat) :
    (s.closeStream reason handle).nextHandle = s.nextHandle := by
  cases hget : s.subscriptions.get? handle with
  | none => rw [closeStream_of_notMem (Table.get?_eq_none_iff.mp hget)]
  | some subscription =>
    rw [closeStream_eq hget]
    exact retire_nextHandle _ _

theorem get?_closeStream (s : Session) (reason : CloseReason) (closed handle : Nat) :
    (s.closeStream reason closed).subscriptions.get? handle =
      if closed = handle then none else s.subscriptions.get? handle := by
  rw [closeStream_subscriptions, Table.get?_erase]

namespace LiveTable

variable {s t : Session}

theorem unlisted (h : LiveTable s) {handle : Nat} {subscription : Subscription}
    (hget : s.subscriptions.get? handle = some subscription) :
    LiveTable (s.unlisted handle subscription) := by
  constructor
  · exact Table.nodup_keys_erase h.nodup handle
  · intro other hother
    rw [Session.unlisted, Table.keys_erase] at hother
    exact h.below other (List.mem_filter.mp hother).1
  · refine Eq.mp ?_ (h.listens.remove hget)
    congr 1
    · funext other
      exact (Table.get?_erase _ _ _).symm
    · funext id
      exact (Emitter.listenersOf_unsubscribe s.live subscription.id id subscription.listener).symm
  · intro other hother
    rw [Session.unlisted, Table.keys_erase] at hother
    exact h.alive other (List.mem_filter.mp hother).1

theorem closeStream (h : LiveTable s) (reason : CloseReason) (handle : Nat) :
    LiveTable (s.closeStream reason handle) := by
  cases hget : s.subscriptions.get? handle with
  | none =>
    rw [closeStream_of_notMem (Table.get?_eq_none_iff.mp hget)]
    exact h
  | some subscription =>
    have hretired := (h.unlisted hget).retire subscription.id
    rw [closeStream_eq hget]
    constructor
    · exact hretired.nodup
    · exact hretired.below
    · exact hretired.listens
    · intro other hother
      have hother' := hother
      rw [retire_subscriptions, Session.unlisted, Table.keys_erase, List.mem_filter] at hother'
      have hne : handle ≠ other := (of_decide_eq_true hother'.2).symm
      simp only [Table.get?_modify, if_neg hne]
      exact hretired.alive other hother

end LiveTable

/-- The state in which an open stream has been led to a new id, before it hands out the
notifications that were kept for that id. -/
def rebound (s : Session) (handle : Nat) (id : Uuid) (subscription : Subscription) : Session :=
  let (live, _) := s.live.unsubscribe subscription.id subscription.listener
  let (live, listener, _) := (live.resetCollectable subscription.id).subscribeHistoric id handle
  { s with
    live := live
    subscriptions := s.subscriptions.set handle { subscription with id, listener }
    streams := s.streams.modify handle fun stream ↦ { stream with id } }

/-- Leading an open stream to a new id hands out what was kept for it, and retires the old one. -/
theorem rebind_eq {s : Session} {handle : Nat} {subscription : Subscription}
    (hget : s.subscriptions.get? handle = some subscription) (id : Uuid) :
    ∃ t, EventsOnly (s.rebound handle id subscription) t ∧
      s.rebind handle id = if subscription.id = id then t else t.retire subscription.id := by
  refine ⟨_, ?_, by simp only [rebind, hget]; rfl⟩
  exact EventsOnly.foldl (fun s message ↦ .deliverTo message s handle) _ _

namespace LiveTable

variable {s t : Session}

theorem rebound (h : LiveTable s) {handle : Nat} {subscription : Subscription}
    (hget : s.subscriptions.get? handle = some subscription) (id : Uuid) :
    LiveTable (s.rebound handle id subscription) := by
  have hkeys : (s.rebound handle id subscription).subscriptions.keys = s.subscriptions.keys := by
    simp only [Session.rebound, Table.keys_set, if_pos (Table.mem_keys_of_get? hget)]
  constructor
  · rw [hkeys]
    exact h.nodup
  · rw [hkeys]
    exact h.below
  · have hadded := (h.listens.remove hget).add (if_pos rfl) id subscription.query
    refine Eq.mp ?_ hadded
    congr 1
    · funext other
      simp only [Session.rebound, Table.get?_set]
      split <;> rfl
    · funext other
      simp only [Session.rebound, Emitter.listenersOf_subscribeHistoric,
        Emitter.listenersOf_resetCollectable, Emitter.listenersOf_unsubscribe]
      rfl
  · intro other hother
    rw [hkeys] at hother
    obtain ⟨stream, hstream, halive⟩ := h.alive other hother
    simp only [Session.rebound, Table.get?_modify]
    split
    · next hsame =>
      subst hsame
      exact ⟨{ stream with id }, by rw [hstream, Option.map_some], halive⟩
    · exact ⟨stream, hstream, halive⟩

theorem rebind (h : LiveTable s) (handle : Nat) (id : Uuid) : LiveTable (s.rebind handle id) := by
  cases hget : s.subscriptions.get? handle with
  | none =>
    simp only [Session.rebind, hget]
    exact h
  | some subscription =>
    obtain ⟨t, hevents, hrebind⟩ := rebind_eq hget id
    have ht := (h.rebound hget id).eventsOnly hevents
    rw [hrebind]
    split
    · exact ht
    · exact ht.retire subscription.id

theorem closeStreams (h : LiveTable s) (reason : CloseReason) (test : Subscription → Bool) :
    LiveTable (s.closeStreams reason test) := by
  have hfold (handles : List Nat) : ∀ t : Session, LiveTable t →
      LiveTable (handles.foldl (fun t handle ↦ t.closeStream reason handle) t) := by
    induction handles with
    | nil => exact fun t ht ↦ ht
    | cons first rest ih => exact fun t ht ↦ ih _ (ht.closeStream reason first)
  exact hfold _ s h

theorem endQuery (h : LiveTable s) (id : Uuid) : LiveTable (s.endQuery id) := by
  unfold Session.endQuery
  split
  · exact h.closeStream _ _
  · exact h.congr rfl rfl rfl rfl fun _ ↦ rfl

/-- The listeners of an open stream are persistent. -/
theorem persistent (h : LiveTable s) (id : Uuid) :
    ∀ listener ∈ s.live.listenersOf id, listener.lifetime = .persistent := by
  intro listener hlistener
  obtain ⟨handle, subscription, -, -, rfl⟩ := (h.listens.mem_iff id listener).mp hlistener
  rfl

/-- A notification reaches the listeners of its id, and is kept if there are none. -/
theorem emitCollectable (h : LiveTable s) (message : LiveMessage) :
    LiveTable { s with live := (s.live.emitCollectable message.id message).1 } := by
  unfold Emitter.emitCollectable
  split
  · next hsome =>
    rw [Emitter.emit_of_persistent hsome (h.persistent message.id)]
    exact h
  · split
    · exact h
    · exact h.congr rfl rfl rfl rfl fun _ ↦ rfl

theorem announce (h : LiveTable s) (message : LiveMessage) : LiveTable (s.announce message) :=
  (h.emitCollectable message).eventsOnly (.announce s message)

theorem routeNotification (h : LiveTable s) (message : LiveMessage) :
    LiveTable (s.routeNotification message) := by
  rcases routeNotification_cases s message with hs | ⟨-, -, hs⟩ | ⟨-, -, hs⟩
  · rw [hs]
    exact h
  · rw [hs]
    exact h.announce message
  · rw [hs]
    exact (h.announce message).endQuery message.id

/-- Every move keeps the tables of streams in form. -/
theorem move {action : Action} (h : LiveTable s) (hmove : Move s action t) : LiveTable t := by
  cases hmove.onStreams with
  | same _ hstreams => exact h.of_streamState hstreams
  | notify message => exact h.routeNotification message
  | register id query => exact h.register id query
  | close reason handle => exact h.closeStream reason handle
  | rebind handle id => exact h.rebind handle id

end LiveTable

theorem liveTable_ofConfig (url : String) (config : ClientConfig) (payloadLimit : Option Nat) :
    LiveTable (ofConfig url config payloadLimit) where
  nodup := List.nodup_nil
  below := by simp [ofConfig, Table.keys, Table.empty]
  listens := by
    constructor
    · intro id listener
      constructor
      · exact fun h ↦ absurd h (List.not_mem_nil)
      · rintro ⟨handle, subscription, hget, -⟩
        cases hget
    · exact fun id ↦ List.nodup_nil
    · exact fun id listener h ↦ absurd h (List.not_mem_nil)
  alive := by simp [ofConfig, Table.keys, Table.empty]

theorem liveTable_run {s : Session} (hs : s.Quiescent) (h : LiveTable s) (events : List Event) :
    LiveTable (s.run events) :=
  (run_invariant LiveTable (fun _ _ _ _ _ h _ hmove ↦ h.move hmove) events s hs h).2

end Session

end Wireline

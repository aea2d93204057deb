import Wireline.Proofs.Session.EarlyNotifications
import Wireline.Proofs.Session.Endings

/-!
# The end of a query

When the server ends a live query, every open stream of the query is told, but only one of them is
closed (`LiveTable.routeNotification_killed_eq`). If it was the only one, the query is over for
everyone (`EndedForAll`) and its id is retired. If there were more, the others stay open under an id
of which the server knows nothing any more. `query_end` says so for every state of a run.
-/

set_option autoImplicit false
set_option relaxedAutoImplicit false

namespace Wireline

namespace Session

/-! ### The end of a query -/

/-- The query of a message is over for everyone: each of its open streams was told, and closed for
that, none is left, and no other stream has changed. -/
structure EndedForAll (s : Session) (message : LiveMessage) (t : Session) : Prop where
  unheard : t.listening message.id = []
  closed : ∀ handle ∈ s.listening message.id, ∃ stream, s.streams.get? handle = some stream ∧
    stream.isAlive = true ∧ t.streams.get? handle = some ((stream.push message).close .killed)
  others : ∀ handle ∉ s.listening message.id, t.streams.get? handle = s.streams.get? handle ∧
    t.subscriptions.get? handle = s.subscriptions.get? handle

/-- The end of the query of a message closes one of the streams that have it, and the others are
only told. -/
structure EndsOne (s : Session) (message : LiveMessage) (one : Nat) (t : Session) : Prop where
  listed : one ∈ s.listening message.id
  listening : t.listening message.id = (s.listening message.id).erase one
  retired : message.id ∈ t.retired ↔ (s.listening message.id).erase one = []
  streams : ∀ handle ∈ s.listening message.id, ∃ stream, s.streams.get? handle = some stream ∧
    stream.isAlive = true ∧ t.streams.get? handle =
      some (if handle = one then (stream.push message).close .killed else stream.push message)
  others : ∀ handle ∉ s.listening message.id, t.streams.get? handle = s.streams.get? handle ∧
    t.subscriptions.get? handle = s.subscriptions.get? handle

section Killed

variable {s t : Session} {message : LiveMessage}

theorem Delivered.eventsOnly (h : Delivered s message t) : EventsOnly s t := by
  refine ⟨h.streamsOnly, fun handle ↦ ?_⟩
  rw [h.streams]
  split
  · rw [Option.map_map]
    rfl
  · rfl

/-- Nobody is told of the end of a query that has no open stream. -/
theorem routeNotification_killed_unheard (h : LiveTable s) (hkilled : message.action = .killed)
    (hunheard : s.listening message.id = []) (hretired : message.id ∉ s.retired) :
    ∃ live, s.routeNotification message = { s with live } := by
  have hemit : (s.live.emitCollectable message.id message).2 = [] := by
    rw [h.emitCollectable_sinks, h.listenersOf_eq_nil hunheard, List.map_nil]
  have hhandle : (s.announce message).handleFor? message.id = none := by
    rw [handleFor?_announce, handleFor?_eq_none_iff, hunheard]
  refine ⟨(s.live.emitCollectable message.id message).1.resetCollectable message.id, ?_⟩
  rw [routeNotification_of_killed hkilled hretired, endQuery, hhandle, announce, hemit]
  rfl

theorem routeNotification_endsOne (h : LiveTable s) (hkilled : message.action = .killed)
    (hopen : s.listening message.id ≠ []) (hretired : message.id ∉ s.retired) :
    ∃ one, EndsOne s message one (s.routeNotification message) := by
  obtain ⟨told, hdelivered, hrouted⟩ := routeNotification_delivers_end h hkilled hopen hretired
  have htold : told.LiveTable := h.eventsOnly hdelivered.eventsOnly
  have hsubscriptions : told.subscriptions = s.subscriptions := by rw [hdelivered.streamsOnly]
  have hlistening : told.listening message.id = s.listening message.id := by
    rw [listening, hsubscriptions, listening]
  obtain ⟨one, hpicked⟩ := Option.isSome_iff_exists.mp
    (isSome_handleFor?_iff.mpr (hlistening.symm ▸ hopen : told.listening message.id ≠ []))
  have hone : one ∈ told.listening message.id := mem_listening_of_handleFor? hpicked
  have hclosed : s.routeNotification message = told.closeStream .killed one := by
    rw [hrouted, endQuery, hpicked]
  have hkey : one ∈ told.subscriptions.keys := mem_keys_of_mem_listening hone
  rw [hclosed]
  refine ⟨one, hlistening ▸ hone, ?_, ?_, ?_, ?_⟩
  · rw [htold.listening_closeStream, hlistening]
  · have hunretired : message.id ∉ told.retired := by
      rw [hdelivered.streamsOnly]
      exact hretired
    rw [htold.mem_retired_closeStream hone, hlistening]
    exact or_iff_right hunretired
  · intro handle hhandle
    obtain ⟨stream, hstream, halive⟩ := hdelivered.alive handle hhandle
    have hpushed : told.streams.get? handle = some (stream.push message) := by
      rw [hdelivered.streams, if_pos hhandle, hstream, Option.map_some]
    refine ⟨stream, hstream, halive, ?_⟩
    rw [closeStream_streams hkey, Table.get?_modify]
    by_cases hthis : one = handle
    · rw [if_pos hthis, if_pos hthis.symm, hthis, hpushed, Option.map_some]
    · rw [if_neg hthis, if_neg (Ne.symm hthis), hpushed]
  · intro handle hhandle
    have hother : one ≠ handle := fun hthis ↦ hhandle (hlistening ▸ hthis ▸ hone)
    constructor
    · rw [closeStream_streams hkey, Table.get?_modify, if_neg hother, hdelivered.streams,
        if_neg hhandle]
    · rw [get?_closeStream, if_neg hother, hsubscriptions]

theorem EndsOne.endedForAll_iff {one : Nat} (h : EndsOne s message one t) :
    EndedForAll s message t ↔ (s.listening message.id).length ≤ 1 := by
  have hlength := List.length_erase_of_mem h.listed
  have hleft : (s.listening message.id).erase one = [] ↔ (s.listening message.id).length ≤ 1 := by
    rw [← List.length_eq_zero_iff, hlength, Nat.sub_eq_zero_iff_le]
  rw [← hleft]
  refine ⟨fun hended ↦ h.listening.symm.trans hended.unheard, fun hlast ↦ ?_⟩
  refine ⟨h.listening.trans hlast, fun handle hhandle ↦ ?_, h.others⟩
  have hthis : handle = one := by
    by_contra hother
    have hmem := (List.mem_erase_of_ne hother).mpr hhandle
    rw [hlast] at hmem
    exact List.not_mem_nil hmem
  obtain ⟨stream, hstream, halive, hnext⟩ := h.streams handle hhandle
  rw [if_pos hthis] at hnext
  exact ⟨stream, hstream, halive, hnext⟩

theorem endedForAll_of_unheard (hunheard : s.listening message.id = [])
    {live : Emitter Uuid Nat LiveMessage} (ht : t = { s with live }) : EndedForAll s message t := by
  rw [ht]
  refine ⟨hunheard, fun handle hhandle ↦ ?_, fun _ _ ↦ ⟨rfl, rfl⟩⟩
  rw [hunheard] at hhandle
  exact absurd hhandle List.not_mem_nil

end Killed

/-- Assumes: in some state of a run the server ends a query that is not retired. The query is over
for everyone exactly if it has no more than one open stream. If it has some, all of them are told
and one is closed, the others stay open under the id, which is retired only if there are none. If it
has no stream, only what was kept changes. A session with a link that reads the message does this
and nothing else. -/
theorem query_end (url : String) (config : ClientConfig) (payloadLimit : Option Nat)
    (events : List Event) (message : LiveMessage) (hkilled : message.action = .killed)
    (hretired : message.id ∉ ((ofConfig url config payloadLimit).run events).retired) :
    let s := (ofConfig url config payloadLimit).run events
    let t := s.routeNotification message
    (EndedForAll s message t ↔ (s.listening message.id).length ≤ 1) ∧
    (s.listening message.id ≠ [] → ∃ one, EndsOne s message one t) ∧
    (s.listening message.id = [] → ∃ live, t = { s with live }) ∧
    ∀ frame, s.link ≠ .none → read frame = .ok (.notification message) →
      s.step (.frame frame) = t := by
  intro s t
  have hs : s.Steady := (steady_ofConfig url config payloadLimit).run events
  have hunheard (hnone : s.listening message.id = []) : ∃ live, t = { s with live } :=
    routeNotification_killed_unheard hs.liveTable hkilled hnone hretired
  have hheard (hopen : s.listening message.id ≠ []) : ∃ one, EndsOne s message one t :=
    routeNotification_endsOne hs.liveTable hkilled hopen hretired
  refine ⟨?_, hheard, hunheard, fun frame hlink hread ↦ hs.step_notification hlink hread⟩
  by_cases hnone : s.listening message.id = []
  · obtain ⟨live, ht⟩ := hunheard hnone
    refine iff_of_true (endedForAll_of_unheard hnone ht) ?_
    rw [hnone]
    exact Nat.zero_le 1
  · obtain ⟨one, hends⟩ := hheard hnone
    exact hends.endedForAll_iff

/-- Two streams of one query are open when the server ends it, and only one of them is closed. -/
theorem query_end_two :
    let id : Uuid := ⟨List.replicate 16 0x5a, rfl⟩
    let s := (ofConfig "" {} none).run
      [.start, .linked, .command (.subscribe 1 id none), .command (.subscribe 2 id none)]
    let message : LiveMessage := ⟨id, .killed, .null⟩
    let t := s.routeNotification message
    message.action = .killed ∧ message.id ∉ s.retired ∧ ¬ EndedForAll s message t ∧
      t.listening id = [2] ∧ id ∉ t.retired ∧
      (t.streams.get? 1).map LiveStream.isAlive = some false ∧
      (t.streams.get? 2).map LiveStream.isAlive = some true := by
  intro id s message t
  have hretired : message.id ∉ s.retired := by decide +kernel
  obtain ⟨hended, -⟩ := query_end "" {} none
    [.start, .linked, .command (.subscribe 1 id none), .command (.subscribe 2 id none)] message rfl
    hretired
  have hlength : (s.listening message.id).length = 2 := by decide +kernel
  refine ⟨rfl, hretired, fun hover ↦ ?_, by decide +kernel, by decide +kernel, by decide +kernel,
    by decide +kernel⟩
  have hatMost : (s.listening message.id).length ≤ 1 := hended.mp hover
  omega

end Session

end Wireline

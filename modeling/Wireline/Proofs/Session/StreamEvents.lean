import Wireline.Proofs.Session.Coherence
import Wireline.Proofs.Session.EarlyNotifications

/-!
# What a stream hands out

A stream hands out messages, and then at most one closing event, with which it is over. `LeadsTo`
says this of what is added to a stream between two states: nothing is added to a stream that is
over, so that the relation can be followed from state to state.

A session adds to a stream only while it is open, whatever makes it add, and a stream that is not
open is over (`HandedOut`). So every move leads each stream on (`advances_move`), and a run that
begins with no streams leads each of them on from nothing. `stream_events` says what follows for the
streams of every run.
-/

set_option autoImplicit false
set_option relaxedAutoImplicit false

namespace Wireline

/-! ### One stream -/

/-- What is added to the events of a stream that is alive are messages, and then perhaps a closing
event, which ends it. A stream that is not alive any more stays as it is. -/
structure LiveStream.LeadsTo (stream next : LiveStream) : Prop where
  added : ∃ (messages : List LiveMessage) (ending : Option CloseReason),
    next.events = stream.events ++ (messages.map .message ++ ending.toList.map .closed) ∧
      next.isAlive = (stream.isAlive && ending.isNone)
  stays : stream.isAlive = false → next = stream

namespace LiveStream.LeadsTo

variable {stream next last : LiveStream}

theorem refl (stream : LiveStream) : stream.LeadsTo stream where
  added := ⟨[], none, by simp, by simp⟩
  stays _ := rfl

theorem trans (h : stream.LeadsTo next) (hnext : next.LeadsTo last) : stream.LeadsTo last := by
  by_cases halive : next.isAlive
  · obtain ⟨messages, ending, hevents, hopen⟩ := h.added
    obtain ⟨further, final, hevents', hopen'⟩ := hnext.added
    rw [halive, eq_comm, Bool.and_eq_true] at hopen
    have hnone : ending = none := Option.isNone_iff_eq_none.mp hopen.2
    refine ⟨⟨messages ++ further, final, ?_, ?_⟩, fun hover ↦ ?_⟩
    · rw [hevents', hevents, hnone]
      simp
    · rw [hopen', halive, hopen.1]
    · rw [hopen.1] at hover
      cases hover
  · have hsame : last = next := hnext.stays (by simpa using halive)
    rw [hsame]
    exact h

theorem push (halive : stream.isAlive = true) (message : LiveMessage) :
    stream.LeadsTo (stream.push message) where
  added := ⟨[message], none, by simp [LiveStream.push], by simp [LiveStream.push]⟩
  stays hover := by
    rw [halive] at hover
    cases hover

theorem close (halive : stream.isAlive = true) (reason : CloseReason) :
    stream.LeadsTo (stream.close reason) where
  added := ⟨[], some reason, by simp [LiveStream.close], by simp [LiveStream.close]⟩
  stays hover := by
    rw [halive] at hover
    cases hover

theorem rename (halive : stream.isAlive = true) (id : Uuid) :
    stream.LeadsTo { stream with id } where
  added := ⟨[], none, by simp, by simp⟩
  stays hover := by
    rw [halive] at hover
    cases hover

end LiveStream.LeadsTo

namespace Session

/-! ### All streams -/

/-- Every stream leads on, none is lost, and a new one leads on from nothing. -/
structure Advances (s t : Session) : Prop where
  kept : ∀ handle stream, s.streams.get? handle = some stream →
    ∃ next, t.streams.get? handle = some next ∧ stream.LeadsTo next
  fresh : ∀ handle next, t.streams.get? handle = some next → s.streams.get? handle = none →
    ∃ id, LiveStream.LeadsTo { id } next

/-- The handle is that of a stream that is not over. -/
def IsAlive (s : Session) (handle : Nat) : Prop :=
  (s.streams.get? handle).map LiveStream.isAlive = some true

theorem LiveTable.isAlive {s : Session} (h : LiveTable s) {handle : Nat}
    (hopen : handle ∈ s.subscriptions.keys) : s.IsAlive handle := by
  obtain ⟨stream, hstream, halive⟩ := h.alive handle hopen
  rw [IsAlive, hstream, Option.map_some, halive]

namespace Advances

variable {s t u : Session}

theorem of_eq (h : t.streams = s.streams) : Advances s t where
  kept handle stream hstream := ⟨stream, h ▸ hstream, .refl stream⟩
  fresh handle next hnext hnone := by
    rw [h, hnone] at hnext
    cases hnext

theorem trans (hst : Advances s t) (htu : Advances t u) : Advances s u where
  kept handle stream hstream := by
    obtain ⟨middle, hmiddle, hfirst⟩ := hst.kept handle stream hstream
    obtain ⟨next, hnext, hsecond⟩ := htu.kept handle middle hmiddle
    exact ⟨next, hnext, hfirst.trans hsecond⟩
  fresh handle next hnext hnone := by
    cases hmiddle : t.streams.get? handle with
    | none => exact htu.fresh handle next hnext hmiddle
    | some middle =>
      obtain ⟨id, hfirst⟩ := hst.fresh handle middle hmiddle hnone
      obtain ⟨other, hother, hsecond⟩ := htu.kept handle middle hmiddle
      rw [hnext, Option.some_inj] at hother
      exact ⟨id, hfirst.trans (hother ▸ hsecond)⟩

theorem modify {bound : Nat} {change : LiveStream → LiveStream}
    (h : t.streams = s.streams.modify bound change) (hbound : s.IsAlive bound)
    (hchange : ∀ stream : LiveStream, stream.isAlive = true → stream.LeadsTo (change stream)) :
    Advances s t := by
  obtain ⟨old, hold, halive⟩ := Option.map_eq_some_iff.mp hbound
  constructor
  · intro handle stream hstream
    rw [h, Table.get?_modify]
    by_cases hsame : bound = handle
    · rw [← hsame, hold, Option.some_inj] at hstream
      rw [if_pos hsame, hold, Option.map_some]
      exact ⟨_, rfl, hstream ▸ hchange old halive⟩
    · rw [if_neg hsame]
      exact ⟨stream, hstream, .refl stream⟩
  · intro handle next hnext hnone
    rw [h, Table.get?_modify] at hnext
    by_cases hsame : bound = handle
    · rw [← hsame, hold] at hnone
      cases hnone
    · rw [if_neg hsame, hnone] at hnext
      cases hnext

theorem deliverTo {handle : Nat} (h : s.IsAlive handle) (message : LiveMessage) :
    Advances s (deliverTo message s handle) :=
  modify rfl h fun _ halive ↦ .push halive message

end Advances

/-- Streams that are alive are told one thing after another. -/
theorem Advances.deliveries {α : Type} (message : α → LiveMessage) (target : α → Nat)
    (items : List α) : ∀ s : Session, (∀ item ∈ items, s.IsAlive (target item)) →
      Advances s
        (items.foldl (fun s item ↦ Session.deliverTo (message item) s (target item)) s) := by
  induction items with
  | nil => exact fun s _ ↦ .of_eq rfl
  | cons item rest ih =>
    intro s h
    refine (deliverTo (h item List.mem_cons_self) (message item)).trans (ih _ fun other hother ↦ ?_)
    have halive := h other (List.mem_cons_of_mem item hother)
    exact ((EventsOnly.deliverTo (message item) s (target item)).2 (target other)).trans halive

/-! ### What is open and what is over -/

/-- The handles of streams were given out one after the other, and a stream that is not open is
over. -/
structure HandedOut (s : Session) : Prop where
  below : ∀ handle, s.nextHandle ≤ handle → s.streams.get? handle = none
  listed : ∀ handle, s.IsAlive handle → handle ∈ s.subscriptions.keys

section Operations

variable {s t : Session}

theorem HandedOut.congr (h : HandedOut s) (hnextHandle : t.nextHandle = s.nextHandle)
    (hkeys : t.subscriptions.keys = s.subscriptions.keys)
    (halive : ∀ handle, (t.streams.get? handle).map LiveStream.isAlive =
      (s.streams.get? handle).map LiveStream.isAlive) : HandedOut t where
  below handle hhandle := by
    have hnone := h.below handle (hnextHandle ▸ hhandle)
    have hsame := halive handle
    rwa [hnone, Option.map_none, Option.map_eq_none_iff] at hsame
  listed handle hhandle := by
    rw [hkeys]
    exact h.listed handle ((halive handle).symm.trans hhandle)

theorem HandedOut.eventsOnly (h : HandedOut s) (hevents : EventsOnly s t) : HandedOut t := by
  obtain ⟨hsame, halive⟩ := hevents
  refine h.congr ?_ ?_ halive
  all_goals rw [hsame]

theorem advances_closeStream (hlive : LiveTable s) (reason : CloseReason) (handle : Nat) :
    Advances s (s.closeStream reason handle) := by
  by_cases hopen : handle ∈ s.subscriptions.keys
  · exact .modify (closeStream_streams hopen reason) (hlive.isAlive hopen)
      fun _ halive ↦ .close halive reason
  · exact .of_eq (by rw [closeStream_of_notMem hopen])

theorem HandedOut.closeStream (h : HandedOut s) (reason : CloseReason) (closed : Nat) :
    HandedOut (s.closeStream reason closed) := by
  by_cases hopen : closed ∈ s.subscriptions.keys
  · constructor
    · intro handle hhandle
      have hnone := h.below handle (closeStream_nextHandle s reason closed ▸ hhandle)
      rw [closeStream_streams hopen, Table.get?_modify]
      by_cases hsame : closed = handle
      · rw [if_pos hsame, hsame, hnone, Option.map_none]
      · rw [if_neg hsame, hnone]
    · intro handle hhandle
      rw [IsAlive, closeStream_streams hopen, Table.get?_modify] at hhandle
      by_cases hsame : closed = handle
      · -- a stream that was just closed is not alive
        rw [if_pos hsame, Option.map_map] at hhandle
        obtain ⟨stream, -, halive⟩ := Option.map_eq_some_iff.mp hhandle
        cases halive
      · rw [if_neg hsame] at hhandle
        rw [closeStream_subscriptions, Table.keys_erase, List.mem_filter]
        exact ⟨h.listed handle hhandle, decide_eq_true (Ne.symm hsame)⟩
  · rw [closeStream_of_notMem hopen]
    exact h

theorem advances_register (h : HandedOut s) (id : Uuid) (query : Option LiveQuery) :
    Advances s (s.register id query).1 := by
  have hfree : s.streams.get? s.nextHandle = none := h.below _ (Nat.le_refl _)
  constructor
  · intro handle stream hstream
    have hold : s.nextHandle ≠ handle := by
      rintro rfl
      rw [hfree] at hstream
      cases hstream
    simp only [register, Table.get?_set, if_neg hold]
    exact ⟨stream, hstream, .refl stream⟩
  · intro handle next hnext hnone
    by_cases hnew : s.nextHandle = handle
    · have hbegins : (s.register id query).1.streams.get? s.nextHandle = some
          { id, events := (s.live.keptFor id).map .message } := get?_register s id query
      rw [← hnew, hbegins, Option.some_inj] at hnext
      refine ⟨id, ⟨s.live.keptFor id, none, ?_, ?_⟩, fun hover ↦ ?_⟩
      · rw [← hnext]
        simp
      · rw [← hnext]
        rfl
      · cases hover
    · simp only [register, Table.get?_set, if_neg hnew] at hnext
      rw [hnone] at hnext
      cases hnext

theorem HandedOut.register (h : HandedOut s) (id : Uuid) (query : Option LiveQuery) :
    HandedOut (s.register id query).1 := by
  constructor
  · intro handle hhandle
    have hold : s.nextHandle < handle := hhandle
    simp only [Session.register, Table.get?_set, if_neg (Nat.ne_of_lt hold)]
    exact h.below handle (Nat.le_of_lt hold)
  · intro handle hhandle
    by_contra hclosed
    have hnone := Table.get?_eq_none_iff.mpr hclosed
    simp only [Session.register, Table.get?_set] at hnone
    by_cases hnew : s.nextHandle = handle
    · rw [if_pos hnew] at hnone
      cases hnone
    · rw [if_neg hnew] at hnone
      simp only [IsAlive, Session.register, Table.get?_set, if_neg hnew] at hhandle
      exact Table.get?_eq_none_iff.mp hnone (h.listed handle hhandle)

theorem rebind_streams {handle : Nat} {subscription : Subscription}
    (hget : s.subscriptions.get? handle = some subscription) (id : Uuid) :
    ∃ history : List LiveMessage, (s.rebind handle id).streams =
      (history.foldl (fun t message ↦ deliverTo message t handle)
        (s.rebound handle id subscription)).streams := by
  refine ⟨((s.live.unsubscribe subscription.id subscription.listener).1.resetCollectable
    subscription.id).keptFor id, ?_⟩
  simp only [rebind, hget]
  split
  · rfl
  · rw [retire_streams]
    rfl

theorem advances_rebind (hlive : LiveTable s) (handle : Nat) (id : Uuid) :
    Advances s (s.rebind handle id) := by
  by_cases hopen : handle ∈ s.subscriptions.keys
  · obtain ⟨subscription, hget⟩ := Table.exists_get?_of_mem_keys hopen
    obtain ⟨history, hstreams⟩ := rebind_streams hget id
    have hrenamed : Advances s (s.rebound handle id subscription) :=
      .modify rfl (hlive.isAlive hopen) fun _ halive ↦ .rename halive id
    have hkey : handle ∈ (s.rebound handle id subscription).subscriptions.keys :=
      Table.mem_keys_of_get? ((Table.get?_set _ _ _ _).trans (if_pos rfl))
    have halive := (hlive.rebound hget id).isAlive hkey
    exact (hrenamed.trans (.deliveries (fun message ↦ message) (fun _ ↦ handle) history _
      fun _ _ ↦ halive)).trans (.of_eq hstreams)
  · rw [rebind_of_notMem hopen]
    exact .of_eq rfl

theorem HandedOut.rebind (h : HandedOut s) (handle : Nat) (id : Uuid) :
    HandedOut (s.rebind handle id) := by
  by_cases hopen : handle ∈ s.subscriptions.keys
  · obtain ⟨subscription, hget⟩ := Table.exists_get?_of_mem_keys hopen
    obtain ⟨t, hevents, hrebind⟩ := rebind_eq hget id
    have hstreams : (s.rebind handle id).streams = t.streams := by
      rw [hrebind]
      split
      · rfl
      · exact retire_streams _ _
    refine h.congr (Passed.rebind s handle id).nextHandle (keys_rebind s handle id) fun other ↦ ?_
    have hrenamed : EventsOnly s
        { s with streams := s.streams.modify handle fun stream ↦ { stream with id } } :=
      .modify s handle fun _ ↦ rfl
    rw [hstreams, hevents.2 other]
    exact hrenamed.2 other
  · rw [rebind_of_notMem hopen]
    exact h

/-- A notification is added to the streams of its query, which are alive. -/
theorem advances_routeNotification (hlive : LiveTable s) (message : LiveMessage) :
    Advances s (s.routeNotification message) := by
  have htold : Advances s (s.announce message) := by
    have hkept : Advances s { s with live := (s.live.emitCollectable message.id message).1 } :=
      .of_eq rfl
    refine hkept.trans
      (.deliveries (fun _ ↦ message) (fun handle ↦ handle) _ _ fun handle hhandle ↦ ?_)
    rw [hlive.emitCollectable_sinks, hlive.mem_sinks_iff] at hhandle
    exact hlive.isAlive (mem_keys_of_mem_listening hhandle)
  rcases routeNotification_cases s message with h | ⟨-, -, h⟩ | ⟨-, -, h⟩
  · exact .of_eq (by rw [h])
  · rw [h]
    exact htold
  · rw [h]
    refine htold.trans ?_
    unfold endQuery
    split
    · exact advances_closeStream (hlive.announce message) _ _
    · exact .of_eq rfl

theorem HandedOut.routeNotification (h : HandedOut s) (message : LiveMessage) :
    HandedOut (s.routeNotification message) := by
  have hlive : HandedOut { s with live := (s.live.emitCollectable message.id message).1 } :=
    h.congr rfl rfl fun _ ↦ rfl
  have htold : HandedOut (s.announce message) := hlive.eventsOnly (.announce s message)
  rcases routeNotification_cases s message with hs | ⟨-, -, hs⟩ | ⟨-, -, hs⟩
  · rw [hs]
    exact h
  · rw [hs]
    exact htold
  · rw [hs]
    unfold endQuery
    split
    · exact htold.closeStream _ _
    · exact htold.congr rfl rfl fun _ ↦ rfl

/-- Every move leads the streams on. -/
theorem advances_move {action : Action} (hlive : LiveTable s) (h : HandedOut s)
    (hmove : Move s action t) : Advances s t := by
  cases hmove.onStreams with
  | same _ hstreams => exact .of_eq (congrArg (·.2.2.1) hstreams)
  | notify message => exact advances_routeNotification hlive message
  | register id query => exact advances_register h id query
  | close reason handle => exact advances_closeStream hlive reason handle
  | rebind handle id => exact advances_rebind hlive handle id

theorem HandedOut.move {action : Action} (h : HandedOut s) (hmove : Move s action t) :
    HandedOut t := by
  cases hmove.onStreams with
  | same _ hstreams =>
    simp only [streamState, Prod.mk.injEq] at hstreams
    obtain ⟨-, hsubscriptions, htable, -, hnextHandle⟩ := hstreams
    exact h.congr hnextHandle (by rw [hsubscriptions]) (by simp [htable])
  | notify message => exact h.routeNotification message
  | register id query => exact h.register id query
  | close reason handle => exact h.closeStream reason handle
  | rebind handle id => exact h.rebind handle id

end Operations

/-! ### Runs -/

section Runs

variable {s : Session}

theorem advances_run (hs : s.Quiescent) (hlive : LiveTable s) (h : HandedOut s)
    (events : List Event) : HandedOut (s.run events) ∧ Advances s (s.run events) := by
  refine (run_invariant (fun t ↦ t.LiveTable ∧ t.HandedOut ∧ Advances s t) ?_ events s hs
    ⟨hlive, h, .of_eq rfl⟩).2.2
  intro _ _ t action u ⟨ht, hlisted, hadvances⟩ _ hmove
  exact ⟨ht.move hmove, hlisted.move hmove, hadvances.trans (advances_move ht hlisted hmove)⟩

theorem handedOut_ofConfig (url : String) (config : ClientConfig) (payloadLimit : Option Nat) :
    HandedOut (ofConfig url config payloadLimit) where
  below _ _ := rfl
  listed _ h := by cases h

/-- A session that admits a stream gives its caller the handle of one that holds what was kept. -/
theorem Steady.step_subscribe (hs : s.Steady) (hopen : s.isOpen) {query : Option LiveQuery}
    (hadmits : s.admits query) (ticket : Ticket) (id : Uuid) :
    s.step (.command (.subscribe ticket id query)) =
      (s.register id query).1.tell ticket (.subscribed (.ok s.nextHandle)) := by
  have hquiescent : (s.obey (.subscribe ticket id query)).Quiescent :=
    obey_quiescent hs.quiescent (fun _ ↦ by simp) (fun _ _ _ ↦ by simp)
  have hobeyed : s.obey (.subscribe ticket id query) =
      (s.register id query).1.tell ticket (.subscribed (.ok s.nextHandle)) := by
    rw [obey, subscribe, if_pos hadmits]
    rfl
  rw [Session.step, if_pos hopen, hquiescent.settle_eq, hobeyed]

end Runs

/-- After every run, a stream holds messages and then at most one closing event, which it has if and
only if it is not alive, which is if and only if it is not open. Whatever comes later, nothing is
taken from it, and once it has its closing event nothing is added. When the session is over, each
stream has one. A caller whose stream is admitted gets the handle of a stream that begins with the
notifications that were kept. -/
theorem stream_events (url : String) (config : ClientConfig) (payloadLimit : Option Nat)
    (events : List Event) :
    let s := (ofConfig url config payloadLimit).run events
    (∀ handle stream, s.streams.get? handle = some stream →
      (∃ (messages : List LiveMessage) (ending : Option CloseReason),
        stream.events = messages.map .message ++ ending.toList.map .closed ∧
        stream.isAlive = ending.isNone) ∧
      (stream.isAlive = true ↔ handle ∈ s.subscriptions.keys) ∧
      ∀ later, ∃ next, (s.run later).streams.get? handle = some next ∧ stream.LeadsTo next) ∧
    (s.IsOver → ∀ handle stream, s.streams.get? handle = some stream →
      ∃ (messages : List LiveMessage) (reason : CloseReason),
        stream.events = messages.map .message ++ [.closed reason]) ∧
    ∀ ticket id query, s.isOpen → s.admits query →
      let t := s.step (.command (.subscribe ticket id query))
      t.outbox = s.outbox ++ [.tell ticket (.subscribed (.ok s.nextHandle))] ∧
      t.streams.get? s.nextHandle =
        some { id, events := (s.live.keptFor id).map .message } := by
  have hbegin : (ofConfig url config payloadLimit).Steady := steady_ofConfig url config payloadLimit
  intro s
  have hs : s.Steady := hbegin.run events
  obtain ⟨hlisted, hadvances⟩ := advances_run hbegin.quiescent hbegin.liveTable
    (handedOut_ofConfig url config payloadLimit) events
  have hstreams (handle : Nat) (stream : LiveStream)
      (hstream : s.streams.get? handle = some stream) :
      ∃ (messages : List LiveMessage) (ending : Option CloseReason),
        stream.events = messages.map .message ++ ending.toList.map .closed ∧
        stream.isAlive = ending.isNone := by
    obtain ⟨id, ⟨messages, ending, hevents, halive⟩, -⟩ := hadvances.fresh handle stream hstream rfl
    exact ⟨messages, ending, hevents, halive⟩
  refine ⟨fun handle stream hstream ↦ ⟨hstreams handle stream hstream, ?_, fun later ↦ ?_⟩, ?_, ?_⟩
  · have hsame : (s.streams.get? handle).map LiveStream.isAlive = some stream.isAlive := by
      rw [hstream, Option.map_some]
    refine ⟨fun halive ↦ hlisted.listed handle (hsame.trans (congrArg some halive)), fun hopen ↦ ?_⟩
    exact Option.some_inj.mp (hsame.symm.trans (hs.liveTable.isAlive hopen))
  · exact (advances_run hs.quiescent hs.liveTable hlisted later).2.kept handle stream hstream
  · intro hover handle stream hstream
    obtain ⟨messages, ending, hevents, halive⟩ := hstreams handle stream hstream
    cases ending with
    | some reason => exact ⟨messages, reason, hevents⟩
    | none =>
      -- a stream without a closing event would be open, but nothing is
      have hopen := hlisted.listed handle (by rw [IsAlive, hstream, Option.map_some, halive]; rfl)
      have hclosed := (hs.coherent.vacant (.inr (.inr hover))).closed handle
      exact absurd hopen (Table.get?_eq_none_iff.mp hclosed)
  · intro ticket id query hopen hadmits
    rw [hs.step_subscribe hopen hadmits]
    exact ⟨rfl, get?_register s id query⟩

/-- A notification that comes before anyone listens to its query. -/
def createdEarly : Event :=
  .frame ([0xa1, 0x66, 0x72, 0x65, 0x73, 0x75, 0x6c, 0x74, 0xa3, 0x62, 0x69, 0x64, 0xd8, 0x25,
      0x50] ++ List.replicate 16 0x5a ++
    [0x66, 0x61, 0x63, 0x74, 0x69, 0x6f, 0x6e, 0x66, 0x43, 0x52, 0x45, 0x41, 0x54, 0x45,
      0x66, 0x72, 0x65, 0x73, 0x75, 0x6c, 0x74, 0x01])

set_option maxRecDepth 8000 in
/-- A stream that is opened later begins with the notification, and closing the session ends it. -/
theorem stream_events_of_kept :
    let id : Uuid := ⟨List.replicate 16 0x5a, rfl⟩
    let s := (ofConfig "" {} none).run [.start, .linked, createdEarly]
    let t := s.step (.command (.subscribe 1 id none))
    t.streams.get? 1 = some { id, events := [.message ⟨id, .create, .integer 1⟩] } ∧
      (t.run [.command (.close 2)]).IsOver ∧
      ∃ (stream : LiveStream) (messages : List LiveMessage) (reason : CloseReason),
        (t.run [.command (.close 2)]).streams.get? 1 = some stream ∧
        stream.events = messages.map .message ++ [.closed reason] := by
  intro id s t
  have hkept : s.live.keptFor id = [⟨id, .create, .integer 1⟩] := rfl
  have hhandle : s.nextHandle = 1 := rfl
  have hopen : s.isOpen = true := rfl
  have hadmits : s.admits none = true := rfl
  have hclosed : (t.run [.command (.close 2)]).IsOver := .inr rfl
  have hadmitted := (stream_events "" {} none [.start, .linked, createdEarly]).2.2
  have hbegins : t.streams.get? s.nextHandle =
      some { id, events := (s.live.keptFor id).map .message } :=
    (hadmitted 1 id none hopen hadmits).2
  rw [hkept, hhandle] at hbegins
  have hleads := (stream_events "" {} none
    [.start, .linked, createdEarly, .command (.subscribe 1 id none)]).1 1 _ hbegins
  obtain ⟨next, hnext, -⟩ := hleads.2.2 [.command (.close 2)]
  have hover := (stream_events "" {} none
    ([.start, .linked, createdEarly, .command (.subscribe 1 id none)] ++ [.command (.close 2)])).2.1
  rw [run_append] at hover
  obtain ⟨messages, reason, hevents⟩ := hover hclosed 1 next hnext
  exact ⟨hbegins, hclosed, next, messages, reason, hnext, hevents⟩

end Session

end Wireline

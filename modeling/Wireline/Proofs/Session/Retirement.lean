import Wireline.Proofs.Session.EarlyNotifications
import Wireline.Proofs.Session.Coherence

/-!
# Queries that are heard of no more

The server does not know which of its live queries a session still listens to. A notification is
kept only if its query is one that the session has not heard of yet: no open stream has the id, and
it is not retired. An id that is one or the other is covered (`Covered`). What covers an id is
opening a stream of it, or leading an open stream to it, and nothing takes the cover away again
(`Move.covered_iff`, `covered_run`).

When a query is started again, its stream is led to the new id if it is still open. If it was closed
while the answer was awaited, nothing covers the new id (`restart_covers_iff`), and what the server
says of the query is kept as if its stream were still to come.
-/

set_option autoImplicit false
set_option relaxedAutoImplicit false

namespace Wireline

namespace Session

/-- An open stream has the id, or it is retired. -/
def Covered (s : Session) (id : Uuid) : Prop :=
  s.listening id ≠ [] ∨ id ∈ s.retired

section Moves

variable {s t : Session} {id other : Uuid}

theorem LiveTable.covered_iff (h : LiveTable s) : s.Covered id ↔
    (∃ handle subscription, s.subscriptions.get? handle = some subscription ∧
      subscription.id = id) ∨ id ∈ s.retired := by
  refine or_congr_left ?_
  simp only [← h.mem_listening_iff]
  rw [ne_eq, List.eq_nil_iff_forall_not_mem, not_forall_not]

theorem covered_congr (hsubscriptions : t.subscriptions = s.subscriptions)
    (hretired : t.retired = s.retired) : t.Covered id ↔ s.Covered id := by
  rw [Covered, listening, hsubscriptions, hretired, Covered, listening]

theorem covered_of_streamState (hstreams : t.streamState = s.streamState) :
    t.Covered id ↔ s.Covered id := by
  simp only [streamState, Prod.mk.injEq] at hstreams
  exact covered_congr hstreams.2.1 hstreams.2.2.2.1

theorem covered_eventsOnly (hevents : EventsOnly s t) : t.Covered id ↔ s.Covered id := by
  rw [hevents.1]
  exact covered_congr rfl rfl

/-- An id is retired unless an open stream has it, and is covered either way. -/
theorem covered_retire : (s.retire id).Covered other ↔ s.Covered other ∨ other = id := by
  rw [Covered, listening, retire_subscriptions, retired_retire]
  by_cases hnobody : s.listening id = []
  · rw [if_pos hnobody, List.mem_insert_iff, or_comm (a := other = id), ← or_assoc]
    rfl
  · rw [if_neg hnobody]
    refine ⟨.inl, fun h ↦ h.elim (fun h ↦ h) ?_⟩
    rintro rfl
    exact .inl hnobody

theorem covered_register (h : LiveTable s) {query : Option LiveQuery} :
    (s.register id query).1.Covered other ↔ s.Covered other ∨ other = id := by
  have hfree {handle : Nat} {subscription : Subscription}
      (hget : s.subscriptions.get? handle = some subscription) : s.nextHandle ≠ handle :=
    fun hsame ↦ Nat.lt_irrefl _ (hsame ▸ h.below handle (Table.mem_keys_of_get? hget))
  rw [(h.register id query).covered_iff, h.covered_iff]
  simp only [register, Table.get?_set, List.mem_filter]
  constructor
  · rintro (⟨handle, subscription, hget, rfl⟩ | ⟨hretired, -⟩)
    · by_cases hnew : s.nextHandle = handle
      · rw [if_pos hnew, Option.some_inj] at hget
        exact .inr (hget ▸ rfl)
      · rw [if_neg hnew] at hget
        exact .inl (.inl ⟨handle, subscription, hget, rfl⟩)
    · exact .inl (.inr hretired)
  · rintro ((⟨handle, subscription, hget, hid⟩ | hretired) | rfl)
    · exact .inl ⟨handle, subscription, by rw [if_neg (hfree hget), hget], hid⟩
    · by_cases hsame : other = id
      · exact .inl ⟨s.nextHandle, _, if_pos rfl, hsame.symm⟩
      · exact .inr ⟨hretired, by simpa using hsame⟩
    · exact .inl ⟨s.nextHandle, _, if_pos rfl, rfl⟩

/-- One of the open streams is closed, or led to another id. -/
theorem LiveTable.covered_replace (hs : LiveTable s) (ht : LiveTable t) {changed : Nat}
    {subscription : Subscription} {fresh : Option Subscription}
    (hget : s.subscriptions.get? changed = some subscription)
    (hchanged : ∀ handle, t.subscriptions.get? handle =
      if changed = handle then fresh else s.subscriptions.get? handle)
    (hretired : t.retired = s.retired) :
    t.Covered other ∨ other = subscription.id ↔
      s.Covered other ∨ fresh.map Subscription.id = some other := by
  rw [ht.covered_iff, hs.covered_iff, hretired]
  constructor
  · rintro ((⟨handle, second, hsecond, hid⟩ | hretired) | rfl)
    · rw [hchanged] at hsecond
      by_cases hsame : changed = handle
      · rw [if_pos hsame] at hsecond
        exact .inr (by rw [hsecond, Option.map_some, hid])
      · rw [if_neg hsame] at hsecond
        exact .inl (.inl ⟨handle, second, hsecond, hid⟩)
    · exact .inl (.inr hretired)
    · exact .inl (.inl ⟨changed, subscription, hget, rfl⟩)
  · rintro ((⟨handle, second, hsecond, hid⟩ | hretired) | hfresh)
    · by_cases hsame : changed = handle
      · rw [← hsame, hget, Option.some_inj] at hsecond
        exact .inr (hsecond ▸ hid.symm)
      · exact .inl (.inl ⟨handle, second, by rw [hchanged, if_neg hsame, hsecond], hid⟩)
    · exact .inl (.inr hretired)
    · obtain ⟨second, hsecond, hid⟩ := Option.map_eq_some_iff.mp hfresh
      exact .inl (.inl ⟨changed, second, by rw [hchanged, if_pos rfl, hsecond], hid⟩)

/-- A stream that is closed leaves its id to the others that have it, or else retired. -/
theorem covered_closeStream (h : LiveTable s) (reason : CloseReason) (closed : Nat) :
    (s.closeStream reason closed).Covered other ↔ s.Covered other := by
  cases hget : s.subscriptions.get? closed with
  | none => rw [closeStream_of_notMem (Table.get?_eq_none_iff.mp hget)]
  | some subscription =>
    have hunlisted : (s.unlisted closed subscription).Covered other ∨ other = subscription.id ↔
        s.Covered other ∨ none = some other :=
      h.covered_replace (h.unlisted hget) hget (Table.get?_erase _ _) rfl
    have hretired : ((s.unlisted closed subscription).retire subscription.id).Covered other ↔
        (s.unlisted closed subscription).Covered other ∨ other = subscription.id := covered_retire
    have hclosed : (s.closeStream reason closed).Covered other ↔
        ((s.unlisted closed subscription).retire subscription.id).Covered other := by
      rw [closeStream_eq hget]
      exact covered_congr rfl rfl
    simpa using (hclosed.trans hretired).trans hunlisted

/-- A stream that is led to an id covers it, and leaves its old id as if it were closed. -/
theorem covered_rebind (h : LiveTable s) {bound : Nat} (hopen : bound ∈ s.subscriptions.keys) :
    (s.rebind bound id).Covered other ↔ s.Covered other ∨ other = id := by
  obtain ⟨subscription, hget⟩ := Table.exists_get?_of_mem_keys hopen
  obtain ⟨t, hevents, hrebind⟩ := rebind_eq hget id
  have hrebound : (s.rebound bound id subscription).Covered other ∨ other = subscription.id ↔
      s.Covered other ∨ some id = some other :=
    h.covered_replace (h.rebound hget id) hget (Table.get?_set _ _ · _) rfl
  rw [Option.some_inj, eq_comm (a := id)] at hrebound
  rw [← covered_eventsOnly hevents] at hrebound
  rw [hrebind, ← hrebound]
  by_cases hsame : subscription.id = id
  · -- the stream has the id that it had, and so covers it still
    rw [if_pos hsame]
    refine ⟨.inl, fun hcovered ↦ hcovered.elim (fun h ↦ h) ?_⟩
    rintro rfl
    refine (covered_eventsOnly hevents).mpr ((h.rebound hget id).covered_iff.mpr (.inl ?_))
    simp only [rebound, Table.get?_set]
    exact ⟨bound, _, if_pos rfl, hsame.symm⟩
  · rw [if_neg hsame]
    exact covered_retire

theorem covered_routeNotification (h : LiveTable s) (message : LiveMessage) :
    (s.routeNotification message).Covered id ↔ s.Covered id := by
  have hannounced : (s.announce message).Covered id ↔ s.Covered id :=
    covered_congr (announce_subscriptions s message) (announce_retired s message)
  rcases routeNotification_cases s message with hs | ⟨-, -, hs⟩ | ⟨-, -, hs⟩
  · rw [hs]
  · rw [hs, hannounced]
  · rw [hs, ← hannounced]
    unfold endQuery
    split
    · exact covered_closeStream (h.announce message) _ _
    · exact covered_congr rfl rfl

end Moves

/-! ### What covers an id -/

/-- The action opens a stream of the query with an id, or leads an open stream to it. -/
def Covers (s : Session) (id : Uuid) : Action → Prop
  | .register fresh _ => id = fresh
  | .rebind handle fresh => handle ∈ s.subscriptions.keys ∧ id = fresh
  | _ => False

section Runs

variable {s t : Session} {id : Uuid}

theorem Action.SparesStreams.not_covers {action : Action} (h : action.SparesStreams) :
    ¬ Covers s id action := by
  cases action with
  | register fresh query => exact h.elim
  | rebind handle fresh => exact h.elim
  | _ => exact fun hcovers ↦ hcovers

theorem Move.covered_iff {action : Action} (h : LiveTable s) (hmove : Move s action t) :
    t.Covered id ↔ s.Covered id ∨ Covers s id action := by
  have hsame (hkept : t.Covered id ↔ s.Covered id) : t.Covered id ↔ s.Covered id ∨ False := by
    rw [or_false, hkept]
  cases hmove.onStreams with
  | same haction hstreams =>
    rw [covered_of_streamState hstreams]
    exact (or_iff_left haction.not_covers).symm
  | notify message => exact hsame (covered_routeNotification h message)
  | register fresh query => exact covered_register h
  | close reason handle => exact hsame (covered_closeStream h reason handle)
  | rebind handle fresh =>
    by_cases hopen : handle ∈ s.subscriptions.keys
    · simp only [covered_rebind h hopen, Covers, hopen, true_and]
    · rw [rebind_of_notMem hopen]
      exact ⟨.inl, fun hcovered ↦ hcovered.resolve_right fun hcovers ↦ hopen hcovers.1⟩

/-- An id that is covered stays so. -/
theorem covered_run (hs : s.Quiescent) (hlive : s.LiveTable) (h : s.Covered id)
    (events : List Event) : (s.run events).Covered id :=
  (run_invariant (fun t ↦ t.LiveTable ∧ t.Covered id)
    (fun _ _ _ _ _ h _ hmove ↦ ⟨h.1.move hmove, (hmove.covered_iff h.1).mpr (.inl h.2)⟩)
    events s hs ⟨hlive, h⟩).2.2

/-- What follows an event covers nothing. -/
theorem Settles.covered_iff {lossy : Prop} (h : Settles lossy s t) (hlive : s.LiveTable) :
    t.Covered id ↔ s.Covered id := by
  refine (h.path.invariant (fun u ↦ u.LiveTable ∧ (u.Covered id ↔ s.Covered id)) ?_
    ⟨hlive, Iff.rfl⟩).2
  intro u action v hfollows hmove ⟨hu, hcovered⟩
  refine ⟨hu.move hmove, ((hmove.covered_iff hu).trans ?_).trans hcovered⟩
  have hnot : ¬ Covers u id action := by
    cases action with
    | register fresh query => exact fun _ ↦ hfollows
    | rebind handle fresh => exact fun _ ↦ hfollows
    | _ => exact fun hcovers ↦ hcovers
  exact or_iff_left hnot

/-- A query that is started again gets an id that is covered if its stream is still open, and
otherwise only if something else covers that id. -/
theorem restart_covers_iff (hs : s.Quiescent) (haccounted : s.Accounted) (hlive : s.LiveTable)
    {event : Event} {handle : Nat} (h : s.Restarts event handle id) :
    (s.step event).Covered id ↔ handle ∈ s.subscriptions.keys ∨ s.Covered id := by
  obtain ⟨u, hstreams, hsettles⟩ := step_restarts hs haccounted h
  have hu : u.LiveTable := hlive.of_streamState hstreams
  have hkeys : u.subscriptions = s.subscriptions := congrArg (·.2.1) hstreams
  rw [hsettles.covered_iff (hu.rebind handle id), (Move.rebind handle id).covered_iff hu,
    covered_of_streamState hstreams, Covers, hkeys, or_comm]
  exact or_congr_left (and_iff_left rfl)

/-- Nothing is kept for an id that is covered. -/
theorem Consistent.keptFor_of_covered {capacity : Nat} (h : Consistent capacity s)
    (hcovered : s.Covered id) : s.live.keptFor id = [] := by
  rcases hcovered with hopen | hretired
  · exact h.keptFor_of_hasListeners (h.table.hasListeners hopen)
  · exact h.backlog.dropped id hretired

/-- For an id that is not covered, a notification is kept if there is room. -/
theorem LiveTable.keptFor_of_not_covered (h : LiveTable s) {message : LiveMessage}
    (huncovered : ¬ s.Covered message.id) (haction : message.action ≠ .killed)
    (hroom : s.live.isFull = false) : (s.routeNotification message).live.keptFor message.id =
      s.live.keptFor message.id ++ [message] := by
  have hunheard : s.listening message.id = [] := by
    by_contra hopen
    exact huncovered (.inl hopen)
  have hhandle : s.handleFor? message.id = none := handleFor?_eq_none_iff.mpr hunheard
  rw [routeNotification_unheard (fun hretired ↦ huncovered (.inr hretired)) hhandle
    (h.listenersOf_eq_nil hunheard) hroom, keepNext, if_neg haction]
  exact (Emitter.keptFor_setKept _ _ _ _).trans (if_pos rfl)

end Runs

/-- Assumes: in some state of a run the server answers the restart of the query of a stream, with an
id. From then on that id belongs to an open stream or is retired, and nothing is kept for it,
exactly if the stream is still open when the answer comes, or the id is one of another stream or
retired already. Otherwise, and until a stream is opened for the id, what the server says of the
query is kept as long as there is room, though its stream is closed. -/
theorem restarted_query_covered (url : String) (config : ClientConfig) (payloadLimit : Option Nat)
    (events : List Event) (event : Event) (handle : Nat) (id : Uuid)
    (h : ((ofConfig url config payloadLimit).run events).Restarts event handle id) :
    let s := (ofConfig url config payloadLimit).run events
    ((∀ later, ((s.step event).run later).Covered id) ↔
      handle ∈ s.subscriptions.keys ∨ s.Covered id) ∧
    ∀ later, let t := (s.step event).run later
      (t.Covered id → t.live.keptFor id = []) ∧
      (¬ t.Covered id → ∀ message : LiveMessage, message.id = id → message.action ≠ .killed →
        t.live.isFull = false →
        (t.routeNotification message).live.keptFor id = t.live.keptFor id ++ [message]) := by
  intro s
  have hs : s.Steady := (steady_ofConfig url config payloadLimit).run events
  have hconsistent := (Consistent.ofConfig url config payloadLimit).run
    (ofConfig_quiescent url config payloadLimit) events
  have hnext : (s.step event).Quiescent := step_quiescent hs.quiescent event
  have hnextConsistent := hconsistent.step hs.quiescent event
  have hcovered := restart_covers_iff hs.quiescent hs.accounted hs.liveTable h
  refine ⟨⟨fun hall ↦ hcovered.mp (hall []), fun hcovers later ↦ ?_⟩, fun later ↦ ?_⟩
  · exact covered_run hnext hnextConsistent.table (hcovered.mpr hcovers) later
  · have hlater := hnextConsistent.run hnext later
    refine ⟨hlater.keptFor_of_covered, ?_⟩
    rintro huncovered message rfl haction hroom
    exact hlater.table.keptFor_of_not_covered huncovered haction hroom

/-- A stream is closed by its caller while the server starts its query again. -/
def closedWhileRestarting : List Event :=
  [.start, .linked,
    .command (.subscribe 1 ⟨List.replicate 16 0x5a, rfl⟩ (some ⟨.text "person", false⟩)),
    .lost, .elapse 2000000000, .linked, .command (.kill 2 1)]

/-- The answer of the server to the restart, with an id. -/
def lateAnswer : Octets :=
  [162, 98, 105, 100, 1, 102, 114, 101, 115, 117, 108, 116, 216, 37, 80] ++ List.replicate 16 0x5c

set_option maxRecDepth 8000 in
/-- The id in the answer belongs to nobody, and what the server says of the query is kept. -/
theorem restarted_query_uncovered :
    let s := (ofConfig "" {} none).run closedWhileRestarting
    let message : LiveMessage := ⟨⟨List.replicate 16 0x5c, rfl⟩, .create, .null⟩
    let t := s.step (.frame lateAnswer)
    s.Restarts (.frame lateAnswer) 1 message.id ∧ ¬ t.Covered message.id ∧
      (t.routeNotification message).live.keptFor message.id = [message] := by
  intro s message t
  have hphase : s.phase =
      .restoring { awaited := .stream 1, remaining := [], restarted := [1] } := rfl
  have hread : read lateAnswer = .ok (.reply 1 (.ok message.id.toValue)) := rfl
  have hrestarts : s.Restarts (.frame lateAnswer) 1 message.id :=
    ⟨_, 1, _, _, rfl, hread, by decide +kernel, hphase, rfl, rfl⟩
  obtain ⟨-, hlater⟩ :=
    restarted_query_covered "" {} none closedWhileRestarting _ 1 message.id hrestarts
  have huncovered : ¬ t.Covered message.id := by
    rintro (hopen | hretired)
    · exact hopen (by decide +kernel)
    · revert hretired
      decide +kernel
  refine ⟨hrestarts, huncovered, ?_⟩
  exact (hlater []).2 huncovered message rfl (by decide) (by decide +kernel)

end Session

end Wireline

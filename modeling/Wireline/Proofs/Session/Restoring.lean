import Wireline.Proofs.Session.LiveTable
import Wireline.Proofs.Session.Outbox

/-!
# Restoring a link

To restore a link a session makes calls of its own, one at a time. A call whose frame cannot be
written is passed over (`Skips`), which uses its id up, and the stream that it should have started
again is closed. One pass (`Pass`) goes over such calls to the next one that can be made, which is
then awaited, or to the end, where the session resumes. Whatever is restored in the meantime,
`Session.restore` and `Session.restartStreams` come to nothing but passes (`restore_pass`,
`restartStreams_pass`).
-/

set_option autoImplicit false
set_option relaxedAutoImplicit false

namespace Wireline

namespace Session

/-! ### Calls in a row -/

/-- The frames of calls that are made one after the other, under ids from `id` on. A call that
cannot be written uses its id up. -/
def framed (s : Session) (id : Nat) : List (Origin × Request) → List Outgoing
  | [] => []
  | (origin, request) :: calls =>
    match s.frameOf request id with
    | .ok frame => ⟨id, origin, request, frame⟩ :: s.framed (id + 1) calls
    | .error _ => s.framed (id + 1) calls

/-- Requests of the session itself. -/
def own (requests : List Request) : List (Origin × Request) :=
  requests.map fun request ↦ (.restoration, request)

theorem frameOf_congr {s t : Session} (h : t.payloadLimit = s.payloadLimit) :
    t.frameOf = s.frameOf := by
  funext request id
  simp only [frameOf, h]

theorem framed_congr {s t : Session} (h : t.payloadLimit = s.payloadLimit)
    (calls : List (Origin × Request)) : ∀ id, t.framed id calls = s.framed id calls := by
  induction calls with
  | nil => exact fun id ↦ rfl
  | cons call rest ih =>
    intro id
    simp only [framed, frameOf_congr h, ih]

/-- What is framed comes from the calls, in their order. -/
theorem framed_sublist (s : Session) (calls : List (Origin × Request)) : ∀ id,
    ((s.framed id calls).map fun outgoing ↦ (outgoing.origin, outgoing.request)).Sublist calls := by
  induction calls with
  | nil => exact fun id ↦ .slnil
  | cons call rest ih =>
    intro id
    simp only [framed]
    split
    · exact (ih (id + 1)).cons_cons call
    · exact (ih (id + 1)).cons call

/-! ### Streams that can be started again -/

theorem failStanding_subscriptions (s : Session) (method : String) :
    (s.failStanding method).subscriptions = s.subscriptions :=
  congrArg (·.2.1) (Aside.failStanding s method).streamState

/-- Assumes: no handle is listed twice. -/
theorem mem_unrestarted_iff {s : Session} (hnodup : s.subscriptions.keys.Nodup)
    {restarted : List Nat} {handle : Nat} :
    handle ∈ s.unrestarted restarted ↔ handle ∉ restarted ∧ ∃ subscription query,
      s.subscriptions.get? handle = some subscription ∧ subscription.query = some query := by
  simp only [unrestarted, List.mem_map, List.mem_filter, Bool.and_eq_true, Bool.not_eq_true',
    List.contains_eq_mem, decide_eq_false_iff_not, Option.isSome_iff_exists]
  constructor
  · rintro ⟨⟨other, subscription⟩, ⟨hentry, ⟨query, hquery⟩, hnew⟩, rfl⟩
    exact ⟨hnew, subscription, query, (Table.get?_eq_some_iff hnodup).mpr hentry, hquery⟩
  · rintro ⟨hnew, subscription, query, hget, hquery⟩
    exact ⟨(handle, subscription), ⟨Table.mem_entries_of_get? hget, ⟨query, hquery⟩, hnew⟩, rfl⟩

/-- Closing the first of the streams that are to be started again leaves the others. -/
theorem unrestarted_closeStream {s : Session} (hnodup : s.subscriptions.keys.Nodup)
    {restarted handles : List Nat} {handle : Nat}
    (h : s.unrestarted restarted = handle :: handles) (reason : CloseReason) :
    (s.closeStream reason handle).unrestarted restarted = handles := by
  have hfilter : (s.closeStream reason handle).unrestarted restarted =
      (s.unrestarted restarted).filter fun other ↦ decide (other ≠ handle) := by
    simp only [unrestarted, closeStream_subscriptions, Table.erase, List.filter_map,
      List.filter_filter, Function.comp_def, Bool.and_comm]
  have hdistinct : (handle :: handles).Nodup :=
    h ▸ hnodup.sublist (List.filter_sublist.map Prod.fst)
  rw [hfilter, h, List.filter_cons_of_neg (by simp), List.filter_eq_self]
  intro other hother
  simp only [ne_eq, decide_eq_true_eq]
  rintro rfl
  exact (List.nodup_cons.mp hdistinct).1 hother

/-! ### The order of streams -/

theorem keys_closeStream_sublist (s : Session) (reason : CloseReason) (handle : Nat) :
    (s.closeStream reason handle).subscriptions.keys.Sublist s.subscriptions.keys := by
  rw [closeStream_subscriptions, Table.keys_erase]
  exact List.filter_sublist

theorem rebind_subscriptions {s : Session} {handle : Nat} {subscription : Subscription}
    (hget : s.subscriptions.get? handle = some subscription) (id : Uuid) :
    (s.rebind handle id).subscriptions = (s.rebound handle id subscription).subscriptions := by
  obtain ⟨t, hevents, hrebind⟩ := rebind_eq hget id
  have ht : t.subscriptions = (s.rebound handle id subscription).subscriptions := by
    rw [hevents.1]
  rw [hrebind]
  split
  · exact ht
  · exact (retire_subscriptions t subscription.id).trans ht

theorem keys_rebind (s : Session) (handle : Nat) (id : Uuid) :
    (s.rebind handle id).subscriptions.keys = s.subscriptions.keys := by
  cases hget : s.subscriptions.get? handle with
  | none => simp only [rebind, hget]
  | some subscription =>
    rw [rebind_subscriptions hget]
    simp only [rebound, Table.keys_set, if_pos (Table.mem_keys_of_get? hget)]

/-- A notification opens no stream, and changes none that it leaves open. -/
theorem routeNotification_subscriptions (s : Session) (message : LiveMessage) :
    (s.routeNotification message).subscriptions = s.subscriptions ∨
    ∃ handle, message.action = .killed ∧ message.id ∉ s.retired ∧
      s.handleFor? message.id = some handle ∧
      (s.routeNotification message).subscriptions = s.subscriptions.erase handle := by
  rcases routeNotification_cases s message with h | ⟨-, -, h⟩ | ⟨hretired, hkilled, h⟩
  · exact .inl (by rw [h])
  · exact .inl (by rw [h, announce_subscriptions])
  · rw [h, endQuery, handleFor?_announce]
    cases hhandle : s.handleFor? message.id with
    | none => exact .inl (announce_subscriptions s message)
    | some handle =>
      refine .inr ⟨handle, hkilled, hretired, rfl, ?_⟩
      rw [closeStream_subscriptions, announce_subscriptions]

/-- The handles of the open streams are listed in the order in which they were given out. -/
def Ascending (s : Session) : Prop :=
  s.subscriptions.keys.Pairwise (· < ·)

theorem Ascending.sublist {s t : Session} (h : s.Ascending)
    (hkeys : t.subscriptions.keys.Sublist s.subscriptions.keys) : t.Ascending :=
  List.Pairwise.sublist hkeys h

theorem Ascending.move {s t : Session} {action : Action} (h : s.Ascending) (hlive : s.LiveTable)
    (hmove : Move s action t) : t.Ascending := by
  have hsame {u : Session} (hstreams : u.streamState = s.streamState) : u.Ascending := by
    have hsubscriptions : u.subscriptions = s.subscriptions := congrArg (·.2.1) hstreams
    rw [Ascending, hsubscriptions]
    exact h
  cases hmove.onStreams with
  | same _ hstreams => exact hsame hstreams
  | notify message =>
    refine h.sublist ?_
    rcases routeNotification_subscriptions s message with hkept | ⟨handle, -, -, -, hclosed⟩
    · rw [hkept]
    · rw [hclosed, Table.keys_erase]
      exact List.filter_sublist
  | register id query =>
    have hfree : s.nextHandle ∉ s.subscriptions.keys :=
      fun hmem ↦ Nat.lt_irrefl _ (hlive.below _ hmem)
    simp only [Ascending, register, Table.keys_set, if_neg hfree]
    refine List.pairwise_append.mpr ⟨h, List.pairwise_singleton _ _, ?_⟩
    intro handle hhandle last hlast
    exact List.mem_singleton.mp hlast ▸ hlive.below handle hhandle
  | close reason handle => exact h.sublist (keys_closeStream_sublist s reason handle)
  | rebind handle id =>
    rw [Ascending, keys_rebind]
    exact h

theorem ascending_run {s : Session} (hs : s.Quiescent) (hlive : s.LiveTable) (h : s.Ascending)
    (events : List Event) : (s.run events).Ascending :=
  (run_invariant (fun t ↦ t.LiveTable ∧ t.Ascending)
    (fun _ _ _ _ _ h _ hmove ↦ ⟨h.1.move hmove, h.2.move h.1 hmove⟩) events s hs ⟨hlive, h⟩).2.2

/-! ### Calls that are passed over -/

/-- The session passes over calls that it cannot write. -/
inductive Skips (s : Session) : Session → Prop
  | refl : Skips s s
  | call {t : Session} {request : Request} {error : ClientError} (hskips : Skips s t)
      (hframe : t.frameOf request t.nextId = .error error) :
      Skips s (t.spent.failStanding request.method)
  | stream {t : Session} {handle : Nat} {subscription : Subscription} {query : LiveQuery}
      {error : ClientError} (hskips : Skips s t)
      (hget : t.subscriptions.get? handle = some subscription)
      (hquery : subscription.query = some query)
      (hframe : t.frameOf query.request t.nextId = .error error) :
      Skips s (t.spent.closeStream .disconnected handle)

namespace Skips

variable {s t u : Session}

theorem trans (hst : Skips s t) (htu : Skips t u) : Skips s u := by
  induction htu with
  | refl => exact hst
  | call _ hframe ih => exact ih.call hframe
  | stream _ hget hquery hframe ih => exact ih.stream hget hquery hframe

end Skips

/-- The second state differs from the first at most in the ids that are used up, in the standing and
in the streams, of which none is new. -/
def Passed (s t : Session) : Prop :=
  t = { s with
    standing := t.standing
    nextId := t.nextId
    live := t.live
    subscriptions := t.subscriptions
    streams := t.streams
    retired := t.retired }

namespace Passed

variable {s t u : Session}

theorem refl (s : Session) : Passed s s := rfl

theorem trans (hst : Passed s t) (htu : Passed t u) : Passed s u := by
  refine Eq.trans htu ?_
  rw [hst]

theorem failStanding (s : Session) (method : String) : Passed s (s.failStanding method) := by
  unfold Session.failStanding
  split <;> rfl

theorem closeStream (s : Session) (reason : CloseReason) (handle : Nat) :
    Passed s (s.closeStream reason handle) := by
  simp only [Session.closeStream, Session.retire]
  split
  · exact refl s
  · split <;> rfl

theorem eventsOnly (h : EventsOnly s t) : Passed s t := by
  rw [h.1]
  rfl

theorem rebind (s : Session) (handle : Nat) (id : Uuid) : Passed s (s.rebind handle id) := by
  have hhistory (messages : List LiveMessage) (t : Session) :
      Passed t (messages.foldl (fun t message ↦ deliverTo message t handle) t) :=
    eventsOnly (.foldl (fun t message ↦ .deliverTo message t handle) messages t)
  have hretire (t : Session) (id : Uuid) : Passed t (t.retire id) := by
    unfold Session.retire
    split <;> rfl
  simp only [Session.rebind]
  split
  · exact refl s
  · split
    · exact Passed.trans (by rfl) (hhistory _ _)
    · exact (Passed.trans (by rfl) (hhistory _ _)).trans (hretire _ _)

theorem routeNotification (s : Session) (message : LiveMessage) :
    Passed s (s.routeNotification message) := by
  have hannounced : Passed s (s.announce message) :=
    Passed.trans (by rfl) (eventsOnly (.announce s message))
  rcases routeNotification_cases s message with h | ⟨-, -, h⟩ | ⟨-, -, h⟩
  · rw [h]
    exact refl s
  · rw [h]
    exact hannounced
  · rw [h]
    refine hannounced.trans ?_
    unfold endQuery
    split
    · exact closeStream _ _ _
    · rfl

theorem outbox (h : Passed s t) : t.outbox = s.outbox :=
  (congrArg Session.outbox h : _)

theorem controlState (h : Passed s t) : t.controlState = s.controlState :=
  (congrArg Session.controlState h : _)

theorem inflight (h : Passed s t) : t.inflight = s.inflight :=
  (congrArg Session.inflight h : _)

theorem payloadLimit (h : Passed s t) : t.payloadLimit = s.payloadLimit :=
  (congrArg Session.payloadLimit h : _)

theorem status (h : Passed s t) : t.status = s.status :=
  (congrArg Session.status h : _)

theorem deferred (h : Passed s t) : t.deferred = s.deferred :=
  (congrArg Session.deferred h : _)

theorem nextHandle (h : Passed s t) : t.nextHandle = s.nextHandle :=
  (congrArg Session.nextHandle h : _)

end Passed

namespace Skips

variable {s t : Session}

theorem passed (h : Skips s t) : Passed s t := by
  have hspent (t : Session) : Passed t t.spent := rfl
  induction h with
  | refl => exact .refl s
  | call _ _ ih => exact (ih.trans (hspent _)).trans (.failStanding _ _)
  | stream _ _ _ _ ih => exact (ih.trans (hspent _)).trans (.closeStream _ _ _)

theorem nextId_le (h : Skips s t) : s.nextId ≤ t.nextId := by
  induction h with
  | refl => exact Nat.le_refl _
  | @call t request _ _ _ ih =>
    have hkept : (t.spent.failStanding request.method).nextId = t.nextId + 1 :=
      nextId_eq_of_requestState (Aside.failStanding t.spent request.method).requestState
    omega
  | @stream t handle _ _ _ _ _ _ _ ih =>
    have hkept : (t.spent.closeStream .disconnected handle).nextId = t.nextId + 1 :=
      nextId_eq_of_requestState
        (StreamsOnly.closeStream t.spent .disconnected handle).requestState
    omega

theorem liveTable (h : Skips s t) (hs : LiveTable s) : LiveTable t := by
  induction h with
  | refl => exact hs
  | call _ _ ih => exact ih.of_streamState (Aside.failStanding _ _).streamState
  | @stream t _ _ _ _ _ _ _ _ ih =>
    exact LiveTable.closeStream (ih.of_streamState (t := t.spent) rfl) _ _

theorem accounted (h : Skips s t) (hs : Accounted s) : Accounted t := by
  have hspent {u : Session} (hu : Accounted u) : Accounted u.spent :=
    { hu with
      below := fun id hid ↦ Nat.lt_succ_of_lt (hu.below id hid)
      sentBelow := fun call hcall ↦ Nat.lt_succ_of_lt (hu.sentBelow call hcall) }
  induction h with
  | refl => exact hs
  | call _ _ ih => exact (hspent ih).aside (.failStanding _ _)
  | stream _ _ _ _ ih => exact (hspent ih).streamsOnly (.closeStream _ _ _)

/-- The streams that are still open were open before. -/
theorem get?_of_get? (h : Skips s t) {handle : Nat} {subscription : Subscription}
    (hget : t.subscriptions.get? handle = some subscription) :
    s.subscriptions.get? handle = some subscription := by
  induction h with
  | refl => exact hget
  | call _ _ ih =>
    rw [failStanding_subscriptions] at hget
    exact ih hget
  | stream _ _ _ _ ih =>
    rw [get?_closeStream] at hget
    split at hget
    · cases hget
    · exact ih hget

theorem keys_sublist (h : Skips s t) : t.subscriptions.keys.Sublist s.subscriptions.keys := by
  induction h with
  | refl => exact List.Sublist.refl _
  | call _ _ ih =>
    rw [failStanding_subscriptions]
    exact ih
  | @stream t handle _ _ _ _ _ _ _ ih =>
    exact (keys_closeStream_sublist t.spent .disconnected handle).trans ih

end Skips

/-! ### One pass -/

/-- What a session comes to that goes on to restore its link, where some requests are still to be
made for the standing and some streams were started again. -/
inductive Pass (s : Session) (requests : List Request) (restarted : List Nat) : Session → Prop
  /-- The next call for the standing is made. -/
  | call {t : Session} {request : Request} {frame : Octets} {rest : List Request}
      (hskips : Skips s t) (hframe : t.frameOf request t.nextId = .ok frame)
      (hframed : s.framed s.nextId (own requests) =
        ⟨t.nextId, .restoration, request, frame⟩ :: t.framed (t.nextId + 1) (own rest)) :
      Pass s requests restarted ((t.launch .restoration request frame).await
        { awaited := .standing request.method, remaining := rest })
  /-- The first stream that was not started again is started. -/
  | stream {t : Session} {handle : Nat} {handles : List Nat} {subscription : Subscription}
      {query : LiveQuery} {frame : Octets} (hskips : Skips s t)
      (hframed : s.framed s.nextId (own requests) = [])
      (hfirst : t.unrestarted restarted = handle :: handles)
      (hget : t.subscriptions.get? handle = some subscription)
      (hquery : subscription.query = some query)
      (hframe : t.frameOf query.request t.nextId = .ok frame) :
      Pass s requests restarted ((t.launch .restoration query.request frame).await
        { awaited := .stream handle, remaining := [], restarted := handle :: restarted })
  /-- Nothing is left to restore. -/
  | done {t : Session} (hskips : Skips s t) (hframed : s.framed s.nextId (own requests) = [])
      (hnone : t.unrestarted restarted = []) : Pass s requests restarted t.resume

/-- A pass may begin with calls that cannot be written. -/
theorem Pass.prepend {s t final : Session} {requests rest : List Request} {restarted : List Nat}
    (hskips : Skips s t)
    (hframed : s.framed s.nextId (own requests) = t.framed t.nextId (own rest))
    (h : Pass t rest restarted final) : Pass s requests restarted final := by
  cases h with
  | call hnext hframe heq => exact .call (hskips.trans hnext) hframe (hframed.trans heq)
  | stream hnext heq hfirst hget hquery hframe =>
    exact .stream (hskips.trans hnext) (hframed.trans heq) hfirst hget hquery hframe
  | done hnext heq hnone => exact .done (hskips.trans hnext) (hframed.trans heq) hnone

theorem restartFirst_pass (restarted handles : List Nat) :
    ∀ s : Session, LiveTable s → s.unrestarted restarted = handles →
      Pass s [] restarted (s.restartFirst restarted handles) := by
  induction handles with
  | nil => exact fun s _ hnone ↦ .done .refl rfl hnone
  | cons handle rest ih =>
    intro s hs hfirst
    obtain ⟨-, subscription, query, hget, hquery⟩ :=
      (mem_unrestarted_iff hs.nodup).mp (hfirst ▸ List.mem_cons_self)
    have hbind : (s.subscriptions.get? handle).bind Subscription.query = some query := by
      rw [hget, Option.bind_some, hquery]
    unfold restartFirst
    simp only [hbind]
    cases hframe : s.frameOf query.request s.nextId with
    | ok frame =>
      rw [dispatch_of_frameOf_ok s _ _ hframe]
      exact .stream .refl rfl hfirst hget hquery hframe
    | error error =>
      rw [dispatch_of_frameOf_error s _ _ hframe]
      have hskips := Skips.refl.stream hget hquery hframe
      refine Pass.prepend hskips rfl (ih _ (hskips.liveTable hs) ?_)
      exact unrestarted_closeStream (s := s.spent) hs.nodup hfirst _

theorem restartStreams_pass {s : Session} (hs : LiveTable s) (restarted : List Nat) :
    Pass s [] restarted (s.restartStreams restarted) :=
  restartFirst_pass restarted _ s hs rfl

theorem restore_pass (requests : List Request) :
    ∀ s : Session, LiveTable s → Pass s requests [] (s.restore requests) := by
  induction requests with
  | nil => exact fun s hs ↦ restartStreams_pass hs []
  | cons request rest ih =>
    intro s hs
    unfold restore
    cases hframe : s.frameOf request s.nextId with
    | ok frame =>
      rw [dispatch_of_frameOf_ok s _ _ hframe]
      refine .call .refl hframe ?_
      simp only [own, List.map_cons, framed, hframe]
    | error error =>
      rw [dispatch_of_frameOf_error s _ _ hframe]
      have hskips := Skips.refl.call hframe
      refine Pass.prepend hskips ?_ (ih _ (hskips.liveTable hs))
      have hnextId : (s.spent.failStanding request.method).nextId =
          s.nextId + 1 :=
        nextId_eq_of_requestState (Aside.failStanding s.spent request.method).requestState
      rw [hnextId, framed_congr hskips.passed.payloadLimit]
      simp only [own, List.map_cons, framed, hframe]

/-! ### What an answer means -/

/-- What the answer to the call that was awaited means. -/
def conclude (s : Session) (response : Response) : Restored → Session
  | .standing method => s.settleStanding method response
  | .stream handle => s.settleStream handle response

/-- The calls that are still to be made for the standing. -/
def Restoration.left (restoration : Restoration) : List Request :=
  match restoration.awaited with
  | .standing _ => restoration.remaining
  | .stream _ => []

/-- The streams whose queries were started again. -/
def Restoration.begun (restoration : Restoration) : List Nat :=
  match restoration.awaited with
  | .standing _ => []
  | .stream _ => restoration.restarted

/-- Leading a stream to a new id opens none, and leaves its query and the ids of the others. -/
theorem get?_of_rebind {s : Session} {bound handle : Nat} {id : Uuid} {subscription : Subscription}
    (hget : (s.rebind bound id).subscriptions.get? handle = some subscription) :
    ∃ old, s.subscriptions.get? handle = some old ∧ old.query = subscription.query ∧
      subscription.id = if bound = handle then id else old.id := by
  cases hbound : s.subscriptions.get? bound with
  | none =>
    simp only [rebind, hbound] at hget
    refine ⟨subscription, hget, rfl, ?_⟩
    split
    · next hsame =>
      rw [hsame, hget] at hbound
      cases hbound
    · rfl
  | some previous =>
    rw [rebind_subscriptions hbound] at hget
    simp only [rebound, Table.get?_set] at hget
    split at hget
    · next hsame =>
      cases hget
      exact ⟨previous, hsame ▸ hbound, rfl, by rw [if_pos hsame]⟩
    · next hother => exact ⟨subscription, hget, rfl, by rw [if_neg hother]⟩

/-- What the answer to the call that was awaited does: a part of the standing stands or is taken
back, or a stream is closed or gets the id that it is given. -/
inductive Concludes (s : Session) (response : Response) : Restored → Session → Prop
  | stands {method : String} : Concludes s response (.standing method) s
  | fails {method : String} : Concludes s response (.standing method) (s.failStanding method)
  | closes {handle : Nat}
      (hresponse : ∀ result id, response = .ok result → Uuid.ofValue result ≠ .ok id) :
      Concludes s response (.stream handle) (s.closeStream .disconnected handle)
  | rebinds {handle : Nat} {result : Value} {id : Uuid} (hresponse : response = .ok result)
      (hid : Uuid.ofValue result = .ok id) :
      Concludes s response (.stream handle) (s.rebind handle id)

theorem concludes (s : Session) (response : Response) (awaited : Restored) :
    Concludes s response awaited (s.conclude response awaited) := by
  cases awaited with
  | standing method =>
    cases response with
    | ok result => exact .stands
    | error error => exact .fails
  | stream handle =>
    simp only [conclude]
    rcases settleStream_cases s handle response with
      ⟨hclosed, hresponse⟩ | ⟨result, id, hresponse, hid, hbound⟩
    · rw [hclosed]
      exact .closes hresponse
    · rw [hbound]
      exact .rebinds hresponse hid

namespace Concludes

variable {s t : Session} {response : Response} {awaited : Restored}

theorem passed (h : Concludes s response awaited t) : Passed s t := by
  cases h with
  | stands => exact .refl s
  | fails => exact .failStanding s _
  | closes _ => exact .closeStream s .disconnected _
  | rebinds _ _ => exact .rebind s _ _

theorem nextId (h : Concludes s response awaited t) : t.nextId = s.nextId := by
  cases h with
  | stands => rfl
  | fails => exact nextId_eq_of_requestState (Aside.failStanding s _).requestState
  | closes _ => exact nextId_eq_of_requestState (StreamsOnly.closeStream s _ _).requestState
  | rebinds _ _ => exact nextId_eq_of_requestState (StreamsOnly.rebind s _ _).requestState

theorem liveTable (h : Concludes s response awaited t) (hs : s.LiveTable) : t.LiveTable := by
  cases h with
  | stands => exact hs
  | fails => exact hs.of_streamState (Aside.failStanding s _).streamState
  | closes _ => exact hs.closeStream _ _
  | rebinds _ _ => exact hs.rebind _ _

theorem accounted (h : Concludes s response awaited t) (hs : s.Accounted) : t.Accounted := by
  cases h with
  | stands => exact hs
  | fails => exact hs.aside (.failStanding s _)
  | closes _ => exact hs.streamsOnly (.closeStream s _ _)
  | rebinds _ _ => exact hs.streamsOnly (.rebind s _ _)

theorem keys_sublist (h : Concludes s response awaited t) :
    t.subscriptions.keys.Sublist s.subscriptions.keys := by
  cases h with
  | stands => exact List.Sublist.refl _
  | fails => rw [failStanding_subscriptions]
  | closes _ => exact keys_closeStream_sublist s _ _
  | rebinds _ _ => rw [keys_rebind]

/-- A stream that is open after the answer was open before. It keeps its id, unless the answer was
for it and gave the id that it has. -/
theorem get?_of_get? (h : Concludes s response awaited t) {handle : Nat}
    {subscription : Subscription} (hget : t.subscriptions.get? handle = some subscription) :
    ∃ old, s.subscriptions.get? handle = some old ∧ old.query = subscription.query ∧
      (awaited = .stream handle →
        ∃ result, response = .ok result ∧ Uuid.ofValue result = .ok subscription.id) ∧
      (awaited ≠ .stream handle → subscription.id = old.id) := by
  cases h with
  | stands => exact ⟨subscription, hget, rfl, by simp, fun _ ↦ rfl⟩
  | fails =>
    rw [failStanding_subscriptions] at hget
    exact ⟨subscription, hget, rfl, by simp, fun _ ↦ rfl⟩
  | @closes bound _ =>
    rw [get?_closeStream] at hget
    split at hget
    · cases hget
    · next hother => exact ⟨subscription, hget, rfl, by simp [hother], fun _ ↦ rfl⟩
  | @rebinds bound result id hresponse hid =>
    obtain ⟨old, hold, hquery, hsame⟩ := get?_of_rebind hget
    refine ⟨old, hold, hquery, fun heq ↦ ?_, fun hne ↦ ?_⟩
    · rw [if_pos (Restored.stream.inj heq)] at hsame
      exact ⟨result, hresponse, hsame ▸ hid⟩
    · rwa [if_neg fun heq ↦ hne (congrArg Restored.stream heq)] at hsame

end Concludes

/-- Once the call that was awaited is answered, the restoration goes on. -/
theorem answered_pass (s : Session) (response : Response) (h : LiveTable s) (id : Nat)
    (restoration : Restoration) :
    Pass ((s.routeReply id response).conclude response restoration.awaited) restoration.left
      restoration.begun ((s.routeReply id response).attendRestoration
        { restoration with answer := some response }) := by
  have hconcluded := (concludes (s.routeReply id response) response restoration.awaited).liveTable
    (h.of_streamState (RequestsOnly.routeReply s id response).streamState)
  unfold attendRestoration
  cases hawaited : restoration.awaited with
  | standing method =>
    simp only [conclude, Restoration.left, Restoration.begun, hawaited] at hconcluded ⊢
    exact restore_pass _ _ hconcluded
  | stream handle =>
    simp only [conclude, Restoration.left, Restoration.begun, hawaited] at hconcluded ⊢
    exact restartStreams_pass hconcluded _

end Session

end Wireline

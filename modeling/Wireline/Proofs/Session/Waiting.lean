import Wireline.Proofs.Session.Restoring

/-!
# Calls that wait

What callers ask for while a session has no link to serve them waits, and is handled once the link
is restored or the session is over. `Handles` says which calls were handled between two states, and
`Drains` that of the calls that waited these are the oldest. Calls that are sent one after the other
get one id after the other (`dispatchCalls_spec`), and the calls that wait are the first to be sent
when a session serves again (`served_handles`).
-/

set_option autoImplicit false
set_option relaxedAutoImplicit false

namespace Wireline

namespace Session

/-! ### What has become of calls -/

/-- The caller whose call is handled with an effect: it is put under way, or refused. -/
def Effect.handled? : Effect → Option Ticket
  | .dispatched _ (.caller ticket) => some ticket
  | .tell ticket (.refused _) => some ticket
  | _ => none

/-- The calls that were handled, the oldest first. -/
def handled (s : Session) : List Ticket :=
  s.outbox.filterMap Effect.handled?

/-- The call of a caller that a frame makes. -/
def Outgoing.call? (outgoing : Outgoing) : Option (Ticket × Request) :=
  match outgoing.origin with
  | .caller ticket => some (ticket, outgoing.request)
  | _ => none

/-- The calls of callers that were handed to a link, the oldest first. -/
def writtenCalls (s : Session) : List (Ticket × Request) :=
  s.written.filterMap Outgoing.call?

/-- Calls of callers, as they are framed. -/
def ofCallers (calls : List (Ticket × Request)) : List (Origin × Request) :=
  calls.map fun call ↦ (.caller call.1, call.2)

/-- Some calls were handled one after the other, and no others. Not all of them need have been
handed to a link. -/
structure Handles (s : Session) (calls : List (Ticket × Request)) (t : Session) : Prop where
  handled : t.handled = s.handled ++ calls.map Prod.fst
  written : ∃ frames, t.writtenCalls = s.writtenCalls ++ frames ∧ frames.Sublist calls

/-- Of the calls that wait, the oldest were handled. -/
def Drains (s t : Session) : Prop :=
  ∃ calls, s.deferred = calls ++ t.deferred ∧ Handles s calls t

namespace Handles

variable {s t u : Session} {first second : List (Ticket × Request)}

theorem trans (hst : Handles s first t) (htu : Handles t second u) :
    Handles s (first ++ second) u where
  handled := by rw [htu.handled, hst.handled, List.map_append, List.append_assoc]
  written := by
    obtain ⟨frames, hframes, hfirst⟩ := hst.written
    obtain ⟨more, hmore, hsecond⟩ := htu.written
    exact ⟨frames ++ more, by rw [hmore, hframes, List.append_assoc], hfirst.append hsecond⟩

/-- Nothing about calls shows in effects that neither handle nor write one. -/
theorem of_emits {p : Effect → Prop} (h : Emits p s t)
    (hhandled : ∀ effect, p effect → effect.handled? = none)
    (hwritten : ∀ effect, p effect → effect.outgoing?.bind Outgoing.call? = none) :
    Handles s [] t where
  handled := by
    rw [List.map_nil, List.append_nil]
    exact h.filterMap_outbox hhandled
  written := by
    refine ⟨[], ?_, .slnil⟩
    have hview (u : Session) : u.writtenCalls =
        u.outbox.filterMap fun effect ↦ effect.outgoing?.bind Outgoing.call? :=
      List.filterMap_filterMap
    rw [hview, hview, List.append_nil]
    exact h.filterMap_outbox hwritten

theorem of_idle (h : Emits Effect.IsIdle s t) : Handles s [] t := by
  refine of_emits h ?_ ?_
  · intro effect heffect
    unfold Effect.handled?
    split
    · exact heffect.elim
    · exact heffect.elim
    · rfl
  · intro effect heffect
    rw [heffect.isQuiet.outgoing?, Option.bind_none]

end Handles

namespace Drains

variable {s t u : Session}

theorem trans (hst : Drains s t) (htu : Drains t u) : Drains s u := by
  obtain ⟨first, hfirst, hhandled⟩ := hst
  obtain ⟨second, hsecond, hhandled'⟩ := htu
  exact ⟨first ++ second, by rw [hfirst, hsecond, List.append_assoc], hhandled.trans hhandled'⟩

theorem of_handles (h : Handles s [] t) (hdeferred : t.deferred = s.deferred) : Drains s t :=
  ⟨[], by rw [hdeferred, List.nil_append], h⟩

theorem of_idle (h : Emits Effect.IsIdle s t) (hdeferred : t.deferred = s.deferred) : Drains s t :=
  of_handles (.of_idle h) hdeferred

end Drains

/-! ### Calls of callers -/

theorem RequestsOnly.dispatchCall (s : Session) (ticket : Ticket) (request : Request) :
    RequestsOnly s (s.dispatchCall ticket request) := by
  have hdispatched := RequestsOnly.dispatch s (.caller ticket) request
  have htold (t : Session) (answer : Answer) : RequestsOnly t (t.tell ticket answer) := by rfl
  rcases dispatchCall_cases s ticket request with h | ⟨error, h⟩
  · rw [h]
    exact hdispatched
  · rw [h]
    exact hdispatched.trans (htold _ _)

theorem RequestsOnly.dispatchCalls (calls : List (Ticket × Request)) (s : Session) :
    RequestsOnly s (calls.foldl (fun s call ↦ s.dispatchCall call.1 call.2) s) := by
  refine RequestsOnly.foldl (fun t call ↦ ?_) calls s
  exact RequestsOnly.dispatchCall t call.1 call.2

theorem RequestsOnly.payloadLimit {s t : Session} (h : RequestsOnly s t) :
    t.payloadLimit = s.payloadLimit :=
  (congrArg Session.payloadLimit h : _)

theorem RequestsOnly.status {s t : Session} (h : RequestsOnly s t) : t.status = s.status :=
  (congrArg Session.status h : _)

theorem RequestsOnly.deferred {s t : Session} (h : RequestsOnly s t) : t.deferred = s.deferred :=
  (congrArg Session.deferred h : _)

theorem RequestsOnly.subscriptions {s t : Session} (h : RequestsOnly s t) :
    t.subscriptions = s.subscriptions :=
  (congrArg Session.subscriptions h : _)

/-- The calls of callers are sent one after the other: each that can be framed gets the next id, and
is written if the link takes frames. -/
theorem dispatchCalls_spec (calls : List (Ticket × Request)) : ∀ s : Session,
    let t := calls.foldl (fun s call ↦ s.dispatchCall call.1 call.2) s
    t.sent = s.sent ++ (s.framed s.nextId (ofCallers calls)).map (fun outgoing ↦
      (outgoing.id, outgoing.origin)) ∧
    t.written = s.written ++
      (if s.link = .whole then s.framed s.nextId (ofCallers calls) else []) ∧
    t.handled = s.handled ++ calls.map Prod.fst := by
  induction calls with
  | nil =>
    intro s
    simp [ofCallers, framed]
  | cons call rest ih =>
    obtain ⟨ticket, request⟩ := call
    intro s
    have hrequests := RequestsOnly.dispatchCall s ticket request
    obtain ⟨hsent, hwritten, hhandled⟩ := ih (s.dispatchCall ticket request)
    rw [framed_congr hrequests.payloadLimit] at hsent hwritten
    rw [hrequests.link] at hwritten
    simp only [List.foldl_cons, hsent, hwritten, hhandled]
    cases hframe : s.frameOf request s.nextId with
    | error error =>
      have hcall : s.dispatchCall ticket request = s.spent.tell ticket (.refused error) := by
        rw [dispatchCall, dispatch_of_frameOf_error s _ _ hframe]
      rw [hcall]
      refine ⟨?_, ?_, ?_⟩
      · simp [sent, tell, push, spent, ofCallers, framed, hframe, Effect.call?]
      · simp [written, tell, push, spent, ofCallers, framed, hframe, Effect.outgoing?]
      · simp [handled, tell, push, spent, Effect.handled?]
    | ok frame =>
      have hcall : s.dispatchCall ticket request = s.launch (.caller ticket) request frame := by
        rw [dispatchCall, dispatch_of_frameOf_ok s _ _ hframe]
      rw [hcall, sent_launch, written_launch, launch_nextId]
      refine ⟨?_, ?_, ?_⟩
      · simp [ofCallers, framed, hframe]
      · split <;> simp [ofCallers, framed, hframe]
      · rw [handled, launch_outbox]
        split <;> simp [Effect.handled?, handled]

theorem filterMap_call?_framed (s : Session) (calls : List (Ticket × Request)) (id : Nat) :
    ((s.framed id (ofCallers calls)).filterMap Outgoing.call?).Sublist calls := by
  have hcalls : (ofCallers calls).filterMap (fun call ↦
      match call.1 with
      | .caller ticket => some (ticket, call.2)
      | _ => none) = calls := by
    rw [ofCallers, List.filterMap_map]
    exact List.filterMap_some
  have hframed := (framed_sublist s (ofCallers calls) id).filterMap fun call ↦
    match call.1 with
    | .caller ticket => some (ticket, call.2)
    | _ => none
  rw [hcalls, List.filterMap_map] at hframed
  exact hframed

theorem dispatchCalls_handles (s : Session) (calls : List (Ticket × Request)) :
    Handles s calls (calls.foldl (fun s call ↦ s.dispatchCall call.1 call.2) s) where
  handled := (dispatchCalls_spec calls s).2.2
  written := by
    rw [writtenCalls, (dispatchCalls_spec calls s).2.1, List.filterMap_append]
    refine ⟨_, rfl, ?_⟩
    split
    · exact filterMap_call?_framed s calls s.nextId
    · exact List.nil_sublist calls

/-- A call of the session itself is none of the calls of callers. -/
theorem Handles.launch (s : Session) {origin : Origin} (horigin : ∀ ticket, origin ≠ .caller ticket)
    (request : Request) (frame : Octets) : Handles s [] (s.launch origin request frame) := by
  refine Handles.of_emits (p := fun effect ↦ effect.handled? = none ∧
    effect.outgoing?.bind Outgoing.call? = none) ⟨_, launch_outbox s origin request frame, ?_⟩
    (fun _ h ↦ h.1) (fun _ h ↦ h.2)
  have hnobody : Effect.handled? (.dispatched s.nextId origin) = none ∧
      Outgoing.call? ⟨s.nextId, origin, request, frame⟩ = none := by
    cases origin with
    | caller ticket => exact absurd rfl (horigin ticket)
    | _ => exact ⟨rfl, rfl⟩
  intro effect heffect
  rcases List.mem_cons.mp heffect with rfl | hsend
  · exact ⟨hnobody.1, rfl⟩
  · split at hsend
    · rw [List.mem_singleton.mp hsend]
      exact ⟨rfl, hnobody.2⟩
    · cases hsend

/-! ### What is left as it is -/

theorem setStatus_status (s : Session) (status : Status) :
    (s.setStatus status).status = status := by
  unfold setStatus
  split
  · assumption
  · rfl

theorem setStatus_deferred (s : Session) (status : Status) :
    (s.setStatus status).deferred = s.deferred := by
  unfold setStatus
  split <;> rfl

theorem hangUp_deferred (s : Session) : s.hangUp.deferred = s.deferred := by
  unfold hangUp
  split <;> rfl

theorem StreamsOnly.deferred {s t : Session} (h : StreamsOnly s t) : t.deferred = s.deferred :=
  (congrArg Session.deferred h : _)

theorem StreamsOnly.status {s t : Session} (h : StreamsOnly s t) : t.status = s.status :=
  (congrArg Session.status h : _)

/-! ### The end -/

/-- All calls that wait are refused. -/
theorem refuseDeferred_handles (s : Session) (error : ClientError) :
    Handles s s.deferred (s.refuseDeferred error) := by
  have hall (calls : List (Ticket × Request)) : ∀ t : Session,
      Handles t calls (calls.foldl (fun t call ↦ t.tell call.1 (.refused error)) t) := by
    induction calls with
    | nil => exact fun t ↦ .of_idle (.refl t)
    | cons call rest ih =>
      intro t
      have hone : Handles t [call] (t.tell call.1 (.refused error)) := by
        constructor
        · simp [handled, tell, push, Effect.handled?]
        · exact ⟨[], by simp [writtenCalls, written, tell, push, Effect.outgoing?],
            List.nil_sublist _⟩
      exact hone.trans (ih _)
  have hforgotten : Handles s [] { s with deferred := [] } := .of_idle (.of_eq rfl)
  exact hforgotten.trans (hall s.deferred _)

theorem refuseDeferred_deferred (s : Session) (error : ClientError) :
    (s.refuseDeferred error).deferred = [] := by
  refine Eq.trans (foldl_keeps deferred ?_ s.deferred _) ?_
  · exact fun t call ↦ rfl
  · rfl

theorem ended_drains (s : Session) (reason : DisconnectReason) :
    Drains s (s.ended reason) ∧ (s.ended reason).deferred = [] := by
  have hidle : Emits Effect.IsIdle s (s.hangUp.replyToAll (.failed (.disconnected reason))) :=
    (Emits.hangUp s).trans (.replyToAll _ _)
  have hkept := (RequestsOnly.replyToAll s.hangUp (.failed (.disconnected reason))).deferred.trans
    (hangUp_deferred s)
  have hclosed := StreamsOnly.closeStreams ((s.hangUp.replyToAll
    (.failed (.disconnected reason))).refuseDeferred (.disconnected reason)) .disconnected
    fun _ ↦ true
  have hnone : (s.ended reason).deferred = [] :=
    hclosed.deferred.trans (refuseDeferred_deferred _ _)
  refine ⟨⟨s.deferred, by rw [hnone, List.append_nil], ?_⟩, hnone⟩
  have hrefused := refuseDeferred_handles (s.hangUp.replyToAll (.failed (.disconnected reason)))
    (.disconnected reason)
  rw [hkept] at hrefused
  have hhandles := ((Handles.of_idle hidle).trans hrefused).trans
    (.of_idle (Emits.streamsOnly hclosed))
  rw [List.nil_append, List.append_nil] at hhandles
  exact hhandles

/-! ### Serving again -/

theorem attend_quiet (s : Session) : Emits Effect.IsQuiet s s.attend := by
  unfold attend
  split
  · exact .shutdown s _
  · split
    · exact .lose s
    · exact .refl s

/-- The state in which a session that serves again has handled the calls that waited. -/
def served (s : Session) : Session :=
  (s.setStatus .connected).deferred.foldl (fun s call ↦ s.dispatchCall call.1 call.2)
    { s.setStatus .connected with deferred := [] }

theorem resume_eq (s : Session) : ∃ backoff tick,
    s.resume = { s.served with backoff := backoff, phase := .serving tick }.attend :=
  ⟨_, _, rfl⟩

theorem setStatus_handles (s : Session) (status : Status) : Handles s [] (s.setStatus status) := by
  refine Handles.of_emits (p := fun effect ↦ effect = .status status) ?_ ?_ ?_
  · unfold setStatus
    split
    · exact .refl s
    · exact ⟨[.status status], rfl, by simp⟩
  · rintro effect rfl
    rfl
  · rintro effect rfl
    rfl

theorem served_handles (s : Session) : Handles s s.deferred s.served := by
  have hforgotten : Handles (s.setStatus .connected) []
      { s.setStatus .connected with deferred := [] } := .of_idle (.of_eq rfl)
  have hserved : Handles s (s.setStatus .connected).deferred s.served :=
    ((setStatus_handles s .connected).trans hforgotten).trans (dispatchCalls_handles _ _)
  rwa [setStatus_deferred] at hserved

theorem served_requestsOnly (s : Session) :
    RequestsOnly { s.setStatus .connected with deferred := [] } s.served :=
  .dispatchCalls (s.setStatus .connected).deferred _

theorem resume_nextId_le (s : Session) : s.nextId ≤ s.resume.nextId := by
  have hcall (t : Session) (call : Ticket × Request) :
      t.nextId ≤ (t.dispatchCall call.1 call.2).nextId := by
    rcases dispatchCall_cases t call.1 call.2 with h | ⟨error, h⟩
    · rw [h, dispatch_nextId]
      exact Nat.le_succ _
    · rw [h]
      exact Nat.le_trans (Nat.le_succ _) (Nat.le_of_eq (dispatch_nextId t _ _).symm)
  have hcalls (calls : List (Ticket × Request)) : ∀ t : Session,
      t.nextId ≤ (calls.foldl (fun t call ↦ t.dispatchCall call.1 call.2) t).nextId := by
    induction calls with
    | nil => exact fun t ↦ Nat.le_refl _
    | cons call rest ih => exact fun t ↦ Nat.le_trans (hcall t call) (ih _)
  have hsaid : (s.setStatus .connected).nextId = s.nextId :=
    nextId_eq_of_requestState (Aside.setStatus s .connected).requestState
  obtain ⟨backoff, tick, hresume⟩ := resume_eq s
  rw [hresume, attend_nextId, ← hsaid]
  exact hcalls _ { s.setStatus .connected with deferred := [] }

/-! ### Keep-alives -/

/-- A keep-alive is sent under an id of its own, if at all. -/
theorem ping_eq (s : Session) : s.ping = s ∨ s.ping = s.spent ∨
    ∃ frame, s.ping = { s.launch .keepAlive ⟨"ping", []⟩ frame with
      lastKeepAlive := some s.nextId } := by
  unfold ping
  split
  · exact .inl rfl
  · cases hframe : s.frameOf ⟨"ping", []⟩ s.nextId with
    | error error =>
      rw [dispatch_of_frameOf_error s _ _ hframe]
      exact .inr (.inl rfl)
    | ok frame =>
      rw [dispatch_of_frameOf_ok s _ _ hframe]
      exact .inr (.inr ⟨frame, rfl⟩)

theorem ping_drains (s : Session) :
    Drains s s.ping ∧ s.ping.status = s.status ∧ s.ping.deferred = s.deferred := by
  rcases ping_eq s with h | h | ⟨frame, h⟩
  · rw [h]
    exact ⟨.of_idle (.refl s) rfl, rfl, rfl⟩
  · rw [h]
    exact ⟨.of_idle (.of_eq rfl) rfl, rfl, rfl⟩
  · have hlaunched := RequestsOnly.launch s .keepAlive ⟨"ping", []⟩ frame
    have hhandles : Handles s [] (s.launch .keepAlive ⟨"ping", []⟩ frame) :=
      .launch s (by simp) _ frame
    have hnoted (t : Session) (id : Nat) : Handles t [] { t with lastKeepAlive := some id } :=
      .of_idle (.of_eq rfl)
    rw [h]
    exact ⟨.of_handles (hhandles.trans (hnoted _ _)) hlaunched.deferred, hlaunched.status,
      hlaunched.deferred⟩

end Session

end Wireline

import Mathlib.Data.List.Perm.Subperm
import Wireline.Proofs.Session.Course

/-!
# Keep-alives

A session sends a keep-alive only when the last one is not awaited any more. Nothing else that it
does sends one or touches its note of the last one (`Spares`), and every turn but the one that is
due at a time is of this kind (`Turn.spares`). So the only keep-alive that can be awaited is the one
that is noted (`RemembersKeepAlive`), through losses of the link, reconnections and the end of the
session.
-/

set_option autoImplicit false
set_option relaxedAutoImplicit false

namespace Wireline

namespace Session

/-! ### What sends no keep-alive -/

/-- The effect does not put a keep-alive under way. -/
def Effect.IsNoKeepAlive : Effect → Prop
  | .dispatched _ .keepAlive => False
  | _ => True

theorem Effect.IsQuiet.isNoKeepAlive {effect : Effect} (h : effect.IsQuiet) :
    effect.IsNoKeepAlive := by
  cases effect with
  | dispatched id origin => exact h.elim
  | _ => trivial

/-- Between two states no keep-alive was sent, and the note of the last one was left alone. -/
structure Spares (s t : Session) : Prop where
  last : t.lastKeepAlive = s.lastKeepAlive
  silent : Emits Effect.IsNoKeepAlive s t

namespace Spares

variable {s t u : Session}

theorem of_eq (hlast : t.lastKeepAlive = s.lastKeepAlive) (houtbox : t.outbox = s.outbox) :
    Spares s t :=
  ⟨hlast, .of_eq houtbox⟩

theorem refl (s : Session) : Spares s s :=
  of_eq rfl rfl

theorem trans (hst : Spares s t) (htu : Spares t u) : Spares s u :=
  ⟨htu.last.trans hst.last, hst.silent.trans htu.silent⟩

theorem foldl {α : Type} {f : Session → α → Session} (hf : ∀ s a, Spares s (f s a))
    (items : List α) (s : Session) : Spares s (items.foldl f s) :=
  foldl_related refl trans hf items s

theorem push (s : Session) {effect : Effect} (h : effect.IsNoKeepAlive) :
    Spares s (s.push effect) :=
  ⟨rfl, .push s h⟩

theorem tell (s : Session) (ticket : Ticket) (answer : Answer) : Spares s (s.tell ticket answer) :=
  push s trivial

theorem streamsOnly (h : StreamsOnly s t) : Spares s t :=
  of_eq (congrArg Session.lastKeepAlive h :) h.outbox

theorem passed (h : Passed s t) : Spares s t :=
  of_eq (congrArg Session.lastKeepAlive h :) h.outbox

theorem requestsOnly (h : RequestsOnly s t) (hsilent : Emits Effect.IsNoKeepAlive s t) :
    Spares s t :=
  ⟨(congrArg Session.lastKeepAlive h :), hsilent⟩

theorem setStatus (s : Session) (status : Status) : Spares s (s.setStatus status) := by
  unfold Session.setStatus
  split
  · exact refl s
  · have hset : Spares s { s with status } := of_eq rfl rfl
    exact hset.trans (push _ trivial)

theorem hangUp (s : Session) : Spares s s.hangUp := by
  unfold Session.hangUp
  split
  · exact refl s
  · have hgone : Spares s { s with link := .none } := of_eq rfl rfl
    exact hgone.trans (push _ trivial)

/-! #### Requests -/

/-- Requests of callers and of the session itself are not keep-alives. -/
theorem launch (s : Session) {origin : Origin} (horigin : origin ≠ .keepAlive) (request : Request)
    (frame : Octets) : Spares s (s.launch origin request frame) := by
  refine requestsOnly (.launch s origin request frame)
    ⟨_, launch_outbox s origin request frame, fun effect heffect ↦ ?_⟩
  have hnone : Effect.IsNoKeepAlive (.dispatched s.nextId origin) := by
    cases origin with
    | keepAlive => exact absurd rfl horigin
    | _ => trivial
  rcases List.mem_cons.mp heffect with rfl | hsend
  · exact hnone
  · split at hsend
    · rw [List.mem_singleton.mp hsend]
      trivial
    · cases hsend

theorem dispatchCall (s : Session) (ticket : Ticket) (request : Request) :
    Spares s (s.dispatchCall ticket request) := by
  have hdispatched : Spares s (s.dispatch (.caller ticket) request).1 := by
    rcases dispatch_cases s (.caller ticket) request with ⟨error, h⟩ | ⟨frame, h⟩
    · rw [h]
      exact of_eq rfl rfl
    · rw [h]
      exact launch s (by simp) request frame
  rcases dispatchCall_cases s ticket request with h | ⟨error, h⟩
  · rw [h]
    exact hdispatched
  · rw [h]
    exact hdispatched.trans (tell _ _ _)

theorem routeReply (s : Session) (id : Nat) (response : Response) :
    Spares s (s.routeReply id response) :=
  requestsOnly (.routeReply s id response)
    ((Emits.routeReply s id response).mono fun _ h ↦ h.isQuiet.isNoKeepAlive)

theorem replyToAll (s : Session) (reply : Reply) : Spares s (s.replyToAll reply) :=
  requestsOnly (.replyToAll s reply)
    ((Emits.replyToAll s reply).mono fun _ h ↦ h.isQuiet.isNoKeepAlive)

theorem refuseDeferred (s : Session) (error : ClientError) :
    Spares s (s.refuseDeferred error) := by
  have hforgotten : Spares s { s with deferred := [] } := of_eq rfl rfl
  exact hforgotten.trans (foldl (fun t (call : Ticket × Request) ↦ tell t call.1 _) _ _)

/-! #### The loss of a link -/

theorem stop (s : Session) : Spares s s.stop := by
  have hstopped (t : Session) : Spares t ({ t with phase := .stopped }.push .stopped) := by
    have hphase : Spares t { t with phase := .stopped } := of_eq rfl rfl
    exact hphase.trans (push _ trivial)
  unfold Session.stop
  split
  · exact (tell s _ _).trans (hstopped _)
  · exact hstopped s

theorem shutdown (s : Session) (reason : DisconnectReason) : Spares s (s.shutdown reason) := by
  have hended : Spares s (s.ended reason) :=
    (((hangUp s).trans (replyToAll _ _)).trans (refuseDeferred _ _)).trans
      (streamsOnly (.closeStreams _ _ _))
  rw [shutdown_eq]
  split
  · have hcleared : Spares (s.ended reason) { s.ended reason with standing := {} } := of_eq rfl rfl
    exact ((hended.trans hcleared).trans (setStatus _ _)).trans (stop _)
  · have hsettled : Spares ((s.ended reason).setStatus (statusAfter reason))
        { (s.ended reason).setStatus (statusAfter reason) with phase := .settled } := of_eq rfl rfl
    exact (hended.trans (setStatus _ _)).trans hsettled

theorem retryLater (s : Session) : Spares s s.retryLater := by
  unfold Session.retryLater
  split
  · exact of_eq rfl rfl
  · next backoff error _ =>
    have hcounted : Spares s { s with backoff } := of_eq rfl rfl
    exact hcounted.trans (shutdown _ _)

theorem lose (s : Session) : Spares s s.lose := by
  unfold Session.lose
  split
  · exact ((((hangUp s).trans (setStatus _ _)).trans (replyToAll _ _)).trans
      (streamsOnly (.closeStreams _ _ _))).trans (retryLater _)
  · exact shutdown s _

theorem loseAgain (s : Session) : Spares s s.loseAgain :=
  ((hangUp s).trans (replyToAll _ _)).trans (retryLater _)

theorem attend (s : Session) : Spares s s.attend := by
  unfold Session.attend
  split
  · exact shutdown s _
  · split
    · exact lose s
    · exact refl s

/-! #### Restoring -/

theorem await (s : Session) (restoration : Restoration) : Spares s (s.await restoration) := by
  unfold Session.await
  split
  · exact loseAgain s
  · exact of_eq rfl rfl

theorem resume (s : Session) : Spares s s.resume := by
  have hforgotten : Spares (s.setStatus .connected)
      { s.setStatus .connected with deferred := [] } := of_eq rfl rfl
  have hserved : Spares s s.served :=
    ((setStatus s .connected).trans hforgotten).trans
      (foldl (fun t (call : Ticket × Request) ↦ dispatchCall t call.1 call.2) _ _)
  obtain ⟨backoff, tick, h⟩ := resume_eq s
  have hserving : Spares s.served { s.served with backoff, phase := .serving tick } := of_eq rfl rfl
  rw [h]
  exact (hserved.trans hserving).trans (attend _)

theorem pass {requests : List Request} {restarted : List Nat}
    (h : Pass s requests restarted t) : Spares s t := by
  have hmakes {t : Session} (hskips : Skips s t) (request : Request) (frame : Octets)
      (restoration : Restoration) :
      Spares s ((t.launch .restoration request frame).await restoration) :=
    ((passed hskips.passed).trans (launch t (by simp) request frame)).trans (await _ _)
  cases h with
  | call hskips _ _ => exact hmakes hskips _ _ _
  | stream hskips _ _ _ _ _ => exact hmakes hskips _ _ _
  | done hskips _ _ => exact (passed hskips.passed).trans (resume _)

end Spares

/-! ### Turns -/

/-- No command asks for a keep-alive, and a caller who calls the method for it makes a request like
any other. -/
theorem Spares.obey (s : Session) (command : Command) : Spares s (s.obey command) := by
  cases command with
  | request ticket request =>
    simp only [Session.obey, Session.request]
    split
    · exact dispatchCall s ticket request
    · exact of_eq rfl rfl
    · exact of_eq rfl rfl
    · exact of_eq rfl rfl
    · exact tell s _ _
  | subscribe ticket id query =>
    simp only [Session.obey, Session.subscribe]
    split
    · exact (streamsOnly (.register s id query)).trans (tell _ _ _)
    · exact tell s _ _
  | kill ticket handle => exact (streamsOnly (.closeStream s .killed handle)).trans (tell _ _ _)
  | standing ticket => exact tell s _ _
  | close ticket => exact of_eq rfl rfl

/-- No turn sends a keep-alive but the one in which one is due. -/
theorem Turn.spares {s t : Session} {event : Event} (hlive : s.LiveTable) (h : Turn s event t) :
    Spares s t ∨ (∃ nanoseconds, event = .elapse nanoseconds) ∧
      Spares (s.later event).ping t := by
  cases h with
  | rest heq _ _ => exact .inl (.of_eq (by rw [heq]) (by rw [heq]))
  | started hphase =>
    have hopening : Spares (s.setStatus .connecting)
        { s.setStatus .connecting with phase := .opening } := .of_eq rfl rfl
    exact .inl (((Spares.setStatus s _).trans hopening).trans (.push _ trivial))
  | opened hphase =>
    have hserving : Spares s { s.attach with
        standing := { s.standing with url := some s.url }
        backoff := s.backoff.reset s.now
        phase := .serving (s.now + s.keepAlive) } := .of_eq rfl rfl
    exact .inl ((hserving.trans (.setStatus _ .connected)).trans (.push _ trivial))
  | failed hphase error =>
    have hover : Spares (s.setStatus .error) { s.setStatus .error with phase := .stopped } :=
      .of_eq rfl rfl
    exact .inl (((Spares.setStatus s _).trans hover).trans (.push _ trivial))
  | @obeyed command _ _ _ => exact .inl (.obey s command)
  | called _ ticket request => exact .inl ((Spares.dispatchCall s ticket request).trans (.attend _))
  | @pinged tick _ nanoseconds =>
    have hnext : Spares (s.later (.elapse nanoseconds)).ping
        { (s.later (.elapse nanoseconds)).ping with phase := .serving tick } := .of_eq rfl rfl
    exact .inr ⟨⟨nanoseconds, rfl⟩, hnext.trans (.attend _)⟩
  | @notified frame message _ _ => exact .inl (.streamsOnly (.routeNotification s message))
  | @answered frame n response _ _ => exact .inl (.routeReply s n.toNat response)
  | lost _ => exact .inl (.lose s)
  | lostAgain _ => exact .inl (.loseAgain s)
  | dialed _ nanoseconds =>
    have hdialing : Spares s { s with now := s.now + nanoseconds, phase := .dialing } :=
      .of_eq rfl rfl
    exact .inl (hdialing.trans (.push _ trivial))
  | refused _ _ => exact .inl (.retryLater s)
  | linked _ =>
    have hattached : Spares s s.attach := .of_eq rfl rfl
    exact .inl (hattached.trans (.pass (restore_pass _ _ (hlive.of_streamState rfl))))
  | @restored frame n response restoration _ _ _ =>
    have hconcluded : Spares s ((s.routeReply n.toNat response).conclude response
        restoration.awaited) :=
      (Spares.routeReply s n.toNat response).trans (.passed (concludes _ _ _).passed)
    exact .inl (hconcluded.trans (.pass (answered_pass s response hlive n.toNat restoration)))
  | @ended event u heq _ _ reason =>
    have hclosing : Spares s u := .of_eq (by rw [heq]) (by rw [heq])
    exact .inl (hclosing.trans (.shutdown u reason))
  | @stopped event u heq _ _ =>
    have hclosing : Spares s u := .of_eq (by rw [heq]) (by rw [heq])
    exact .inl (hclosing.trans (.stop u))

/-! ### The last keep-alive -/

/-- The session has a note of the last keep-alive that it sent, and awaits no other. -/
structure RemembersKeepAlive (s : Session) : Prop where
  wasSent : ∀ id, s.lastKeepAlive = some id → (id, .keepAlive) ∈ s.sent
  awaits : ∀ id, (id, .keepAlive) ∈ s.awaited → s.lastKeepAlive = some id

/-- The keep-alives that are not answered yet. -/
def unansweredKeepAlives (s : Session) : List Nat :=
  s.inflight.keys.filter fun id ↦ (id, .keepAlive) ∈ s.sent

section Remembering

variable {s t : Session} {id : Nat}

theorem Spares.mem_sent (h : Spares s t) :
    (id, .keepAlive) ∈ t.sent ↔ (id, .keepAlive) ∈ s.sent := by
  obtain ⟨effects, houtbox, hnone⟩ := h.silent
  rw [sent, houtbox, List.filterMap_append, List.mem_append, ← sent, or_iff_left]
  intro hmem
  obtain ⟨effect, heffect, hcall⟩ := List.mem_filterMap.mp hmem
  cases effect with
  | dispatched id origin =>
    cases hcall
    exact hnone _ heffect
  | _ => cases hcall

/-- A request of somebody is awaited as long as it is in flight. -/
theorem Accounted.mem_awaited_iff (h : s.Accounted) {origin : Origin} :
    (id, origin) ∈ s.awaited ↔ id ∈ s.inflight.keys ∧ (id, origin) ∈ s.sent := by
  constructor
  · intro hawaited
    exact ⟨h.keys ▸ mem_keys_of_mem_awaited hawaited,
      h.balance.mem_iff.mpr (List.mem_append_right _ hawaited)⟩
  · rintro ⟨hinflight, hsent⟩
    obtain ⟨other, hawaited⟩ := h.exists_mem_awaited hinflight
    have hother : (id, other) ∈ s.sent := h.balance.mem_iff.mpr (List.mem_append_right _ hawaited)
    have hsame : (id, origin) = (id, other) := List.inj_on_of_nodup_map h.sentNodup hsent hother rfl
    rwa [hsame]

theorem mem_unansweredKeepAlives (h : s.Accounted) :
    id ∈ s.unansweredKeepAlives ↔ (id, .keepAlive) ∈ s.awaited := by
  rw [unansweredKeepAlives, List.mem_filter, decide_eq_true_eq, h.mem_awaited_iff]

/-- Who is replied to is awaited no more, so one who is awaited was so before. -/
theorem Spares.mem_awaited (h : Spares s t) (hs : s.Accounted) (ht : t.Accounted)
    (hmem : (id, .keepAlive) ∈ t.awaited) : (id, .keepAlive) ∈ s.awaited := by
  have hsent : (id, .keepAlive) ∈ s.sent := h.mem_sent.mp (ht.mem_awaited_iff.mp hmem).2
  refine (List.mem_append.mp (hs.balance.mem_iff.mp hsent)).resolve_left fun hreplied ↦ ?_
  obtain ⟨delivery, hdelivery, hcall⟩ := List.mem_map.mp hreplied
  have hkept : delivery ∈ t.replied := by
    obtain ⟨effects, houtbox, -⟩ := h.silent
    rw [replied, houtbox, List.filterMap_append]
    exact List.mem_append_left _ hdelivery
  exact (List.nodup_append.mp ht.ids_nodup).2.2 delivery.id
    (List.mem_map.mpr ⟨delivery, hkept, rfl⟩) id (List.mem_map.mpr ⟨_, hmem, rfl⟩)
    (congrArg Prod.fst hcall)

/-! #### Sending one -/

theorem ping_of_awaits (h : s.awaitsKeepAlive) : s.ping = s :=
  if_pos h

theorem ping_of_frameOf_error (h : ¬ s.awaitsKeepAlive) {error : ClientError}
    (hframe : s.frameOf ⟨"ping", []⟩ s.nextId = .error error) : s.ping = s.spent := by
  rw [ping, if_neg h, dispatch_of_frameOf_error s _ _ hframe]

theorem ping_of_frameOf_ok (h : ¬ s.awaitsKeepAlive) {frame : Octets}
    (hframe : s.frameOf ⟨"ping", []⟩ s.nextId = .ok frame) :
    s.ping = { s.launch .keepAlive ⟨"ping", []⟩ frame with lastKeepAlive := some s.nextId } := by
  rw [ping, if_neg h, dispatch_of_frameOf_ok s _ _ hframe]

theorem Accounted.ping (h : s.Accounted) : s.ping.Accounted := by
  by_cases hawaits : s.awaitsKeepAlive
  · rwa [ping_of_awaits hawaits]
  · have hdispatched := h.dispatch .keepAlive ⟨"ping", []⟩
    cases hframe : s.frameOf ⟨"ping", []⟩ s.nextId with
    | error error =>
      rw [dispatch_of_frameOf_error s _ _ hframe] at hdispatched
      rwa [ping_of_frameOf_error hawaits hframe]
    | ok frame =>
      rw [dispatch_of_frameOf_ok s _ _ hframe] at hdispatched
      rw [ping_of_frameOf_ok hawaits hframe]
      exact hdispatched.congr rfl rfl rfl

theorem Accounted.ping_sends (hs : s.Accounted) (h : ¬ s.awaitsKeepAlive) {frame : Octets}
    (hframe : s.frameOf ⟨"ping", []⟩ s.nextId = .ok frame) :
    s.ping.lastKeepAlive = some s.nextId ∧ s.ping.sent = s.sent ++ [(s.nextId, .keepAlive)] ∧
      s.ping.awaited = s.awaited ++ [(s.nextId, .keepAlive)] := by
  rw [ping_of_frameOf_ok h hframe]
  exact ⟨rfl, sent_launch s .keepAlive _ frame, hs.awaited_launch .keepAlive _ frame⟩

namespace RemembersKeepAlive

theorem spares (h : s.RemembersKeepAlive) (hst : Spares s t) (hs : s.Accounted)
    (ht : t.Accounted) : t.RemembersKeepAlive where
  wasSent := fun id hlast ↦ hst.mem_sent.mpr (h.wasSent id (hst.last ▸ hlast))
  awaits := fun id hmem ↦ hst.last.trans (h.awaits id (hst.mem_awaited hs ht hmem))

theorem awaitsKeepAlive_iff (h : s.RemembersKeepAlive) (hs : s.Accounted) :
    s.awaitsKeepAlive ↔ ∃ id, (id, .keepAlive) ∈ s.awaited := by
  rw [awaitsKeepAlive, Option.any_eq_true]
  constructor
  · rintro ⟨id, hlast, hinflight⟩
    exact ⟨id, hs.mem_awaited_iff.mpr
      ⟨Table.contains_iff_mem_keys.mp hinflight, h.wasSent id hlast⟩⟩
  · rintro ⟨id, hawaited⟩
    exact ⟨id, h.awaits id hawaited,
      Table.contains_iff_mem_keys.mpr (hs.mem_awaited_iff.mp hawaited).1⟩

theorem unansweredKeepAlives_eq_nil_iff (h : s.RemembersKeepAlive) (hs : s.Accounted) :
    s.unansweredKeepAlives = [] ↔ s.awaitsKeepAlive = false := by
  rw [← Bool.not_eq_true, h.awaitsKeepAlive_iff hs, List.eq_nil_iff_forall_not_mem, not_exists]
  exact forall_congr' fun id ↦ not_congr (mem_unansweredKeepAlives hs)

theorem length_unansweredKeepAlives (h : s.RemembersKeepAlive) (hs : s.Accounted) :
    s.unansweredKeepAlives.length ≤ 1 := by
  have hnodup : s.unansweredKeepAlives.Nodup := (hs.keys ▸ hs.oneShot.nodup).filter _
  have hlast : s.unansweredKeepAlives ⊆ s.lastKeepAlive.toList := fun id hmem ↦
    Option.mem_toList.mpr (h.awaits id ((mem_unansweredKeepAlives hs).mp hmem))
  exact Nat.le_trans (List.Nodup.subperm hnodup hlast).length_le Option.length_toList_le

/-- The one that is sent is the only one. -/
theorem ping (h : s.RemembersKeepAlive) (hs : s.Accounted) : s.ping.RemembersKeepAlive := by
  by_cases hawaits : s.awaitsKeepAlive
  · rwa [ping_of_awaits hawaits]
  · cases hframe : s.frameOf ⟨"ping", []⟩ s.nextId with
    | error error =>
      rw [ping_of_frameOf_error hawaits hframe]
      exact ⟨h.wasSent, h.awaits⟩
    | ok frame =>
      obtain ⟨hlast, hsent, hawaited⟩ := hs.ping_sends hawaits hframe
      rw [h.awaitsKeepAlive_iff hs, not_exists] at hawaits
      constructor
      · intro id hid
        rw [hlast, Option.some.injEq] at hid
        rw [hsent, hid]
        exact List.mem_append_right _ (List.mem_singleton_self _)
      · intro id hmem
        rw [hawaited] at hmem
        rcases List.mem_append.mp hmem with hbefore | hnow
        · exact absurd hbefore (hawaits id)
        · cases List.mem_singleton.mp hnow
          exact hlast

theorem step (h : s.RemembersKeepAlive) (hs : s.Steady) (event : Event) :
    (s.step event).RemembersKeepAlive := by
  rcases (hs.turn event).spares hs.liveTable with hspares | ⟨-, hspares⟩
  · exact h.spares hspares hs.accounted (hs.step event).accounted
  · have hlater : (s.later event).Accounted := hs.accounted.congr rfl rfl rfl
    have hremembers : (s.later event).RemembersKeepAlive := ⟨h.wasSent, h.awaits⟩
    exact (hremembers.ping hlater).spares hspares hlater.ping (hs.step event).accounted

theorem run (h : s.RemembersKeepAlive) (hs : s.Steady) (events : List Event) :
    (s.run events).RemembersKeepAlive := by
  induction events generalizing s with
  | nil => exact h
  | cons event rest ih => exact ih (h.step hs event) (hs.step event)

end RemembersKeepAlive

theorem remembersKeepAlive_ofConfig (url : String) (config : ClientConfig)
    (payloadLimit : Option Nat) : (ofConfig url config payloadLimit).RemembersKeepAlive where
  wasSent := fun _ hlast ↦ nomatch hlast
  awaits := fun _ hmem ↦ absurd hmem List.not_mem_nil

end Remembering

/-! ### Runs -/

section Runs

variable {s : Session}

theorem Steady.keepAlive_sent (hs : s.Steady) (h : s.RemembersKeepAlive) {event : Event} {id : Nat}
    (hsent : (id, .keepAlive) ∈ (s.step event).sent) (hnew : (id, .keepAlive) ∉ s.sent) :
    (∃ nanoseconds, event = .elapse nanoseconds) ∧ s.unansweredKeepAlives = [] := by
  rcases (hs.turn event).spares hs.liveTable with hspares | ⟨helapsed, hspares⟩
  · exact absurd (hspares.mem_sent.mp hsent) hnew
  · refine ⟨helapsed, (h.unansweredKeepAlives_eq_nil_iff hs.accounted).mpr ?_⟩
    refine Bool.eq_false_iff.mpr fun hawaits ↦ hnew ?_
    have hsame : (s.later event).ping = s.later event := ping_of_awaits hawaits
    rw [hsame] at hspares
    exact hspares.mem_sent.mp hsent

/-- A keep-alive is due while the session serves its callers. -/
theorem step_of_due {tick nanoseconds : Nat} (hphase : s.phase = .serving tick)
    (hdue : tick ≤ s.now + nanoseconds) :
    Spares (s.later (.elapse nanoseconds)).ping (s.step (.elapse nanoseconds)) := by
  have hisDue : (s.later (.elapse nanoseconds)).isDue := by
    simp only [isDue, dueAt, later, hphase, Option.any_some]
    exact decide_eq_true hdue
  have hstep : s.step (.elapse nanoseconds) = (s.later (.elapse nanoseconds)).wake := if_pos hisDue
  have hserving : Spares (s.later (.elapse nanoseconds)).ping
      { (s.later (.elapse nanoseconds)).ping with
        phase := .serving ((s.later (.elapse nanoseconds)).nextTick tick) } := .of_eq rfl rfl
  rw [hstep, wake, show (s.later (.elapse nanoseconds)).phase = .serving tick from hphase]
  exact hserving.trans (.attend _)

end Runs

/-- In every state of a run at most one keep-alive is in flight, and if there is one it is the last
that was sent. A step sends one only if time passes and none was in flight before. When one is due
and the transport takes it, it is sent if and only if none is in flight. -/
theorem one_keepAlive_unanswered (url : String) (config : ClientConfig)
    (payloadLimit : Option Nat) (events : List Event) :
    let s := (ofConfig url config payloadLimit).run events
    s.unansweredKeepAlives.length ≤ 1 ∧
    (∀ id ∈ s.unansweredKeepAlives, s.lastKeepAlive = some id) ∧
    (∀ event id, (id, .keepAlive) ∈ (s.step event).sent → (id, .keepAlive) ∉ s.sent →
      (∃ nanoseconds, event = .elapse nanoseconds) ∧ s.unansweredKeepAlives = []) ∧
    ∀ tick nanoseconds frame, s.phase = .serving tick → tick ≤ s.now + nanoseconds →
      s.frameOf ⟨"ping", []⟩ s.nextId = .ok frame →
        ((s.nextId, .keepAlive) ∈ (s.step (.elapse nanoseconds)).sent ↔
          s.unansweredKeepAlives = []) := by
  intro s
  have hfresh := steady_ofConfig url config payloadLimit
  have hs : s.Steady := hfresh.run events
  have hremembers : s.RemembersKeepAlive :=
    (remembersKeepAlive_ofConfig url config payloadLimit).run hfresh events
  refine ⟨hremembers.length_unansweredKeepAlives hs.accounted, fun id hmem ↦ ?_,
    fun event id hsent hnew ↦ hs.keepAlive_sent hremembers hsent hnew, ?_⟩
  · exact hremembers.awaits id ((mem_unansweredKeepAlives hs.accounted).mp hmem)
  · intro tick nanoseconds frame hphase hdue hframe
    have hnew : (s.nextId, .keepAlive) ∉ s.sent := fun hmem ↦
      Nat.lt_irrefl _ (hs.accounted.sentBelow _ hmem)
    refine ⟨fun hsent ↦ (hs.keepAlive_sent hremembers hsent hnew).2, fun hnone ↦ ?_⟩
    have hawaits := (hremembers.unansweredKeepAlives_eq_nil_iff hs.accounted).mp hnone
    have hlater : (s.later (.elapse nanoseconds)).Accounted := hs.accounted.congr rfl rfl rfl
    have hsent := (hlater.ping_sends (Bool.eq_false_iff.mp hawaits) hframe).2.1
    refine (step_of_due hphase hdue).mem_sent.mpr ?_
    rw [hsent]
    exact List.mem_append_right _ (List.mem_singleton_self _)

/-- While the first keep-alive is not answered, the next one is not sent when it is due. -/
example : ((ofConfig "mem://" {} none).run
    [.start, .linked, .elapse 30000000000, .elapse 30000000000]).unansweredKeepAlives = [1] := by
  decide +kernel

end Session

end Wireline

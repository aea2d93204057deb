import Wireline.Proofs.Session.Replies

/-!
# Exactly one reply

Since the books of a session balance (`Accounted`), a request that was dispatched is either in
flight, and then it has no reply, or it has exactly one, and that went to whoever made it
(`accounted_answeredOnce`). What a step says about requests it says for a reason (`Warrants`):
`step_replied` follows the path of a step and finds the reason for each reply.

`reply_routing_exactly_once` puts this together for every run from a fresh session.
-/

set_option autoImplicit false
set_option relaxedAutoImplicit false

namespace Wireline

namespace Session

/-! ### What a reply needs -/

/-- What one move says about requests is that some of those who were awaited got a reply. -/
theorem Move.replied {s t : Session} {action : Action} (h : Accounted s) (hmove : Move s action t) :
    ∃ deliveries, t.replied = s.replied ++ deliveries ∧ ∀ delivery ∈ deliveries,
      delivery.call ∈ s.awaited ∧
        (action = .giveBack delivery.reply ∨
          ∃ response, delivery.reply = .response response ∧
            action = .answer delivery.id response) := by
  have hnothing (hsame : t.replied = s.replied) :
      ∃ deliveries, t.replied = s.replied ++ deliveries ∧ ∀ delivery ∈ deliveries,
        delivery.call ∈ s.awaited ∧
          (action = .giveBack delivery.reply ∨
            ∃ response, delivery.reply = .response response ∧
              action = .answer delivery.id response) :=
    ⟨[], by rw [hsame, List.append_nil], by simp⟩
  cases hmove with
  | aside haside => exact hnothing haside.replied
  | dispatch origin request =>
    rcases dispatch_cases s origin request with ⟨error, hfailed⟩ | ⟨frame, hsent⟩
    · exact hnothing (by rw [hfailed]; rfl)
    · exact hnothing (by rw [hsent]; exact replied_launch s origin request frame)
  | answer id response =>
    rcases h.routeReply_cases id response with ⟨-, hsame⟩ | ⟨number, origin, hget, -, houtbox⟩
    · exact hnothing (by rw [hsame])
    · refine ⟨_, replied_append_deliveries houtbox, ?_⟩
      intro delivery hdelivery
      rw [List.mem_singleton.mp hdelivery]
      exact ⟨(h.awaited_perm hget).mem_iff.mpr List.mem_cons_self, .inr ⟨response, rfl, rfl⟩⟩
  | giveBack reply =>
    refine ⟨_, replied_append_deliveries (replyToAll_spec h reply).2, ?_⟩
    intro delivery hdelivery
    obtain ⟨call, hcall, rfl⟩ := List.mem_map.mp hdelivery
    exact ⟨hcall, .inl rfl⟩
  | notify message =>
    exact hnothing (StreamsOnly.routeNotification s message).replied
  | register id query =>
    exact hnothing (StreamsOnly.register s id query).replied
  | close reason handle =>
    exact hnothing (StreamsOnly.closeStream s reason handle).replied
  | rebind handle id =>
    exact hnothing (StreamsOnly.rebind s handle id).replied

/-- What justifies a reply in the step that an event causes: an answer comes in a frame that carries
the id of a request in flight, a request is given back because the link is lost, and it fails
because the session ends. -/
def Warrants (s : Session) (event : Event) (delivery : Delivery) : Prop :=
  match delivery.reply with
  | .response response => delivery.id ∈ s.inflight.keys ∧ delivery.call ∈ s.awaited ∧
      ∃ frame n, event = .frame frame ∧ read frame = .ok (.reply n response) ∧
        n.toNat = delivery.id
  | .retry => s.link ≠ .none ∧ (s.step event).link = .none
  | .failed error => (∃ reason, error = .disconnected reason) ∧ (s.step event).IsOver

theorem mem_keys_of_mem_awaited {s : Session} {call : Nat × Origin} (h : call ∈ s.awaited) :
    call.1 ∈ s.replies.keys := by
  obtain ⟨entry, hentry, hcall⟩ := List.mem_flatMap.mp h
  obtain ⟨listener, -, rfl⟩ := List.mem_map.mp hcall
  exact List.mem_map.mpr ⟨entry, hentry, rfl⟩

/-- Assumes: the reply is passed on in a permitted move of the step. -/
theorem warrants_of_permits {s t : Session} {event : Event} {action : Action} {delivery : Delivery}
    (h : Accounted s) (hpermits : Permits s event t action) (hawaited : delivery.call ∈ t.awaited)
    (hreply : action = .giveBack delivery.reply ∨
      ∃ response, delivery.reply = .response response ∧ action = .answer delivery.id response) :
    Warrants s event delivery := by
  obtain ⟨id, origin, reply⟩ := delivery
  rcases hreply with rfl | ⟨response, hresponse, rfl⟩
  · rcases hpermits with henters | hfollows
    · exact henters.elim
    · cases reply with
      | response response => exact hfollows.elim
      | retry => exact ⟨hfollows.1, hfollows.2.2⟩
      | failed error => exact ⟨hfollows.1, hfollows.2.2⟩
  · simp only at hresponse
    subst hresponse
    rcases hpermits with ⟨rfl, frame, n, hevent, hread, hid⟩ | hfollows
    · refine ⟨?_, hawaited, frame, n, hevent, hread, hid⟩
      rw [← h.keys]
      exact mem_keys_of_mem_awaited hawaited
    · exact hfollows.elim

theorem step_replied {s : Session} (hs : s.Quiescent) (h : Accounted s) (event : Event) :
    ∃ deliveries, (s.step event).replied = s.replied ++ deliveries ∧
      ∀ delivery ∈ deliveries, Warrants s event delivery := by
  refine ((step_path hs event).invariant (fun t ↦ Accounted t ∧
    ∃ deliveries, t.replied = s.replied ++ deliveries ∧
      ∀ delivery ∈ deliveries, Warrants s event delivery) ?_ ⟨h, [], by simp, by simp⟩).2
  intro t action u hpermits hmove ⟨ht, deliveries, hreplied, hwarrants⟩
  obtain ⟨more, hmore, hpassed⟩ := hmove.replied ht
  refine ⟨ht.move hmove, deliveries ++ more, by rw [hmore, hreplied, List.append_assoc], ?_⟩
  intro delivery hdelivery
  rcases List.mem_append.mp hdelivery with hold | hnew
  · exact hwarrants delivery hold
  · obtain ⟨hawaited, hreply⟩ := hpassed delivery hnew
    exact warrants_of_permits h hpermits hawaited hreply

/-! ### One reply for each request -/

/-- In a list of items with distinct keys, the items with the key of one of them are that one. -/
theorem filter_eq_singleton {α : Type} {key : α → Nat} {items : List α} {item : α}
    (hnodup : (items.map key).Nodup) (hmem : item ∈ items) :
    items.filter (fun other ↦ key other = key item) = [item] := by
  induction items with
  | nil => cases hmem
  | cons head rest ih =>
    rw [List.map_cons, List.nodup_cons] at hnodup
    rcases List.mem_cons.mp hmem with heq | hrest
    · subst heq
      rw [List.filter_cons_of_pos (by simp), List.filter_eq_nil_iff.mpr]
      intro other hother hsame
      exact hnodup.1 (of_decide_eq_true hsame ▸ List.mem_map.mpr ⟨other, hother, rfl⟩)
    · have hne : key head ≠ key item := by
        intro hsame
        exact hnodup.1 (hsame ▸ List.mem_map.mpr ⟨item, hrest, rfl⟩)
      rw [List.filter_cons_of_neg (by simpa using hne), ih hnodup.2 hrest]

/-- The replies that were passed on under an id. -/
def repliesTo (s : Session) (id : Nat) : List Delivery :=
  s.replied.filter fun delivery ↦ delivery.id = id

/-- Both tables of requests list the same ids, none of them to be given out again, and under each of
them one listener waits for one event. -/
structure TablesAgree (s : Session) : Prop where
  keys : ∀ id, id ∈ s.inflight.keys ↔ id ∈ s.replies.keys
  listener : ∀ id ∈ s.inflight.keys, ∃ number origin,
    s.replies.listenersOf id = [⟨number, origin, .once true⟩]
  below : ∀ id ∈ s.inflight.keys, id < s.nextId

/-- A request that is in flight has no reply, and every other one that was dispatched has exactly
one, which went to whoever made it. No id is used twice, and only requests that were dispatched have
replies. -/
structure AnsweredOnce (s : Session) : Prop where
  fresh : (s.sent.map Prod.fst).Nodup
  pending : ∀ call ∈ s.sent, call.1 ∈ s.inflight.keys → s.repliesTo call.1 = []
  settled : ∀ call ∈ s.sent, call.1 ∉ s.inflight.keys →
    ∃ reply, s.repliesTo call.1 = [⟨call.1, call.2, reply⟩]
  dispatched : ∀ delivery ∈ s.replied, delivery.call ∈ s.sent

section Accounted

variable {s : Session}

theorem accounted_tablesAgree (h : Accounted s) : TablesAgree s where
  keys := fun id ↦ by rw [h.keys]
  listener := by
    intro id hid
    rw [← h.keys] at hid
    obtain ⟨number, origin, hget⟩ := h.oneShot.get? hid
    exact ⟨number, origin, by rw [Emitter.listenersOf, hget, Option.getD_some]⟩
  below := fun id hid ↦ h.below id (h.keys ▸ hid)

/-- No id has a reply and is awaited, and none has two replies. -/
theorem Accounted.ids_nodup (h : Accounted s) :
    (s.replied.map Delivery.id ++ s.awaited.map Prod.fst).Nodup := by
  have hids := (h.balance.map Prod.fst).nodup_iff.mp h.sentNodup
  rw [List.map_append, List.map_map] at hids
  exact hids

theorem Accounted.exists_mem_awaited (h : Accounted s) {id : Nat} (hid : id ∈ s.inflight.keys) :
    ∃ origin, (id, origin) ∈ s.awaited := by
  rw [← h.keys] at hid
  obtain ⟨number, origin, hget⟩ := h.oneShot.get? hid
  exact ⟨origin, (h.awaited_perm hget).mem_iff.mpr List.mem_cons_self⟩

theorem accounted_answeredOnce (h : Accounted s) : AnsweredOnce s := by
  have hids := List.nodup_append.mp h.ids_nodup
  constructor
  · exact h.sentNodup
  · intro call _ hinflight
    obtain ⟨origin, hawaited⟩ := h.exists_mem_awaited hinflight
    refine List.filter_eq_nil_iff.mpr fun delivery hdelivery hsame ↦ ?_
    exact hids.2.2 delivery.id (List.mem_map.mpr ⟨delivery, hdelivery, rfl⟩) call.1
      (List.mem_map.mpr ⟨_, hawaited, rfl⟩) (of_decide_eq_true hsame)
  · intro call hsent hinflight
    rcases List.mem_append.mp (h.balance.mem_iff.mp hsent) with hreplied | hawaited
    · obtain ⟨delivery, hdelivery, rfl⟩ := List.mem_map.mp hreplied
      exact ⟨delivery.reply, filter_eq_singleton hids.1 hdelivery⟩
    · exact absurd (h.keys ▸ mem_keys_of_mem_awaited hawaited) hinflight
  · intro delivery hdelivery
    exact h.balance.mem_iff.mpr
      (List.mem_append_left _ (List.mem_map.mpr ⟨delivery, hdelivery, rfl⟩))

end Accounted

/-! ### Frames that answer nothing -/

theorem Quiescent.settle_eq_self {s : Session} (h : s.Quiescent)
    (hphase : (∃ tick, s.phase = .serving tick) ∨ ∃ restoration, s.phase = .restoring restoration) :
    s.settle = s := by
  rcases hphase with ⟨tick, hs⟩ | ⟨restoration, hs⟩
  · have hlinked := h.linked_of_serving hs
    simp [settle, hs, attend, hlinked.closer, hlinked.isBroken]
  · obtain ⟨hlinked, hanswer⟩ := h.linked_of_restoring hs
    simp [settle, hs, attendRestoration, hanswer, hlinked.closer, hlinked.isBroken]

/-- A second or unknown reply changes nothing. -/
theorem step_reply_eq_self {s : Session} (h : s.Quiescent) {frame : Octets} {n : UInt64}
    {response : Response} (hread : read frame = .ok (.reply n response))
    (hunknown : n.toNat ∉ s.inflight.keys) : s.step (.frame frame) = s := by
  have hroute : s.route (.reply n response) = s := by
    rw [route, routeReply, Table.get?_eq_none_iff.mpr hunknown]
  have hreceive (hphase : (∃ tick, s.phase = .serving tick) ∨
      ∃ restoration, s.phase = .restoring restoration) : s.receive frame = s := by
    rw [receive, hread]
    simp only [hroute]
    exact h.settle_eq_self hphase
  simp only [step]
  split
  · next tick hs => exact hreceive (.inl ⟨tick, hs⟩)
  · next restoration hs => exact hreceive (.inr ⟨restoration, hs⟩)
  · rfl

theorem Quiescent.inflight_of_isOver {s : Session} (h : s.Quiescent) (hover : s.IsOver) :
    s.inflight = .empty := by
  rcases hover with hs | hs
  · exact (h.unlinked (.inr (.inr (.inr (.inr hs))))).inflight
  · rw [Quiescent, hs] at h
    exact h.2

/-- A dispatch that succeeds lists the request for whoever made it, under the id that it gives. -/
theorem dispatch_of_ok {s : Session} {origin : Origin} {request : Request} {id : Nat}
    (h : (s.dispatch origin request).2 = .ok id) :
    id = s.nextId ∧ (s.dispatch origin request).1.sent = s.sent ++ [(id, origin)] := by
  rcases dispatch_cases s origin request with ⟨_, hfailed⟩ | ⟨frame, hsent⟩
  · rw [hfailed] at h
    cases h
  · rw [hsent] at h ⊢
    cases h
    exact ⟨rfl, sent_launch s origin request frame⟩

/-- A dispatch that fails uses an id up and does nothing else. -/
theorem dispatch_of_error {s : Session} {origin : Origin} {request : Request} {error : ClientError}
    (h : (s.dispatch origin request).2 = .error error) :
    (s.dispatch origin request).1 = { s with nextId := s.nextId + 1 } := by
  rcases dispatch_cases s origin request with ⟨_, hfailed⟩ | ⟨frame, hsent⟩
  · rw [hfailed]
  · rw [hsent] at h
    cases h

/-- After every run the tables of requests agree and every request has one reply at most; each reply
has a reason; replies to no request in flight change nothing; a request that was dispatched is among
those that were sent, for whoever made it; one that cannot be written leaves no trace but its id;
and once the session is over, or has broken down, every request has exactly one reply. -/
theorem reply_routing_exactly_once (url : String) (config : ClientConfig)
    (payloadLimit : Option Nat) (events : List Event) :
    let s := (ofConfig url config payloadLimit).run events
    s.TablesAgree ∧ s.AnsweredOnce ∧
    (∀ event, ∃ deliveries, (s.step event).replied = s.replied ++ deliveries ∧
      ∀ delivery ∈ deliveries, s.Warrants event delivery) ∧
    (∀ frame n response, read frame = .ok (.reply n response) → n.toNat ∉ s.inflight.keys →
      s.step (.frame frame) = s) ∧
    (∀ (t : Session) origin request id, (t.dispatch origin request).2 = .ok id →
      id = t.nextId ∧ (t.dispatch origin request).1.sent = t.sent ++ [(id, origin)]) ∧
    (∀ (t : Session) origin request error, (t.dispatch origin request).2 = .error error →
      (t.dispatch origin request).1 = { t with nextId := t.nextId + 1 }) ∧
    (s.IsOver ∨ s.phase = .halted → s.inflight = .empty ∧
      ∀ call ∈ s.sent, ∃ reply, s.repliesTo call.1 = [⟨call.1, call.2, reply⟩]) := by
  intro s
  have hquiescent : s.Quiescent := run_quiescent (ofConfig_quiescent url config payloadLimit) events
  have haccounted : s.Accounted := accounted_run (ofConfig_quiescent url config payloadLimit)
    (accounted_ofConfig url config payloadLimit) events
  have hanswered := accounted_answeredOnce haccounted
  refine ⟨accounted_tablesAgree haccounted, hanswered, step_replied hquiescent haccounted,
    ?_, ?_, ?_, ?_⟩
  · exact fun _ _ _ hread hunknown ↦ step_reply_eq_self hquiescent hread hunknown
  · exact fun _ _ _ _ hok ↦ dispatch_of_ok hok
  · exact fun _ _ _ _ herror ↦ dispatch_of_error herror
  · intro hends
    have hempty : s.inflight = .empty := by
      rcases hends with hover | hhalted
      · exact hquiescent.inflight_of_isOver hover
      · rw [Quiescent, hhalted] at hquiescent
        exact hquiescent.2
    refine ⟨hempty, fun call hcall ↦ hanswered.settled call hcall ?_⟩
    rw [hempty]
    simp

end Session

end Wireline

import Wireline.Proofs.Emitter
import Wireline.Proofs.Session.Stepping

/-!
# Every request is answered once

A session says of every request under way that it was dispatched, and later what became of it.
`Accounted` states that the books balance: every request that was dispatched is either replied to or
still awaited, no id is used twice, and whoever is awaited is listed under the same id in both
tables of the session. Every move keeps this (`Accounted.move`), and so does every run
(`accounted_run`).
-/

set_option autoImplicit false
set_option relaxedAutoImplicit false

namespace Wireline

namespace Session

/-- A reply that was passed on, under the id of the request and to whoever made it. -/
structure Delivery where
  id : Nat
  origin : Origin
  reply : Reply

def Delivery.call (delivery : Delivery) : Nat × Origin :=
  (delivery.id, delivery.origin)

def Effect.call? : Effect → Option (Nat × Origin)
  | .dispatched id origin => some (id, origin)
  | _ => none

def Effect.delivery? : Effect → Option Delivery
  | .replied id origin reply => some ⟨id, origin, reply⟩
  | _ => none

/-- The requests that were ever under way, with who made them. -/
def sent (s : Session) : List (Nat × Origin) :=
  s.outbox.filterMap Effect.call?

/-- The replies that were ever passed on. -/
def replied (s : Session) : List Delivery :=
  s.outbox.filterMap Effect.delivery?

/-! ### What is said of requests -/

theorem call?_eq_none {effect : Effect} (h : effect.isOfRequest = false) : effect.call? = none := by
  cases effect <;> simp_all [Effect.isOfRequest, Effect.call?]

theorem delivery?_eq_none {effect : Effect} (h : effect.isOfRequest = false) :
    effect.delivery? = none := by
  cases effect <;> simp_all [Effect.isOfRequest, Effect.delivery?]

theorem Aside.sent {s t : Session} (h : Aside s t) : t.sent = s.sent := by
  obtain ⟨effects, houtbox, haside⟩ := h.outbox
  have hnone : effects.filterMap Effect.call? = [] :=
    List.filterMap_eq_nil_iff.mpr fun effect heffect ↦ call?_eq_none (haside effect heffect)
  rw [Session.sent, houtbox, List.filterMap_append, hnone, List.append_nil, Session.sent]

theorem Aside.replied {s t : Session} (h : Aside s t) : t.replied = s.replied := by
  obtain ⟨effects, houtbox, haside⟩ := h.outbox
  have hnone : effects.filterMap Effect.delivery? = [] :=
    List.filterMap_eq_nil_iff.mpr fun effect heffect ↦ delivery?_eq_none (haside effect heffect)
  rw [Session.replied, houtbox, List.filterMap_append, hnone, List.append_nil, Session.replied]

theorem StreamsOnly.sent {s t : Session} (h : StreamsOnly s t) : t.sent = s.sent :=
  congrArg (List.filterMap Effect.call?) h.outbox

theorem StreamsOnly.replied {s t : Session} (h : StreamsOnly s t) : t.replied = s.replied :=
  congrArg (List.filterMap Effect.delivery?) h.outbox

theorem sent_push (s : Session) (effect : Effect) :
    (s.push effect).sent = s.sent ++ effect.call?.toList := by
  simp only [sent, push, List.filterMap_append]
  cases hcall : effect.call? <;> simp [hcall]

theorem replied_push (s : Session) (effect : Effect) :
    (s.push effect).replied = s.replied ++ effect.delivery?.toList := by
  simp only [replied, push, List.filterMap_append]
  cases hdelivery : effect.delivery? <;> simp [hdelivery]

theorem sent_send (s : Session) (outgoing : Outgoing) : (s.send outgoing).sent = s.sent := by
  unfold send
  split
  · rw [sent_push]
    exact List.append_nil _
  · rfl

theorem replied_send (s : Session) (outgoing : Outgoing) :
    (s.send outgoing).replied = s.replied := by
  unfold send
  split
  · rw [replied_push]
    exact List.append_nil _
  · rfl

theorem send_requestState (s : Session) (outgoing : Outgoing) :
    (s.send outgoing).requestState = s.requestState := by
  unfold send
  split <;> rfl

section Launch

variable (s : Session) (origin : Origin) (request : Request) (frame : Octets)

theorem launch_requestState :
    (s.launch origin request frame).requestState =
      ((s.replies.subscribeOnce s.nextId origin).1, s.inflight.set s.nextId request,
        s.nextId + 1) := by
  unfold launch
  rw [send_requestState]
  rfl

theorem sent_launch :
    (s.launch origin request frame).sent = s.sent ++ [(s.nextId, origin)] := by
  unfold launch
  rw [sent_send, sent_push]
  rfl

theorem replied_launch : (s.launch origin request frame).replied = s.replied := by
  unfold launch
  rw [replied_send, replied_push]
  exact List.append_nil _

end Launch

section Deliver

variable (id : Nat) (reply : Reply) (s : Session)

theorem deliver_outbox (origin : Origin) :
    (deliver id reply s origin).outbox = s.outbox ++ [.replied id origin reply] := by
  simp only [deliver, setAnswer]
  split
  · split <;> rfl
  · rfl

theorem deliver_requestState (origin : Origin) :
    (deliver id reply s origin).requestState = s.requestState := by
  simp only [deliver, setAnswer]
  split
  · split <;> rfl
  · rfl

theorem deliverAll_outbox (origins : List Origin) :
    (origins.foldl (deliver id reply) s).outbox =
      s.outbox ++ origins.map fun origin ↦ .replied id origin reply := by
  induction origins generalizing s with
  | nil => simp
  | cons origin rest ih =>
    rw [List.foldl_cons, ih, deliver_outbox, List.map_cons, List.append_assoc,
      List.singleton_append]

theorem emitReply_outbox :
    (s.emitReply id reply).outbox =
      s.outbox ++ (s.replies.emit id).2.map fun origin ↦ .replied id origin reply :=
  deliverAll_outbox id reply _ _

theorem emitReply_requestState :
    (s.emitReply id reply).requestState = ((s.replies.emit id).1, s.inflight, s.nextId) :=
  foldl_keeps requestState (deliver_requestState id reply) _ _

end Deliver

/-! ### The books balance -/

/-- Every request under way is accounted for. -/
structure Accounted (s : Session) : Prop where
  oneShot : s.replies.OneShot
  keys : s.replies.keys = s.inflight.keys
  below : ∀ id ∈ s.replies.keys, id < s.nextId
  sentBelow : ∀ call ∈ s.sent, call.1 < s.nextId
  sentNodup : (s.sent.map Prod.fst).Nodup
  balance : s.sent.Perm (s.replied.map Delivery.call ++ s.awaited)

namespace Accounted

variable {s t : Session}

theorem congr (h : Accounted s) (hrequests : t.requestState = s.requestState)
    (hsent : t.sent = s.sent) (hreplied : t.replied = s.replied) : Accounted t := by
  simp only [requestState, Prod.mk.injEq] at hrequests
  obtain ⟨hreplies, hinflight, hnextId⟩ := hrequests
  constructor
  · rw [hreplies]
    exact h.oneShot
  · rw [hreplies, hinflight]
    exact h.keys
  · rw [hreplies, hnextId]
    exact h.below
  · rw [hsent, hnextId]
    exact h.sentBelow
  · rw [hsent]
    exact h.sentNodup
  · rw [hsent, hreplied, awaited, hreplies]
    exact h.balance

theorem aside (h : Accounted s) (haside : Aside s t) : Accounted t :=
  h.congr haside.requestState haside.sent haside.replied

theorem streamsOnly (h : Accounted s) (hstreams : StreamsOnly s t) : Accounted t :=
  h.congr hstreams.requestState hstreams.sent hstreams.replied

theorem not_mem_nextId (h : Accounted s) : s.nextId ∉ s.replies.keys :=
  fun hmem ↦ Nat.lt_irrefl _ (h.below _ hmem)

theorem awaited_launch (h : Accounted s) (origin : Origin) (request : Request) (frame : Octets) :
    (s.launch origin request frame).awaited = s.awaited ++ [(s.nextId, origin)] := by
  have hreplies : (s.launch origin request frame).replies =
      (s.replies.subscribeOnce s.nextId origin).1 :=
    congrArg Prod.fst (launch_requestState s origin request frame)
  rw [awaited, hreplies, Emitter.OneShot.subscribeOnce_listeners h.not_mem_nextId,
    Table.entries_set_of_notMem h.not_mem_nextId, List.flatMap_append]
  rfl

theorem launch (h : Accounted s) (origin : Origin) (request : Request) (frame : Octets) :
    Accounted (s.launch origin request frame) := by
  have hnew := h.not_mem_nextId
  have hstate := launch_requestState s origin request frame
  simp only [requestState, Prod.mk.injEq] at hstate
  obtain ⟨hreplies, hinflight, hnextId⟩ := hstate
  have hkeys : (s.launch origin request frame).replies.keys = s.replies.keys ++ [s.nextId] := by
    rw [hreplies, Emitter.OneShot.keys_subscribeOnce hnew]
  have hsent := sent_launch s origin request frame
  constructor
  · rw [hreplies]
    exact h.oneShot.subscribeOnce hnew origin
  · rw [hkeys, hinflight, Table.keys_set, if_neg (h.keys ▸ hnew), h.keys]
  · intro id hid
    rw [hnextId]
    rw [hkeys] at hid
    rcases List.mem_append.mp hid with hold | hlast
    · exact Nat.lt_succ_of_lt (h.below id hold)
    · rw [List.mem_singleton.mp hlast]
      exact Nat.lt_succ_self _
  · intro call hcall
    rw [hnextId]
    rw [hsent] at hcall
    rcases List.mem_append.mp hcall with hold | hlast
    · exact Nat.lt_succ_of_lt (h.sentBelow call hold)
    · rw [List.mem_singleton.mp hlast]
      exact Nat.lt_succ_self _
  · rw [hsent, List.map_append, List.nodup_append]
    refine ⟨h.sentNodup, by simp, ?_⟩
    intro a ha b hb hab
    obtain ⟨call, hcall, rfl⟩ := List.mem_map.mp ha
    rw [List.map_singleton, List.mem_singleton] at hb
    exact Nat.ne_of_lt (h.sentBelow call hcall) (hab.trans hb)
  · rw [hsent, replied_launch, h.awaited_launch, ← List.append_assoc]
    exact h.balance.append_right _

theorem dispatch (h : Accounted s) (origin : Origin) (request : Request) :
    Accounted (s.dispatch origin request).1 := by
  rcases dispatch_cases s origin request with ⟨error, hfailed⟩ | ⟨frame, hsent⟩
  · rw [hfailed]
    exact {
      oneShot := h.oneShot
      keys := h.keys
      below := fun id hid ↦ Nat.lt_succ_of_lt (h.below id hid)
      sentBelow := fun call hcall ↦ Nat.lt_succ_of_lt (h.sentBelow call hcall)
      sentNodup := h.sentNodup
      balance := h.balance }
  · rw [hsent]
    exact h.launch origin request frame

end Accounted

/-! ### Replies -/

/-- The effect that passes a reply on. -/
def Delivery.effect (delivery : Delivery) : Effect :=
  .replied delivery.id delivery.origin delivery.reply

theorem sent_append_deliveries {s t : Session} {deliveries : List Delivery}
    (h : t.outbox = s.outbox ++ deliveries.map Delivery.effect) : t.sent = s.sent := by
  have hnone : (deliveries.map Delivery.effect).filterMap Effect.call? = [] := by
    simp [List.filterMap_eq_nil_iff, Delivery.effect, Effect.call?]
  rw [sent, h, List.filterMap_append, hnone, List.append_nil, sent]

theorem replied_append_deliveries {s t : Session} {deliveries : List Delivery}
    (h : t.outbox = s.outbox ++ deliveries.map Delivery.effect) :
    t.replied = s.replied ++ deliveries := by
  have hsame : (deliveries.map Delivery.effect).filterMap Effect.delivery? = deliveries := by
    rw [List.filterMap_map]
    exact List.filterMap_some
  rw [replied, h, List.filterMap_append, hsame, replied]

/-- The answer to a request reaches whoever made it, and the request leaves both tables. One to no
request that is under way changes nothing. -/
theorem Accounted.routeReply_cases {s : Session} (h : Accounted s) (id : Nat)
    (response : Response) :
    id ∉ s.inflight.keys ∧ s.routeReply id response = s ∨
    ∃ number origin, s.replies.listeners.get? id = some [⟨number, origin, .once true⟩] ∧
      (s.routeReply id response).requestState =
        ({ s.replies with listeners := s.replies.listeners.erase id }, s.inflight.erase id,
          s.nextId) ∧
      (s.routeReply id response).outbox =
        s.outbox ++ [⟨id, origin, .response response⟩].map Delivery.effect := by
  unfold routeReply
  split
  · next hget => exact .inl ⟨Table.get?_eq_none_iff.mp hget, rfl⟩
  · next request hget =>
    have hmem : id ∈ s.replies.keys := h.keys ▸ Table.mem_keys_of_get? hget
    obtain ⟨number, origin, hlistener⟩ := h.oneShot.get? hmem
    have hemit := Emitter.OneShot.emit hlistener
    refine .inr ⟨number, origin, hlistener, ?_, ?_⟩
    · rw [emitReply_requestState]
      simp only [hemit]
    · rw [emitReply_outbox]
      simp only [hemit]
      rfl

/-- Passing a reply on to each of some listeners leaves none of them. -/
theorem foldl_emitReply (reply : Reply) (entries : List (Nat × List (Listener Origin))) :
    ∀ s : Session, s.replies.OneShot → s.replies.listeners.entries = entries →
      (((entries.map Prod.fst).foldl (fun s id ↦ s.emitReply id reply) s).replies.listeners =
          .empty ∧
        ((entries.map Prod.fst).foldl (fun s id ↦ s.emitReply id reply) s).nextId = s.nextId) ∧
      ((entries.map Prod.fst).foldl (fun s id ↦ s.emitReply id reply) s).outbox =
        s.outbox ++ (s.awaited.map fun call ↦ (⟨call.1, call.2, reply⟩ : Delivery)).map
          Delivery.effect := by
  -- the entries still to be served are at every point all that the table holds
  induction entries with
  | nil =>
    intro s _ hentries
    refine ⟨⟨Table.eq_empty_of_entries hentries, rfl⟩, ?_⟩
    simp [awaited, hentries]
  | cons entry rest ih =>
    intro s h hentries
    obtain ⟨id, listeners⟩ := entry
    have hmem : (id, listeners) ∈ s.replies.listeners.entries := by
      rw [hentries]
      exact List.mem_cons_self
    obtain ⟨number, origin, hsingle⟩ := h.single _ hmem
    have hget : s.replies.listeners.get? id = some [⟨number, origin, .once true⟩] := by
      rw [Table.get?_eq_some_iff h.nodup, ← hsingle]
      exact hmem
    have hemit := Emitter.OneShot.emit hget
    have hstate := emitReply_requestState id reply s
    simp only [requestState, hemit, Prod.mk.injEq] at hstate
    obtain ⟨hreplies, -, hnextId⟩ := hstate
    have hnotMem : id ∉ rest.map Prod.fst := by
      have hnodup : ((id, listeners) :: rest).map Prod.fst |>.Nodup := hentries ▸ h.nodup
      rw [List.map_cons, List.nodup_cons] at hnodup
      exact hnodup.1
    have hrest : (s.emitReply id reply).replies.listeners.entries = rest := by
      rw [hreplies]
      exact Table.entries_erase_of_notMem hentries hnotMem
    have honeShot : (s.emitReply id reply).replies.OneShot := by
      rw [hreplies]
      exact h.erase id
    obtain ⟨⟨hempty, hid⟩, houtbox⟩ := ih (s.emitReply id reply) honeShot hrest
    have hawaited : s.awaited = (id, origin) :: (s.emitReply id reply).awaited := by
      simp only [awaited, hentries, hrest, List.flatMap_cons] at hsingle ⊢
      rw [hsingle]
      rfl
    refine ⟨⟨hempty, hid.trans hnextId⟩, ?_⟩
    rw [List.map_cons, List.foldl_cons, houtbox, emitReply_outbox, hemit, hawaited]
    simp [Delivery.effect]

theorem replyToAll_spec {s : Session} (h : Accounted s) (reply : Reply) :
    ((s.replyToAll reply).replies.listeners = .empty ∧ (s.replyToAll reply).nextId = s.nextId) ∧
    (s.replyToAll reply).outbox =
      s.outbox ++ (s.awaited.map fun call ↦ (⟨call.1, call.2, reply⟩ : Delivery)).map
        Delivery.effect := by
  unfold replyToAll
  rw [← h.keys]
  exact foldl_emitReply reply _ { s with inflight := .empty } h.oneShot rfl

namespace Accounted

variable {s t : Session}

/-- Who is awaited under an id, and all others. -/
theorem awaited_perm (h : Accounted s) {id number : Nat} {origin : Origin}
    (hget : s.replies.listeners.get? id = some [⟨number, origin, .once true⟩]) :
    s.awaited.Perm ((id, origin) :: ((s.replies.listeners.erase id).entries.flatMap fun entry ↦
      entry.2.map fun listener ↦ (entry.1, listener.sink))) :=
  (Table.entries_perm_erase h.oneShot.nodup hget).flatMap_right _

theorem listener_of_mem_awaited (h : Accounted s) {id : Nat} {origin : Origin}
    (hmem : (id, origin) ∈ s.awaited) :
    ∃ number, s.replies.listeners.get? id = some [⟨number, origin, .once true⟩] := by
  obtain ⟨⟨key, listeners⟩, hentry, hlisted⟩ := List.mem_flatMap.mp hmem
  obtain ⟨listener, hlistener, hsame⟩ := List.mem_map.mp hlisted
  cases hsame
  obtain ⟨number, sink, hsingle⟩ := h.oneShot.single _ hentry
  simp only at hsingle hlistener
  rw [hsingle, List.mem_singleton] at hlistener
  refine ⟨number, (Table.get?_eq_some_iff h.oneShot.nodup).mpr ?_⟩
  rw [hlistener, ← hsingle]
  exact hentry

/-- The answer to a call of the session itself is noted in its phase. -/
theorem routeReply_restoring (h : Accounted s) {id : Nat} {restoration : Restoration}
    (hmem : (id, .restoration) ∈ s.awaited) (hphase : s.phase = .restoring restoration)
    (response : Response) : (s.routeReply id response).phase =
      .restoring { restoration with answer := some response } := by
  obtain ⟨number, hlistener⟩ := h.listener_of_mem_awaited hmem
  have hkey : id ∈ s.inflight.keys := h.keys ▸ Table.mem_keys_of_get? hlistener
  obtain ⟨request, hrequest⟩ := Table.exists_get?_of_mem_keys hkey
  simp only [routeReply, hrequest, emitReply, Emitter.OneShot.emit hlistener, List.foldl_cons,
    List.foldl_nil, deliver, setAnswer, push, hphase]

theorem answer (h : Accounted s) (id : Nat) (response : Response) :
    Accounted (s.routeReply id response) := by
  rcases h.routeReply_cases id response with ⟨-, hsame⟩ | ⟨number, origin, hget, hstate, houtbox⟩
  · rw [hsame]
    exact h
  · have hsent := sent_append_deliveries houtbox
    have hreplied := replied_append_deliveries houtbox
    simp only [requestState, Prod.mk.injEq] at hstate
    obtain ⟨hreplies, hinflight, hnextId⟩ := hstate
    constructor
    · rw [hreplies]
      exact h.oneShot.erase id
    · rw [hreplies, hinflight]
      simp only [Emitter.keys, Table.keys_erase]
      rw [← h.keys]
      rfl
    · intro other hother
      rw [hreplies, Emitter.keys, Table.keys_erase] at hother
      rw [hnextId]
      exact h.below other (List.mem_filter.mp hother).1
    · rw [hsent, hnextId]
      exact h.sentBelow
    · rw [hsent]
      exact h.sentNodup
    · rw [hsent, hreplied, List.map_append, List.append_assoc, awaited, hreplies]
      exact h.balance.trans ((h.awaited_perm hget).append_left _)

theorem giveBack (h : Accounted s) (reply : Reply) : Accounted (s.replyToAll reply) := by
  obtain ⟨⟨hlisteners, hnextId⟩, houtbox⟩ := replyToAll_spec h reply
  have hsent := sent_append_deliveries houtbox
  have hreplied := replied_append_deliveries houtbox
  have hkeys : (s.replyToAll reply).replies.keys = [] := by
    rw [Emitter.keys, hlisteners, Table.keys_empty]
  constructor
  · constructor
    · rw [hkeys]
      exact List.nodup_nil
    · rw [hlisteners]
      simp [Table.empty]
  · rw [hkeys, replyToAll_inflight, Table.keys_empty]
  · rw [hkeys]
    simp
  · rw [hsent, hnextId]
    exact h.sentBelow
  · rw [hsent]
    exact h.sentNodup
  · have hcalls : (s.awaited.map fun call ↦ (⟨call.1, call.2, reply⟩ : Delivery)).map
        Delivery.call = s.awaited := by
      rw [List.map_map]
      exact List.map_id _
    have hnobody : (s.replyToAll reply).awaited = [] := by
      rw [awaited, hlisteners]
      rfl
    rw [hsent, hreplied, List.map_append, hcalls, hnobody, List.append_nil]
    exact h.balance

/-- Every move keeps the books balanced. -/
theorem move {action : Action} (h : Accounted s) (hmove : Move s action t) : Accounted t := by
  cases hmove with
  | aside haside => exact h.aside haside
  | dispatch origin request => exact h.dispatch origin request
  | answer id response => exact h.answer id response
  | giveBack reply => exact h.giveBack reply
  | notify message => exact h.streamsOnly (.routeNotification s message)
  | register id query => exact h.streamsOnly (.register s id query)
  | close reason handle => exact h.streamsOnly (.closeStream s reason handle)
  | rebind handle id => exact h.streamsOnly (.rebind s handle id)

end Accounted

theorem accounted_ofConfig (url : String) (config : ClientConfig) (payloadLimit : Option Nat) :
    Accounted (ofConfig url config payloadLimit) where
  oneShot := Emitter.oneShot_empty
  keys := rfl
  below := by simp [ofConfig, Emitter.keys, Table.keys, Table.empty]
  sentBelow := by simp [sent, ofConfig]
  sentNodup := List.nodup_nil
  balance := .nil

theorem accounted_run {s : Session} (hs : s.Quiescent) (h : Accounted s) (events : List Event) :
    Accounted (s.run events) :=
  (run_invariant Accounted (fun _ _ _ _ _ h _ hmove ↦ h.move hmove) events s hs h).2

end Session

end Wireline

import Wireline.Proofs.Session.Backlog
import Wireline.Proofs.Session.Notifications

/-!
# Notifications that come before their stream

The server may notify a client of changes before the stream of the query is open. Such notifications
are kept one after the other (`routeNotification_unheard`), and the stream begins with them. A
stream that is open from the start gets each of them at once. As long as the query runs, it makes no
difference to a stream which of the two happens. The end of a query does: it closes an open stream
(`Alone.routeNotification_killed`), but if there is none it discards what was kept, and a stream
that is opened after that knows nothing of it. `early_notifications` says what a stream holds either
way.
-/

set_option autoImplicit false
set_option relaxedAutoImplicit false

namespace Wireline

/-- Replacing what was kept for a key by nothing is discarding it. -/
theorem Emitter.resetCollectable_setKept {κ σ ε : Type} [DecidableEq κ] (emitter : Emitter κ σ ε)
    (key : κ) (events : List ε) :
    (emitter.setKept key events).resetCollectable key = emitter.resetCollectable key := by
  have hkept : ((emitter.setKept key events).resetCollectable key).kept =
      (emitter.resetCollectable key).kept := by
    simp only [resetCollectable, setKept, List.isEmpty_nil, if_true]
    split
    · refine Table.erase_eq_self ?_
      simp [Table.keys_erase]
    · exact Table.erase_set emitter.kept key events
  have htotal : ((emitter.setKept key events).resetCollectable key).keptTotal =
      (emitter.resetCollectable key).keptTotal := by
    simp only [resetCollectable]
    rw [setKept, keptFor_setKept, if_pos rfl]
    simp only [setKept, List.length_nil]
    omega
  simp only [resetCollectable, setKept, Emitter.mk.injEq, true_and, and_true] at hkept htotal ⊢
  exact ⟨hkept, htotal⟩

namespace Session

/-- An id that is not retired, that no open stream has, and for which nothing is kept. -/
structure Untouched (s : Session) (id : Uuid) : Prop where
  retired : id ∉ s.retired
  unheard : s.listening id = []
  kept : s.live.keptFor id = []

/-! ### Before the stream is open -/

/-- What is kept for a query that no stream listens to, once a notification of it has come. The end
of the query discards what was kept. -/
def keepNext (kept : List LiveMessage) (message : LiveMessage) : List LiveMessage :=
  if message.action = .killed then [] else kept ++ [message]

theorem foldl_keepNext_suffix (messages : List LiveMessage) :
    ∀ kept, messages.foldl keepNext kept <:+ kept ++ messages := by
  induction messages with
  | nil => exact fun kept ↦ by rw [List.append_nil]; exact List.suffix_rfl
  | cons message rest ih =>
    intro kept
    refine (ih (keepNext kept message)).trans ?_
    unfold keepNext
    split
    · exact ((List.suffix_cons message rest).trans (List.suffix_append kept _))
    · exact ⟨[], (List.append_cons kept message rest).symm⟩

theorem foldl_keepNext_of_running {messages : List LiveMessage}
    (hrunning : ∀ message ∈ messages, message.action ≠ .killed) (kept : List LiveMessage) :
    messages.foldl keepNext kept = kept ++ messages := by
  induction messages generalizing kept with
  | nil => exact (List.append_nil kept).symm
  | cons message rest ih =>
    have hkept : keepNext kept message = kept ++ [message] :=
      if_neg (hrunning message List.mem_cons_self)
    have hrest := ih (fun other hother ↦ hrunning other (List.mem_cons_of_mem _ hother))
      (kept ++ [message])
    rw [List.foldl_cons, hkept, hrest, List.append_assoc, List.singleton_append]

/-- The second state is the first with notifications kept for an id that nobody listens to. -/
structure Keeps (s : Session) (id : Uuid) (kept : List LiveMessage) (t : Session) : Prop where
  liveOnly : t = { s with live := t.live }
  unheard : t.live.listenersOf id = []
  limit : t.live.limit = s.live.limit
  keptFor : t.live.keptFor id = kept
  total : t.live.keptTotal = s.live.keptTotal + kept.length

section Before

variable {s t : Session} {id : Uuid} {kept : List LiveMessage}

theorem Untouched.keeps (h : s.Untouched id) (hlive : s.LiveTable) : Keeps s id [] s where
  liveOnly := rfl
  unheard := hlive.listenersOf_eq_nil h.unheard
  limit := rfl
  keptFor := h.kept
  total := rfl

/-- A notification for which there is room is kept, and the end of the query discards what was
kept. -/
theorem routeNotification_unheard {message : LiveMessage} (hretired : message.id ∉ t.retired)
    (hhandle : t.handleFor? message.id = none) (hunheard : t.live.listenersOf message.id = [])
    (hroom : t.live.isFull = false) : t.routeNotification message =
      { t with
        live := t.live.setKept message.id (keepNext (t.live.keptFor message.id) message) } := by
  have hnobody : t.live.hasListeners message.id = false := by
    rw [Emitter.hasListeners, hunheard]
    rfl
  have hemit : t.live.emitCollectable message.id message =
      (t.live.setKept message.id (t.live.keptFor message.id ++ [message]), []) := by
    rw [Emitter.emitCollectable, hnobody, hroom]
    rfl
  simp only [routeNotification, if_neg hretired, hroom, hemit, List.foldl_nil, keepNext]
  by_cases hkilled : message.action = .killed
  · have hnone : handleFor? { t with
        live := t.live.setKept message.id (t.live.keptFor message.id ++ [message]) } message.id =
          none := hhandle
    simp only [hkilled, ne_eq, not_true_eq_false, false_and, if_false, if_true, endQuery, hnone]
    rw [Emitter.resetCollectable_setKept]
    rfl
  · simp [hkilled]

theorem Keeps.routeNotification (h : Keeps s id kept t) (hs : s.Untouched id)
    {message : LiveMessage} (hid : message.id = id)
    (hroom : ∀ limit, s.live.limit = some limit → s.live.keptTotal + kept.length < limit) :
    Keeps s id (keepNext kept message) (t.routeNotification message) := by
  subst hid
  have hretired : message.id ∉ t.retired := by
    rw [h.liveOnly]
    exact hs.retired
  have hhandle : t.handleFor? message.id = none := by
    rw [h.liveOnly]
    exact handleFor?_eq_none_iff.mpr hs.unheard
  have hfree : t.live.isFull = false := by
    rw [Emitter.isFull, h.limit, h.total]
    cases hlimit : s.live.limit with
    | none => rfl
    | some limit => simpa using hroom limit hlimit
  rw [routeNotification_unheard hretired hhandle h.unheard hfree, h.keptFor]
  constructor
  · show _ = _
    rw [h.liveOnly]
  · exact h.unheard
  · exact h.limit
  · rw [Emitter.keptFor_setKept, if_pos rfl]
  · have htotal := h.total
    have hkept := h.keptFor
    simp only [Emitter.setKept, hkept]
    omega

/-- Notifications that come before the stream of their query are kept one after the other. -/
theorem Keeps.routeAll (hs : s.Untouched id) (messages : List LiveMessage) :
    ∀ kept t, Keeps s id kept t → (∀ message ∈ messages, message.id = id) →
      (∀ limit, s.live.limit = some limit →
        s.live.keptTotal + (kept ++ messages).length ≤ limit) →
      Keeps s id (messages.foldl keepNext kept) (messages.foldl Session.routeNotification t) := by
  induction messages with
  | nil => exact fun _ _ h _ _ ↦ h
  | cons message rest ih =>
    intro kept t h hid hroom
    refine ih _ _ (h.routeNotification hs (hid message List.mem_cons_self) fun limit hlimit ↦ ?_)
      (fun other hother ↦ hid other (List.mem_cons_of_mem _ hother)) fun limit hlimit ↦ ?_
    · have hlength := hroom limit hlimit
      simp only [List.length_append, List.length_cons] at hlength
      omega
    · refine Nat.le_trans (Nat.add_le_add_left ?_ _) (hroom limit hlimit)
      unfold keepNext
      split
      · simp only [List.nil_append, List.length_append, List.length_cons]
        omega
      · simp

/-- A stream begins with what was kept for its query. -/
theorem get?_register (t : Session) (id : Uuid) (query : Option LiveQuery) :
    (t.register id query).1.streams.get? (t.register id query).2 =
      some { id, events := (t.live.keptFor id).map .message } := by
  simp only [register, Table.get?_set, if_pos]
  rfl

end Before

/-! ### Once the stream is open -/

/-- A stream is the only open one of its query, and the query is not retired. -/
structure Alone (t : Session) (id : Uuid) (handle : Nat) (stream : LiveStream) : Prop where
  table : t.LiveTable
  retired : id ∉ t.retired
  listening : t.listening id = [handle]
  stream : t.streams.get? handle = some stream

section After

variable {s t : Session} {id : Uuid} {handle : Nat} {stream : LiveStream}

theorem Untouched.alone (h : s.Untouched id) (hlive : s.LiveTable) (query : Option LiveQuery) :
    Alone (s.register id query).1 id s.nextHandle { id } where
  table := hlive.register id query
  retired := by simp [register]
  listening := by
    have hnew : s.nextHandle ∉ s.subscriptions.keys :=
      fun hmem ↦ Nat.lt_irrefl _ (hlive.below _ hmem)
    have hnone := List.map_eq_nil_iff.mp h.unheard
    simp [Session.listening, register, Table.entries_set_of_notMem hnew, hnone]
  stream := by
    have hbegins := get?_register s id query
    rwa [h.kept] at hbegins

/-- While the query runs, its stream gets every notification. -/
theorem Alone.routeNotification (h : Alone t id handle stream) {message : LiveMessage}
    (hid : message.id = id) (hrunning : message.action ≠ .killed) :
    Alone (t.routeNotification message) id handle (stream.push message) := by
  subst hid
  have hopen : t.listening message.id ≠ [] := by
    rw [h.listening]
    exact List.cons_ne_nil _ _
  have hdelivered := routeNotification_delivers h.table hrunning hopen h.retired
  constructor
  · exact h.table.routeNotification message
  · rw [hdelivered.streamsOnly]
    exact h.retired
  · rw [hdelivered.streamsOnly]
    exact h.listening
  · rw [hdelivered.streams, h.listening, if_pos List.mem_cons_self, h.stream, Option.map_some]

theorem Alone.routeAll {messages : List LiveMessage}
    (hid : ∀ message ∈ messages, message.id = id)
    (hrunning : ∀ message ∈ messages, message.action ≠ .killed) :
    ∀ {t stream}, Alone t id handle stream →
      Alone (messages.foldl Session.routeNotification t) id handle
        { stream with events := stream.events ++ messages.map .message } := by
  induction messages with
  | nil =>
    intro t stream h
    rw [List.map_nil, List.append_nil]
    exact h
  | cons message rest ih =>
    intro t stream h
    have hnext := h.routeNotification (hid message List.mem_cons_self)
      (hrunning message List.mem_cons_self)
    have hrest := ih (fun other hother ↦ hid other (List.mem_cons_of_mem _ hother))
      (fun other hother ↦ hrunning other (List.mem_cons_of_mem _ hother)) hnext
    rwa [LiveStream.push, List.append_assoc] at hrest

/-- The end of a query reaches its stream and closes it. -/
theorem Alone.routeNotification_killed (h : Alone t id handle stream) {message : LiveMessage}
    (hid : message.id = id) (hkilled : message.action = .killed) :
    t.routeNotification message = (deliverTo message t handle).closeStream .killed handle := by
  subst hid
  have hsinks : (t.live.listenersOf message.id).map Listener.sink = [handle] := by
    refine List.perm_singleton.mp ((List.perm_ext_iff_of_nodup (h.table.sinks_nodup _)
      (List.nodup_singleton _)).mpr fun other ↦ ?_)
    rw [h.table.mem_sinks_iff, h.listening]
  have hopen : t.listening message.id ≠ [] := by
    rw [h.listening]
    exact List.cons_ne_nil _ _
  have hemit : t.live.emitCollectable message.id message = (t.live, [handle]) := by
    rw [h.table.emitCollectable_eq hopen, hsinks]
  have hhandle : (deliverTo message t handle).handleFor? message.id = some handle :=
    handleFor?_eq_some h.listening
  have hannounced : t.announce message = deliverTo message t handle := by
    rw [announce, hemit]
    rfl
  rw [routeNotification_of_killed hkilled h.retired, hannounced, endQuery, hhandle]

theorem Alone.deliverTo (h : Alone t id handle stream) (message : LiveMessage) :
    Alone (deliverTo message t handle) id handle (stream.push message) where
  table := h.table.eventsOnly (.deliverTo message t handle)
  retired := h.retired
  listening := h.listening
  stream := by rw [Session.deliverTo, Table.get?_modify, if_pos rfl, h.stream, Option.map_some]

/-- The only stream of a query is closed, and the query retired. -/
theorem Alone.closeStream (h : Alone t id handle stream) (reason : CloseReason) :
    id ∈ (t.closeStream reason handle).retired ∧
      (t.closeStream reason handle).streams.get? handle = some (stream.close reason) := by
  have hmem : handle ∈ t.listening id := by
    rw [h.listening]
    exact List.mem_cons_self
  have hlast : (t.listening id).erase handle = [] := by
    rw [h.listening, List.erase_cons_head]
  refine ⟨(h.table.mem_retired_closeStream hmem reason).mpr (.inr hlast), ?_⟩
  rw [closeStream_streams (mem_keys_of_mem_listening hmem), Table.get?_modify, if_pos rfl, h.stream,
    Option.map_some]

/-- Notifications of a retired query are dropped. -/
theorem routeAll_of_retired {messages : List LiveMessage}
    (hid : ∀ message ∈ messages, message.id = id) (hretired : id ∈ t.retired) :
    messages.foldl Session.routeNotification t = t := by
  induction messages with
  | nil => rfl
  | cons message rest ih =>
    have hdropped : t.routeNotification message = t :=
      routeNotification_of_retired (hid message List.mem_cons_self ▸ hretired)
    rw [List.foldl_cons, hdropped]
    exact ih fun other hother ↦ hid other (List.mem_cons_of_mem _ hother)

/-- The end of a query is the last that its stream gets. -/
theorem Alone.routeAll_ended (h : Alone t id handle stream) {before after : List LiveMessage}
    {ended : LiveMessage} (hid : ∀ message ∈ before ++ ended :: after, message.id = id)
    (hrunning : ∀ message ∈ before, message.action ≠ .killed) (hkilled : ended.action = .killed) :
    ((before ++ ended :: after).foldl Session.routeNotification t).streams.get? handle =
      some { stream with
        isAlive := false
        events := stream.events ++ (before ++ [ended]).map .message ++ [.closed .killed] } := by
  have hbefore := h.routeAll (fun message hmem ↦ hid message (List.mem_append_left _ hmem)) hrunning
  have hended : ended.id = id := hid ended (List.mem_append_right _ List.mem_cons_self)
  rw [List.foldl_append, List.foldl_cons, hbefore.routeNotification_killed hended hkilled]
  obtain ⟨hretired, hstream⟩ := (hbefore.deliverTo ended).closeStream .killed
  rw [routeAll_of_retired (fun message hmem ↦
    hid message (List.mem_append_right _ (List.mem_cons_of_mem _ hmem))) hretired, hstream]
  simp [LiveStream.push, LiveStream.close]

end After

/-! ### Early and late streams -/

/-- Some notifications of a query come, for which there is room, and a stream of the query is opened
before or after them. While the query runs, the stream holds the same either way. If the query ends
among them, a stream that was open before gets what comes up to the end and is closed, and one that
is opened after them is open and holds nothing of what came up to the end. -/
theorem early_notifications (url : String) (config : ClientConfig) (payloadLimit : Option Nat)
    (events : List Event) (id : Uuid) (query : Option LiveQuery) (messages : List LiveMessage)
    (huntouched : ((ofConfig url config payloadLimit).run events).Untouched id)
    (hid : ∀ message ∈ messages, message.id = id)
    (hroom : ((ofConfig url config payloadLimit).run events).live.keptTotal + messages.length ≤
      config.notificationCapacity) :
    let s := (ofConfig url config payloadLimit).run events
    let (before, handle) := s.register id query
    let (after, late) := (messages.foldl routeNotification s).register id query
    ((∀ message ∈ messages, message.action ≠ .killed) →
      (messages.foldl routeNotification before).streams.get? handle = after.streams.get? late ∧
      after.streams.get? late = some { id, events := messages.map .message }) ∧
    (∀ seen ended unseen, messages = seen ++ ended :: unseen → ended.action = .killed →
      ((∀ message ∈ seen, message.action ≠ .killed) →
        (messages.foldl routeNotification before).streams.get? handle =
          some { id
                 isAlive := false
                 events := (seen ++ [ended]).map .message ++ [.closed .killed] }) ∧
      ∃ rest, rest <:+ unseen ∧
        after.streams.get? late = some { id, events := rest.map .message }) := by
  have hconsistent := (Consistent.ofConfig url config payloadLimit).run
    (ofConfig_quiescent url config payloadLimit) events
  intro s
  have halone : Alone (s.register id query).1 id s.nextHandle { id } :=
    huntouched.alone hconsistent.table query
  have hkept : Keeps s id (messages.foldl keepNext []) (messages.foldl routeNotification s) := by
    refine Keeps.routeAll huntouched messages [] s (huntouched.keeps hconsistent.table) hid ?_
    intro limit hlimit
    rw [hconsistent.backlog.limit] at hlimit
    cases hlimit
    exact hroom
  have hlate := get?_register (messages.foldl routeNotification s) id query
  rw [hkept.keptFor] at hlate
  refine ⟨fun hrunning ↦ ?_, ?_⟩
  · rw [foldl_keepNext_of_running hrunning, List.nil_append] at hlate
    have hdirect := (halone.routeAll hid hrunning).stream
    rw [List.nil_append] at hdirect
    exact ⟨hdirect.trans hlate.symm, hlate⟩
  · rintro seen ended unseen rfl hkilled
    refine ⟨fun hrunning ↦ halone.routeAll_ended hid hrunning hkilled, _, ?_, hlate⟩
    have hdiscarded : (seen ++ ended :: unseen).foldl keepNext [] = unseen.foldl keepNext [] := by
      rw [List.foldl_append, List.foldl_cons, keepNext, if_pos hkilled]
    rw [hdiscarded]
    exact foldl_keepNext_suffix unseen []

/-- A stream that is opened after two notifications of a running query holds both, as if it had been
open before. -/
theorem early_notifications_running :
    let s := (ofConfig "mem://tidal" {} none).run [.start, .linked]
    let id : Uuid := ⟨List.replicate 16 0x5a, rfl⟩
    let messages : List LiveMessage := [⟨id, .create, .null⟩, ⟨id, .update, .bool true⟩]
    s.Untouched id ∧ (∀ message ∈ messages, message.id = id) ∧
      s.live.keptTotal + messages.length ≤ 1024 ∧
      (∀ message ∈ messages, message.action ≠ .killed) ∧
      ((messages.foldl routeNotification s).register id none).1.streams.get? 1 =
        some { id, events := messages.map .message } := by
  intro s id messages
  have huntouched : s.Untouched id := ⟨List.not_mem_nil, rfl, rfl⟩
  have hid : ∀ message ∈ messages, message.id = id := by simp [messages]
  have hrunning : ∀ message ∈ messages, message.action ≠ .killed := by simp [messages]
  have hroom : s.live.keptTotal + messages.length ≤ 1024 := by decide
  exact ⟨huntouched, hid, hroom, hrunning,
    ((early_notifications "mem://tidal" {} none [.start, .linked] id none messages huntouched hid
      hroom).1 hrunning).2⟩

/-- A query begins and ends before its stream is opened. The stream knows of neither, though it
would have been told of both and closed, had it been open. -/
theorem early_end_unnoticed :
    let s := (ofConfig "mem://tidal" {} none).run [.start, .linked]
    let id : Uuid := ⟨List.replicate 16 0x5a, rfl⟩
    let messages : List LiveMessage := [⟨id, .create, .null⟩, ⟨id, .killed, .null⟩]
    s.Untouched id ∧ (∀ message ∈ messages, message.id = id) ∧
      s.live.keptTotal + messages.length ≤ 1024 ∧
      ((messages.foldl routeNotification (s.register id none).1).streams.get? 1).map
        LiveStream.isAlive = some false ∧
      ((messages.foldl routeNotification s).register id none).1.streams.get? 1 = some { id } ∧
      (messages.foldl routeNotification (s.register id none).1).streams.get? 1 ≠
        ((messages.foldl routeNotification s).register id none).1.streams.get? 1 := by
  intro s id messages
  have huntouched : s.Untouched id := ⟨List.not_mem_nil, rfl, rfl⟩
  have hid : ∀ message ∈ messages, message.id = id := by simp [messages]
  have hlive : s.LiveTable := liveTable_run (ofConfig_quiescent _ _ _) (liveTable_ofConfig _ _ _) _
  have hsplit : messages = [⟨id, .create, .null⟩] ++ ⟨id, .killed, .null⟩ :: [] := rfl
  have hdirect : (messages.foldl routeNotification (s.register id none).1).streams.get? 1 =
      some { id, isAlive := false, events := messages.map .message ++ [.closed .killed] } := by
    rw [hsplit]
    exact (huntouched.alone hlive none).routeAll_ended (hsplit ▸ hid) (by simp) rfl
  have hlate : ((messages.foldl routeNotification s).register id none).1.streams.get? 1 =
      some { id } := rfl
  refine ⟨huntouched, hid, by decide, by rw [hdirect]; rfl, hlate, ?_⟩
  rw [hdirect, hlate]
  intro hsame
  cases hsame

end Session

end Wireline

import Wireline.Proofs.Session.Resumption

/-!
# The order of frames

What a session writes it writes in a fixed order, whatever happens to its links. Ids only grow. A
link that was opened to reconnect carries nothing but the calls that restore it, in their order,
until the session serves again. The calls that wait are then sent before all others, in the order in
which they came (`frames_in_order`).
-/

set_option autoImplicit false
set_option relaxedAutoImplicit false

namespace Wireline

namespace Session

/-! ### Calls of the session itself -/

section Restores

variable {s₀ s : Session} {events : List Event}

theorem forall₂_restartOf_origin {handles : List Nat} {lives : List Outgoing}
    (h : List.Forall₂ (RestartOf s₀ events) handles lives) :
    ∀ outgoing ∈ lives, outgoing.origin = .restoration := by
  induction h with
  | nil => simp
  | cons hrestart _ ih =>
    intro outgoing houtgoing
    rcases List.mem_cons.mp houtgoing with rfl | hrest
    · exact hrestart.origin
    · exact ih outgoing hrest

/-- What restores a link is nobody else's call. -/
theorem Restores.origin {frames : List Outgoing} (h : Restores s₀ events frames) :
    ∀ outgoing ∈ frames, outgoing.origin = .restoration := by
  obtain ⟨standing, lives, handles, rfl, hprefix, -, -, hlives⟩ := h
  intro outgoing houtgoing
  rcases List.mem_append.mp houtgoing with hstanding | hlive
  · have hcall := (framed_sublist s₀ (own s₀.standing.restoreRequests) s₀.nextId).subset
      (List.mem_map.mpr ⟨outgoing, hprefix.subset hstanding, rfl⟩)
    obtain ⟨request, -, hsame⟩ := List.mem_map.mp hcall
    exact (congrArg Prod.fst hsame).symm
  · exact forall₂_restartOf_origin hlives outgoing hlive

/-- What a session has written on a link that was opened in `s₀`, up to now or until the restoration
of the link was over: calls of its own that restore the link. If the session serves again, the
standing was restored before. -/
def WrittenInOrder (s₀ : Session) (events : List Event) (s : Session) : Prop :=
  ∃ during after, s.outbox = s₀.outbox ++ during ++ after ∧
    (∀ effect ∈ during, ¬ effect.IsCut) ∧
    Restores s₀ events (during.filterMap Effect.outgoing?) ∧
    (∀ outgoing, .send outgoing ∈ during → outgoing.origin = .restoration) ∧
    (after = [] ∨ (∃ rest, after = .hangUp :: rest) ∨
      ∃ rest, after = .status .connected :: rest ∧
        RestoresStanding s₀ events (during.filterMap Effect.outgoing?))

theorem writtenInOrder_run (hs : s₀.Steady) (hphase : s₀.phase = .dialing) (events : List Event) :
    WrittenInOrder s₀ (.linked :: events) (s₀.run (.linked :: events)) := by
  have hown {during : List Effect}
      (hrestores : Restores s₀ (.linked :: events) (during.filterMap Effect.outgoing?))
      (outgoing : Outgoing) (hsend : .send outgoing ∈ during) : outgoing.origin = .restoration :=
    hrestores.origin outgoing (List.mem_filterMap.mpr ⟨.send outgoing, hsend, rfl⟩)
  rcases restored_run hs hphase events with ⟨restoration, h⟩ | h
  · obtain ⟨during, houtbox, hduring⟩ := h.uncut
    obtain ⟨frames, lives, hframes, -⟩ := h.frames
    have hrestores := h.restores hframes
    rw [← filterMap_outgoing?_eq houtbox hframes] at hrestores
    exact ⟨during, [], by rw [houtbox, List.append_nil], hduring, hrestores, hown hrestores,
      .inl rfl⟩
  · obtain ⟨during, after, houtbox, hduring, hrestores, hafter⟩ := h
    exact ⟨during, after, houtbox, hduring, hrestores, hown hrestores, .inr hafter⟩

end Restores

/-! ### Calls that waited -/

theorem served_calls (s : Session) :
    s.served.sent = s.sent ++ (s.framed s.nextId (ofCallers s.deferred)).map (fun outgoing ↦
      (outgoing.id, outgoing.origin)) ∧
    s.served.written = s.written ++
      if s.link = .whole then s.framed s.nextId (ofCallers s.deferred) else [] := by
  have hsaid := Aside.setStatus s .connected
  have hlimit : (s.setStatus .connected).payloadLimit = s.payloadLimit := by
    unfold setStatus
    split <;> rfl
  have hnextId := nextId_eq_of_requestState hsaid.requestState
  have hlink := link_eq_of_controlState (setStatus_controlState s .connected)
  have hdeferred := setStatus_deferred s .connected
  unfold served
  rw [← hsaid.sent, ← hsaid.written]
  generalize s.setStatus .connected = u at *
  obtain ⟨hsent, hwritten, -⟩ := dispatchCalls_spec u.deferred { u with deferred := [] }
  rw [← hdeferred, ← framed_congr (t := { u with deferred := [] }) hlimit, ← hnextId, ← hlink]
  exact ⟨hsent, hwritten⟩

/-- A session that serves again sends the calls that waited, each under the next id, and writes them
if the link takes frames. None is left. -/
theorem resume_calls (s : Session) :
    s.resume.deferred = [] ∧
    s.resume.sent = s.sent ++ (s.framed s.nextId (ofCallers s.deferred)).map (fun outgoing ↦
      (outgoing.id, outgoing.origin)) ∧
    s.resume.written = s.written ++
      if s.link = .whole then s.framed s.nextId (ofCallers s.deferred) else [] := by
  obtain ⟨hsent, hwritten⟩ := served_calls s
  have hnone : s.served.deferred = [] := (served_requestsOnly s).deferred
  have hstatus : s.served.status = .connected :=
    (served_requestsOnly s).status.trans (setStatus_status s .connected)
  obtain ⟨backoff, tick, hresume⟩ := resume_eq s
  rw [hresume, ← hsent, ← hwritten]
  generalize s.served = u at *
  generalize hv : ({ u with backoff := backoff, phase := .serving tick } : Session) = v
  have hserving : v.IsServing := ⟨tick, by rw [← hv]⟩
  have hwaiting : v.deferred = [] := by
    rw [← hv]
    exact hnone
  have hconnected : v.status = .connected := by
    rw [← hv]
    exact hstatus
  obtain ⟨calls, hcalls, -⟩ := (attend_orderly hserving hconnected hwaiting).drains
  have hquiet := attend_quiet v
  refine ⟨?_, ?_, ?_⟩
  · rw [hwaiting] at hcalls
    exact (List.append_eq_nil_iff.mp hcalls.symm).2
  · rw [hquiet.sent, ← hv]
    rfl
  · rw [hquiet.written, ← hv]
    rfl

/-- In every run, the ids of the frames that are written only grow, and each frame carries its own.
On a link that was opened to reconnect nothing is written but calls of the session itself that
restore it, in their order, until the session serves again or lets the link go. Of the calls that
were received the last ones wait and the others were handled, both in the order in which they came;
and when a session that reconnects says that it is connected, those that wait are sent next, one
after the other. -/
theorem frames_in_order (url : String) (config : ClientConfig) (payloadLimit : Option Nat)
    (events : List Event) :
    let s := ofConfig url config payloadLimit
    Numbered (s.run events) ∧
    (∀ earlier later, events = earlier ++ .linked :: later → (s.run earlier).phase = .dialing →
      WrittenInOrder (s.run earlier) (.linked :: later) (s.run events)) ∧
    (s.run events).Queued (s.received events) ∧
    (∀ event, Reconnects (s.run events) event → ∃ t : Session,
      (s.run events).step event = t.resume ∧ t.deferred = (s.run events).deferred ∧
      t.resume.deferred = [] ∧
      t.resume.sent = t.sent ++ (t.framed t.nextId (ofCallers t.deferred)).map (fun outgoing ↦
        (outgoing.id, outgoing.origin)) ∧
      t.resume.written = t.written ++
        if t.link = .whole then t.framed t.nextId (ofCallers t.deferred) else []) := by
  intro s
  have hs : s.Steady := steady_ofConfig url config payloadLimit
  have hbegin : ¬ s.IsRestoring := not_isRestoring_ofConfig url config payloadLimit
  refine ⟨numbered_run hs.quiescent (numbered_ofConfig url config payloadLimit) events, ?_, ?_, ?_⟩
  · rintro earlier later rfl hphase
    rw [run_append]
    exact writtenInOrder_run (hs.run earlier) hphase later
  · exact queued_run events s [] hs ⟨[], rfl, rfl, .slnil⟩
  · intro event hreconnects
    obtain ⟨earlier, since, later, begun, t, rfl, -, hlinked, hready, -, hresume⟩ :=
      resumption hs hbegin events event hreconnects
    rw [← hlinked] at hready
    obtain ⟨v, hproceeds, hskips⟩ := hready.proceeds
    have hdeferred := hskips.passed.deferred.trans hproceeds.unchanged.2.1
    rw [← run_append] at hdeferred
    exact ⟨t, hresume, hdeferred, resume_calls t⟩

/-- The link is lost while a stream is open, and a call comes before there is another link. -/
def callBeforeLink : List Event :=
  [.start, .linked,
    .command (.subscribe 1 ⟨List.replicate 16 0x5d, rfl⟩ (some ⟨.text "person", false⟩)),
    .lost, .command (.request 2 ⟨"ping", []⟩), .elapse 2000000000]

/-- The answer to the first call, with an id. -/
def answerToFirst : Event :=
  .frame ([162, 98, 105, 100, 1, 102, 114, 101, 115, 117, 108, 116, 216, 37, 80] ++
    List.replicate 16 0x5c)

set_option maxRecDepth 8000 in
/-- The stream is started again under the first id, and the call that waited is sent under the
second. -/
theorem frames_in_order_of_call :
    let s := ofConfig "" {} none
    let linked := s.run (callBeforeLink ++ [.linked])
    WrittenInOrder (s.run callBeforeLink) [.linked] linked ∧
      linked.sent = [(1, .restoration)] ∧ linked.deferred.map Prod.fst = [2] ∧
      ∃ t : Session, linked.step answerToFirst = t.resume ∧ t.deferred = linked.deferred ∧
        t.resume.deferred = [] ∧ t.resume.sent = [(1, .restoration), (2, .caller 2)] := by
  intro s linked
  have hdialing : ((ofConfig "" {} none).run callBeforeLink).phase = .dialing := rfl
  have hreconnects : Reconnects linked answerToFirst := by decide +kernel
  have hsent : linked.sent = [(1, .restoration)] := by decide +kernel
  have hwaiting : linked.deferred.map Prod.fst = [2] := by decide +kernel
  have hsentNext : (linked.step answerToFirst).sent = [(1, .restoration), (2, .caller 2)] := by
    decide +kernel
  obtain ⟨-, hwritten, -, hresumes⟩ := frames_in_order "" {} none (callBeforeLink ++ [.linked])
  obtain ⟨t, hresume, hdeferred, hnone, -⟩ := hresumes answerToFirst hreconnects
  exact ⟨hwritten callBeforeLink [] rfl hdialing, hsent, hwaiting, t, hresume, hdeferred, hnone,
    hresume ▸ hsentNext⟩

end Session

end Wireline

import Mathlib.Data.List.Chain
import Wireline.Proofs.Session.Backlog
import Wireline.Proofs.Session.Course
import Wireline.Proofs.Session.Endings

/-!
# Settled sessions

The status that a session publishes goes with the stage of its course (`Course.Fits`), so a leg of
the course makes permitted moves only (`Leg.goesOn`), and so does every run (`publishes_run`). A leg
that ends the session announces a final status (`Leg.finished_iff`), and no other leg begins after
it: the status stays (`status_run_of_over`). A session gets there by `shutdown` alone, unless it
never had a link (`EndsByShutdown`), and then nothing is left pending (`Steady.isBare`).
-/

set_option autoImplicit false
set_option relaxedAutoImplicit false

namespace Wireline

/-! ### Moves of the status -/

namespace Status

/-- Whether a session of this status has had a link and is not over. -/
def IsUp (status : Status) : Prop :=
  status = .connected ∨ status = .reconnecting

/-- Whether this is what a session says at its end. -/
def IsFinal (status : Status) : Prop :=
  status = .disconnected ∨ status = .error

/-- The moves that a published status makes. -/
inductive Moves : Status → Status → Prop
  | begun : Moves .disconnected .connecting
  | opened : Moves .connecting .connected
  | refused : Moves .connecting .error
  | lost : Moves .connected .reconnecting
  | restored : Moves .reconnecting .connected
  | ended {status : Status} (h : status.IsUp) : Moves status .disconnected
  | failed {status : Status} (h : status.IsUp) : Moves status .error

/-- Statuses were published one after the other, each by a move from the last one. -/
structure Leads (old : Status) (published : List Status) (new : Status) : Prop where
  chain : (old :: published).IsChain Moves
  last : (old :: published).getLast? = some new

namespace Leads

variable {old middle new : Status} {first second : List Status}

theorem refl (status : Status) : status.Leads [] status :=
  ⟨.singleton status, rfl⟩

theorem single (h : Moves old new) : old.Leads [new] new :=
  ⟨.cons_cons h (.singleton new), rfl⟩

theorem trans (hfirst : old.Leads first middle) (hsecond : middle.Leads second new) :
    old.Leads (first ++ second) new := by
  constructor
  · rw [← List.cons_append, List.isChain_append]
    refine ⟨hfirst.chain, hsecond.chain.tail, fun last hlast next hnext ↦ ?_⟩
    rw [hfirst.last, Option.mem_some] at hlast
    exact hlast ▸ hsecond.chain.rel_head? hnext
  · cases second with
    | nil =>
      rw [List.append_nil, hfirst.last]
      exact hsecond.last
    | cons status rest =>
      rw [← List.cons_append, List.getLast?_append_cons]
      exact hsecond.last

end Leads

end Status

namespace Session

def Milestone.status? : Milestone → Option Status
  | .status announced => some announced
  | .dial => none

def Effect.status? : Effect → Option Status
  | .status announced => some announced
  | _ => none

/-- The statuses that a session has published, the first one first. -/
def published (s : Session) : List Status :=
  s.outbox.filterMap Effect.status?

theorem published_eq (s : Session) : s.published = s.milestones.filterMap Milestone.status? := by
  rw [milestones, List.filterMap_filterMap]
  refine List.filterMap_congr fun effect _ ↦ ?_
  cases effect <;> rfl

/-! ### Statuses along a course -/

theorem announcement_leads {old new : Status} (h : old.Moves new) :
    old.Leads ((announcement old new).filterMap Milestone.status?) new := by
  unfold announcement
  split
  · next hsame => exact hsame ▸ .refl old
  · exact .single h

theorem statusAfter_isFinal (reason : DisconnectReason) : (statusAfter reason).IsFinal := by
  cases reason with
  | closed | transportLost => exact .inl rfl
  | reconnectExhausted | protocol => exact .inr rfl

theorem statusAfter_moves {status : Status} (h : status.IsUp) (reason : DisconnectReason) :
    status.Moves (statusAfter reason) := by
  cases reason with
  | closed | transportLost => exact .ended h
  | reconnectExhausted | protocol => exact .failed h

namespace Course

/-- The status is the one that goes with the stage. -/
def Fits (c : Course) : Prop :=
  match c.stage with
  | .unopened => c.status = .disconnected
  | .opening => c.status = .connecting
  | .serving => c.status = .connected
  | .waiting | .dialing | .restoring | .halted => c.status = .reconnecting
  | .finished => c.status.IsFinal

/-- The second course goes on from the first with permitted moves of the status. -/
structure GoesOn (c : Course) (passed : List Milestone) (next : Course) : Prop where
  fits : next.Fits
  leads : c.status.Leads (passed.filterMap Milestone.status?) next.status

namespace GoesOn

variable {c middle last : Course} {first second : List Milestone}

theorem trans (hfirst : GoesOn c first middle) (hsecond : GoesOn middle second last) :
    GoesOn c (first ++ second) last := by
  refine ⟨hsecond.fits, ?_⟩
  rw [List.filterMap_append]
  exact hfirst.leads.trans hsecond.leads

end GoesOn

variable {c next : Course} {passed : List Milestone}

namespace Fits

theorem unopened (h : c.Fits) (hstage : c.stage = .unopened) : c.status = .disconnected := by
  rwa [Fits, hstage] at h

theorem opening (h : c.Fits) (hstage : c.stage = .opening) : c.status = .connecting := by
  rwa [Fits, hstage] at h

theorem serving (h : c.Fits) (hstage : c.stage = .serving) : c.status = .connected := by
  rwa [Fits, hstage] at h

theorem reconnecting (h : c.Fits)
    (hstage : c.stage = .waiting ∨ c.stage = .dialing ∨ c.stage = .restoring) :
    c.status = .reconnecting := by
  rcases hstage with hs | hs | hs <;> rwa [Fits, hs] at h

theorem isUp (h : c.Fits) (hstage : c.stage.isUp) : c.status.IsUp := by
  cases hs : c.stage with
  | serving => exact .inl (h.serving hs)
  | waiting => exact .inr (h.reconnecting (.inl hs))
  | dialing => exact .inr (h.reconnecting (.inr (.inl hs)))
  | restoring => exact .inr (h.reconnecting (.inr (.inr hs)))
  | unopened | opening | halted | finished => simp [hs, Stage.isUp] at hstage

/-- A link that is asked for makes the status another one. -/
theorem ne_connected (h : c.Fits)
    (hstage : c.stage = .opening ∨ c.stage = .dialing ∨ c.stage = .restoring) :
    c.status ≠ .connected := by
  rcases hstage with hopening | hagain
  · simp [h.opening hopening]
  · simp [h.reconnecting (.inr hagain)]

end Fits

theorem Retries.goesOn (h : c.Retries passed next) (hstatus : c.status = .reconnecting) :
    GoesOn c passed next := by
  cases h with
  | permitted _ | halted _ => exact ⟨hstatus, .refl _⟩
  | exhausted _ => exact ⟨.inr rfl, announcement_leads (.failed (.inr hstatus))⟩

theorem Leg.goesOn (h : c.Leg passed next) (hfits : c.Fits) : GoesOn c passed next := by
  cases h with
  | begun hstage =>
    have hmoves : c.status.Moves .connecting := hfits.unopened hstage ▸ .begun
    refine ⟨rfl, ?_⟩
    rw [List.filterMap_append]
    exact (announcement_leads hmoves).trans (.refl _)
  | failed hstage => exact ⟨.inr rfl, announcement_leads (hfits.opening hstage ▸ .refused)⟩
  | connected hstage =>
    refine ⟨rfl, announcement_leads ?_⟩
    rcases hstage with hopening | hagain
    · exact hfits.opening hopening ▸ .opened
    · exact hfits.reconnecting (.inr hagain) ▸ .restored
  | lost hstage _ hretries =>
    have hreconnecting := hretries.goesOn rfl
    refine ⟨hreconnecting.fits, ?_⟩
    rw [List.filterMap_append]
    exact (announcement_leads (hfits.serving hstage ▸ .lost)).trans hreconnecting.leads
  | lostAgain hstage hretries => exact hretries.goesOn (hfits.reconnecting (.inr hstage))
  | dialed hstage => exact ⟨hfits.reconnecting (.inl hstage), .refl _⟩
  | linked hstage => exact ⟨hfits.reconnecting (.inr hstage), .refl _⟩
  | ended hstage reason =>
    exact ⟨statusAfter_isFinal reason,
      announcement_leads (statusAfter_moves (hfits.isUp hstage) reason)⟩

theorem Route.goesOn (h : c.Route passed next) (hfits : c.Fits) : GoesOn c passed next := by
  induction h with
  | refl => exact ⟨hfits, .refl _⟩
  | tail _ hleg ih => exact ih.trans (hleg.goesOn ih.fits)

/-- The session goes nowhere any more. -/
def Stays (c : Course) : Prop :=
  c.stage = .finished ∨ c.stage = .halted

/-- No leg begins where the session stays. -/
theorem Leg.not_stays (h : c.Leg passed next) : ¬ c.Stays := by
  intro hstays
  have hother {stage : Stage} (hstage : c.stage = stage) : stage = .finished ∨ stage = .halted :=
    hstage ▸ hstays
  cases h with
  | begun h | failed h | lost h _ _ | dialed h => simpa using hother h
  | connected h => rcases h with h | h | h <;> simpa using hother h
  | lostAgain h _ | linked h => rcases h with h | h <;> simpa using hother h
  | ended h _ => rcases hstays with hover | hhalted <;> simp [*, Stage.isUp] at h

theorem Route.of_stays (h : c.Route passed next) (hstays : c.Stays) :
    next = c ∧ passed = [] := by
  induction h with
  | refl => exact ⟨rfl, rfl⟩
  | tail _ hleg ih =>
    obtain ⟨rfl, -⟩ := ih
    exact absurd hstays hleg.not_stays

/-- A final status is among the milestones. -/
def HasFinal (passed : List Milestone) : Prop :=
  ∃ status : Status, .status status ∈ passed ∧ status.IsFinal

theorem hasFinal_append {first second : List Milestone} :
    HasFinal (first ++ second) ↔ HasFinal first ∨ HasFinal second := by
  simp only [HasFinal, List.mem_append, or_and_right, exists_or]

theorem hasFinal_announcement {old new : Status} (hne : old ≠ new) :
    HasFinal (announcement old new) ↔ new.IsFinal := by
  rw [announcement, if_neg hne, HasFinal]
  simp

theorem Retries.finished_iff (h : c.Retries passed next) (hstatus : c.status = .reconnecting) :
    next.stage = .finished ↔ HasFinal passed := by
  cases h with
  | permitted _ | halted _ => simp [HasFinal]
  | exhausted _ =>
    rw [hasFinal_announcement (by simp [hstatus])]
    exact iff_of_true rfl (.inr rfl)

/-- A leg leads to the end exactly if a final status is announced on it. -/
theorem Leg.finished_iff (h : c.Leg passed next) (hfits : c.Fits) :
    next.stage = .finished ↔ HasFinal passed := by
  cases h with
  | begun hstage =>
    rw [hasFinal_append, hasFinal_announcement (by simp [hfits.unopened hstage])]
    simp [HasFinal, Status.IsFinal]
  | failed hstage =>
    rw [hasFinal_announcement (by simp [hfits.opening hstage])]
    exact iff_of_true rfl (.inr rfl)
  | connected hstage =>
    rw [hasFinal_announcement (hfits.ne_connected hstage)]
    simp [Status.IsFinal]
  | lost hstage _ hretries =>
    rw [hasFinal_append, hasFinal_announcement (by simp [hfits.serving hstage]),
      hretries.finished_iff rfl]
    simp [Status.IsFinal]
  | lostAgain hstage hretries => exact hretries.finished_iff (hfits.reconnecting (.inr hstage))
  | dialed _ => simp [HasFinal]
  | linked _ => simp [HasFinal]
  | ended hstage reason =>
    have hfinal := statusAfter_isFinal reason
    have hne : c.status ≠ statusAfter reason := by
      rcases hfits.isUp hstage with hup | hup <;>
        rcases hfinal with hend | hend <;> simp [hup, hend]
    rw [hasFinal_announcement hne]
    exact iff_of_true rfl hfinal

theorem Route.finished_iff (h : c.Route passed next) (hfits : c.Fits) :
    next.stage = .finished ↔ c.stage = .finished ∨ HasFinal passed := by
  induction h with
  | refl => simp [HasFinal]
  | tail hroute hleg ih =>
    -- the leg before the last one did not lead to the end, or the last would not have begun
    have hgoes := mt ih.mpr fun hover ↦ hleg.not_stays (.inl hover)
    rw [not_or] at hgoes
    rw [hleg.finished_iff (hroute.goesOn hfits).fits, hasFinal_append]
    simp only [hgoes, false_or]

end Course

/-! ### Statuses of a run -/

variable {s t : Session}

/-- From a status on, what the session published are permitted moves, and its status fits. -/
structure Publishes (old : Status) (s : Session) : Prop where
  fits : s.course.Fits
  leads : old.Leads s.published s.status
  finished_iff : s.course.stage = .finished ↔ Course.HasFinal s.milestones

theorem Publishes.travels {old : Status} (h : s.Publishes old) (htravels : Travels s t) :
    t.Publishes old := by
  obtain ⟨passed, hroute, hmilestones⟩ := htravels
  obtain ⟨hfits, hleads⟩ := hroute.goesOn h.fits
  refine ⟨hfits, ?_, ?_⟩
  · rw [published_eq, hmilestones, List.filterMap_append, ← published_eq]
    exact h.leads.trans hleads
  · rw [hroute.finished_iff h.fits, h.finished_iff, hmilestones, Course.hasFinal_append]

theorem isOver_iff (s : Session) : s.IsOver ↔ s.course.stage = .finished := by
  unfold IsOver course
  cases s.phase <;> simp [Phase.stage]

/-- Who follows the status knows when the session is over. -/
theorem Publishes.isOver_iff {old : Status} (h : s.Publishes old) :
    s.IsOver ↔ ∃ status ∈ s.published, status.IsFinal := by
  rw [Session.isOver_iff, h.finished_iff, published_eq]
  constructor
  · rintro ⟨status, hmem, hfinal⟩
    exact ⟨status, List.mem_filterMap.mpr ⟨.status status, hmem, rfl⟩, hfinal⟩
  · rintro ⟨status, hmem, hfinal⟩
    obtain ⟨milestone, hpassed, hstatus⟩ := List.mem_filterMap.mp hmem
    cases milestone with
    | status announced =>
      cases hstatus
      exact ⟨_, hpassed, hfinal⟩
    | dial => cases hstatus

theorem Steady.travels (hs : s.Steady) (event : Event) :
    Travels (s.later event) (s.step event) :=
  (hs.turn event).travels hs.liveTable

theorem publishes_ofConfig {url : String} {config : ClientConfig} {payloadLimit : Option Nat} :
    (ofConfig url config payloadLimit).Publishes .disconnected where
  fits := rfl
  leads := .refl _
  finished_iff := by simp [Course.HasFinal, ofConfig, course, Phase.stage, milestones]

theorem publishes_run {old : Status} (hs : s.Steady) (h : s.Publishes old) (events : List Event) :
    (s.run events).Publishes old := by
  induction events generalizing s with
  | nil => exact h
  | cons event rest ih =>
    have hlater : (s.later event).Publishes old := ⟨h.fits, h.leads, h.finished_iff⟩
    exact ih (hs.step event) (hlater.travels (hs.travels event))

/-- Once the session is over its status stays, and no other is published. -/
theorem status_of_over (hs : s.Steady) (hover : s.IsOver) (event : Event) :
    (s.step event).status = s.status ∧ (s.step event).published = s.published := by
  obtain ⟨passed, hroute, hmilestones⟩ := hs.travels event
  have hstage : (s.later event).course.stage = .finished := (isOver_iff s).mp hover
  obtain ⟨hcourse, rfl⟩ := hroute.of_stays (.inl hstage)
  refine ⟨congrArg Course.status hcourse, ?_⟩
  rw [published_eq, published_eq, hmilestones, List.append_nil]
  rfl

theorem status_run_of_over (hs : s.Steady) (hover : s.IsOver) (events : List Event) :
    (s.run events).status = s.status ∧ (s.run events).published = s.published := by
  induction events generalizing s with
  | nil => exact ⟨rfl, rfl⟩
  | cons event rest ih =>
    obtain ⟨hstatus, hpublished⟩ := status_of_over hs hover event
    obtain ⟨hlast, hrest⟩ := ih (hs.step event) ((hs.turn event).isOver hs.quiescent hover)
    exact ⟨hlast.trans hstatus, hrest.trans hpublished⟩

theorem Steady.linked_of_connected (hs : s.Steady) (hstatus : s.status = .connected) :
    s.link ≠ .none := by
  obtain ⟨tick, hphase⟩ := hs.coherent.isServing hstatus
  exact (hs.quiescent.linked_of_serving hphase).link

/-! ### How a session ends -/

/-- If the session is over, then because it was shut down. -/
def EndsByShutdown (t : Session) : Prop :=
  t.IsOver → ∃ (u : Session) (reason : DisconnectReason), t = u.shutdown reason

namespace EndsByShutdown

theorem of_phase (h : ¬ t.IsOver) : t.EndsByShutdown :=
  fun hover ↦ absurd hover h

theorem shutdown (s : Session) (reason : DisconnectReason) : (s.shutdown reason).EndsByShutdown :=
  fun _ ↦ ⟨s, reason, rfl⟩

theorem retryLater (s : Session) : s.retryLater.EndsByShutdown := by
  unfold Session.retryLater
  split
  · next delay _ =>
    refine of_phase ?_
    rintro (h | h) <;> cases delay <;> cases h
  · exact shutdown _ _

theorem lose (s : Session) : s.lose.EndsByShutdown := by
  unfold Session.lose
  split
  · exact retryLater _
  · exact shutdown _ _

theorem attend (hserving : s.IsServing) : s.attend.EndsByShutdown := by
  unfold Session.attend
  split
  · exact shutdown _ _
  · split
    · exact lose s
    · exact of_phase fun hover ↦ hover.not_isServing hserving

theorem await (s : Session) (restoration : Restoration) :
    (s.await restoration).EndsByShutdown := by
  unfold Session.await
  split
  · exact retryLater _
  · refine of_phase ?_
    rintro (h | h) <;> cases h

theorem pass {requests : List Request} {restarted : List Nat}
    (hpass : Pass s requests restarted t) : t.EndsByShutdown := by
  cases hpass with
  | call _ _ _ | stream _ _ _ _ _ _ => exact await _ _
  | done _ _ _ => exact attend ⟨_, rfl⟩

end EndsByShutdown

/-- A session that has had a link is over by a shutdown only. -/
theorem Turn.endsByShutdown {event : Event} (hturn : Turn s event t) (hlive : s.LiveTable)
    (hgoes : ¬ s.IsOver) :
    t.EndsByShutdown ∨ ∃ error, s.phase = .opening ∧ t = s.failToOpen error := by
  have hsame (hphase : t.phase = s.phase) : t.EndsByShutdown := by
    refine .of_phase fun hover ↦ hgoes ?_
    rwa [IsOver, hphase] at hover
  cases hturn with
  | rest heq _ _ => exact .inl (hsame (by rw [heq]))
  | started hphase => exact .inl (.of_phase (by rintro (h | h) <;> cases h))
  | opened hphase =>
    have hserving : s.beginServing.IsServing :=
      ⟨_, phase_eq_of_controlState (setStatus_controlState _ .connected)⟩
    exact .inl (.of_phase fun hover ↦ hover.not_isServing hserving)
  | failed hphase error => exact .inr ⟨error, hphase, rfl⟩
  | @obeyed command _ _ _ => exact .inl (hsame (obey_keeps s command).1)
  | called hphase ticket request =>
    obtain ⟨tick, hs⟩ := hphase
    exact .inl (.attend ⟨tick, (dispatchCall_phase s ticket request).trans hs⟩)
  | pinged _ _ => exact .inl (.attend ⟨_, rfl⟩)
  | @notified frame message _ _ =>
    exact .inl (hsame (phase_eq_of_controlState
      (StreamsOnly.routeNotification s message).controlState))
  | @answered frame n response _ _ =>
    rcases routeReply_phase s n.toNat response with h | ⟨-, restoration, -, hnoted⟩
    · exact .inl (hsame h)
    · refine .inl (.of_phase ?_)
      rintro (h | h) <;> cases hnoted.symm.trans h
  | lost _ => exact .inl (.lose s)
  | lostAgain _ => exact .inl (.retryLater _)
  | dialed _ _ => exact .inl (.of_phase (by rintro (h | h) <;> cases h))
  | refused _ _ => exact .inl (.retryLater s)
  | linked _ => exact .inl (.pass (restore_pass _ _ (hlive.of_streamState rfl)))
  | @restored frame n response restoration _ _ _ =>
    exact .inl (.pass (answered_pass s response hlive n.toNat restoration))
  | ended _ _ _ reason => exact .inl (.shutdown _ reason)
  | stopped _ hphase _ => exact absurd (.inl hphase) hgoes

/-! ### What is left -/

/-- Nothing is left that awaits anything. -/
structure IsBare (s : Session) : Prop where
  link : s.link = .none
  inflight : s.inflight = .empty
  deferred : s.deferred = []
  subscriptions : s.subscriptions = .empty
  replies : s.replies.listeners = .empty
  live : s.live.listeners = .empty

theorem Steady.isBare {capacity : Nat} (hs : s.Steady) (hconsistent : Consistent capacity s)
    (hover : s.IsOver) : s.IsBare := by
  have hinflight := hs.quiescent.inflight_of_isOver hover
  have hvacant : s.IsVacant := by
    refine hs.coherent.vacant ?_
    rcases hover with h | h
    · exact .inr (.inr (.inl h))
    · exact .inr (.inr (.inr h))
  constructor
  · exact hs.quiescent.link_of_isOver hover
  · exact hinflight
  · exact hvacant.deferred
  · exact Table.eq_empty_of_get? hvacant.closed
  · have hkeys : s.replies.keys = [] := by rw [hs.accounted.keys, hinflight, Table.keys_empty]
    exact Table.eq_empty_of_entries (List.map_eq_nil_iff.mp hkeys)
  · refine hconsistent.backlog.wellFormed.listeners_eq_empty fun id ↦ ?_
    refine List.eq_nil_iff_forall_not_mem.mpr fun listener hlistener ↦ ?_
    obtain ⟨handle, subscription, hopen, -⟩ :=
      (hs.liveTable.listens.mem_iff id listener).mp hlistener
    rw [hvacant.closed handle] at hopen
    cases hopen

/-! ### What is asked of a settled session -/

theorem step_command_of_settled (hs : s.Steady) (hphase : s.phase = .settled) {command : Command}
    (hclose : ∀ ticket, command ≠ .close ticket) :
    s.step (.command command) = s.obey command := by
  have hopen : s.isOpen = true := by rw [isOpen, hphase]
  have hcall (hserving : s.IsServing) : ∀ ticket request, command ≠ .request ticket request :=
    absurd hserving (IsOver.not_isServing (.inl hphase))
  simp only [step, hopen, if_true]
  exact (obey_quiescent hs.quiescent hclose hcall).settle_eq

theorem step_request_of_settled (hs : s.Steady) (hphase : s.phase = .settled) (ticket : Ticket)
    (request : Request) :
    s.step (.command (.request ticket request)) = s.tell ticket (.refused .unavailable) := by
  rw [step_command_of_settled hs hphase (by simp)]
  simp only [obey, Session.request, hphase]

theorem step_subscribe_of_settled (hs : s.Steady) (hphase : s.phase = .settled) (ticket : Ticket)
    (id : Uuid) (query : Option LiveQuery) :
    s.step (.command (.subscribe ticket id query)) =
      s.tell ticket (.subscribed (.error .unavailable)) := by
  obtain ⟨hunconnected, hunrecovering⟩ :=
    (hs.coherent.vacant (.inr (.inr (.inl hphase)))).status
  have hrefused : s.admits query = false := by simp [admits, hunconnected, hunrecovering]
  rw [step_command_of_settled hs hphase (by simp)]
  simp only [obey, subscribe, hrefused, Bool.false_eq_true, if_false]

/-- In every run, the status makes permitted moves only, and a session that says that it is
connected has a link. A session is over exactly if it has published a final status, once it was shut
down, for whatever reason, and otherwise only if its first link cannot be had. From then on it stays
over with nothing left pending and the status that it has, and until it stops it refuses all calls
and all streams. -/
theorem settling_is_final (url : String) (config : ClientConfig) (payloadLimit : Option Nat)
    (events : List Event) :
    let s := (ofConfig url config payloadLimit).run events
    Status.disconnected.Leads s.published s.status ∧
    (s.status = .connected → s.link ≠ .none) ∧
    (s.IsOver ↔ ∃ status ∈ s.published, status.IsFinal) ∧
    (∀ (u : Session) reason, (u.shutdown reason).IsOver) ∧
    (∀ event, ¬ s.IsOver → (s.step event).IsOver →
      (∃ (u : Session) (reason : DisconnectReason), s.step event = u.shutdown reason) ∨
        ∃ error, s.phase = .opening ∧ s.step event = s.failToOpen error) ∧
    (s.IsOver → ∀ later,
      let t := s.run later
      t.IsOver ∧ t.IsBare ∧ t.status = s.status ∧ t.published = s.published ∧
      (t.phase = .settled →
        (∀ ticket request, t.step (.command (.request ticket request)) =
          t.tell ticket (.refused .unavailable)) ∧
        ∀ ticket id query, t.step (.command (.subscribe ticket id query)) =
          t.tell ticket (.subscribed (.error .unavailable)))) := by
  intro s
  have hbegin := steady_ofConfig url config payloadLimit
  have hs : s.Steady := hbegin.run events
  have hconsistent : Consistent config.notificationCapacity s :=
    (Consistent.ofConfig url config payloadLimit).run hbegin.quiescent events
  have hpublishes : s.Publishes .disconnected := publishes_run hbegin publishes_ofConfig events
  refine ⟨hpublishes.leads, hs.linked_of_connected, hpublishes.isOver_iff, shutdown_isOver, ?_, ?_⟩
  · intro event hgoes hover
    rcases (hs.turn event).endsByShutdown hs.liveTable hgoes with hends | hfailed
    · exact .inl (hends hover)
    · exact .inr hfailed
  · intro hover later t
    have ht : t.Steady := hs.run later
    have hstays : t.IsOver := isOver_run hs hover later
    obtain ⟨hstatus, hpublished⟩ := status_run_of_over hs hover later
    exact ⟨hstays, ht.isBare (hconsistent.run hs.quiescent later) hstays, hstatus, hpublished,
      fun hphase ↦ ⟨step_request_of_settled ht hphase, step_subscribe_of_settled ht hphase⟩⟩

/-- A session that must not reconnect is over when its link is lost. No later link changes that, and
calls are refused. -/
theorem settling_is_final_without_reconnection :
    let s := (ofConfig "mem://" { reconnect := .disabled } none).run [.start, .linked]
    let t := (ofConfig "mem://" { reconnect := .disabled } none).run [.start, .linked, .lost]
    let u := t.run [.linked]
    s.status = .connected ∧ s.link ≠ .none ∧ t.IsOver ∧ u.IsOver ∧ u.IsBare ∧
      u.published = [.connecting, .connected, .disconnected] ∧
      u.step (.command (.request 1 ⟨"ping", []⟩)) = u.tell 1 (.refused .unavailable) := by
  intro s t u
  have hconnected : s.status = .connected := rfl
  have hphase : u.phase = .settled := rfl
  have hpublished : t.published = [.connecting, .connected, .disconnected] := rfl
  obtain ⟨-, hlinked, -⟩ :=
    settling_is_final "mem://" { reconnect := .disabled } none [.start, .linked]
  obtain ⟨-, -, hover, -, -, hfinal⟩ :=
    settling_is_final "mem://" { reconnect := .disabled } none [.start, .linked, .lost]
  have hends : t.IsOver := hover.mpr ⟨.disconnected, by rw [hpublished]; decide, .inl rfl⟩
  obtain ⟨hstays, hbare, -, hsame, hrefused⟩ := hfinal hends [.linked]
  exact ⟨hconnected, hlinked hconnected, hends, hstays, hbare, hsame.trans hpublished,
    (hrefused hphase).1 1 ⟨"ping", []⟩⟩

end Session

end Wireline

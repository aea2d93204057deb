import Wireline.Client.Config
import Wireline.Proofs.Backoff
import Wireline.Proofs.Session.Finality

/-!
# The pace of reconnections

The `journal` of a run has the milestones with their times. Each connection in it was recorded by
the backoff of the session, which is called on a clock that never runs backwards (`Calls`). An
attempt is begun only if the backoff finds room for another connection, and nothing but the next
connection takes that room; so no window has more connections than are permitted (`Books.few`). A
link is asked for once for each attempt that is begun, so since the last connection that is not done
more often than permitted either (`Books.sparse`). `Leg.paced` has a case for each leg of a course.
-/

set_option autoImplicit false
set_option relaxedAutoImplicit false

namespace Wireline

namespace Session

/-! ### Journals -/

/-- The milestones that are passed in a run, each with its time. -/
def journal (s : Session) : List Event → List (Nat × Milestone)
  | [] => []
  | event :: events =>
    ((s.emitted event).filterMap Effect.milestone?).map (Prod.mk (s.step event).now) ++
      (s.step event).journal events

/-- The time of a connection. -/
def connected? : Nat × Milestone → Option Nat
  | (time, .status .connected) => some time
  | _ => none

/-- The times of the connections in a journal, the first one first. -/
def connections (journal : List (Nat × Milestone)) : List Nat :=
  journal.filterMap connected?

/-- Counts the attempts to reconnect from the last connection on. -/
def countDials (dials : Nat) : Nat × Milestone → Nat
  | (_, .status .connected) => 0
  | (_, .status _) => dials
  | (_, .dial) => dials + 1

/-- How often a link was asked for since the last connection. -/
def dialsSince (journal : List (Nat × Milestone)) : Nat :=
  journal.foldl countDials 0

section Journals

variable {new : Status}

theorem connections_append (first second : List (Nat × Milestone)) :
    connections (first ++ second) = connections first ++ connections second :=
  List.filterMap_append

/-- What is announced otherwise is not a connection. -/
theorem connections_announcement (hnew : new ≠ .connected) (old : Status) (time : Nat)
    (first : List (Nat × Milestone)) :
    connections (first ++ (announcement old new).map (Prod.mk time)) = connections first := by
  rw [connections_append]
  rcases announcement_cases old new with h | h <;> rw [h]
  · exact List.append_nil _
  · cases new <;> first | exact absurd rfl hnew | exact List.append_nil _

theorem dialsSince_concat (first : List (Nat × Milestone)) (passed : Nat × Milestone) :
    dialsSince (first ++ [passed]) = countDials (dialsSince first) passed := by
  rw [dialsSince, List.foldl_append]
  rfl

theorem dialsSince_announcement (hnew : new ≠ .connected) (old : Status) (time : Nat)
    (first : List (Nat × Milestone)) :
    dialsSince (first ++ (announcement old new).map (Prod.mk time)) = dialsSince first := by
  rcases announcement_cases old new with h | h <;> rw [h]
  · rw [List.map_nil, List.append_nil]
  · rw [List.map_singleton, dialsSince_concat]
    cases new <;> first | exact absurd rfl hnew | rfl

/-- Between two connections each milestone either asks for a link or does not count. -/
theorem dialsSince_between (between : List (Nat × Milestone))
    (hnone : ∀ passed ∈ between, passed.2 ≠ .status .connected) (time : Nat)
    (before : List (Nat × Milestone)) :
    dialsSince (before ++ (time, .status .connected) :: between) =
      between.countP fun passed ↦ decide (passed.2 = .dial) := by
  induction between using List.reverseRecOn with
  | nil => exact dialsSince_concat before _
  | append_singleton between passed ih =>
    rw [← List.cons_append, ← List.append_assoc, dialsSince_concat, List.countP_append,
      ih fun other hother ↦ hnone other (List.mem_append_left _ hother)]
    obtain ⟨time, status | _⟩ := passed
    · have hother : status ≠ .connected := by
        rintro rfl
        exact hnone (time, .status .connected) (by simp) rfl
      cases status <;> first | rfl | exact absurd rfl hother
    · rfl

/-- Since no connection more attempts were made than a limit. -/
def Sparse (limit : Nat) (journal : List (Nat × Milestone)) : Prop :=
  ∀ sofar, sofar <+: journal → connections sofar ≠ [] → dialsSince sofar ≤ limit

namespace Sparse

variable {limit : Nat} {journal : List (Nat × Milestone)}

theorem concat (h : Sparse limit journal) {passed : Nat × Milestone}
    (hbound : connections (journal ++ [passed]) ≠ [] → dialsSince (journal ++ [passed]) ≤ limit) :
    Sparse limit (journal ++ [passed]) := by
  intro sofar hsofar
  rcases List.prefix_concat_iff.mp hsofar with rfl | hbefore
  · exact hbound
  · exact h sofar hbefore

theorem announcement (h : Sparse limit journal) (hnew : new ≠ .connected) (old : Status)
    (time : Nat) : Sparse limit (journal ++ (announcement old new).map (Prod.mk time)) := by
  have hconnections := connections_announcement hnew old time journal
  have hdials := dialsSince_announcement hnew old time journal
  rcases announcement_cases old new with hsilent | hsaid
  · rwa [hsilent, List.map_nil, List.append_nil]
  · rw [hsaid, List.map_singleton] at hconnections hdials ⊢
    refine h.concat fun hsome ↦ ?_
    rw [hdials]
    exact h journal (List.prefix_refl _) (hconnections ▸ hsome)

end Sparse

end Journals

/-! ### Pace -/

/-- A backoff is what calls made of a new one, on a clock that shows a time now. The connections
that it recorded are those that were made. -/
structure Calls (policy : BackoffPolicy) (connections : List Nat) (now : Nat) (backoff : Backoff)
    (calls : List (Nat × Backoff.Call)) : Prop where
  made : ({ policy } : Backoff).after calls = backoff
  inOrder : Backoff.InOrder calls
  past : ∀ call ∈ calls, call.1 ≤ now
  recorded : Backoff.recorded calls = connections

namespace Calls

variable {policy : BackoffPolicy} {connections : List Nat} {now : Nat} {backoff : Backoff}
  {calls : List (Nat × Backoff.Call)}

theorem mono (h : Calls policy connections now backoff calls) {later : Nat} (hle : now ≤ later) :
    Calls policy connections later backoff calls :=
  { h with past := fun call hcall ↦ Nat.le_trans (h.past call hcall) hle }

theorem perform (h : Calls policy connections now backoff calls) (call : Backoff.Call) :
    Calls policy (connections ++ (Backoff.recorded? (now, call)).toList) now
      (backoff.perform now call) (calls ++ [(now, call)]) where
  made := by rw [Backoff.after_concat, h.made]
  inOrder := List.pairwise_append.mpr
    ⟨h.inOrder, List.pairwise_singleton _ _, fun earlier hearlier later hlater ↦ by
      rw [List.mem_singleton.mp hlater]
      exact h.past earlier hearlier⟩
  past := by
    intro other hother
    rcases List.mem_append.mp hother with hold | hnew
    · exact h.past other hold
    · rw [List.mem_singleton.mp hnew]
  recorded := by rw [Backoff.recorded_concat, h.recorded]

theorem policy_eq (h : Calls policy connections now backoff calls) : backoff.policy = policy := by
  rw [← h.made, Backoff.after_policy]

/-- What is kept is what is recent at the last call. -/
theorem records (h : Calls policy connections now backoff calls)
    (hwindow : 0 < policy.window.nanoseconds) :
    ∃ time ≤ now, backoff.Records connections time := by
  rw [← h.made, ← h.recorded]
  cases calls using List.reverseRecOn with
  | nil => exact ⟨now, Nat.le_refl now, .new policy now⟩
  | append_singleton calls last =>
    exact ⟨last.1, h.past last (by simp), Backoff.records_after hwindow calls _ _ h.inOrder⟩

end Calls

/-- The connections of a window that ends at a time. -/
def within (window time : Nat) (connections : List Nat) : List Nat :=
  connections.filter fun connection ↦ decide (time < connection + window ∧ connection ≤ time)

/-- Assumes: among the connections of the last window there is room for another one, which is made
now. -/
theorem within_concat {window limit now : Nat} {connections : List Nat}
    (h : ∀ time, (within window time connections).length ≤ limit)
    (hroom : (Backoff.recent window now connections).length < limit) (time : Nat) :
    (within window time (connections ++ [now])).length ≤ limit := by
  rw [within, List.filter_append, List.length_append, ← within]
  by_cases hlater : now ≤ time
  · -- what a later window has of the connections so far is recent now
    have hrecent : (within window time connections).length ≤
        (Backoff.recent window now connections).length := by
      refine (List.monotone_filter_right _ fun connection hmem ↦ ?_).length_le
      simp only [decide_eq_true_eq] at hmem ⊢
      omega
    have hnew := List.length_filter_le (fun connection ↦
      decide (time < connection + window ∧ connection ≤ time)) [now]
    rw [List.length_singleton] at hnew
    omega
  · rw [List.filter_singleton]
    simp only [hlater, and_false, decide_false, cond_false, List.length_nil, Nat.add_zero]
    exact h time

/-- How many attempts are permitted since the last connection. -/
def mostAttempts (policy : BackoffPolicy) : Nat :=
  if policy.enabled then policy.attempts else 0

/-- What was recorded and counted of a journal is within the limits of a policy. -/
structure Books (policy : BackoffPolicy) (journal : List (Nat × Milestone)) (now : Nat)
    (backoff : Backoff) : Prop where
  called : ∃ calls, Calls policy (connections journal) now backoff calls
  few : ∀ time, (within policy.window.nanoseconds time (connections journal)).length ≤
    policy.windowAttempts
  sparse : Sparse (mostAttempts policy) journal

namespace Books

variable {policy : BackoffPolicy} {journal : List (Nat × Milestone)} {now : Nat} {backoff : Backoff}

theorem mono (h : Books policy journal now backoff) {later : Nat} (hle : now ≤ later) :
    Books policy journal later backoff :=
  { h with called := h.called.imp fun _ hcalls ↦ hcalls.mono hle }

theorem policy_eq (h : Books policy journal now backoff) : backoff.policy = policy := by
  obtain ⟨calls, hcalls⟩ := h.called
  exact hcalls.policy_eq

theorem announcement (h : Books policy journal now backoff) {new : Status}
    (hnew : new ≠ .connected) (old : Status) :
    Books policy (journal ++ (announcement old new).map (Prod.mk now)) now backoff where
  called := by rw [connections_announcement hnew]; exact h.called
  few := by rw [connections_announcement hnew]; exact h.few
  sparse := h.sparse.announcement hnew old now

theorem attempt (h : Books policy journal now backoff) (draw : Binary64) :
    Books policy journal now (backoff.beginAttempt now draw).1 := by
  obtain ⟨calls, hcalls⟩ := h.called
  have hbegun := hcalls.perform (.beginAttempt draw)
  rw [show (Backoff.recorded? (now, .beginAttempt draw)).toList = [] from rfl,
    List.append_nil] at hbegun
  exact { h with called := ⟨_, hbegun⟩ }

theorem dial (h : Books policy journal now backoff)
    (hfew : connections journal ≠ [] → dialsSince journal < mostAttempts policy) :
    Books policy (journal ++ [(now, .dial)]) now backoff := by
  have hconnections : connections (journal ++ [(now, .dial)]) = connections journal := by
    rw [connections_append]
    exact List.append_nil _
  refine ⟨hconnections ▸ h.called, hconnections ▸ h.few, h.sparse.concat fun hsome ↦ ?_⟩
  rw [dialsSince_concat]
  exact hfew (hconnections ▸ hsome)

/-- Assumes: there was room for a connection when the last attempt was begun. -/
theorem connect (h : Books policy journal now backoff)
    (hwindow : 0 < policy.window.nanoseconds)
    (hroom : backoff.history.length < policy.windowAttempts) :
    Books policy (journal ++ [(now, .status .connected)]) now (backoff.reset now) := by
  obtain ⟨calls, hcalls⟩ := h.called
  obtain ⟨time, hle, hrecords⟩ := hcalls.records hwindow
  have hconnections : connections (journal ++ [(now, .status .connected)]) =
      connections journal ++ [now] := connections_append journal _
  have hrecent : (Backoff.recent policy.window.nanoseconds now (connections journal)).length ≤
      backoff.history.length := by
    rw [hrecords.history, h.policy_eq, ← Backoff.recent_recent hle]
    exact List.length_filter_le _ _
  refine ⟨⟨calls ++ [(now, .reset)], ?_⟩, ?_, h.sparse.concat fun _ ↦ ?_⟩
  · rw [hconnections]
    exact hcalls.perform .reset
  · rw [hconnections]
    exact within_concat h.few (Nat.lt_of_le_of_lt hrecent hroom)
  · rw [dialsSince_concat]
    exact Nat.zero_le _

end Books

/-- An attempt was begun, as the policy permits. -/
structure Tries (policy : BackoffPolicy) (backoff : Backoff) : Prop where
  enabled : policy.enabled = true
  attempts : backoff.attempts ≤ policy.attempts
  room : backoff.history.length < policy.windowAttempts

namespace Course

/-- What is counted of a journal goes with the stage that the course has got to. -/
def Counts (policy : BackoffPolicy) (journal : List (Nat × Milestone)) (c : Course) : Prop :=
  match c.stage with
  | .unopened | .opening => connections journal = []
  | .serving => dialsSince journal = 0
  | .waiting => Tries policy c.backoff ∧ dialsSince journal < c.backoff.attempts
  | .dialing | .restoring => Tries policy c.backoff ∧ dialsSince journal ≤ c.backoff.attempts
  | .halted | .finished => True

/-- A course that has got on as the policy permits. -/
structure Paced (policy : BackoffPolicy) (journal : List (Nat × Milestone)) (c : Course) :
    Prop where
  fits : c.Fits
  books : Books policy journal c.now c.backoff
  counts : c.Counts policy journal

variable {policy : BackoffPolicy} {journal : List (Nat × Milestone)} {c next : Course}
  {passed : List Milestone}

theorem Counts.tries (h : c.Counts policy journal)
    (hstage : c.stage = .dialing ∨ c.stage = .restoring) :
    Tries policy c.backoff ∧ dialsSince journal ≤ c.backoff.attempts := by
  unfold Counts at h
  rcases hstage with hs | hs <;> rwa [hs] at h

/-- There is room for a connection while there is no link. -/
theorem Paced.room (h : c.Paced policy journal) (hwindow : 0 < policy.window.nanoseconds)
    (hsome : 0 < policy.windowAttempts)
    (hstage : c.stage = .opening ∨ c.stage = .dialing ∨ c.stage = .restoring) :
    c.backoff.history.length < policy.windowAttempts := by
  rcases hstage with hopening | hagain
  · have hnone := h.counts
    simp only [Counts, hopening] at hnone
    obtain ⟨calls, hcalls⟩ := h.books.called
    obtain ⟨time, -, hrecords⟩ := hcalls.records hwindow
    rw [hrecords.history, hnone]
    exact hsome
  · exact (h.counts.tries hagain).1.room

theorem Retries.now_eq (h : c.Retries passed next) : next.now = c.now := by
  cases h <;> rfl

theorem Leg.now_eq (h : c.Leg passed next) : next.now = c.now := by
  cases h with
  | lost _ _ hretries => exact hretries.now_eq
  | lostAgain _ hretries => exact hretries.now_eq
  | _ => rfl

/-- Assumes: reconnecting is permitted at all, and no more attempts were made since the last
connection than were counted. -/
theorem Retries.paced (h : c.Retries passed next) (hstatus : c.status = .reconnecting)
    (hbooks : Books policy journal c.now c.backoff) (henabled : policy.enabled = true)
    (hdials : dialsSince journal ≤ c.backoff.attempts) :
    next.Paced policy (journal ++ passed.map (Prod.mk c.now)) := by
  have hfits := (h.goesOn hstatus).fits
  have hattempted := hbooks.attempt c.circumstances.draw
  cases h with
  | @permitted backoff delay hbegun =>
    rw [hbegun] at hattempted
    obtain ⟨rfl, -, hfew, hroom⟩ := Backoff.beginAttempt_ok hbegun
    rw [hbooks.policy_eq] at hfew hroom
    rw [List.map_nil, List.append_nil]
    exact ⟨hfits, hattempted, ⟨henabled, hfew, hroom⟩, Nat.lt_succ_of_le hdials⟩
  | @halted backoff hbegun =>
    rw [hbegun] at hattempted
    rw [List.map_nil, List.append_nil]
    exact ⟨hfits, hattempted, trivial⟩
  | @exhausted backoff error hbegun =>
    rw [hbegun] at hattempted
    exact ⟨hfits, hattempted.announcement (by simp) _, trivial⟩

theorem Leg.paced (h : c.Leg passed next) (hpaced : c.Paced policy journal)
    (hwindow : 0 < policy.window.nanoseconds) (hsome : 0 < policy.windowAttempts) :
    next.Paced policy (journal ++ passed.map (Prod.mk c.now)) := by
  have hfits := (h.goesOn hpaced.fits).fits
  have hcounts := hpaced.counts
  unfold Counts at hcounts
  cases h with
  | begun hstage =>
    rw [hstage] at hcounts
    have hnew : Status.connecting ≠ .connected := by simp
    have hannounced := hpaced.books.announcement hnew c.status
    have hnone := (connections_announcement hnew c.status c.now journal).trans hcounts
    rw [List.map_append, ← List.append_assoc]
    refine ⟨hfits, hannounced.dial fun hsome ↦ absurd hnone hsome, ?_⟩
    exact (connections_append _ _).trans (congrArg (· ++ []) hnone)
  | failed hstage => exact ⟨hfits, hpaced.books.announcement (by simp) _, trivial⟩
  | connected hstage =>
    -- the status was another one, so the connection is announced and seen in the journal
    rw [announcement, if_neg (hpaced.fits.ne_connected hstage)]
    exact ⟨hfits, hpaced.books.connect hwindow (hpaced.room hwindow hsome hstage),
      dialsSince_concat journal _⟩
  | @lost passed next hstage henabled hretries =>
    rw [hstage] at hcounts
    have hnew : Status.reconnecting ≠ .connected := by simp
    have hannounced := hpaced.books.announcement hnew c.status
    have hdials := (dialsSince_announcement hnew c.status c.now journal).trans hcounts
    rw [List.map_append, ← List.append_assoc]
    refine hretries.paced rfl hannounced ?_ (hdials ▸ Nat.zero_le _)
    rw [← hpaced.books.policy_eq]
    exact henabled
  | lostAgain hstage hretries =>
    obtain ⟨htries, hdials⟩ := hpaced.counts.tries hstage
    exact hretries.paced (hpaced.fits.reconnecting (.inr hstage)) hpaced.books htries.enabled hdials
  | dialed hstage =>
    rw [hstage] at hcounts
    obtain ⟨htries, hdials⟩ := hcounts
    have hlimit : dialsSince journal < mostAttempts policy := by
      rw [mostAttempts, if_pos htries.enabled]
      exact Nat.lt_of_lt_of_le hdials htries.attempts
    refine ⟨hfits, hpaced.books.dial fun _ ↦ hlimit, htries, ?_⟩
    exact (dialsSince_concat journal _).trans_le hdials
  | linked hstage =>
    rw [List.map_nil, List.append_nil]
    exact ⟨hfits, hpaced.books, hpaced.counts.tries hstage⟩
  | ended hstage reason =>
    exact ⟨hfits, hpaced.books.announcement (by cases reason <;> simp [statusAfter]) _, trivial⟩

theorem Route.paced (h : c.Route passed next) (hpaced : c.Paced policy journal)
    (hwindow : 0 < policy.window.nanoseconds) (hsome : 0 < policy.windowAttempts) :
    next.now = c.now ∧ next.Paced policy (journal ++ passed.map (Prod.mk c.now)) := by
  induction h with
  | refl =>
    rw [List.map_nil, List.append_nil]
    exact ⟨rfl, hpaced⟩
  | tail _ hleg ih =>
    obtain ⟨hnow, hmiddle⟩ := ih
    have hlast := hleg.paced hmiddle hwindow hsome
    rw [hnow, List.append_assoc, ← List.map_append] at hlast
    exact ⟨hleg.now_eq.trans hnow, hlast⟩

end Course

/-! ### Runs -/

section Runs

variable {policy : BackoffPolicy}

theorem paced_run (hwindow : 0 < policy.window.nanoseconds) (hsome : 0 < policy.windowAttempts)
    (events : List Event) : ∀ (s : Session) (journal : List (Nat × Milestone)), s.Steady →
      s.course.Paced policy journal →
        (s.run events).course.Paced policy (journal ++ s.journal events) := by
  induction events with
  | nil =>
    intro s journal _ hpaced
    rwa [Session.journal, List.append_nil]
  | cons event rest ih =>
    intro s journal hs hpaced
    have hlater : (s.later event).course.Paced policy journal :=
      ⟨hpaced.fits, hpaced.books.mono (Nat.le_add_right _ _), hpaced.counts⟩
    obtain ⟨passed, hroute, hmilestones⟩ := hs.travels event
    obtain ⟨hnow, hnext⟩ := hroute.paced hlater hwindow hsome
    -- the milestones on the route are those that the session says something about
    have hpassed : passed = (s.emitted event).filterMap Effect.milestone? := by
      refine List.append_cancel_left (hmilestones.symm.trans ?_)
      rw [milestones, outbox_eq_emitted hs.quiescent event, List.filterMap_append]
      rfl
    rw [hpassed, ← hnow] at hnext
    rw [Session.journal, ← List.append_assoc]
    exact ih (s.step event) _ (hs.step event) hnext

theorem paced_ofConfig (url : String) (config : ClientConfig) (payloadLimit : Option Nat) :
    (ofConfig url config payloadLimit).course.Paced config.reconnect [] where
  fits := rfl
  books := by
    refine ⟨⟨[], rfl, .nil, by simp, rfl⟩, fun _ ↦ Nat.zero_le _, fun sofar hsofar hsome ↦ ?_⟩
    rw [List.prefix_nil.mp hsofar] at hsome
    exact absurd rfl hsome
  counts := rfl

/-- A valid configuration has a window in which connections may be made. -/
theorem window_of_validate {config : ClientConfig} (h : config.validate = .ok ()) :
    0 < config.reconnect.window.nanoseconds ∧ 0 < config.reconnect.windowAttempts := by
  have hfault : config.fault? = none := by
    unfold ClientConfig.validate at h
    split at h
    · cases h
    · assumption
  have hsome : ¬ (config.reconnect.window = .zero ∨ config.reconnect.windowAttempts = 0) := by
    simp only [ClientConfig.fault?] at hfault
    split_ifs at hfault
    assumption
  rw [not_or] at hsome
  refine ⟨Nat.pos_of_ne_zero fun hzero ↦ hsome.1 ?_, Nat.pos_of_ne_zero hsome.2⟩
  cases hspan : config.reconnect.window with
  | mk nanoseconds fits =>
    rw [hspan] at hzero
    cases hzero
    rfl

/-- Assumes: a valid configuration. Since each connection, and up to the next one, no more attempts
to reconnect are made than are permitted, and none if reconnecting is disabled. No window has more
connections than are permitted. The backoff of the session is called on a clock that never runs
backwards, and records the connections; whatever the calls, it keeps them in order, and exactly
those of the window that ends with the last call. -/
theorem reconnection_limits (url : String) (config : ClientConfig) (payloadLimit : Option Nat)
    (hvalid : config.validate = .ok ()) (events : List Event) :
    let s := ofConfig url config payloadLimit
    let policy := config.reconnect
    let journal := s.journal events
    (∀ before time between after,
      journal = before ++ (time, .status .connected) :: between ++ after →
      (∀ passed ∈ between, passed.2 ≠ .status .connected) →
        between.countP (fun passed ↦ decide (passed.2 = .dial)) ≤ policy.attempts ∧
        (policy.enabled = false →
          between.countP (fun passed ↦ decide (passed.2 = .dial)) = 0)) ∧
    (∀ time, (within policy.window.nanoseconds time (connections journal)).length ≤
      policy.windowAttempts) ∧
    (∃ calls,
      Calls policy (connections journal) (s.run events).now (s.run events).backoff calls) ∧
    (∀ calls : List (Nat × Backoff.Call), Backoff.InOrder calls →
      let backoff := ({ policy } : Backoff).after calls
      backoff.history.Pairwise (· ≤ ·) ∧
      ∀ last, calls.getLast? = some last → backoff.history =
        Backoff.recent policy.window.nanoseconds last.1 (Backoff.recorded calls)) := by
  intro s policy journal
  obtain ⟨hwindow, hsome⟩ := window_of_validate hvalid
  have hpaced : (s.run events).course.Paced policy journal :=
    paced_run hwindow hsome events s [] (steady_ofConfig url config payloadLimit)
      (paced_ofConfig url config payloadLimit)
  obtain ⟨hcalled, hfew, hsparse⟩ := hpaced.books
  refine ⟨fun before time between after hjournal hnone ↦ ?_, hfew, hcalled, fun calls hordered ↦ ?_⟩
  · have hconnected : connections (before ++ (time, .status .connected) :: between) ≠ [] := by
      rw [connections_append]
      exact List.append_ne_nil_of_right_ne_nil _ (List.cons_ne_nil _ _)
    have hbound := hsparse (before ++ (time, .status .connected) :: between)
      ⟨after, hjournal.symm⟩ hconnected
    rw [dialsSince_between between hnone, mostAttempts] at hbound
    split at hbound
    · next henabled => exact ⟨hbound, fun hdisabled ↦ by simp [henabled] at hdisabled⟩
    · exact ⟨hbound.trans (Nat.zero_le _), fun _ ↦ Nat.le_zero.mp hbound⟩
  · exact Backoff.history_after hwindow hordered

/-- A session whose link is lost once connects again after the first delay. -/
theorem reconnection_limits_default : ({} : ClientConfig).validate = .ok () ∧
    connections ((ofConfig "mem://" {} none).journal
      [.start, .linked, .lost, .elapse 2000000000, .linked]) = [0, 2000000000] ∧
    (within (Span.ofSeconds 300).nanoseconds 2000000000 [0, 2000000000]).length ≤ 20 := by
  have hconnections : connections ((ofConfig "mem://" {} none).journal
      [.start, .linked, .lost, .elapse 2000000000, .linked]) = [0, 2000000000] := by
    decide +kernel
  refine ⟨rfl, hconnections, ?_⟩
  rw [← hconnections]
  exact (reconnection_limits "mem://" {} none rfl
    [.start, .linked, .lost, .elapse 2000000000, .linked]).2.1 2000000000

end Runs

end Session

end Wireline

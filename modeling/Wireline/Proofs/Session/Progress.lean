import Mathlib.Data.List.Forall2
import Wireline.Proofs.Session.Coherence

/-!
# How far a restoration has come

From the moment in which a fresh link is open until the session serves again or lets the link go
(`Effect.IsCut`), the session writes nothing but calls of its own: those for the standing that it
had, in their order, and then one for each open stream, by ascending handle (`Restores`). `Ledger`
says how far it has come, `Ready` that it is about to go on, and `Awaiting` that it waits for the
answer to the frame that it wrote last. A pass leads from the second to the third or to the end
(`Ready.pass`).
-/

set_option autoImplicit false
set_option relaxedAutoImplicit false

namespace Wireline

namespace Session

/-! ### What is written on a fresh link -/

/-- The restoration of a link is over: the session serves again, or the link is let go. -/
def Effect.IsCut : Effect → Prop
  | .status .connected | .hangUp => True
  | _ => False

/-- The frame starts the query of a stream again that is open when the link was open in `s₀` and
some of the events have come. -/
structure RestartOf (s₀ : Session) (events : List Event) (handle : Nat) (outgoing : Outgoing) :
    Prop where
  origin : outgoing.origin = .restoration
  request : ∃ earlier subscription query, earlier <+: events ∧
    (s₀.run earlier).subscriptions.get? handle = some subscription ∧
    subscription.query = some query ∧ outgoing.request = query.request

/-- The frames that bring a fresh link to the standing of the session. -/
def standingFrames (s₀ : Session) : List Outgoing :=
  s₀.framed s₀.nextId (own s₀.standing.restoreRequests)

/-- The frames restore the link that was open in `s₀` step by step: first the standing, then one
stream after the other, by ascending handle. -/
def Restores (s₀ : Session) (events : List Event) (frames : List Outgoing) : Prop :=
  ∃ standing lives handles, frames = standing ++ lives ∧ standing <+: s₀.standingFrames ∧
    (lives ≠ [] → standing = s₀.standingFrames) ∧ handles.Pairwise (· < ·) ∧
    List.Forall₂ (RestartOf s₀ events) handles lives

/-- The frames restore the standing and some streams, by ascending handle. -/
def RestoresStanding (s₀ : Session) (events : List Event) (frames : List Outgoing) : Prop :=
  ∃ lives handles, frames = s₀.standingFrames ++ lives ∧ handles.Pairwise (· < ·) ∧
    List.Forall₂ (RestartOf s₀ events) handles lives

section Mono

variable {s₀ : Session} {events later : List Event}

theorem RestartOf.mono {handle : Nat} {outgoing : Outgoing}
    (h : RestartOf s₀ events handle outgoing) (hlater : events <+: later) :
    RestartOf s₀ later handle outgoing where
  origin := h.origin
  request := by
    obtain ⟨earlier, subscription, query, hearlier, hopen⟩ := h.request
    exact ⟨earlier, subscription, query, hearlier.trans hlater, hopen⟩

theorem forall₂_restartOf_mono {handles : List Nat} {lives : List Outgoing}
    (h : List.Forall₂ (RestartOf s₀ events) handles lives) (hlater : events <+: later) :
    List.Forall₂ (RestartOf s₀ later) handles lives :=
  h.imp fun _ _ hrestart ↦ hrestart.mono hlater

theorem Restores.mono {frames : List Outgoing} (h : Restores s₀ events frames)
    (hlater : events <+: later) : Restores s₀ later frames := by
  obtain ⟨standing, lives, handles, hframes, hprefix, hall, hascending, hlives⟩ := h
  exact ⟨standing, lives, handles, hframes, hprefix, hall, hascending,
    forall₂_restartOf_mono hlives hlater⟩

theorem RestoresStanding.mono {frames : List Outgoing} (h : RestoresStanding s₀ events frames)
    (hlater : events <+: later) : RestoresStanding s₀ later frames := by
  obtain ⟨lives, handles, hframes, hascending, hlives⟩ := h
  exact ⟨lives, handles, hframes, hascending, forall₂_restartOf_mono hlives hlater⟩

end Mono

/-! ### How far a restoration has come -/

/-- The stream has the id that the server gave on this link, in the answer to a call that starts the
query of the stream. -/
def RestartedAs (s₀ : Session) (events : List Event) (subscription : Subscription) : Prop :=
  ∃ earlier frame n result query frames outgoing, earlier ++ [.frame frame] <+: events ∧
    subscription.query = some query ∧ (s₀.run earlier).written = s₀.written ++ frames ∧
    outgoing ∈ frames ∧ outgoing.request = query.request ∧ outgoing.id = n.toNat ∧
    (s₀.run earlier).Expects n ∧ read frame = .ok (.reply n (.ok result)) ∧
    Uuid.ofValue result = .ok subscription.id

theorem RestartedAs.mono {s₀ : Session} {events later : List Event} {subscription : Subscription}
    (h : RestartedAs s₀ events subscription) (hlater : events <+: later) :
    RestartedAs s₀ later subscription := by
  obtain ⟨earlier, frame, n, result, query, frames, outgoing, hearlier, hrest⟩ := h
  exact ⟨earlier, frame, n, result, query, frames, outgoing, hearlier.trans hlater, hrest⟩

theorem RestartedAs.congr {s₀ : Session} {events : List Event} {subscription other : Subscription}
    (h : RestartedAs s₀ events subscription) (hquery : subscription.query = other.query)
    (hid : other.id = subscription.id) : RestartedAs s₀ events other := by
  rw [RestartedAs, ← hquery, hid]
  exact h

/-- What a session has written on the link that was open in `s₀`, when some requests are left for
the standing and some streams were begun with. -/
structure Ledger (s₀ : Session) (events : List Event) (s : Session) (left : List Request)
    (begun : List Nat) : Prop where
  payloadLimit : s.payloadLimit = s₀.payloadLimit
  uncut : Emits (fun effect ↦ ¬ effect.IsCut) s₀ s
  frames : ∃ frames lives, s.written = s₀.written ++ frames ∧
    frames ++ s.framed s.nextId (own left) = s₀.standingFrames ++ lives ∧
    List.Forall₂ (RestartOf s₀ events) begun.reverse lives
  inOrder : left = [] ∨ begun = []
  descending : begun.Pairwise (· > ·)
  below : ∀ handle ∈ begun, handle < s.nextHandle
  ahead : ∀ handle ∈ s.subscriptions.keys, handle ∉ begun → ∀ earlier ∈ begun, earlier < handle

/-- The session is about to go on with the restoration, and awaits nothing. -/
structure Ready (s₀ : Session) (events : List Event) (s : Session) (left : List Request)
    (begun : List Nat) : Prop extends Ledger s₀ events s left begun where
  linked : s.Linked
  reconnecting : s.IsReconnecting
  accounted : s.Accounted
  liveTable : s.LiveTable
  ascending : s.Ascending
  inflight : s.inflight.keys = []
  proceeded : ∃ earlier event v, events = earlier ++ [event] ∧
    Proceeds (s₀.run earlier) event v ∧ Skips v s
  restarted : ∀ handle ∈ begun, ∀ subscription,
    s.subscriptions.get? handle = some subscription → RestartedAs s₀ events subscription

/-- The session awaits the answer to the call that it has made last. -/
structure Awaiting (s₀ : Session) (events : List Event) (s : Session) (restoration : Restoration) :
    Prop extends Ledger s₀ events s restoration.left restoration.begun where
  phase : s.phase = .restoring restoration
  begins : ∀ handle, restoration.awaited = .stream handle → handle ∈ restoration.begun
  call : ∃ outgoing frames, s.written = s₀.written ++ frames ∧ outgoing ∈ frames ∧
    s.inflight.keys = [outgoing.id] ∧ (outgoing.id, .restoration) ∈ s.awaited ∧
    ∀ handle subscription, restoration.awaited = .stream handle →
      s.subscriptions.get? handle = some subscription →
      ∃ query, subscription.query = some query ∧ outgoing.request = query.request
  restarted : ∀ handle ∈ restoration.begun, restoration.awaited ≠ .stream handle →
    ∀ subscription, s.subscriptions.get? handle = some subscription →
      RestartedAs s₀ events subscription

namespace Ledger

variable {s₀ s : Session} {events : List Event} {left : List Request} {begun : List Nat}

theorem restores (h : Ledger s₀ events s left begun) {frames : List Outgoing}
    (hframes : s.written = s₀.written ++ frames) : Restores s₀ events frames := by
  obtain ⟨same, lives, hwritten, heq, hlives⟩ := h.frames
  cases List.append_cancel_left (hwritten.symm.trans hframes)
  rcases h.inOrder with rfl | rfl
  · refine ⟨s₀.standingFrames, lives, begun.reverse, ?_, List.prefix_refl _, fun _ ↦ rfl, ?_,
      hlives⟩
    · simpa only [own, List.map_nil, framed, List.append_nil] using heq
    · exact List.pairwise_reverse.mpr h.descending
  · cases hlives
    rw [List.append_nil] at heq
    exact ⟨frames, [], [], (List.append_nil _).symm, ⟨_, heq⟩, fun hne ↦ absurd rfl hne, .nil, .nil⟩

/-- Once nothing is left for the standing, all of it was restored. -/
theorem restoresStanding (h : Ledger s₀ events s [] begun) {frames : List Outgoing}
    (hframes : s.written = s₀.written ++ frames) : RestoresStanding s₀ events frames := by
  obtain ⟨same, lives, hwritten, heq, hlives⟩ := h.frames
  cases List.append_cancel_left (hwritten.symm.trans hframes)
  refine ⟨lives, begun.reverse, ?_, List.pairwise_reverse.mpr h.descending, hlives⟩
  simpa only [own, List.map_nil, framed, List.append_nil] using heq

end Ledger

/-! ### Passes -/

/-- What a restoration comes to with the last of the events. -/
inductive Outcome (s₀ : Session) (events : List Event) : Session → Prop
  | awaits {t : Session} {restoration : Restoration} (h : Awaiting s₀ events t restoration) :
      Outcome s₀ events t
  /-- The link is let go. -/
  | gone {u t : Session} {frames : List Outgoing} {rest : List Effect}
      (huncut : Emits (fun effect ↦ ¬ effect.IsCut) s₀ u)
      (hframes : u.written = s₀.written ++ frames) (hrestores : Restores s₀ events frames)
      (hgone : t.outbox = u.outbox ++ .hangUp :: rest) (hquiet : ∀ effect ∈ rest, effect.IsQuiet)
      (hphase : ∀ restoration, t.phase ≠ .restoring restoration) : Outcome s₀ events t
  /-- Nothing is left to restore. -/
  | resumes {u : Session} {begun : List Nat} (h : Ready s₀ events u [] begun)
      (hbegun : u.unrestarted begun = []) : Outcome s₀ events u.resume

theorem hangUp_outbox {s : Session} (hlink : s.link ≠ .none) :
    s.hangUp.outbox = s.outbox ++ [.hangUp] := by
  unfold hangUp
  split
  · next hnone => exact absurd hnone hlink
  · rfl

theorem retryLater_phase (s : Session) (restoration : Restoration) :
    s.retryLater.phase ≠ .restoring restoration := by
  unfold retryLater
  split
  · next delay _ => cases delay <;> nofun
  · next backoff _ _ =>
    intro hphase
    rcases shutdown_isOver { s with backoff } .reconnectExhausted with hover | hover <;>
      cases hphase.symm.trans hover

section Gone

variable {s₀ s : Session} {events : List Event} {frames : List Outgoing}

/-- Whatever follows when the link is let go writes nothing more. -/
theorem Outcome.of_hangUp {t : Session} (huncut : Emits (fun effect ↦ ¬ effect.IsCut) s₀ s)
    (hframes : s.written = s₀.written ++ frames) (hrestores : Restores s₀ events frames)
    (hlink : s.link ≠ .none) (hquiet : Emits Effect.IsQuiet s.hangUp t)
    (hphase : ∀ restoration, t.phase ≠ .restoring restoration) : Outcome s₀ events t := by
  obtain ⟨rest, houtbox, hrest⟩ := hquiet
  rw [hangUp_outbox hlink, List.append_assoc] at houtbox
  exact .gone huncut hframes hrestores houtbox hrest hphase

theorem Outcome.of_loseAgain (huncut : Emits (fun effect ↦ ¬ effect.IsCut) s₀ s)
    (hframes : s.written = s₀.written ++ frames) (hrestores : Restores s₀ events frames)
    (hlink : s.link ≠ .none) : Outcome s₀ events s.loseAgain :=
  .of_hangUp huncut hframes hrestores hlink (.loseAgain_of_hangUp s) (retryLater_phase _)

end Gone

namespace Ready

variable {s₀ s t : Session} {events : List Event} {left rest : List Request} {begun : List Nat}

theorem skips (h : Ready s₀ events s left begun) (hskips : Skips s t)
    (hframed : s.framed s.nextId (own left) = t.framed t.nextId (own rest))
    (hinOrder : rest = [] ∨ begun = []) : Ready s₀ events t rest begun where
  payloadLimit := hskips.passed.payloadLimit.trans h.payloadLimit
  uncut := h.uncut.trans (.of_eq hskips.passed.outbox)
  frames := by
    have hwritten : t.written = s.written :=
      congrArg (List.filterMap Effect.outgoing?) hskips.passed.outbox
    rw [hwritten, ← hframed]
    exact h.frames
  inOrder := hinOrder
  descending := h.descending
  below := hskips.passed.nextHandle ▸ h.below
  ahead := fun handle hhandle ↦ h.ahead handle (hskips.keys_sublist.subset hhandle)
  linked := h.linked.congr hskips.passed.controlState
  reconnecting := h.reconnecting.skips hskips
  accounted := hskips.accounted h.accounted
  liveTable := hskips.liveTable h.liveTable
  ascending := h.ascending.sublist hskips.keys_sublist
  inflight := hskips.passed.inflight ▸ h.inflight
  proceeded := by
    obtain ⟨earlier, event, v, hevents, hproceeds, hsofar⟩ := h.proceeded
    exact ⟨earlier, event, v, hevents, hproceeds, hsofar.trans hskips⟩
  restarted := fun handle hhandle subscription hget ↦
    h.restarted handle hhandle subscription (hskips.get?_of_get? hget)

/-- What led to the state in which a session is about to go on. -/
theorem proceeds {event : Event} (h : Ready s₀ (events ++ [event]) s left begun) :
    ∃ v, Proceeds (s₀.run events) event v ∧ Skips v s := by
  obtain ⟨earlier, last, v, hevents, hproceeds, hskips⟩ := h.proceeded
  obtain ⟨rfl, hlast⟩ := List.append_inj' hevents rfl
  cases hlast
  exact ⟨v, hproceeds, hskips⟩

/-- The streams that are open were open before the last of the events came. -/
theorem known (h : Ready s₀ events s left begun) {handle : Nat} {subscription : Subscription}
    (hget : s.subscriptions.get? handle = some subscription) :
    ∃ earlier old, earlier <+: events ∧ (s₀.run earlier).subscriptions.get? handle = some old ∧
      old.query = subscription.query := by
  obtain ⟨earlier, event, v, rfl, hproceeds, hskips⟩ := h.proceeded
  obtain ⟨old, hold, hquery⟩ := hproceeds.openBefore handle subscription (hskips.get?_of_get? hget)
  exact ⟨earlier, old, List.prefix_append _ _, hold, hquery⟩

/-- A frame that the link does not take shows that the link is broken. -/
theorem await_of_not_whole (h : Ready s₀ events t left begun) (hlink : t.link ≠ .whole)
    (request : Request) (frame : Octets) (restoration : Restoration) :
    Outcome s₀ events ((t.launch .restoration request frame).await restoration) := by
  have hbroken : (t.launch .restoration request frame).isBroken = true := by
    unfold launch send
    rw [if_neg (by exact hlink)]
  have hwritten := written_launch t .restoration request frame
  rw [if_neg hlink, List.append_nil] at hwritten
  have huncut : Emits (fun effect ↦ ¬ effect.IsCut) t (t.launch .restoration request frame) := by
    refine ⟨_, launch_outbox t .restoration request frame, ?_⟩
    simp [hlink, Effect.IsCut]
  obtain ⟨frames, lives, hframes, -⟩ := h.frames
  unfold await
  rw [if_pos hbroken]
  refine .of_loseAgain (h.uncut.trans huncut) (hwritten.trans hframes) (h.restores hframes) ?_
  rw [(RequestsOnly.launch t _ request frame).link]
  exact h.linked.link

/-- What holds of a session that has just written a call of its own. -/
theorem launched (h : Ready s₀ events t left begun) (hlink : t.link = .whole) (request : Request)
    (frame : Octets) :
    (t.launch .restoration request frame).isBroken = false ∧
    (t.launch .restoration request frame).written =
      t.written ++ [⟨t.nextId, .restoration, request, frame⟩] ∧
    Emits (fun effect ↦ ¬ effect.IsCut) t (t.launch .restoration request frame) ∧
    (t.launch .restoration request frame).inflight.keys = [t.nextId] ∧
    (t.nextId, .restoration) ∈ (t.launch .restoration request frame).awaited := by
  refine ⟨?_, ?_, ⟨_, launch_outbox t .restoration request frame, ?_⟩, ?_, ?_⟩
  · unfold launch
    refine (send_isBroken ?_ _).trans h.linked.isBroken
    exact hlink
  · rw [written_launch, if_pos hlink]
  · simp [hlink, Effect.IsCut]
  · have hinflight : (t.launch .restoration request frame).inflight =
        t.inflight.set t.nextId request :=
      congrArg (·.2.1) (launch_requestState t .restoration request frame)
    rw [hinflight, Table.keys_set, h.inflight]
    simp
  · rw [h.accounted.awaited_launch]
    exact List.mem_append_right _ (List.mem_singleton_self _)

/-- The session makes a call, and awaits the answer unless the link is broken. -/
theorem await (h : Ready s₀ events t left begun) {request : Request} {frame : Octets}
    {restoration : Restoration}
    (hframes : ∀ frames lives, frames ++ t.framed t.nextId (own left) = s₀.standingFrames ++ lives →
      List.Forall₂ (RestartOf s₀ events) begun.reverse lives →
      ∃ lives, frames ++ [⟨t.nextId, .restoration, request, frame⟩] ++
        t.framed (t.nextId + 1) (own restoration.left) = s₀.standingFrames ++ lives ∧
        List.Forall₂ (RestartOf s₀ events) restoration.begun.reverse lives)
    (hinOrder : restoration.left = [] ∨ restoration.begun = [])
    (hdescending : restoration.begun.Pairwise (· > ·))
    (hbelow : ∀ handle ∈ restoration.begun, handle < t.nextHandle)
    (hahead : ∀ handle ∈ t.subscriptions.keys, handle ∉ restoration.begun →
      ∀ earlier ∈ restoration.begun, earlier < handle)
    (hbegins : ∀ handle, restoration.awaited = .stream handle → handle ∈ restoration.begun)
    (hcall : ∀ handle subscription, restoration.awaited = .stream handle →
      t.subscriptions.get? handle = some subscription →
      ∃ query, subscription.query = some query ∧ request = query.request)
    (hrestarted : ∀ handle ∈ restoration.begun, restoration.awaited ≠ .stream handle →
      handle ∈ begun) :
    Outcome s₀ events ((t.launch .restoration request frame).await restoration) := by
  by_cases hlink : t.link = .whole
  · obtain ⟨hunbroken, hwritten, huncut, hinflight, hawaited⟩ := h.launched hlink request frame
    have hrequests := RequestsOnly.launch t .restoration request frame
    have hstreams := hrequests.streamState
    have hnextId := launch_nextId t .restoration request frame
    have hnextHandle : (t.launch .restoration request frame).nextHandle = t.nextHandle :=
      congrArg (·.2.2.2.2) hstreams
    obtain ⟨frames, lives, hsofar, heq, hlives⟩ := h.frames
    obtain ⟨lives', heq', hlives'⟩ := hframes frames lives heq hlives
    have hsubscriptions := hrequests.subscriptions
    have hlimit := hrequests.payloadLimit
    rw [hsofar, List.append_assoc] at hwritten
    unfold Session.await
    rw [if_neg (by simp [hunbroken])]
    generalize t.launch .restoration request frame = u at *
    have hframed : Session.framed { u with phase := .restoring restoration } =
        t.framed := by
      funext id calls
      exact framed_congr (by exact hlimit) calls id
    exact .awaits {
      payloadLimit := hlimit.trans h.payloadLimit
      uncut := h.uncut.trans (huncut.trans (.of_eq rfl))
      frames := by
        refine ⟨_, lives', hwritten, ?_, hlives'⟩
        rw [hframed]
        exact hnextId ▸ heq'
      inOrder := hinOrder
      descending := hdescending
      below := hnextHandle ▸ hbelow
      ahead := hsubscriptions ▸ hahead
      phase := rfl
      begins := hbegins
      call := by
        refine ⟨_, _, hwritten, List.mem_append_right _ (List.mem_singleton_self _), hinflight,
          hawaited, ?_⟩
        exact hsubscriptions ▸ hcall
      restarted := by
        intro handle hhandle hother subscription hget
        exact h.restarted handle (hrestarted handle hhandle hother) subscription
          (hsubscriptions ▸ hget) }
  · exact h.await_of_not_whole hlink request frame _

/-- The next call for the standing is made. -/
theorem call {request : Request} (h : Ready s₀ events t (request :: rest) begun) {frame : Octets}
    (hframe : t.frameOf request t.nextId = .ok frame) :
    Outcome s₀ events ((t.launch .restoration request frame).await
      { awaited := .standing request.method, remaining := rest }) := by
  obtain rfl : begun = [] := h.inOrder.resolve_left (by simp)
  refine h.await ?_ (.inr rfl) .nil (by simp [Restoration.begun]) (by simp [Restoration.begun])
    (fun _ hawaited ↦ by cases hawaited) (fun _ _ hawaited ↦ by cases hawaited)
    (by simp [Restoration.begun])
  intro frames lives heq hlives
  refine ⟨lives, ?_, hlives⟩
  simp only [own, List.map_cons, framed, hframe] at heq
  rw [← heq, List.append_assoc, List.singleton_append]
  rfl

/-- The query of the first stream is started again that was not yet. -/
theorem stream (h : Ready s₀ events t [] begun) {handle : Nat} {handles : List Nat}
    {subscription : Subscription} {query : LiveQuery} {frame : Octets}
    (hfirst : t.unrestarted begun = handle :: handles)
    (hget : t.subscriptions.get? handle = some subscription)
    (hquery : subscription.query = some query) :
    Outcome s₀ events ((t.launch .restoration query.request frame).await
      { awaited := .stream handle, remaining := [], restarted := handle :: begun }) := by
  have hnodup := h.liveTable.nodup
  have hmem := Table.mem_keys_of_get? hget
  have hnew : handle ∉ begun :=
    ((mem_unrestarted_iff hnodup).mp (hfirst ▸ List.mem_cons_self)).1
  have hahead := h.ahead handle hmem hnew
  refine h.await ?_ (.inl rfl) (List.pairwise_cons.mpr ⟨hahead, h.descending⟩) ?_ ?_ ?_ ?_ ?_
  · intro frames lives heq hlives
    refine ⟨lives ++ [⟨t.nextId, .restoration, query.request, frame⟩], ?_, ?_⟩
    · simp only [own, List.map_nil, framed, List.append_nil] at heq
      simp [heq, Restoration.left, own, framed]
    · obtain ⟨earlier, old, hearlier, hold, hsame⟩ := h.known hget
      have hrestart : RestartOf s₀ events handle
          ⟨t.nextId, .restoration, query.request, frame⟩ :=
        ⟨rfl, earlier, old, query, hearlier, hold, hsame.trans hquery, rfl⟩
      simp only [Restoration.begun, List.reverse_cons]
      exact List.rel_append hlives (.cons hrestart .nil)
  · intro other hother
    rcases List.mem_cons.mp hother with rfl | hold
    · exact h.liveTable.below other hmem
    · exact h.below other hold
  · -- the streams are listed by handle, so that those that are left come after the first one
    intro other hother hnot earlier hearlier
    have hunbegun := List.not_mem_of_not_mem_cons hnot
    rcases List.mem_cons.mp hearlier with rfl | hold
    · obtain ⟨second, hsecond⟩ := Table.exists_get?_of_mem_keys hother
      obtain ⟨known, hknown⟩ := h.reconnecting.managed other second hsecond
      have hleft : other ∈ t.unrestarted begun :=
        (mem_unrestarted_iff hnodup).mpr ⟨hunbegun, second, known, hsecond, hknown⟩
      have hsorted : (t.unrestarted begun).Pairwise (· < ·) :=
        List.Pairwise.sublist (List.filter_sublist.map Prod.fst) h.ascending
      rw [hfirst] at hleft hsorted
      rcases List.mem_cons.mp hleft with rfl | hrest
      · exact absurd List.mem_cons_self hnot
      · exact (List.pairwise_cons.mp hsorted).1 other hrest
    · exact h.ahead other hother hunbegun earlier hold
  · intro other hawaited
    cases hawaited
    exact List.mem_cons_self
  · intro other second hawaited hsecond
    cases hawaited
    cases hget.symm.trans hsecond
    exact ⟨query, hquery, rfl⟩
  · intro other hother hnot
    rcases List.mem_cons.mp hother with rfl | hold
    · exact absurd rfl hnot
    · exact hold

/-- A pass leads to the next call, or to the end. -/
theorem pass (h : Ready s₀ events s left begun) {final : Session}
    (hpass : Pass s left begun final) : Outcome s₀ events final := by
  cases hpass with
  | @call t request frame rest hskips hframe hframed =>
    have hbegun : begun = [] := by
      rcases h.inOrder with rfl | hnone
      · cases hframed
      · exact hnone
    refine (h.skips hskips ?_ (.inr hbegun)).call hframe
    rw [hframed]
    simp only [own, List.map_cons, framed, hframe]
  | @stream t _ _ _ _ _ hskips hframed hfirst hget hquery hframe =>
    have hready : Ready s₀ events t [] begun := h.skips hskips hframed (.inl rfl)
    exact hready.stream hfirst hget hquery
  | done hskips hframed hnone => exact .resumes (h.skips hskips hframed (.inl rfl)) hnone

end Ready

end Session

end Wireline

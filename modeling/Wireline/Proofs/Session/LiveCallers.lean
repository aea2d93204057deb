import Wireline.Client.Call
import Wireline.Proofs.Session.Attachment

/-!
# Callers of live queries

The call that starts a live query takes two steps: a request, the answer to which gives the id of
the query, and then a command that opens its stream. Between the two its caller may take any time.
`Interleaved` says how callers and a session go on side by side: a caller sends a command when it is
due, hears what the session told it, or does neither, and whatever else happens to the session
happens in between.

A session that is connected has the streams of the link that it holds, with ids that the server gave
on that link, apart from one kind. If the server gave the id on an earlier link and the caller took
until now to send the command, the stream is opened under that id all the same, and nothing starts
its query on the new link (`managed_streams_of_link`).
-/

set_option autoImplicit false
set_option relaxedAutoImplicit false

namespace Wireline

namespace Session

/-! ### Callers -/

/-- What a caller is about to do. -/
inductive Stage
  /-- It sends the command of its call. -/
  | asking (call : Call)
  /-- It waits for what its call is waiting for. -/
  | waiting (call : Call)
  | finished

/-- Whoever started a live query. -/
structure Caller where
  query : LiveQuery
  stage : Stage

/-- Where a call that waited has come to. -/
def Stage.after (call : Call) : Call.Progress → Stage
  | .ask next => .asking next
  | .wait => .waiting call
  | .finish _ => .finished

/-- The session has told a caller something. -/
def Told (s : Session) (ticket : Ticket) : Answer → Prop
  | .reply reply => ∃ n, ⟨n, .caller ticket, reply⟩ ∈ s.replied
  | answer => .tell ticket answer ∈ s.outbox

/-- The event is no request of one of the callers, and opens no stream of a known query. -/
def IsForeign (callers : Table Ticket Caller) : Event → Prop
  | .command (.request ticket _) => callers.get? ticket = none
  | .command (.subscribe _ _ (some _)) => False
  | _ => True

/-- A session goes through events while callers start live queries. Only their calls open streams of
known queries. What a caller was told it may hear at any later time, and more than once. -/
inductive Interleaved (s₀ : Session) : List Event → Table Ticket Caller → Prop
  | nothing : Interleaved s₀ [] .empty
  | begins {events : List Event} {callers : Table Ticket Caller} (h : Interleaved s₀ events callers)
      (ticket : Ticket) (query : LiveQuery) (hfresh : callers.get? ticket = none)
      (hunused : ∀ request, .command (.request ticket request) ∉ events) :
      Interleaved s₀ events (callers.set ticket ⟨query, .asking (.live query)⟩)
  | asks {events : List Event} {callers : Table Ticket Caller} {ticket : Ticket}
      {query : LiveQuery} {call : Call} {command : Command} (h : Interleaved s₀ events callers)
      (hcaller : callers.get? ticket = some ⟨query, .asking call⟩)
      (hcommand : call.command? ticket = some command) :
      Interleaved s₀ (events ++ [.command command]) (callers.set ticket ⟨query, .waiting call⟩)
  | hears {events : List Event} {callers : Table Ticket Caller} {ticket : Ticket}
      {query : LiveQuery} {call : Call} {answer : Answer} (h : Interleaved s₀ events callers)
      (hcaller : callers.get? ticket = some ⟨query, .waiting call⟩)
      (htold : Told (s₀.run events) ticket answer) :
      Interleaved s₀ events (callers.set ticket ⟨query, .after call (call.hear answer)⟩)
  | foreign {events : List Event} {callers : Table Ticket Caller} {event : Event}
      (h : Interleaved s₀ events callers) (hforeign : IsForeign callers event) :
      Interleaved s₀ (events ++ [event]) callers

/-! ### Ids that the server gives -/

/-- After `s₀` the server has given the id, in the answer to a request that was awaited for an
origin. -/
def Issued (s₀ : Session) (events : List Event) (origin : Origin) (id : Uuid) : Prop :=
  ∃ before frame n result, before ++ [.frame frame] <+: events ∧
    (n.toNat, origin) ∈ (s₀.run before).awaited ∧
    read frame = .ok (.reply n (.ok result)) ∧ Uuid.ofValue result = .ok id

section Issued

variable {s₀ : Session} {events later : List Event} {origin : Origin} {id : Uuid}

theorem Issued.mono (h : Issued s₀ events origin id) (hlater : events <+: later) :
    Issued s₀ later origin id := by
  obtain ⟨before, frame, n, result, hbefore, hrest⟩ := h
  exact ⟨before, frame, n, result, hbefore.trans hlater, hrest⟩

theorem Issued.append (h : Issued s₀ (events ++ later) origin id) :
    Issued s₀ events origin id ∨ Issued (s₀.run events) later origin id := by
  obtain ⟨before, frame, n, result, hbefore, hawaited, hread, hid⟩ := h
  rcases List.prefix_or_prefix_of_prefix hbefore (List.prefix_append events later) with
    hearly | ⟨rest, hrest⟩
  · exact .inl ⟨before, frame, n, result, hearly, hawaited, hread, hid⟩
  rcases List.eq_nil_or_concat rest with rfl | ⟨between, last, rfl⟩
  · rw [List.append_nil] at hrest
    exact .inl ⟨before, frame, n, result, hrest ▸ List.prefix_refl _, hawaited, hread, hid⟩
  · rw [List.concat_eq_append, ← List.append_assoc] at hrest
    obtain ⟨rfl, hlast⟩ := List.append_inj' hrest rfl
    cases hlast
    rw [List.append_assoc] at hbefore
    rw [run_append] at hawaited
    exact .inr ⟨between, frame, n, result, (List.prefix_append_right_inj events).mp hbefore,
      hawaited, hread, hid⟩

/-- Assumes: nothing was passed on before. A reply that was passed on came in a frame. -/
theorem issued_of_replied (hs : s₀.Steady) (hbegin : s₀.replied = []) {n : Nat} {result : Value}
    (hid : Uuid.ofValue result = .ok id) (events : List Event) :
    ⟨n, origin, .response (.ok result)⟩ ∈ (s₀.run events).replied → Issued s₀ events origin id := by
  induction events using List.reverseRecOn with
  | nil =>
    intro hmem
    rw [show (s₀.run []).replied = [] from hbegin] at hmem
    exact absurd hmem List.not_mem_nil
  | append_singleton events event ih =>
    have hsteady := hs.run events
    obtain ⟨deliveries, hreplied, hwarrants⟩ :=
      step_replied hsteady.quiescent hsteady.accounted event
    rw [run_concat, hreplied]
    intro hmem
    rcases List.mem_append.mp hmem with hold | hnew
    · exact (ih hold).mono (List.prefix_append _ _)
    · obtain ⟨-, hawaited, frame, number, rfl, hread, hnumber⟩ := hwarrants _ hnew
      exact ⟨events, frame, number, result, List.prefix_refl _, hnumber ▸ hawaited, hread, hid⟩

end Issued

/-! ### What callers know -/

/-- The call of a caller is the one that it began with, or the server has given it an id. -/
def Stage.Follows (s₀ : Session) (events : List Event) (ticket : Ticket) (query : LiveQuery) :
    Stage → Prop
  | .asking call | .waiting call => call = .live query ∨
      ∃ id, call = .subscribing id (some query) ∧ Issued s₀ events (.caller ticket) id
  | .finished => True

theorem Stage.Follows.mono {s₀ : Session} {events later : List Event} {ticket : Ticket}
    {query : LiveQuery} {stage : Stage} (h : stage.Follows s₀ events ticket query)
    (hlater : events <+: later) : stage.Follows s₀ later ticket query := by
  cases stage with
  | finished => trivial
  | asking call | waiting call =>
    rcases h with hlive | ⟨id, hcall, hissued⟩
    · exact .inl hlive
    · exact .inr ⟨id, hcall, hissued.mono hlater⟩

/-- Callers of live queries make no requests but those that start their queries, and a stream of a
known query is opened for one of them, under an id that the server gave it. -/
structure Faithful (s₀ : Session) (events : List Event) (callers : Table Ticket Caller) : Prop where
  follows : ∀ ticket caller, callers.get? ticket = some caller →
    caller.stage.Follows s₀ events ticket caller.query
  requests : ∀ ticket caller request, callers.get? ticket = some caller →
    .command (.request ticket request) ∈ events → request = caller.query.request
  opened : ∀ before ticket id query,
    before ++ [.command (.subscribe ticket id (some query))] <+: events →
      Issued s₀ before (.caller ticket) id ∧
        ∃ caller, callers.get? ticket = some caller ∧ caller.query = query

section Faithful

variable {s₀ : Session} {events : List Event} {callers : Table Ticket Caller} {ticket : Ticket}
  {query : LiveQuery}

/-- What a caller of a live query hears leads it on, with an id that the server gave it if there is
one. -/
theorem follows_after (hs : s₀.Steady) (hbegin : s₀.replied = []) {call : Call}
    (h : (Stage.waiting call).Follows s₀ events ticket query) {answer : Answer}
    (htold : Told (s₀.run events) ticket answer) :
    (Stage.after call (call.hear answer)).Follows s₀ events ticket query := by
  rcases h with rfl | ⟨id, rfl, hissued⟩
  · cases answer with
    | refused error => trivial
    | reply reply =>
      obtain ⟨n, hreplied⟩ := htold
      cases reply with
      | retry => exact .inl rfl
      | failed error => trivial
      | response response =>
        cases response with
        | error error => trivial
        | ok result =>
          simp only [Call.live, Call.hear, Call.conclusion, Call.conclude]
          cases hid : Uuid.ofValue result with
          | error error => trivial
          | ok id => exact .inr ⟨id, rfl, issued_of_replied hs hbegin hid events hreplied⟩
    | _ => exact .inl rfl
  · cases answer with
    | subscribed result => trivial
    | _ => exact .inr ⟨id, rfl, hissued⟩

theorem Faithful.begins (h : Faithful s₀ events callers) (hfresh : callers.get? ticket = none)
    (hunused : ∀ request, .command (.request ticket request) ∉ events) (query : LiveQuery) :
    Faithful s₀ events (callers.set ticket ⟨query, .asking (.live query)⟩) where
  follows other caller hcaller := by
    rw [Table.get?_set] at hcaller
    by_cases hsame : ticket = other
    · rw [if_pos hsame, Option.some_inj] at hcaller
      rw [← hcaller]
      exact .inl rfl
    · rw [if_neg hsame] at hcaller
      exact h.follows other caller hcaller
  requests other caller request hcaller hrequest := by
    rw [Table.get?_set] at hcaller
    by_cases hsame : ticket = other
    · exact absurd (hsame ▸ hrequest) (hunused request)
    · rw [if_neg hsame] at hcaller
      exact h.requests other caller request hcaller hrequest
  opened before other id known hbefore := by
    obtain ⟨hissued, caller, hcaller, hquery⟩ := h.opened before other id known hbefore
    have hother : ticket ≠ other := by
      rintro rfl
      cases hfresh.symm.trans hcaller
    exact ⟨hissued, caller, by rw [Table.get?_set, if_neg hother, hcaller], hquery⟩

/-- A caller goes on to another stage, and nothing else happens. -/
theorem Faithful.proceeds (h : Faithful s₀ events callers) {stage next : Stage}
    (hcaller : callers.get? ticket = some ⟨query, stage⟩)
    (hnext : next.Follows s₀ events ticket query) :
    Faithful s₀ events (callers.set ticket ⟨query, next⟩) where
  follows other caller hother := by
    rw [Table.get?_set] at hother
    by_cases hsame : ticket = other
    · rw [if_pos hsame, Option.some_inj] at hother
      rw [← hother, ← hsame]
      exact hnext
    · rw [if_neg hsame] at hother
      exact h.follows other caller hother
  requests other caller request hother hrequest := by
    rw [Table.get?_set] at hother
    by_cases hsame : ticket = other
    · have hquery : request = query.request :=
        h.requests ticket ⟨query, stage⟩ request hcaller (hsame ▸ hrequest)
      rw [if_pos hsame, Option.some_inj] at hother
      rw [← hother]
      exact hquery
    · rw [if_neg hsame] at hother
      exact h.requests other caller request hother hrequest
  opened before other id known hbefore := by
    obtain ⟨hissued, caller, hother, hquery⟩ := h.opened before other id known hbefore
    refine ⟨hissued, ?_⟩
    rw [Table.get?_set]
    by_cases hsame : ticket = other
    · rw [← hsame, hcaller, Option.some_inj] at hother
      rw [if_pos hsame]
      exact ⟨_, rfl, by rw [← hquery, ← hother]⟩
    · rw [if_neg hsame]
      exact ⟨caller, hother, hquery⟩

/-- An event comes that is in the manner of the callers. -/
theorem Faithful.event (h : Faithful s₀ events callers) {event : Event}
    (hrequest : ∀ ticket request caller, event = .command (.request ticket request) →
      callers.get? ticket = some caller → request = caller.query.request)
    (hopen : ∀ ticket id query, event = .command (.subscribe ticket id (some query)) →
      Issued s₀ events (.caller ticket) id ∧
        ∃ caller, callers.get? ticket = some caller ∧ caller.query = query) :
    Faithful s₀ (events ++ [event]) callers where
  follows other caller hcaller :=
    (h.follows other caller hcaller).mono (List.prefix_append events [event])
  requests other caller request hcaller hmem := by
    rcases List.mem_append.mp hmem with hold | hnew
    · exact h.requests other caller request hcaller hold
    · exact hrequest other request caller (List.mem_singleton.mp hnew).symm hcaller
  opened before other id known hbefore := by
    rcases List.prefix_concat_iff.mp hbefore with hlast | hold
    · obtain ⟨rfl, hevent⟩ := List.append_inj' hlast rfl
      exact hopen other id known (List.singleton_inj.mp hevent).symm
    · exact h.opened before other id known hold

/-- Whatever callers and session do, callers of live queries stay faithful. -/
theorem Interleaved.faithful (h : Interleaved s₀ events callers) (hs : s₀.Steady)
    (hbegin : s₀.replied = []) : Faithful s₀ events callers := by
  induction h with
  | nothing =>
    constructor
    · intro ticket caller hcaller
      cases hcaller
    · intro ticket caller request hcaller
      cases hcaller
    · intro before ticket id query hbefore
      exact absurd (List.prefix_nil.mp hbefore) (by simp)
  | begins _ ticket query hfresh hunused ih => exact ih.begins hfresh hunused query
  | @asks events callers ticket query call command _ hcaller hcommand ih =>
    have hfollows : (Stage.asking call).Follows s₀ events ticket query :=
      ih.follows ticket _ hcaller
    refine Faithful.proceeds (ih.event ?_ ?_) hcaller
      (Stage.Follows.mono hfollows (List.prefix_append _ _))
    · intro other request caller hevent hother
      cases hevent
      rcases hfollows with rfl | ⟨id, rfl, -⟩
      · cases hcommand
        cases hcaller.symm.trans hother
        rfl
      · cases hcommand
    · intro other id known hevent
      cases hevent
      rcases hfollows with rfl | ⟨given, rfl, hissued⟩
      · cases hcommand
      · cases hcommand
        exact ⟨hissued, _, hcaller, rfl⟩
  | @hears events callers ticket query call answer _ hcaller htold ih =>
    exact ih.proceeds hcaller (follows_after hs hbegin (ih.follows ticket _ hcaller) htold)
  | @foreign events callers event _ hforeign ih =>
    refine ih.event ?_ ?_
    · rintro ticket request caller rfl hcaller
      cases hcaller.symm.trans hforeign
    · rintro ticket id query rfl
      exact hforeign.elim

end Faithful

/-- Assumes: a session and the callers of live queries went on side by side, and the session is
connected. It holds a link, and each open stream whose query is known has an id that the server gave
on that link, in the answer to the call of the session that started the query again or to the
request of a caller, who has requested nothing else; unless the server has answered the caller on an
earlier link, and the command that opened the stream came only on this one. -/
theorem managed_streams_of_link (url : String) (config : ClientConfig) (payloadLimit : Option Nat)
    (events : List Event) (callers : Table Ticket Caller)
    (h : Interleaved (ofConfig url config payloadLimit) events callers)
    (hconnected : ((ofConfig url config payloadLimit).run events).status = .connected) :
    let s := ofConfig url config payloadLimit
    (∃ earlier since, events = earlier ++ .linked :: since ∧ Holds s earlier since) ∧
    ∀ earlier since, events = earlier ++ .linked :: since → Holds s earlier since →
      ∀ handle subscription query,
        (s.run events).subscriptions.get? handle = some subscription →
        subscription.query = some query →
        RestartedAs (s.run earlier) (.linked :: since) subscription ∨
        ∃ ticket before,
          before ++ [.command (.subscribe ticket subscription.id (some query))] <+:
            .linked :: since ∧
          ((s.run earlier).run before).status = .connected ∧
          (∀ request, .command (.request ticket request) ∈ events → request = query.request) ∧
          (Issued (s.run earlier) before (.caller ticket) subscription.id ∨
            Issued s earlier (.caller ticket) subscription.id) := by
  intro s
  have hs : s.Steady := steady_ofConfig url config payloadLimit
  have hsteady := hs.run events
  have hfaithful : Faithful s events callers := h.faithful hs rfl
  have hserving : (s.run events).IsServing := hsteady.coherent.isServing hconnected
  have hlink : (s.run events).link ≠ .none :=
    fun hnone ↦ hserving.elim (hsteady.quiescent.not_serving hnone)
  obtain ⟨first, rest, hfirst, hholds, hattached⟩ := attached_run hs rfl events hlink
  refine ⟨⟨first, rest, hfirst, hholds⟩, ?_⟩
  intro earlier since hevents hheld handle subscription query hget hquery
  obtain ⟨rfl, rfl⟩ := hheld.unique hs hholds (hevents.symm.trans hfirst)
  rcases hattached.serving hserving handle subscription hget with
    hrestarted | ⟨before, ticket, hbefore, hstatus⟩
  · exact .inl hrestarted
  · rw [hquery] at hbefore
    have hprefix : (earlier ++ before) ++
        [.command (.subscribe ticket subscription.id (some query))] <+: events := by
      rw [hevents, List.append_assoc]
      exact (List.prefix_append_right_inj earlier).mpr hbefore
    obtain ⟨hissued, caller, hcaller, rfl⟩ := hfaithful.opened _ ticket _ query hprefix
    refine .inr ⟨ticket, before, hbefore, hstatus, fun request hrequest ↦ ?_, ?_⟩
    · exact hfaithful.requests ticket caller request hcaller hrequest
    · exact hissued.append.symm

/-- A caller gets the answer to its request, and before it sends its command the link is lost and
another one restored. -/
def beforeCommand : List Event :=
  [.start, .linked, .command (.request 1 (LiveQuery.request ⟨.text "person", false⟩)),
    answerToFirst, .lost, .elapse 2000000000]

/-- The command of the caller, with the id that was in the answer. -/
def lateCommand : Event :=
  .command (.subscribe 1 ⟨List.replicate 16 0x5c, rfl⟩ (some ⟨.text "person", false⟩))

set_option maxRecDepth 8000 in
theorem interleaved_lateCommand : ∃ callers,
    Interleaved (ofConfig "" {} none) (beforeCommand ++ .linked :: [lateCommand]) callers := by
  generalize hs : ofConfig "" {} none = s
  have hnext {events : List Event} {callers : Table Ticket Caller}
      (h : Interleaved s events callers) (event : Event) (hforeign : IsForeign callers event) :
      Interleaved s (events ++ [event]) callers := h.foreign hforeign
  have hopened : Interleaved s [.start, .linked] .empty :=
    hnext (hnext .nothing .start trivial) .linked trivial
  have hbegun := hopened.begins 1 ⟨.text "person", false⟩ rfl (by simp)
  have hrequested : Interleaved s (beforeCommand.take 3) _ :=
    @Interleaved.asks s _ _ 1 _ _ (.request 1 (LiveQuery.request ⟨.text "person", false⟩)) hbegun rfl
      rfl
  have hanswered : Interleaved s (beforeCommand.take 4) _ := hnext hrequested answerToFirst trivial
  have hreplied : (s.run (beforeCommand.take 4)).replied =
      [⟨1, .caller 1, .response (.ok (Uuid.toValue ⟨List.replicate 16 0x5c, rfl⟩))⟩] := by
    rw [← hs]
    rfl
  have htold : Told (s.run (beforeCommand.take 4)) 1
      (.reply (.response (.ok (Uuid.toValue ⟨List.replicate 16 0x5c, rfl⟩)))) :=
    ⟨1, hreplied ▸ List.mem_cons_self⟩
  have hheard := hanswered.hears rfl htold
  have hwaited : Interleaved s beforeCommand _ :=
    hnext (hnext hheard .lost trivial) (.elapse 2000000000) trivial
  have hlinked : Interleaved s (beforeCommand ++ [.linked]) _ := hnext hwaited .linked trivial
  exact ⟨_, @Interleaved.asks s _ _ 1 _ _
    (.subscribe 1 ⟨List.replicate 16 0x5c, rfl⟩ (some ⟨.text "person", false⟩)) hlinked rfl rfl⟩

set_option maxRecDepth 8000 in
theorem holds_lateCommand : Holds (ofConfig "" {} none) beforeCommand [lateCommand] := by
  have hasked : ((ofConfig "" {} none).run beforeCommand).phase = .dialing := rfl
  have hheld : ((ofConfig "" {} none).run (beforeCommand ++ [.linked])).link = .whole := rfl
  have hlater : ((ofConfig "" {} none).run (beforeCommand ++ [.linked, lateCommand])).link =
      .whole := rfl
  refine ⟨.inr hasked, fun sofar hsofar ↦ ?_⟩
  rcases List.prefix_cons_iff.mp hsofar with rfl | ⟨rest, rfl, hrest⟩
  · rw [hheld]
    simp
  · rw [List.prefix_nil.mp hrest, hlater]
    simp

/-- The session is connected, and has opened a stream under an id that the server gave on the link
that was lost. On the link that it holds nothing was answered at all. -/
theorem managed_stream_of_lost_link :
    let s := ofConfig "" {} none
    let events := beforeCommand ++ .linked :: [lateCommand]
    (∃ callers, Interleaved s events callers) ∧ (s.run events).status = .connected ∧
      Holds s beforeCommand [lateCommand] ∧ ∃ subscription,
        (s.run events).subscriptions.get? 1 = some subscription ∧
        ¬ RestartedAs (s.run beforeCommand) (.linked :: [lateCommand]) subscription ∧
        (∀ origin, ¬ Issued (s.run beforeCommand) (.linked :: [lateCommand]) origin
          subscription.id) ∧
        Issued s beforeCommand (.caller 1) subscription.id := by
  intro s events
  obtain ⟨callers, hinterleaved⟩ := interleaved_lateCommand
  have hconnected : (s.run events).status = .connected := by decide +kernel
  have hholds : Holds s beforeCommand [lateCommand] := holds_lateCommand
  have hopen : ((s.run events).subscriptions.get? 1).any (·.query.isSome) = true := by
    decide +kernel
  obtain ⟨subscription, hget, hquery⟩ := (Option.any_eq_true _ _).mp hopen
  obtain ⟨query, hknown⟩ := Option.isSome_iff_exists.mp hquery
  have hsilent {before : List Event} {frame : Octets}
      (hbefore : before ++ [.frame frame] <+: .linked :: [lateCommand]) : False := by
    have hframe := hbefore.subset (List.mem_append_right before List.mem_cons_self)
    simp [lateCommand] at hframe
  have hrestarted :
      ¬ RestartedAs (s.run beforeCommand) (.linked :: [lateCommand]) subscription := by
    rintro ⟨before, frame, n, result, query, frames, outgoing, hbefore, -⟩
    exact hsilent hbefore
  have hissued (origin : Origin) :
      ¬ Issued (s.run beforeCommand) (.linked :: [lateCommand]) origin subscription.id := by
    rintro ⟨before, frame, n, result, hbefore, -⟩
    exact hsilent hbefore
  refine ⟨⟨callers, hinterleaved⟩, hconnected, hholds, subscription, hget, hrestarted, hissued, ?_⟩
  obtain ⟨-, hstreams⟩ := managed_streams_of_link "" {} none events callers hinterleaved hconnected
  rcases hstreams _ _ rfl hholds 1 subscription query hget hknown with
    hcontra | ⟨ticket, before, hcommand, -, -, hhere | hearlier⟩
  · exact absurd hcontra hrestarted
  · exact absurd (hhere.mono ((List.prefix_append before _).trans hcommand)) (hissued _)
  · have hmem := hcommand.subset (List.mem_append_right before List.mem_cons_self)
    simp only [lateCommand, List.mem_cons, List.not_mem_nil, or_false, reduceCtorEq, false_or,
      Event.command.injEq, Command.subscribe.injEq] at hmem
    exact hmem.1 ▸ hearlier

end Session

end Wireline

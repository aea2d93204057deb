import Wireline.Proofs.EmitterRuns

/-!
# Who gets which event

Listeners do not get in each other's way. If a sink belongs to one listener, what it receives in a
run depends on nothing but that listener and the operations on its key
(`Serves.received_deliveries`), and this is a stretch of the events emitted on the key: all of them
until the listener is removed if it is persistent (`hearing_persistent`), and the first of them if
it is not (`hearing_once`).

`Emitter.DeliversExactly` puts together what becomes of events in a run of a new emitter, of those
that are handed out at once and of those that are kept, and every such run fulfils it
(`deliversExactly`).
-/

set_option autoImplicit false
set_option relaxedAutoImplicit false

namespace Wireline

namespace Emitter

variable {κ σ ε : Type} [DecidableEq κ]

namespace Operation

variable {key : κ} {id : Nat}

/-- Whether a listener of a key is removed. -/
def removes (key : κ) (id : Nat) : Operation κ σ ε → Bool
  | .unsubscribe k i => k = key ∧ id = i
  | _ => false

/-- Whether the receiver of a listener of a key is abandoned. -/
def abandons (key : κ) (id : Nat) : Operation κ σ ε → Bool
  | .abandon k i => k = key ∧ id = i
  | _ => false

/-- What a listener of a key hears, if there is one. -/
def heardBy (operation : Operation κ σ ε) (key : κ) (listener : Option (Listener σ)) : List ε :=
  if listener.any Listener.isReached then (operation.emission? key).toList else []

theorem emission?_of_removes {operation : Operation κ σ ε} (h : operation.removes key id) :
    operation.emission? key = none := by
  cases operation <;> first | rfl | exact Bool.noConfusion h

theorem emission?_of_abandons {operation : Operation κ σ ε} (h : operation.abandons key id) :
    operation.emission? key = none := by
  cases operation <;> first | rfl | exact Bool.noConfusion h

theorem heardBy_reached {operation : Operation κ σ ε} {listener : Listener σ}
    (h : listener.isReached) :
    operation.heardBy key (some listener) = (operation.emission? key).toList :=
  if_pos h

theorem onListener_persistent (operation : Operation κ σ ε) (key : κ) (id : Nat) (sink : σ) :
    operation.onListener key ⟨id, sink, .persistent⟩ =
      if operation.removes key id then none else some ⟨id, sink, .persistent⟩ := by
  cases operation with
  | unsubscribe | abandon | emit | emitCollectable => simp [onListener, removes, Listener.isKept]
  | _ => rfl

theorem onListener_once (operation : Operation κ σ ε) (key : κ) (id : Nat) (sink : σ)
    (awaited : Bool) : operation.onListener key ⟨id, sink, .once awaited⟩ =
      if operation.removes key id ∨ (operation.emission? key).isSome then none
      else some ⟨id, sink, .once (awaited && !operation.abandons key id)⟩ := by
  cases operation with
  | unsubscribe k i => simp [onListener, removes, abandons, emission?]
  | abandon k i =>
    by_cases hnamed : k = key ∧ id = i
    · cases awaited <;> simp [onListener, removes, abandons, emission?, hnamed]
    · have hkept : ¬ (k = key ∧ id = i ∧ awaited = true) := fun h ↦ hnamed ⟨h.1, h.2.1⟩
      simp [onListener, removes, abandons, emission?, hnamed, hkept]
  | emit k event | emitCollectable k event =>
    by_cases hkey : k = key <;>
      simp [onListener, removes, abandons, emission?, Listener.isKept, hkey]
  | subscribe | subscribeOnce | resetCollectable => cases awaited <;> rfl

end Operation

/-! ### One sink -/

omit [DecidableEq κ] in
/-- What one sink receives of what is delivered. -/
def received [DecidableEq σ] (sink : σ) (deliveries : List (σ × ε)) : List ε :=
  deliveries.filterMap fun delivery ↦ if delivery.1 = sink then some delivery.2 else none

/-- A sink belongs to a listener of a key and to no other, or to none at all. -/
def Serves [DecidableEq σ] (emitter : Emitter κ σ ε) (sink : σ) (key : κ)
    (listener : Option (Listener σ)) : Prop :=
  ∀ other, (emitter.listenersOf other).filter (·.sink = sink) =
    if other = key then listener.toList else []

/-- What a listener of a key hears in a run, if there is one. -/
def hearing (key : κ) : Option (Listener σ) → List (Operation κ σ ε) → List ε
  | _, [] => []
  | listener, operation :: operations =>
    operation.heardBy key listener ++
      hearing key (listener.bind (operation.onListener key)) operations

section Received

variable [DecidableEq σ] {sink : σ} {emitter : Emitter κ σ ε} {key : κ}
  {listener : Option (Listener σ)} {operation : Operation κ σ ε}

omit [DecidableEq κ] in
theorem received_append (first second : List (σ × ε)) :
    received sink (first ++ second) = received sink first ++ received sink second :=
  List.filterMap_append

omit [DecidableEq κ] in
theorem received_own (sink : σ) (events : List ε) :
    received sink (events.map (sink, ·)) = events := by
  induction events with
  | nil => rfl
  | cons event events ih => simp [received]

omit [DecidableEq κ] in
theorem received_other {other : σ} (hne : other ≠ sink) (events : List ε) :
    received sink (events.map (other, ·)) = [] := by
  simp [received, hne]

omit [DecidableEq κ] in
/-- What a line of listeners hands to a sink goes to those that lead there. -/
theorem received_line (listeners : List (Listener σ)) (event : ε) :
    received sink (((listeners.filter Listener.isReached).map Listener.sink).map (·, event)) =
      ((listeners.filter (·.sink = sink)).filter Listener.isReached).map fun _ ↦ event := by
  calc received sink (((listeners.filter Listener.isReached).map Listener.sink).map (·, event))
    _ = (listeners.filter Listener.isReached).filterMap
          fun listener ↦ if listener.sink = sink then some event else none := by
        rw [received, List.map_map, List.filterMap_map]
        rfl
    _ = ((listeners.filter Listener.isReached).filter (·.sink = sink)).map fun _ ↦ event := by
        generalize listeners.filter Listener.isReached = reached
        rw [← List.filterMap_eq_map, List.filterMap_filter]
        simp only [decide_eq_true_eq, Function.comp_apply]
    _ = ((listeners.filter (·.sink = sink)).filter Listener.isReached).map fun _ ↦ event := by
        rw [List.filter_comm]

theorem Serves.received_emit (h : emitter.Serves sink key listener) (other : κ) (event : ε) :
    received sink ((emitter.emit other).2.map (·, event)) =
      (Operation.emit other event).heardBy key listener := by
  refine (received_line (emitter.listenersOf other) event).trans ?_
  rw [h other, Operation.heardBy, Operation.emission?]
  split
  · cases listener with
    | none => rfl
    | some listener => cases hreached : listener.isReached <;> simp [hreached]
  · simp

theorem Serves.received_perform (h : emitter.Serves sink key listener)
    (hother : operation.sink? ≠ some sink) :
    received sink (emitter.perform operation).2 = operation.heardBy key listener := by
  have hsilent (hemission : operation.emission? key = none) :
      operation.heardBy key listener = [] := by
    simp [Operation.heardBy, hemission]
  cases operation with
  | subscribe k other historic =>
    have hne : other ≠ sink := fun hsame ↦ hother (congrArg some hsame)
    cases historic with
    | true => exact (received_other hne _).trans (hsilent rfl).symm
    | false => exact (hsilent rfl).symm
  | subscribeOnce k other historic =>
    have hne : other ≠ sink := fun hsame ↦ hother (congrArg some hsame)
    rw [hsilent rfl]
    cases historic with
    | true =>
      simp only [Emitter.perform, subscribeOnceHistoric]
      cases emitter.keptFor k with
      | nil => rfl
      | cons event events => exact received_other hne [event]
    | false => rfl
  | emit k event => exact h.received_emit k event
  | emitCollectable k event =>
    simp only [Emitter.perform, emitCollectable]
    split
    · exact h.received_emit k event
    · next hnone =>
      -- A listener of the key would be in line there.
      have hempty : emitter.listenersOf k = [] := by simpa [hasListeners] using hnone
      have hheard := h.received_emit k event
      simp only [Emitter.emit, hempty, List.filter_nil, List.map_nil] at hheard
      split <;> exact hheard
  | unsubscribe | abandon | resetCollectable => exact (hsilent rfl).symm

omit [DecidableEq σ] in
theorem joining_sink {k : κ} {joined : Listener σ} (h : joined ∈ emitter.joining k operation) :
    operation.sink? = some joined.sink := by
  cases operation with
  | subscribe | subscribeOnce =>
    simp only [joining, List.mem_ite_nil_right, List.mem_singleton] at h
    rw [h.2]
    rfl
  | _ => exact absurd h List.not_mem_nil

theorem filter_filterMap_onListener (operation : Operation κ σ ε) (key : κ)
    (listeners : List (Listener σ)) :
    (listeners.filterMap (operation.onListener key)).filter (·.sink = sink) =
      (listeners.filter (·.sink = sink)).filterMap (operation.onListener key) := by
  rw [List.filter_filterMap, List.filterMap_filter]
  congr 1
  funext listener
  cases hnext : operation.onListener key listener with
  | none => simp
  | some next => simp [Option.filter, Operation.sink_of_onListener hnext]

/-- An operation that lets nobody listen for the sink. -/
theorem Serves.perform (h : emitter.Serves sink key listener)
    (hother : ∀ k, ∀ joined ∈ emitter.joining k operation, joined.sink ≠ sink) :
    (emitter.perform operation).1.Serves sink key (listener.bind (operation.onListener key)) := by
  intro other
  have hjoining : (emitter.joining other operation).filter (·.sink = sink) = [] := by
    refine List.filter_eq_nil_iff.mpr fun joined hjoined ↦ ?_
    simpa using hother other joined hjoined
  rw [listenersOf_perform, List.filter_append, filter_filterMap_onListener, hjoining,
    List.append_nil, h other]
  split
  · next hkey =>
    rw [hkey]
    cases listener with
    | none => rfl
    | some listener => cases hnext : operation.onListener key listener <;> simp [hnext]
  · rfl

/-- A subscriber who begins to listen. -/
theorem Serves.join (joined : Listener σ) (h : emitter.Serves joined.sink key none)
    (hjoined : ∀ other, emitter.joining other operation = if other = key then [joined] else []) :
    (emitter.perform operation).1.Serves joined.sink key (some joined) := by
  intro other
  rw [listenersOf_perform, List.filter_append, filter_filterMap_onListener, h other,
    hjoined other]
  split <;> simp

/-- What a sink receives in a run is what its listener hears. -/
theorem Serves.received_deliveries (h : emitter.Serves sink key listener)
    (operations : List (Operation κ σ ε))
    (hother : ∀ operation ∈ operations, operation.sink? ≠ some sink) :
    received sink (emitter.deliveries operations) = hearing key listener operations := by
  induction operations generalizing emitter listener with
  | nil => rfl
  | cons operation operations ih =>
    have hfirst := hother operation List.mem_cons_self
    have hnext : (emitter.perform operation).1.Serves sink key _ :=
      h.perform fun k joined hjoined hsame ↦ hfirst (hsame ▸ joining_sink hjoined)
    have hlater := ih hnext fun other hmem ↦ hother other (List.mem_cons_of_mem _ hmem)
    have hsplit : emitter.deliveries (operation :: operations) =
        (emitter.perform operation).2 ++ (emitter.perform operation).1.deliveries operations := rfl
    rw [hsplit, received_append, h.received_perform hfirst, hlater, hearing]

theorem Serves.after_of_none (h : emitter.Serves sink key none)
    (operations : List (Operation κ σ ε))
    (hother : ∀ operation ∈ operations, operation.sink? ≠ some sink) :
    (emitter.after operations).Serves sink key none := by
  induction operations generalizing emitter with
  | nil => exact h
  | cons operation operations ih =>
    refine ih ?_ fun other hmem ↦ hother other (List.mem_cons_of_mem _ hmem)
    exact h.perform fun k joined hjoined hsame ↦
      hother operation List.mem_cons_self (hsame ▸ joining_sink hjoined)

end Received

section Hearing

variable {key : κ}

theorem hearing_none (key : κ) (operations : List (Operation κ σ ε)) :
    hearing key (none : Option (Listener σ)) operations = [] := by
  induction operations with
  | nil => rfl
  | cons operation operations ih => exact ih

/-- A persistent listener hears all events of its key until it is removed. -/
theorem hearing_persistent (id : Nat) (sink : σ) (operations : List (Operation κ σ ε)) :
    hearing key (some ⟨id, sink, .persistent⟩) operations =
      (operations.takeWhile (!·.removes key id)).filterMap (·.emission? key) := by
  induction operations with
  | nil => rfl
  | cons operation operations ih =>
    rw [hearing, Option.bind_some, Operation.onListener_persistent, Operation.heardBy_reached rfl]
    cases hremoves : operation.removes key id with
    | true =>
      rw [Operation.emission?_of_removes hremoves, List.takeWhile_cons_of_neg (by simp [hremoves])]
      exact hearing_none key operations
    | false =>
      rw [List.takeWhile_cons_of_pos (by simp [hremoves]), List.filterMap_cons]
      cases operation.emission? key <;> exact congrArg _ ih

theorem hearing_abandoned (id : Nat) (sink : σ) (operations : List (Operation κ σ ε)) :
    hearing key (some ⟨id, sink, .once false⟩) operations = [] := by
  induction operations with
  | nil => rfl
  | cons operation operations ih =>
    have hsilent : operation.heardBy key (some ⟨id, sink, .once false⟩) = [] := rfl
    rw [hearing, hsilent, Option.bind_some, Operation.onListener_once]
    split
    · exact hearing_none key operations
    · exact ih

/-- A one-shot listener hears the first event of its key, unless it is removed or abandoned
before. -/
theorem hearing_once (id : Nat) (sink : σ) (operations : List (Operation κ σ ε)) :
    hearing key (some ⟨id, sink, .once true⟩) operations =
      ((operations.takeWhile fun operation ↦
        !operation.removes key id && !operation.abandons key id).filterMap
          (·.emission? key)).take 1 := by
  induction operations with
  | nil => rfl
  | cons operation operations ih =>
    rw [hearing, Option.bind_some, Operation.onListener_once, Operation.heardBy_reached rfl]
    cases hremoves : operation.removes key id with
    | true =>
      rw [Operation.emission?_of_removes hremoves, if_pos (.inl rfl),
        List.takeWhile_cons_of_neg (by simp [hremoves])]
      exact hearing_none key operations
    | false =>
      cases habandons : operation.abandons key id with
      | true =>
        rw [Operation.emission?_of_abandons habandons, if_neg (by simp),
          List.takeWhile_cons_of_neg (by simp [habandons])]
        exact hearing_abandoned id sink operations
      | false =>
        rw [List.takeWhile_cons_of_pos (by simp [hremoves, habandons]), List.filterMap_cons]
        cases operation.emission? key with
        | none => exact ih
        | some event => exact congrArg (event :: ·) (hearing_none key operations)

end Hearing

/-! ### Runs of new emitters -/

/-- An emitter with nothing in it, which keeps no more than a number of events if there is a
limit. -/
def new (limit : Option Nat) : Emitter κ σ ε :=
  { limit }

/-- What happens to events in a run of a new emitter, each part at every point of the run. -/
structure DeliversExactly [DecidableEq σ] (limit : Option Nat)
    (operations : List (Operation κ σ ε)) : Prop where
  /-- A persistent subscriber with a sink of its own receives what was kept, if it asks for it, and
  then all events of the key until it is removed. -/
  persistent : ∀ before key sink historic later,
    operations = before ++ .subscribe key sink historic :: later →
    (∀ operation ∈ before ++ later, operation.sink? ≠ some sink) →
    received sink ((new limit).deliveries operations) =
      (if historic then ((new limit).after before).keptFor key else []) ++
        (later.takeWhile (!·.removes key ((new limit).after before).nextId)).filterMap
          (·.emission? key)
  /-- A one-shot subscriber with a sink of its own receives the first of what was kept, if it asks
  for it, and the events of the key until it is removed or no longer waits. -/
  once : ∀ before key sink historic later,
    operations = before ++ .subscribeOnce key sink historic :: later →
    (∀ operation ∈ before ++ later, operation.sink? ≠ some sink) →
    received sink ((new limit).deliveries operations) =
      ((if historic then ((new limit).after before).keptFor key else []) ++
        (later.takeWhile fun operation ↦
          !operation.removes key ((new limit).after before).nextId &&
            !operation.abandons key ((new limit).after before).nextId).filterMap
          (·.emission? key)).take 1
  /-- Listeners are numbered in the order in which they come. -/
  numbered : ∀ before operation between other later,
    operations = before ++ operation :: between ++ other :: later →
    ∀ key, ∀ listener ∈ ((new limit).after before).joining key operation,
    ∀ k, ∀ next ∈ ((new limit).after (before ++ operation :: between)).joining k other,
      listener.id = ((new limit).after before).nextId ∧ listener.id < next.id
  /-- An event reaches listeners of its key in the order in which they subscribed. -/
  ordered : ∀ before operation later key event, operations = before ++ operation :: later →
    operation.emission? key = some event →
    ∃ sinks : List σ, sinks.Sublist (before.filterMap (·.subscriber? key)) ∧
      (((new limit).after before).perform operation).2 = sinks.map (·, event)
  /-- A collectable event for a key without listeners becomes the newest of those kept for the key,
  unless as many are kept as the limit permits. -/
  collected : ∀ before key event later, operations = before ++ .emitCollectable key event :: later →
    ((new limit).after before).listenersOf key = [] →
    (((new limit).after before).perform (.emitCollectable key event)).2 = [] ∧
    ((∀ bound ∈ limit, ((new limit).after before).kept.total List.length < bound) →
      ∀ other, (((new limit).after before).perform (.emitCollectable key event)).1.keptFor other =
        if key = other then ((new limit).after before).keptFor key ++ [event]
        else ((new limit).after before).keptFor other) ∧
    ((∃ bound ∈ limit, bound ≤ ((new limit).after before).kept.total List.length) →
      (((new limit).after before).perform (.emitCollectable key event)).1 =
        (new limit).after before)
  /-- Every event that was kept has been handed to one subscriber, who asked for history, or been
  discarded, the oldest first, or is still there. -/
  queued : ∀ key, (new limit).along (arriving key) operations =
    ((new limit).along (departing key) operations).map Prod.snd ++
      ((new limit).after operations).keptFor key

section New

variable {limit : Option Nat}

theorem wellFormed_new (limit : Option Nat) : (new limit : Emitter κ σ ε).WellFormed where
  listed := List.nodup_nil
  populated := fun _ hsome ↦ Option.some_ne_none [] hsome.symm
  stored := List.nodup_nil
  counted := rfl
  bounded := fun _ _ ↦ Nat.zero_le _

theorem serves_new [DecidableEq σ] (limit : Option Nat) (sink : σ) (key : κ) :
    (new limit : Emitter κ σ ε).Serves sink key none := by
  intro other
  split <;> rfl

/-- In a run of a new emitter it is known from the limit when no further event may be kept. -/
theorem isFull_after_new (operations : List (Operation κ σ ε)) :
    ((new limit).after operations).isFull =
      limit.any (· ≤ ((new limit).after operations).kept.total List.length) := by
  rw [isFull, limit_after, ((wellFormed_new limit).after operations).counted]
  rfl

theorem deliveries_split (emitter : Emitter κ σ ε) (before : List (Operation κ σ ε))
    (operation : Operation κ σ ε) (later : List (Operation κ σ ε)) :
    emitter.deliveries (before ++ operation :: later) = emitter.deliveries before ++
      (((emitter.after before).perform operation).2 ++
        ((emitter.after before).perform operation).1.deliveries later) :=
  along_append _ before (operation :: later)

/-- What a sink receives whose owner does not subscribe but once. -/
theorem received_split [DecidableEq σ] {sink : σ} {key : κ} {before later : List (Operation κ σ ε)}
    {operation : Operation κ σ ε} {listener : Option (Listener σ)}
    (hserves : (((new limit).after before).perform operation).1.Serves sink key listener)
    (hbefore : ∀ operation ∈ before, operation.sink? ≠ some sink)
    (hlater : ∀ operation ∈ later, operation.sink? ≠ some sink) :
    received sink ((new limit).deliveries (before ++ operation :: later)) =
      received sink (((new limit).after before).perform operation).2 ++
        hearing key listener later := by
  have hnothing : received sink ((new limit).deliveries before) = [] :=
    ((serves_new limit sink key).received_deliveries before hbefore).trans (hearing_none key before)
  rw [deliveries_split, received_append, received_append, hnothing,
    hserves.received_deliveries later hlater]
  rfl

section Subscribers

variable [DecidableEq σ] {before later : List (Operation κ σ ε)} {sink : σ} {key : κ}
  {historic : Bool}

theorem received_subscribe (hbefore : ∀ operation ∈ before, operation.sink? ≠ some sink)
    (hlater : ∀ operation ∈ later, operation.sink? ≠ some sink) :
    received sink ((new limit).deliveries (before ++ .subscribe key sink historic :: later)) =
      (if historic then ((new limit).after before).keptFor key else []) ++
        (later.takeWhile (!·.removes key ((new limit).after before).nextId)).filterMap
          (·.emission? key) := by
  have hserves : (((new limit).after before).perform (.subscribe key sink historic)).1.Serves sink
      key (some ⟨((new limit).after before).nextId, sink, .persistent⟩) :=
    ((serves_new limit sink key).after_of_none before hbefore).join ⟨_, sink, .persistent⟩
      fun other ↦ by simp only [joining, eq_comm]
  rw [received_split hserves hbefore hlater, hearing_persistent]
  congr 1
  cases historic with
  | true => exact received_own sink _
  | false => rfl

/-- A one-shot subscriber who asks for history and finds some does not wait. -/
theorem received_subscribeOnce_of_kept {event : ε} {events : List ε}
    (hkept : ((new limit).after before).keptFor key = event :: events)
    (hbefore : ∀ operation ∈ before, operation.sink? ≠ some sink)
    (hlater : ∀ operation ∈ later, operation.sink? ≠ some sink) :
    received sink ((new limit).deliveries (before ++ .subscribeOnce key sink true :: later)) =
      [event] := by
  have hserves : (((new limit).after before).perform (.subscribeOnce key sink true)).1.Serves sink
      key none :=
    ((serves_new limit sink key).after_of_none before hbefore).perform fun k joined hjoined ↦ by
      simp [joining, hkept] at hjoined
  have hgiven : (((new limit).after before).perform (.subscribeOnce key sink true)).2 =
      [event].map (sink, ·) := by
    simp only [perform, subscribeOnceHistoric, hkept]
    rfl
  rw [received_split hserves hbefore hlater, hearing_none, List.append_nil, hgiven, received_own]

/-- A one-shot subscriber who asks for no history or finds none waits for the first event. -/
theorem received_subscribeOnce_of_waiting
    (hwaits : historic = false ∨ ((new limit).after before).keptFor key = [])
    (hbefore : ∀ operation ∈ before, operation.sink? ≠ some sink)
    (hlater : ∀ operation ∈ later, operation.sink? ≠ some sink) :
    received sink ((new limit).deliveries (before ++ .subscribeOnce key sink historic :: later)) =
      ((later.takeWhile fun operation ↦
        !operation.removes key ((new limit).after before).nextId &&
          !operation.abandons key ((new limit).after before).nextId).filterMap
        (·.emission? key)).take 1 := by
  have hserves : (((new limit).after before).perform (.subscribeOnce key sink historic)).1.Serves
      sink key (some ⟨((new limit).after before).nextId, sink, .once true⟩) :=
    ((serves_new limit sink key).after_of_none before hbefore).join ⟨_, sink, .once true⟩
      fun other ↦ by simp only [joining, hwaits, and_true, eq_comm (a := other)]
  have hnothing : (((new limit).after before).perform (.subscribeOnce key sink historic)).2 =
      [] := by
    cases historic with
    | false => rfl
    | true => simp only [perform, subscribeOnceHistoric, hwaits.resolve_left Bool.noConfusion]
  rw [received_split hserves hbefore hlater, hearing_once, hnothing]
  rfl

end Subscribers

end New

/-- Every run of a new emitter delivers exactly what it should. -/
theorem deliversExactly [DecidableEq σ] (limit : Option Nat)
    (operations : List (Operation κ σ ε)) : DeliversExactly limit operations where
  persistent := by
    rintro before key sink historic later rfl hother
    exact received_subscribe (fun operation hmem ↦ hother operation (List.mem_append_left _ hmem))
      fun operation hmem ↦ hother operation (List.mem_append_right _ hmem)
  once := by
    rintro before key sink historic later rfl hother
    have hbefore := fun operation hmem ↦ hother operation (List.mem_append_left _ hmem)
    have hlater := fun operation hmem ↦ hother operation (List.mem_append_right _ hmem)
    cases historic with
    | false => exact received_subscribeOnce_of_waiting (.inl rfl) hbefore hlater
    | true =>
      rw [if_pos rfl]
      cases hkept : ((new limit).after before).keptFor key with
      | nil => exact received_subscribeOnce_of_waiting (.inr hkept) hbefore hlater
      | cons event events => exact received_subscribeOnce_of_kept hkept hbefore hlater
  numbered := by
    rintro before operation between other later rfl key listener hlistener k next hnext
    have hfirst := (nextId_perform _ operation).2 key listener hlistener
    have hnumber := ((nextId_perform _ other).2 k next hnext).1
    have hgrows := nextId_after (((new limit).after before).perform operation).1 between
    have hstate : (new limit).after (before ++ operation :: between) =
        (((new limit).after before).perform operation).1.after between := after_append _ _
    rw [hstate] at hnumber
    have hlt := Nat.lt_of_lt_of_le hfirst.2 hgrows
    exact ⟨hfirst.1, by rwa [hfirst.1, hnumber]⟩
  ordered := by
    rintro before operation later key event rfl hemission
    have hline : ((((new limit).after before).listenersOf key).map Listener.sink).Sublist
        (before.filterMap (·.subscriber? key)) := sublist_subscribers before key
    have hemit : ∃ sinks : List σ, sinks.Sublist (before.filterMap (·.subscriber? key)) ∧
        (((new limit).after before).emit key).2.map (·, event) = sinks.map (·, event) :=
      ⟨_, (List.filter_sublist.map Listener.sink).trans hline, rfl⟩
    cases operation with
    | emit k emitted =>
      obtain ⟨rfl, rfl⟩ : k = key ∧ emitted = event := by
        simpa [Operation.emission?] using hemission
      exact hemit
    | emitCollectable k emitted =>
      obtain ⟨rfl, rfl⟩ : k = key ∧ emitted = event := by
        simpa [Operation.emission?] using hemission
      simp only [perform]
      by_cases hnobody : ((new limit).after before).listenersOf k = []
      · rw [emitCollectable_of_nobody hnobody]
        exact ⟨[], List.nil_sublist _, rfl⟩
      · rw [emitCollectable_of_listeners hnobody]
        exact hemit
    | _ => cases hemission
  collected := by
    rintro before key event later rfl hnobody
    simp only [perform, emitCollectable_of_nobody hnobody, isFull_after_new, List.map_nil, true_and]
    constructor
    · intro hroom other
      have hopen : limit.any (· ≤ ((new limit).after before).kept.total List.length) = false := by
        cases limit with
        | none => rfl
        | some bound => simpa using hroom bound rfl
      rw [hopen]
      exact keptFor_setKept _ key other _
    · rintro ⟨bound, rfl, hreached⟩
      rw [Option.any_some, decide_eq_true hreached]
      rfl
  queued := fun key ↦ keptFor_after (new limit) operations key

/-- Of three events two are kept. They go to the first two subscribers, of whom one stays and hears
the next event. -/
theorem deliversExactly_of_kept :
    let collected : List (Operation Nat Nat Char) := [.emitCollectable 7 'a', .emitCollectable 7 'b']
    let rest : List (Operation Nat Nat Char) :=
      [.subscribeOnce 7 1 true, .subscribe 7 2 true, .emit 7 'd']
    let deliveries := (new (some 2)).deliveries (collected ++ .emitCollectable 7 'c' :: rest)
    let full : Emitter Nat Nat Char := (new (some 2)).after collected
    full.keptFor 7 = ['a', 'b'] ∧ (full.perform (.emitCollectable 7 'c')).1 = full ∧
      received 1 deliveries = ['a'] ∧ received 2 deliveries = ['b', 'd'] := by
  intro collected rest deliveries full
  have hexactly := deliversExactly (some 2) (collected ++ .emitCollectable 7 'c' :: rest)
  obtain ⟨-, -, hfull⟩ := hexactly.collected collected 7 'c' rest rfl rfl
  refine ⟨rfl, hfull ⟨2, rfl, Nat.le_refl 2⟩, ?_, ?_⟩
  · exact hexactly.once (collected ++ [.emitCollectable 7 'c']) 7 1 true
      [.subscribe 7 2 true, .emit 7 'd'] rfl (by decide)
  · exact hexactly.persistent
      (collected ++ [.emitCollectable 7 'c', .subscribeOnce 7 1 true]) 7 2 true [.emit 7 'd'] rfl
      (by decide)

end Emitter

end Wireline

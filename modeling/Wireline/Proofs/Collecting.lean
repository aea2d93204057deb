import Wireline.Proofs.Delivery

/-!
# Collectable events that reach nobody

Whether a collectable event is kept depends on the listeners that are registered for its key, and
not on whom it reaches. A one-shot listener whose receiver is no longer awaited is registered until
the next event, and that event does not reach it (`reaches_nobody_iff`).

So an event that reaches nobody becomes the newest of those kept for its key if no listener is
registered. If there are abandoned ones it is lost: it takes them away and leaves what is kept as it
was (`unreached_kept_iff`). The difference shows in what a later subscriber is given who asks for
history (`given_later`).
-/

set_option autoImplicit false
set_option relaxedAutoImplicit false

namespace Wireline

theorem Listener.isReached_eq_false_iff {σ : Type} {listener : Listener σ} :
    listener.isReached = false ↔ listener.lifetime = .once false := by
  rw [isReached, bne_eq_false_iff_eq]

namespace Emitter

variable {κ σ ε : Type} [DecidableEq κ] {emitter : Emitter κ σ ε} {key : κ}

theorem reaches_nobody_iff {event : ε} :
    (emitter.perform (.emitCollectable key event)).2 = [] ↔
      ∀ listener ∈ emitter.listenersOf key, listener.lifetime = .once false := by
  simp only [perform, List.map_eq_nil_iff]
  by_cases hnobody : emitter.listenersOf key = []
  · simp [emitCollectable_of_nobody hnobody, hnobody]
  · rw [emitCollectable_of_listeners hnobody, emit, List.map_eq_nil_iff, List.filter_eq_nil_iff]
    simp only [Bool.not_eq_true, Listener.isReached_eq_false_iff]

/-! ### Abandoned listeners -/

/-- A listener stays as it is unless it is abandoned. -/
theorem abandon_of_onListener {operation : Operation κ σ ε} {listener next : Listener σ}
    (hnext : operation.onListener key listener = some next) :
    listener = next ∨ operation = .abandon key next.id := by
  cases operation with
  | abandon k id =>
    rw [Operation.onListener] at hnext
    split at hnext
    · next hnamed =>
      obtain ⟨rfl, rfl, -⟩ := hnamed
      exact .inr (by rw [← Option.some.inj hnext])
    · exact .inl (Option.some.inj hnext)
  | unsubscribe k id | emit k event | emitCollectable k event =>
    simp only [Operation.onListener, Option.ite_none_left_eq_some, Option.some.injEq] at hnext
    exact .inl hnext.2
  | subscribe | subscribeOnce | resetCollectable => exact .inl (Option.some.inj hnext)

theorem lifetime_of_joining {operation : Operation κ σ ε} {joined : Listener σ}
    (h : joined ∈ emitter.joining key operation) : joined.lifetime ≠ .once false := by
  intro hdead
  cases operation with
  | subscribe | subscribeOnce =>
    simp only [joining, List.mem_ite_nil_right, List.mem_singleton] at h
    rw [h.2] at hdead
    cases hdead
  | _ => exact absurd h List.not_mem_nil

/-- An abandoned listener was so at the start of the run, or was abandoned in it. -/
theorem abandon_mem_of_after {operations : List (Operation κ σ ε)} {listener : Listener σ}
    (hmem : listener ∈ (emitter.after operations).listenersOf key)
    (hdead : listener.lifetime = .once false) :
    listener ∈ emitter.listenersOf key ∨ .abandon key listener.id ∈ operations := by
  induction operations generalizing emitter with
  | nil => exact .inl hmem
  | cons operation operations ih =>
    rcases ih hmem with hthere | hlater
    · rw [listenersOf_perform, List.mem_append, List.mem_filterMap] at hthere
      rcases hthere with ⟨earlier, hearlier, hnext⟩ | hjoined
      · rcases abandon_of_onListener hnext with rfl | rfl
        · exact .inl hearlier
        · exact .inr List.mem_cons_self
      · exact absurd hdead (lifetime_of_joining hjoined)
    · exact .inr (List.mem_cons_of_mem _ hlater)

/-- The event was the last for each abandoned listener. -/
theorem listenersOf_of_unreached {event : ε}
    (hnobody : (emitter.perform (.emitCollectable key event)).2 = []) :
    (emitter.perform (.emitCollectable key event)).1.listenersOf key = [] := by
  have hdead := reaches_nobody_iff.mp hnobody
  have hgone : (emitter.listenersOf key).filterMap
      (Operation.onListener (.emitCollectable key event) key) = [] := by
    refine List.filterMap_eq_nil_iff.mpr fun listener hmem ↦ ?_
    simp [Operation.onListener, Listener.isKept, hdead listener hmem]
  rw [listenersOf_perform, hgone]
  rfl

/-! ### What is kept -/

/-- Whether events kept for a key are taken, to be given out or discarded. -/
def Operation.collects (key : κ) : Operation κ σ ε → Bool
  | .subscribe k _ true | .subscribeOnce k _ true | .resetCollectable k => k = key
  | _ => false

theorem departing_of_not_collects {operation : Operation κ σ ε}
    (h : operation.collects key = false) : emitter.departing key operation = [] := by
  cases operation with
  | subscribe k sink historic | subscribeOnce k sink historic =>
    cases historic with
    | true => exact if_neg (of_decide_eq_false h)
    | false => rfl
  | resetCollectable k => exact if_neg (of_decide_eq_false h)
  | _ => rfl

/-- While nothing is taken, all that is kept for a key stays, and what comes follows it. -/
theorem keptFor_after_of_not_collects {operations : List (Operation κ σ ε)}
    (h : ∀ operation ∈ operations, operation.collects key = false) :
    (emitter.after operations).keptFor key =
      emitter.keptFor key ++ emitter.along (arriving key) operations := by
  induction operations generalizing emitter with
  | nil => exact (List.append_nil _).symm
  | cons operation operations ih =>
    have hstays := keptFor_perform emitter operation key
    rw [departing_of_not_collects (h operation List.mem_cons_self), List.map_nil,
      List.nil_append] at hstays
    rw [along, ← List.append_assoc, hstays]
    exact ih fun other hmem ↦ h other (List.mem_cons_of_mem _ hmem)

theorem given_later (sink : σ) {operations : List (Operation κ σ ε)}
    (h : ∀ operation ∈ operations, operation.collects key = false) :
    ((emitter.after operations).perform (.subscribe key sink true)).2 =
      (emitter.keptFor key ++ emitter.along (arriving key) operations).map (sink, ·) := by
  rw [← keptFor_after_of_not_collects h]
  rfl

/-- Assumes: there is room for the event. -/
theorem keptFor_emitCollectable (hroom : emitter.isFull = false) (event : ε) :
    (emitter.perform (.emitCollectable key event)).1.keptFor key =
      emitter.keptFor key ++ if emitter.listenersOf key = [] then [event] else [] := by
  have hkept := keptFor_perform emitter (.emitCollectable key event) key
  rw [departing_of_not_collects rfl, List.map_nil, List.nil_append] at hkept
  simp only [← hkept, arriving, hroom, true_and, and_true]

/-- In a run of a new emitter, let a collectable event reach nobody although there is room to keep
it. It is kept as the newest of its key if and only if no listener is registered for the key. All
listeners there are wait for one event and have been abandoned. A subscriber who comes later and
asks for history is given what was kept before the event, then the event if it was kept, and then
what has been kept since, unless somebody else took it before. -/
theorem unreached_kept_iff {limit : Option Nat} {before : List (Operation κ σ ε)} {key : κ}
    {event : ε} (hroom : ((new limit).after before).isFull = false)
    (hnobody : (((new limit).after before).perform (.emitCollectable key event)).2 = []) :
    let emitter := (new limit).after before
    let next := (emitter.perform (.emitCollectable key event)).1
    (next.keptFor key = emitter.keptFor key ++ [event] ↔ emitter.listenersOf key = []) ∧
    (∀ listener ∈ emitter.listenersOf key,
      listener.lifetime = .once false ∧ .abandon key listener.id ∈ before) ∧
    next.listenersOf key = [] ∧
    ∀ between sink, (∀ operation ∈ between, operation.collects key = false) →
      ((next.after between).perform (.subscribe key sink true)).2 =
        (emitter.keptFor key ++ (if emitter.listenersOf key = [] then [event] else []) ++
          next.along (arriving key) between).map (sink, ·) := by
  intro emitter next
  have hkept : next.keptFor key =
      emitter.keptFor key ++ if emitter.listenersOf key = [] then [event] else [] :=
    keptFor_emitCollectable hroom event
  have hdead := reaches_nobody_iff.mp hnobody
  refine ⟨?_, fun listener hmem ↦ ⟨hdead listener hmem, ?_⟩, ?_, fun between sink hleft ↦ ?_⟩
  · rw [hkept, List.append_cancel_left_eq]
    split
    · next hnone => exact iff_of_true rfl hnone
    · next hsome => exact iff_of_false (List.cons_ne_nil event []).symm hsome
  · refine (abandon_mem_of_after hmem (hdead listener hmem)).resolve_left ?_
    exact List.not_mem_nil
  · exact listenersOf_of_unreached hnobody
  · rw [given_later sink hleft, hkept]

/-- The second of two events comes upon an abandoned listener only and is lost, and the third one
is kept. -/
theorem unreached_kept_iff_abandoned :
    let before : List (Operation Nat Nat Char) :=
      [.emitCollectable 7 'a', .subscribeOnce 7 1 false, .abandon 7 1]
    let emitter := (new (some 3)).after before
    let next := (emitter.perform (.emitCollectable 7 'b')).1
    emitter.isFull = false ∧ (emitter.perform (.emitCollectable 7 'b')).2 = [] ∧
      next.keptFor 7 ≠ emitter.keptFor 7 ++ ['b'] ∧
      ((next.after [.emitCollectable 7 'c']).perform (.subscribe 7 2 true)).2 =
        [(2, 'a'), (2, 'c')] := by
  intro before emitter next
  have hroom : ((new (some 3)).after before).isFull = false := by decide
  have hnobody : (emitter.perform (.emitCollectable 7 'b')).2 = [] := by decide
  have hlisteners : emitter.listenersOf 7 = [⟨1, 1, .once false⟩] := rfl
  obtain ⟨hkept, -, -, hgiven⟩ := unreached_kept_iff hroom hnobody
  refine ⟨hroom, hnobody, fun hnewest ↦ ?_, ?_⟩
  · exact List.cons_ne_nil _ _ (hlisteners.symm.trans (hkept.mp hnewest))
  · exact hgiven [.emitCollectable 7 'c'] 2 (by simp [Operation.collects])

end Emitter

end Wireline

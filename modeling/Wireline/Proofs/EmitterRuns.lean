import Wireline.Proofs.Emitter

/-!
# Runs of emitters

A run of an emitter is a list of operations. `Emitter.perform` says for one of them what becomes of
the emitter and what is delivered to whom, and `Emitter.along` collects what is noted at each
operation of a run, such as all deliveries.

An operation puts at most one listener at the end of the line of a key (`Emitter.joining`) and
treats every other one by itself (`Operation.onListener`, `listenersOf_perform`). So the line stays
in the order of the subscriptions (`sublist_subscribers`), and numbers are given in that order too
(`nextId_perform`).

The events kept for a key are a queue. They come in one by one when nobody listens, and leave in the
same order, to a subscriber who asks for history or because they are discarded
(`keptFor_perform`, `keptFor_after`). They stay within the limit (`WellFormed.after`).
-/

set_option autoImplicit false
set_option relaxedAutoImplicit false

namespace Wireline

namespace Emitter

/-- What can be done to an emitter. Subscribers say whether they ask for history. -/
inductive Operation (κ σ ε : Type)
  | subscribe (key : κ) (sink : σ) (historic : Bool)
  | subscribeOnce (key : κ) (sink : σ) (historic : Bool)
  | unsubscribe (key : κ) (id : Nat)
  /-- A one-shot subscriber no longer waits. -/
  | abandon (key : κ) (id : Nat)
  | emit (key : κ) (event : ε)
  | emitCollectable (key : κ) (event : ε)
  | resetCollectable (key : κ)

variable {κ σ ε : Type} [DecidableEq κ]

namespace Operation

/-- The event that is emitted on a key. -/
def emission? (key : κ) : Operation κ σ ε → Option ε
  | .emit k event | .emitCollectable k event => if k = key then some event else none
  | _ => none

omit [DecidableEq κ] in
/-- The sink of a subscriber. -/
def sink? : Operation κ σ ε → Option σ
  | .subscribe _ sink _ | .subscribeOnce _ sink _ => some sink
  | _ => none

/-- The sink of a subscriber to a key. -/
def subscriber? (key : κ) : Operation κ σ ε → Option σ
  | .subscribe k sink _ | .subscribeOnce k sink _ => if k = key then some sink else none
  | _ => none

/-- What becomes of a listener of a key. -/
def onListener (operation : Operation κ σ ε) (key : κ) (listener : Listener σ) :
    Option (Listener σ) :=
  match operation with
  | .unsubscribe k id => if k = key ∧ listener.id = id then none else some listener
  | .abandon k id =>
    if k = key ∧ listener.id = id ∧ listener.lifetime = .once true then
      some { listener with lifetime := .once false }
    else some listener
  | .emit k _ | .emitCollectable k _ =>
    if k = key ∧ listener.isKept = false then none else some listener
  | _ => some listener

/-- At most the lifetime of a listener changes. -/
theorem eq_of_onListener {key : κ} {operation : Operation κ σ ε} {listener next : Listener σ}
    (h : operation.onListener key listener = some next) :
    next = { listener with lifetime := next.lifetime } := by
  cases operation with
  | unsubscribe k id =>
    simp only [onListener, Option.ite_none_left_eq_some, Option.some.injEq] at h
    rw [h.2]
  | abandon k id =>
    simp only [onListener] at h
    split at h <;> rw [← Option.some.inj h]
  | emit k event | emitCollectable k event =>
    simp only [onListener, Option.ite_none_left_eq_some, Option.some.injEq] at h
    rw [h.2]
  | subscribe | subscribeOnce | resetCollectable => rw [Option.some.inj h]

theorem sink_of_onListener {key : κ} {operation : Operation κ σ ε} {listener next : Listener σ}
    (h : operation.onListener key listener = some next) : next.sink = listener.sink := by
  rw [eq_of_onListener h]

theorem id_of_onListener {key : κ} {operation : Operation κ σ ε} {listener next : Listener σ}
    (h : operation.onListener key listener = some next) : next.id = listener.id := by
  rw [eq_of_onListener h]

end Operation

/-! ### Runs -/

/-- Performs an operation, and gives what is delivered, in order. -/
def perform (emitter : Emitter κ σ ε) : Operation κ σ ε → Emitter κ σ ε × List (σ × ε)
  | .subscribe key sink true =>
    ((emitter.subscribeHistoric key sink).1,
      (emitter.subscribeHistoric key sink).2.2.map (sink, ·))
  | .subscribe key sink false => ((emitter.subscribe key sink).1, [])
  | .subscribeOnce key sink true =>
    match emitter.subscribeOnceHistoric key sink with
    | (next, .event event) => (next, [(sink, event)])
    | (next, .listener _) => (next, [])
  | .subscribeOnce key sink false => ((emitter.subscribeOnce key sink).1, [])
  | .unsubscribe key id => ((emitter.unsubscribe key id).1, [])
  | .abandon key id => (emitter.abandon key id, [])
  | .emit key event => ((emitter.emit key).1, (emitter.emit key).2.map (·, event))
  | .emitCollectable key event =>
    ((emitter.emitCollectable key event).1, (emitter.emitCollectable key event).2.map (·, event))
  | .resetCollectable key => (emitter.resetCollectable key, [])

/-- The emitter after operations, one after the other. -/
def after (emitter : Emitter κ σ ε) (operations : List (Operation κ σ ε)) : Emitter κ σ ε :=
  operations.foldl (fun emitter operation ↦ (emitter.perform operation).1) emitter

/-- What is noted along a run, at each operation before it is performed. -/
def along {α : Type} (note : Emitter κ σ ε → Operation κ σ ε → List α) (emitter : Emitter κ σ ε) :
    List (Operation κ σ ε) → List α
  | [] => []
  | operation :: operations =>
    note emitter operation ++ along note (emitter.perform operation).1 operations

/-- What is delivered in a run, in order. -/
def deliveries (emitter : Emitter κ σ ε) (operations : List (Operation κ σ ε)) : List (σ × ε) :=
  emitter.along (fun emitter operation ↦ (emitter.perform operation).2) operations

/-- What holds whichever listeners or kept events are set, and whatever the next number is, holds
after an operation. -/
theorem perform_induction {motive : Emitter κ σ ε → Prop} {emitter : Emitter κ σ ε}
    (h : motive emitter)
    (setListeners : ∀ emitter key listeners, motive emitter →
      motive (emitter.setListeners key listeners))
    (setKept : ∀ emitter key events, motive emitter → motive (emitter.setKept key events))
    (setNextId : ∀ emitter id, motive emitter → motive { emitter with nextId := id })
    (operation : Operation κ σ ε) : motive (emitter.perform operation).1 := by
  have hregister {emitter : Emitter κ σ ε} (h : motive emitter) (key : κ) (sink : σ)
      (lifetime : Lifetime) : motive (emitter.register key sink lifetime).1 :=
    setNextId _ _ (setListeners _ _ _ h)
  cases operation with
  | subscribe key sink historic =>
    cases historic with
    | false => exact hregister h ..
    | true => exact hregister (setKept _ _ _ h) ..
  | subscribeOnce key sink historic =>
    cases historic with
    | false => exact hregister h ..
    | true =>
      simp only [perform, subscribeOnceHistoric]
      cases emitter.keptFor key with
      | nil => exact hregister h ..
      | cons event events => exact setKept _ _ _ h
  | emitCollectable key event =>
    simp only [perform, emitCollectable]
    split
    · exact setListeners _ _ _ h
    · split
      · exact h
      · exact setKept _ _ _ h
  | unsubscribe | abandon | emit => exact setListeners _ _ _ h
  | resetCollectable => exact setKept _ _ _ h

section Runs

variable {emitter : Emitter κ σ ε}

/-- What an operation keeps, a run keeps. -/
theorem after_induction {motive : Emitter κ σ ε → Prop} (h : motive emitter)
    (perform : ∀ emitter operation, motive emitter → motive (emitter.perform operation).1)
    (operations : List (Operation κ σ ε)) : motive (emitter.after operations) := by
  induction operations generalizing emitter with
  | nil => exact h
  | cons operation operations ih => exact ih (perform emitter operation h)

theorem after_append (first second : List (Operation κ σ ε)) :
    emitter.after (first ++ second) = (emitter.after first).after second :=
  List.foldl_append

theorem along_append {α : Type} (note : Emitter κ σ ε → Operation κ σ ε → List α)
    (first second : List (Operation κ σ ε)) : emitter.along note (first ++ second) =
      emitter.along note first ++ (emitter.after first).along note second := by
  induction first generalizing emitter with
  | nil => rfl
  | cons operation first ih =>
    rw [List.cons_append, along, along, ih, List.append_assoc]
    rfl

end Runs

/-! ### Lines of listeners -/

/-- Who begins to listen to a key, which is one listener at most. A one-shot subscriber who gets an
event that was kept does not. -/
def joining (key : κ) (emitter : Emitter κ σ ε) : Operation κ σ ε → List (Listener σ)
  | .subscribe k sink _ => if k = key then [⟨emitter.nextId, sink, .persistent⟩] else []
  | .subscribeOnce k sink historic =>
    if k = key ∧ (historic = false ∨ emitter.keptFor k = []) then
      [⟨emitter.nextId, sink, .once true⟩]
    else []
  | _ => []

section Lines

variable {emitter : Emitter κ σ ε} {key : κ}

theorem emitCollectable_of_nobody (h : emitter.listenersOf key = []) (event : ε) :
    emitter.emitCollectable key event = (if emitter.isFull then emitter else
      emitter.setKept key (emitter.keptFor key ++ [event]), []) := by
  rw [emitCollectable, hasListeners, h]
  cases emitter.isFull <;> rfl

theorem emitCollectable_of_listeners (h : emitter.listenersOf key ≠ []) (event : ε) :
    emitter.emitCollectable key event = emitter.emit key := by
  rw [emitCollectable, hasListeners, List.isEmpty_eq_false_iff.mpr h]
  rfl

theorem listenersOf_register (emitter : Emitter κ σ ε) (key other : κ) (sink : σ)
    (lifetime : Lifetime) : (emitter.register key sink lifetime).1.listenersOf other =
      emitter.listenersOf other ++
        if key = other then [⟨emitter.nextId, sink, lifetime⟩] else [] := by
  refine (listenersOf_setListeners emitter key other _).trans ?_
  split
  · next hkey => rw [hkey]
  · exact (List.append_nil _).symm

theorem filterMap_guard (p : Listener σ → Bool) (listeners : List (Listener σ)) :
    listeners.filterMap (fun listener ↦ if p listener then some listener else none) =
      listeners.filter p := by
  rw [← List.filterMap_eq_filter]
  rfl

theorem listenersOf_emit (emitter : Emitter κ σ ε) (key other : κ) :
    (emitter.emit key).1.listenersOf other =
      (emitter.listenersOf other).filterMap fun listener ↦
        if key = other ∧ listener.isKept = false then none else some listener := by
  refine (listenersOf_setListeners emitter key other _).trans ?_
  split
  · next hkey =>
    rw [hkey, ← filterMap_guard]
    congr 1
    funext listener
    cases listener.isKept <;> simp
  · next hkey => simp [hkey]

/-- If nobody listens, an event that is kept or not leaves it at that. -/
theorem listenersOf_emitCollectable (emitter : Emitter κ σ ε) (key other : κ) (event : ε) :
    (emitter.emitCollectable key event).1.listenersOf other =
      (emitter.emit key).1.listenersOf other := by
  by_cases hnobody : emitter.listenersOf key = []
  · have hsame : (emitter.emit key).1.listenersOf other = emitter.listenersOf other := by
      refine (listenersOf_setListeners emitter key other _).trans ?_
      split
      · next hkey => rw [← hkey, hnobody, List.filter_nil]
      · rfl
    rw [emitCollectable_of_nobody hnobody, hsame]
    split <;> rfl
  · rw [emitCollectable_of_listeners hnobody]

theorem listenersOf_subscribeOnceHistoric (emitter : Emitter κ σ ε) (key other : κ) (sink : σ) :
    (emitter.perform (.subscribeOnce key sink true)).1.listenersOf other =
      emitter.listenersOf other ++ if key = other ∧ emitter.keptFor key = [] then
        [⟨emitter.nextId, sink, .once true⟩] else [] := by
  simp only [perform, subscribeOnceHistoric]
  cases hkept : emitter.keptFor key with
  | cons event events => simp [setKept, listenersOf]
  | nil =>
    simp only [and_true]
    exact listenersOf_register emitter key other sink (.once true)

/-- An operation treats every listener by itself, and a new one goes to the end of the line. -/
theorem listenersOf_perform (emitter : Emitter κ σ ε) (operation : Operation κ σ ε) (key : κ) :
    (emitter.perform operation).1.listenersOf key =
      (emitter.listenersOf key).filterMap (operation.onListener key) ++
        emitter.joining key operation := by
  have hstay : (emitter.listenersOf key).filterMap some = emitter.listenersOf key :=
    List.filterMap_some
  -- Where nobody joins, the list of those who do is empty.
  have hnobody (listeners : List (Listener σ)) : listeners = listeners ++ [] :=
    (List.append_nil listeners).symm
  cases operation with
  | subscribe k sink historic =>
    have hjoin := listenersOf_register emitter k key sink .persistent
    rw [← hstay] at hjoin
    cases historic <;> exact hjoin
  | subscribeOnce k sink historic =>
    cases historic with
    | true =>
      have hjoin := listenersOf_subscribeOnceHistoric emitter k key sink
      rw [← hstay] at hjoin
      refine hjoin.trans (congrArg (HAppend.hAppend _) ?_)
      simp only [joining, Bool.true_eq_false, false_or]
    | false =>
      have hjoin := listenersOf_register emitter k key sink (.once true)
      rw [← hstay] at hjoin
      refine hjoin.trans (congrArg (HAppend.hAppend _) ?_)
      simp only [joining, true_or, and_true]
  | unsubscribe k id =>
    refine (listenersOf_unsubscribe emitter k key id).trans (.trans ?_ (hnobody _))
    split
    · next hkey =>
      rw [hkey, ← filterMap_guard]
      congr 1
      funext listener
      simp [Operation.onListener]
    · next hkey =>
      refine hstay.symm.trans (congrArg (List.filterMap · _) (funext fun listener ↦ ?_))
      simp [Operation.onListener, hkey]
  | abandon k id =>
    refine (listenersOf_setListeners emitter k key _).trans (.trans ?_ (hnobody _))
    split
    · next hkey =>
      rw [hkey, ← List.filterMap_eq_map]
      congr 1
      funext listener
      simp only [Operation.onListener, Function.comp_apply, true_and]
      split <;> rfl
    · next hkey =>
      refine hstay.symm.trans (congrArg (List.filterMap · _) (funext fun listener ↦ ?_))
      simp [Operation.onListener, hkey]
  | emit k event => exact (listenersOf_emit emitter k key).trans (hnobody _)
  | emitCollectable k event =>
    exact (listenersOf_emitCollectable emitter k key event).trans
      ((listenersOf_emit emitter k key).trans (hnobody _))
  | resetCollectable k => exact hstay.symm.trans (hnobody _)

/-- Listeners stay in line, with all that is not their lifetime. -/
theorem sublist_onListener {β : Type} {field : Listener σ → β}
    (hfield : ∀ listener lifetime, field { listener with lifetime } = field listener)
    (operation : Operation κ σ ε) (key : κ) (listeners : List (Listener σ)) :
    ((listeners.filterMap (operation.onListener key)).map field).Sublist
      (listeners.map field) := by
  induction listeners with
  | nil => exact .slnil
  | cons listener listeners ih =>
    cases hnext : operation.onListener key listener with
    | none =>
      rw [List.filterMap_cons_none hnext]
      exact .cons _ ih
    | some next =>
      rw [List.filterMap_cons_some hnext, List.map_cons, List.map_cons,
        Operation.eq_of_onListener hnext, hfield]
      exact .cons_cons _ ih

theorem joining_sublist (emitter : Emitter κ σ ε) (operation : Operation κ σ ε) (key : κ) :
    ((emitter.joining key operation).map Listener.sink).Sublist
      (operation.subscriber? key).toList := by
  cases operation with
  | subscribe k sink historic =>
    simp only [joining, Operation.subscriber?]
    split <;> exact .refl _
  | subscribeOnce k sink historic =>
    simp only [joining, Operation.subscriber?]
    split
    · next hjoins => rw [if_pos hjoins.1]; exact .refl _
    · exact List.nil_sublist _
  | _ => exact .slnil

/-- Listeners reach their sinks in the order in which these subscribed. -/
theorem sublist_subscribers (operations : List (Operation κ σ ε)) (key : κ) :
    (((emitter.after operations).listenersOf key).map Listener.sink).Sublist
      ((emitter.listenersOf key).map Listener.sink ++
        operations.filterMap (·.subscriber? key)) := by
  induction operations generalizing emitter with
  | nil => exact List.sublist_append_left _ _
  | cons operation operations ih =>
    have hline : (((emitter.perform operation).1.listenersOf key).map Listener.sink).Sublist
        ((emitter.listenersOf key).map Listener.sink ++ (operation.subscriber? key).toList) := by
      rw [listenersOf_perform, List.map_append]
      exact (sublist_onListener (fun _ _ ↦ rfl) operation key _).append
        (joining_sublist emitter operation key)
    refine ih.trans ((hline.append_right _).trans ?_)
    rw [List.append_assoc, List.filterMap_cons]
    cases operation.subscriber? key <;> exact .refl _

/-- The number of a new listener is higher than those given before. -/
theorem nextId_perform (emitter : Emitter κ σ ε) (operation : Operation κ σ ε) :
    emitter.nextId ≤ (emitter.perform operation).1.nextId ∧
      ∀ key, ∀ listener ∈ emitter.joining key operation,
        listener.id = emitter.nextId ∧ emitter.nextId < (emitter.perform operation).1.nextId := by
  cases operation with
  | subscribe k sink historic =>
    have hnext : (emitter.perform (.subscribe k sink historic)).1.nextId = emitter.nextId + 1 := by
      cases historic <;> rfl
    rw [hnext]
    refine ⟨Nat.le_succ _, fun key listener hjoins ↦ ⟨?_, Nat.lt_succ_self _⟩⟩
    simp only [joining, List.mem_ite_nil_right, List.mem_singleton] at hjoins
    rw [hjoins.2]
  | subscribeOnce k sink historic =>
    cases historic with
    | false =>
      refine ⟨Nat.le_succ _, fun key listener hjoins ↦ ⟨?_, Nat.lt_succ_self _⟩⟩
      simp only [joining, List.mem_ite_nil_right, List.mem_singleton] at hjoins
      rw [hjoins.2]
    | true =>
      simp only [perform, subscribeOnceHistoric, joining, List.mem_ite_nil_right,
        List.mem_singleton]
      cases hkept : emitter.keptFor k with
      | cons event events => exact ⟨le_rfl, by simp⟩
      | nil =>
        refine ⟨Nat.le_succ _, fun key listener hjoins ↦ ⟨?_, Nat.lt_succ_self _⟩⟩
        rw [hjoins.2]
  | emitCollectable k event =>
    have hsame : (emitter.perform (.emitCollectable k event)).1.nextId = emitter.nextId := by
      simp only [perform, emitCollectable]
      split
      · rfl
      · split <;> rfl
    rw [hsame]
    exact ⟨le_rfl, fun _ _ hjoins ↦ absurd hjoins List.not_mem_nil⟩
  | unsubscribe | abandon | emit | resetCollectable =>
    exact ⟨le_rfl, fun _ _ hjoins ↦ absurd hjoins List.not_mem_nil⟩

theorem nextId_after (emitter : Emitter κ σ ε) (operations : List (Operation κ σ ε)) :
    emitter.nextId ≤ (emitter.after operations).nextId :=
  after_induction (motive := fun next ↦ emitter.nextId ≤ next.nextId) le_rfl
    (fun next operation h ↦ Nat.le_trans h (nextId_perform next operation).1) operations

end Lines

/-! ### Kept events -/

/-- The event that an operation adds to those kept for a key. -/
def arriving (key : κ) (emitter : Emitter κ σ ε) : Operation κ σ ε → List ε
  | .emitCollectable k event =>
    if k = key ∧ emitter.listenersOf k = [] ∧ emitter.isFull = false then [event] else []
  | _ => []

/-- The events that an operation takes from those kept for a key: what a subscriber to the key is
given who asks for history, with the sink, and what is discarded. -/
def departing (key : κ) (emitter : Emitter κ σ ε) (operation : Operation κ σ ε) :
    List (Option σ × ε) :=
  match operation with
  | .subscribe k _ true | .subscribeOnce k _ true =>
    if k = key then (emitter.perform operation).2.map (Prod.map some id) else []
  | .resetCollectable k => if k = key then (emitter.keptFor key).map (none, ·) else []
  | _ => []

section Kept

variable {emitter : Emitter κ σ ε}

/-- Events are kept in a queue. -/
theorem keptFor_perform (emitter : Emitter κ σ ε) (operation : Operation κ σ ε) (key : κ) :
    emitter.keptFor key ++ emitter.arriving key operation =
      (emitter.departing key operation).map Prod.snd ++
        (emitter.perform operation).1.keptFor key := by
  have hsame (events : List ε) : events ++ [] = [] ++ events := List.append_nil events
  have hevents (sink : σ) (events : List ε) :
      ((events.map (sink, ·)).map (Prod.map some id)).map Prod.snd = events := by
    simp [Function.comp_def]
  cases operation with
  | subscribe k sink historic =>
    cases historic with
    | false => exact hsame _
    | true =>
      have hkept : (emitter.perform (.subscribe k sink true)).1.keptFor key =
          if k = key then [] else emitter.keptFor key := keptFor_setKept emitter k key []
      refine (List.append_nil _).trans ?_
      rw [hkept, departing]
      split
      · next hkey => rw [← hkey]; exact ((List.append_nil _).trans (hevents sink _)).symm
      · rfl
  | subscribeOnce k sink historic =>
    cases historic with
    | false => exact hsame _
    | true =>
      refine (List.append_nil _).trans ?_
      rw [departing]
      simp only [perform, subscribeOnceHistoric]
      cases hkept : emitter.keptFor k with
      | nil =>
        split <;> rfl
      | cons event events =>
        rw [keptFor_setKept]
        split
        · next hkey => rw [← hkey, hkept]; rfl
        · rfl
  | emitCollectable k event =>
    simp only [perform, arriving]
    by_cases hnobody : emitter.listenersOf k = []
    · rw [emitCollectable_of_nobody hnobody]
      cases hfull : emitter.isFull with
      | true =>
        rw [if_neg fun h ↦ Bool.noConfusion h.2.2]
        exact hsame _
      | false =>
        simp only [Bool.false_eq_true, if_false, keptFor_setKept, hnobody, and_true]
        split
        · next hkey => rw [hkey]; rfl
        · exact hsame _
    · rw [emitCollectable_of_listeners hnobody, if_neg fun h ↦ hnobody h.2.1]
      exact hsame _
  | resetCollectable k =>
    have hkept : (emitter.perform (.resetCollectable k)).1.keptFor key =
        if k = key then [] else emitter.keptFor key := keptFor_setKept emitter k key []
    refine (List.append_nil _).trans ?_
    rw [hkept, departing]
    split
    · simp [Function.comp_def]
    · rfl
  | unsubscribe | abandon | emit => exact hsame _

/-- What was kept has left in the order in which it came, or is still there. -/
theorem keptFor_after (emitter : Emitter κ σ ε) (operations : List (Operation κ σ ε)) (key : κ) :
    emitter.keptFor key ++ emitter.along (arriving key) operations =
      (emitter.along (departing key) operations).map Prod.snd ++
        (emitter.after operations).keptFor key := by
  induction operations generalizing emitter with
  | nil => exact List.append_nil _
  | cons operation operations ih =>
    rw [along, along, ← List.append_assoc, keptFor_perform, List.append_assoc, ih, List.map_append,
      List.append_assoc]
    rfl

theorem WellFormed.register (h : emitter.WellFormed) (key : κ) (sink : σ) (lifetime : Lifetime) :
    (emitter.register key sink lifetime).1.WellFormed := by
  have hline := h.setListeners key (emitter.listenersOf key ++ [⟨emitter.nextId, sink, lifetime⟩])
  exact { hline with }

theorem WellFormed.perform (h : emitter.WellFormed) (operation : Operation κ σ ε) :
    (emitter.perform operation).1.WellFormed := by
  cases operation with
  | subscribe k sink historic =>
    cases historic with
    | false => exact h.register k sink .persistent
    | true => exact (h.resetCollectable k).register k sink .persistent
  | subscribeOnce k sink historic =>
    cases historic with
    | false => exact h.register k sink (.once true)
    | true =>
      simp only [Emitter.perform, subscribeOnceHistoric]
      cases hkept : emitter.keptFor k with
      | nil => exact h.register k sink (.once true)
      | cons event events =>
        refine h.setKept k fun limit hlimit ↦ ?_
        have hbound := h.bounded limit hlimit
        rw [hkept, List.length_cons]
        omega
  | emitCollectable k event =>
    simp only [Emitter.perform]
    by_cases hnobody : emitter.listenersOf k = []
    · rw [emitCollectable_of_nobody hnobody]
      cases hfull : emitter.isFull with
      | true => exact h
      | false => exact h.keep k event hfull
    · rw [emitCollectable_of_listeners hnobody]
      exact h.setListeners k _
  | resetCollectable k => exact h.resetCollectable k
  | unsubscribe | abandon | emit => exact h.setListeners _ _

theorem WellFormed.after (h : emitter.WellFormed) (operations : List (Operation κ σ ε)) :
    (emitter.after operations).WellFormed :=
  after_induction h (fun _ operation h ↦ h.perform operation) operations

theorem limit_perform (emitter : Emitter κ σ ε) (operation : Operation κ σ ε) :
    (emitter.perform operation).1.limit = emitter.limit :=
  perform_induction (motive := fun next ↦ next.limit = emitter.limit) rfl
    (fun _ _ _ h ↦ h) (fun _ _ _ h ↦ h) (fun _ _ h ↦ h) operation

theorem limit_after (emitter : Emitter κ σ ε) (operations : List (Operation κ σ ε)) :
    (emitter.after operations).limit = emitter.limit :=
  after_induction (motive := fun next ↦ next.limit = emitter.limit) rfl
    (fun next operation h ↦ (limit_perform next operation).trans h) operations

end Kept

end Emitter

end Wireline

import Mathlib.Data.List.Nodup
import Wireline.Client.Emitter
import Wireline.Proofs.Table

/-!
# What emitters do to their listeners and to what they keep

Each operation on an emitter changes the listeners of one key (`listenersOf_setListeners`) and
leaves those of all others, and so it is with the events that are kept (`keptFor_setKept`). An event
for persistent listeners reaches all of them and changes nothing (`emit_of_persistent`).

`Emitter.WellFormed` says that no key is listed twice or without a listener, that kept events are
counted right, and that there are no more of them than the limit permits. The listeners of all keys
together are the `Emitter.roster`.

`Emitter.OneShot` says that every key has exactly one listener, and that this one waits for a single
event, which takes it away (`OneShot.emit`).
-/

set_option autoImplicit false
set_option relaxedAutoImplicit false

namespace Wireline

namespace Emitter

variable {κ σ ε : Type} [DecidableEq κ] {emitter : Emitter κ σ ε} {key : κ}

theorem listenersOf_of_notMem (h : key ∉ emitter.keys) : emitter.listenersOf key = [] := by
  rw [listenersOf, Table.get?_eq_none_iff.mpr h, Option.getD_none]

/-! ### Listeners of a key -/

theorem listenersOf_setListeners (emitter : Emitter κ σ ε) (key other : κ)
    (listeners : List (Listener σ)) :
    (emitter.setListeners key listeners).listenersOf other =
      if key = other then listeners else emitter.listenersOf other := by
  unfold setListeners listenersOf
  split
  · next hempty =>
    rw [Table.get?_erase]
    split
    · exact (List.isEmpty_iff.mp hempty).symm
    · rfl
  · rw [Table.get?_set]
    split <;> rfl

theorem listenersOf_resetCollectable (emitter : Emitter κ σ ε) (key other : κ) :
    (emitter.resetCollectable key).listenersOf other = emitter.listenersOf other := rfl

theorem listenersOf_unsubscribe (emitter : Emitter κ σ ε) (key other : κ) (id : Nat) :
    (emitter.unsubscribe key id).1.listenersOf other =
      if key = other then (emitter.listenersOf key).filter (·.id != id)
      else emitter.listenersOf other :=
  listenersOf_setListeners emitter key other _

theorem listenersOf_subscribeHistoric (emitter : Emitter κ σ ε) (key other : κ) (sink : σ) :
    (emitter.subscribeHistoric key sink).1.listenersOf other =
      if key = other then emitter.listenersOf key ++ [⟨emitter.nextId, sink, .persistent⟩]
      else emitter.listenersOf other :=
  listenersOf_setListeners (emitter.setKept key []) key other _

/-- Setting the listeners that a key has changes nothing. -/
theorem setListeners_listenersOf (h : emitter.listeners.get? key ≠ some []) :
    emitter.setListeners key (emitter.listenersOf key) = emitter := by
  cases hget : emitter.listeners.get? key with
  | none =>
    have hnotMem := Table.get?_eq_none_iff.mp hget
    rw [listenersOf_of_notMem hnotMem]
    exact congrArg (fun listeners ↦ { emitter with listeners }) (Table.erase_eq_self hnotMem)
  | some listeners =>
    have hsome : listeners.isEmpty = false :=
      List.isEmpty_eq_false_iff.mpr fun hnil ↦ h (hnil ▸ hget)
    simp only [setListeners, listenersOf, hget, Option.getD_some, hsome, Bool.false_eq_true,
      if_false, Table.set_eq_self hget]

/-- An event for persistent listeners reaches each of them, and all of them stay. -/
theorem emit_of_persistent (hsome : emitter.hasListeners key)
    (hall : ∀ listener ∈ emitter.listenersOf key, listener.lifetime = .persistent) :
    emitter.emit key = (emitter, (emitter.listenersOf key).map Listener.sink) := by
  have hkept : (emitter.listenersOf key).filter Listener.isKept = emitter.listenersOf key := by
    refine List.filter_eq_self.mpr fun listener hlistener ↦ ?_
    rw [Listener.isKept, hall listener hlistener]
    rfl
  have hreached :
      (emitter.listenersOf key).filter Listener.isReached = emitter.listenersOf key := by
    refine List.filter_eq_self.mpr fun listener hlistener ↦ ?_
    rw [Listener.isReached, hall listener hlistener]
    rfl
  have hstored : emitter.listeners.get? key ≠ some [] := fun hnone ↦ by
    simp [hasListeners, listenersOf, hnone] at hsome
  rw [emit, hkept, hreached, setListeners_listenersOf hstored]

/-- The listeners of all keys, each with its key. -/
def roster (emitter : Emitter κ σ ε) : List (κ × Listener σ) :=
  emitter.listeners.entries.flatMap fun entry ↦ entry.2.map fun listener ↦ (entry.1, listener)

theorem listenersOf_of_mem_entries (hlisted : emitter.listeners.keys.Nodup)
    {entry : κ × List (Listener σ)} (h : entry ∈ emitter.listeners.entries) :
    emitter.listenersOf entry.1 = entry.2 := by
  rw [listenersOf, (Table.get?_eq_some_iff hlisted).mpr h, Option.getD_some]

/-- Assumes: no key is listed twice. -/
theorem mem_roster (hlisted : emitter.listeners.keys.Nodup) {listener : Listener σ} :
    (key, listener) ∈ emitter.roster ↔ listener ∈ emitter.listenersOf key := by
  simp only [roster, List.mem_flatMap, List.mem_map, Prod.mk.injEq]
  constructor
  · rintro ⟨⟨_, listeners⟩, hentry, _, hmem, rfl, rfl⟩
    rwa [listenersOf_of_mem_entries hlisted hentry]
  · intro hmem
    cases hget : emitter.listeners.get? key with
    | none => simp [listenersOf, hget] at hmem
    | some listeners =>
      rw [listenersOf, hget, Option.getD_some] at hmem
      exact ⟨_, Table.mem_entries_of_get? hget, listener, hmem, rfl, rfl⟩

theorem nodup_roster (hlisted : emitter.listeners.keys.Nodup)
    (hdistinct : ∀ key, (emitter.listenersOf key).Nodup) : emitter.roster.Nodup := by
  rw [roster, List.nodup_flatMap]
  constructor
  · intro entry hentry
    have hnodup := hdistinct entry.1
    rw [listenersOf_of_mem_entries hlisted hentry] at hnodup
    exact hnodup.map fun _ _ heq ↦ congrArg Prod.snd heq
  · refine (List.pairwise_map.mp hlisted).imp fun {first second} hne ↦ ?_
    refine List.disjoint_left.mpr fun listed hfirst hsecond ↦ ?_
    obtain ⟨_, -, rfl⟩ := List.mem_map.mp hfirst
    obtain ⟨_, -, hsame⟩ := List.mem_map.mp hsecond
    exact hne (congrArg Prod.fst hsame).symm

/-! ### Kept events -/

theorem keptFor_setKept (emitter : Emitter κ σ ε) (key other : κ) (events : List ε) :
    (emitter.setKept key events).keptFor other =
      if key = other then events else emitter.keptFor other := by
  unfold setKept keptFor
  split
  · next hempty =>
    rw [Table.get?_erase]
    split
    · exact (List.isEmpty_iff.mp hempty).symm
    · rfl
  · rw [Table.get?_set]
    split <;> rfl

theorem keptFor_setListeners (emitter : Emitter κ σ ε) (key other : κ)
    (listeners : List (Listener σ)) :
    (emitter.setListeners key listeners).keptFor other = emitter.keptFor other := rfl

/-- No key is listed twice or without a listener, the kept events are counted, and they are within
the limit. -/
structure WellFormed (emitter : Emitter κ σ ε) : Prop where
  listed : emitter.listeners.keys.Nodup
  populated : ∀ key, emitter.listeners.get? key ≠ some []
  stored : emitter.kept.keys.Nodup
  counted : emitter.kept.total List.length = emitter.keptTotal
  bounded : ∀ limit, emitter.limit = some limit → emitter.keptTotal ≤ limit

namespace WellFormed

/-- The events kept for a key are among all those kept. -/
theorem keptTotal_eq (h : emitter.WellFormed) (key : κ) : emitter.keptTotal =
    (emitter.keptFor key).length + (emitter.kept.erase key).total List.length := by
  rw [← h.counted, Table.total_eq_erase h.stored List.length key, keptFor]
  cases emitter.kept.get? key <;> rfl

theorem setListeners (h : emitter.WellFormed) (key : κ) (listeners : List (Listener σ)) :
    (emitter.setListeners key listeners).WellFormed where
  listed := by
    unfold Emitter.setListeners
    split
    · exact Table.nodup_keys_erase h.listed key
    · exact Table.nodup_keys_set h.listed key listeners
  populated := Table.get?_ne_nil h.populated key listeners
  stored := h.stored
  counted := h.counted
  bounded := h.bounded

/-- Assumes: there is room for the events in place of those kept so far. -/
theorem setKept (h : emitter.WellFormed) (key : κ) {events : List ε}
    (hroom : ∀ limit, emitter.limit = some limit →
      emitter.keptTotal + events.length ≤ limit + (emitter.keptFor key).length) :
    (emitter.setKept key events).WellFormed := by
  have htotal := h.keptTotal_eq key
  constructor
  · exact h.listed
  · exact h.populated
  · unfold Emitter.setKept
    split
    · exact Table.nodup_keys_erase h.stored key
    · exact Table.nodup_keys_set h.stored key events
  · simp only [Emitter.setKept]
    split
    · next hempty =>
      rw [List.isEmpty_iff.mp hempty, List.length_nil]
      omega
    · rw [Table.total_set h.stored]
      omega
  · intro limit hlimit
    have := hroom limit hlimit
    simp only [Emitter.setKept]
    omega

theorem resetCollectable (h : emitter.WellFormed) (key : κ) :
    (emitter.resetCollectable key).WellFormed :=
  h.setKept key fun limit hlimit ↦ Nat.add_le_add (h.bounded limit hlimit) (Nat.zero_le _)

/-- One more event may be kept unless the emitter is full. -/
theorem keep (h : emitter.WellFormed) (key : κ) (event : ε) (hroom : emitter.isFull = false) :
    (emitter.setKept key (emitter.keptFor key ++ [event])).WellFormed := by
  refine h.setKept key fun limit hlimit ↦ ?_
  simp only [isFull, hlimit, Option.any_some, decide_eq_false_iff_not] at hroom
  rw [List.length_append, List.length_singleton]
  omega

/-- An emitter without listeners lists no key. -/
theorem listeners_eq_empty (h : emitter.WellFormed)
    (hnobody : ∀ key, emitter.listenersOf key = []) : emitter.listeners = .empty := by
  refine Table.eq_empty_of_get? fun key ↦ ?_
  cases hget : emitter.listeners.get? key with
  | none => rfl
  | some listeners =>
    have hlisteners : emitter.listenersOf key = listeners := by
      rw [listenersOf, hget, Option.getD_some]
    rw [← hlisteners, hnobody key] at hget
    exact absurd hget (h.populated key)

end WellFormed

/-! ### One-shot listeners -/

omit [DecidableEq κ] in
/-- Every key has one listener, and that one waits for one event. -/
structure OneShot (emitter : Emitter κ σ ε) : Prop where
  nodup : emitter.keys.Nodup
  single : ∀ entry ∈ emitter.listeners.entries, ∃ number sink,
    entry.2 = [⟨number, sink, .once true⟩]

omit [DecidableEq κ] in
theorem oneShot_empty : ({} : Emitter κ σ ε).OneShot where
  nodup := List.nodup_nil
  single := by simp [Table.empty]

namespace OneShot

theorem get? (h : emitter.OneShot) (hmem : key ∈ emitter.keys) :
    ∃ number sink, emitter.listeners.get? key = some [⟨number, sink, .once true⟩] := by
  obtain ⟨listeners, hget⟩ := Table.exists_get?_of_mem_keys hmem
  obtain ⟨number, sink, hsingle⟩ := h.single _ (Table.mem_entries_of_get? hget)
  exact ⟨number, sink, hsingle ▸ hget⟩

theorem emit {number : Nat} {sink : σ}
    (hget : emitter.listeners.get? key = some [⟨number, sink, .once true⟩]) :
    emitter.emit key = ({ emitter with listeners := emitter.listeners.erase key }, [sink]) := by
  have hlisteners : emitter.listenersOf key = [⟨number, sink, .once true⟩] := by
    rw [listenersOf, hget, Option.getD_some]
  have hreached : ([⟨number, sink, .once true⟩] : List (Listener σ)).filter Listener.isReached =
      [⟨number, sink, .once true⟩] := rfl
  have hkept : ([⟨number, sink, .once true⟩] : List (Listener σ)).filter Listener.isKept = [] := rfl
  simp only [Emitter.emit, hlisteners, hreached, hkept, setListeners, List.isEmpty_nil, if_true,
    List.map_cons, List.map_nil]

theorem erase (h : emitter.OneShot) (key : κ) :
    OneShot { emitter with listeners := emitter.listeners.erase key } where
  nodup := Table.nodup_keys_erase h.nodup key
  single := fun entry hentry ↦ h.single entry (List.mem_filter.mp hentry).1

theorem subscribeOnce_listeners (hnew : key ∉ emitter.keys) (sink : σ) :
    (emitter.subscribeOnce key sink).1.listeners =
      emitter.listeners.set key [⟨emitter.nextId, sink, .once true⟩] := by
  simp [subscribeOnce, register, setListeners, listenersOf_of_notMem hnew]

theorem keys_subscribeOnce (hnew : key ∉ emitter.keys) (sink : σ) :
    (emitter.subscribeOnce key sink).1.keys = emitter.keys ++ [key] := by
  rw [keys, subscribeOnce_listeners hnew, Table.keys_set]
  exact if_neg hnew

theorem subscribeOnce (h : emitter.OneShot) (hnew : key ∉ emitter.keys) (sink : σ) :
    (emitter.subscribeOnce key sink).1.OneShot := by
  have hlisteners := subscribeOnce_listeners hnew sink
  constructor
  · rw [keys, hlisteners]
    exact Table.nodup_keys_set h.nodup _ _
  · intro entry hentry
    rw [hlisteners, Table.entries_set_of_notMem hnew] at hentry
    rcases List.mem_append.mp hentry with hold | hnewEntry
    · exact h.single entry hold
    · rw [List.mem_singleton.mp hnewEntry]
      exact ⟨_, _, rfl⟩

end OneShot

end Emitter

end Wireline

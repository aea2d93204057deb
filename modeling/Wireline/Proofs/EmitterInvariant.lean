import Wireline.Proofs.Delivery

/-!
# What holds of an emitter at every point of a run

An emitter counts the events that it keeps beside the queues in which they are, and its listeners
are known by numbers. `Emitter.Consistent` says what holds of all this: the count is right and
within the limit, no key is stored with nothing under it, numbers are given once and in the order of
the lines, a number takes away the one listener that has it, and the count follows what comes in and
what leaves, so nothing is subtracted that was not counted.

A new emitter is consistent, and stays so whatever is done to it (`consistent_after`). The numbers
are the part with an argument: an operation gives out at most one, the next one, to the listener
that it puts at the end of a line (`Numbered.perform`).
-/

set_option autoImplicit false
set_option relaxedAutoImplicit false

namespace Wireline

namespace Emitter

variable {κ σ ε : Type} [DecidableEq κ]

namespace Operation

omit [DecidableEq κ] in
/-- The key that an operation is about. -/
def key : Operation κ σ ε → κ
  | .subscribe key _ _ | .subscribeOnce key _ _ | .unsubscribe key _ | .abandon key _
  | .emit key _ | .emitCollectable key _ | .resetCollectable key => key

end Operation

variable {emitter : Emitter κ σ ε} {key : κ}

/-! ### Numbers -/

/-- Numbers rise along the line of a key, no two keys share one, and the next one is above all. -/
structure Numbered (emitter : Emitter κ σ ε) : Prop where
  below : ∀ key, ∀ listener ∈ emitter.listenersOf key, listener.id < emitter.nextId
  rising : ∀ key, ((emitter.listenersOf key).map Listener.id).Pairwise (· < ·)
  apart : ∀ key, ∀ listener ∈ emitter.listenersOf key, ∀ other,
    ∀ second ∈ emitter.listenersOf other, listener.id = second.id → key = other

theorem numbered_new (limit : Option Nat) : (new limit : Emitter κ σ ε).Numbered where
  below _ _ h := nomatch h
  rising _ := .nil
  apart _ _ h := nomatch h

theorem key_of_joining {operation : Operation κ σ ε} {joined : Listener σ}
    (h : joined ∈ emitter.joining key operation) : operation.key = key := by
  cases operation with
  | subscribe k sink historic => exact (List.mem_ite_nil_right.mp h).1
  | subscribeOnce k sink historic => exact (List.mem_ite_nil_right.mp h).1.1
  | unsubscribe | abandon | emit | emitCollectable | resetCollectable => exact nomatch h

theorem length_joining_le (emitter : Emitter κ σ ε) (key : κ) (operation : Operation κ σ ε) :
    (emitter.joining key operation).length ≤ 1 := by
  cases operation with
  | subscribe | subscribeOnce =>
    simp only [joining]
    split <;> simp
  | unsubscribe | abandon | emit | emitCollectable | resetCollectable => exact Nat.zero_le 1

/-- Who is in line after an operation was in it before, or has the next number. -/
theorem origin_of_mem {operation : Operation κ σ ε} {listener : Listener σ}
    (h : listener ∈ (emitter.perform operation).1.listenersOf key) :
    (∃ old ∈ emitter.listenersOf key, listener.id = old.id) ∨
    (operation.key = key ∧ listener.id = emitter.nextId ∧
      emitter.nextId < (emitter.perform operation).1.nextId) := by
  rw [listenersOf_perform] at h
  rcases List.mem_append.mp h with hstays | hjoins
  · obtain ⟨old, hold, hnext⟩ := List.mem_filterMap.mp hstays
    exact .inl ⟨old, hold, Operation.id_of_onListener hnext⟩
  · exact .inr ⟨key_of_joining hjoins, (nextId_perform emitter operation).2 key listener hjoins⟩

theorem Numbered.perform (h : emitter.Numbered) (operation : Operation κ σ ε) :
    (emitter.perform operation).1.Numbered where
  below key listener hlistener := by
    rcases origin_of_mem hlistener with ⟨old, hold, hid⟩ | ⟨-, hid, hlt⟩
    · rw [hid]
      exact Nat.lt_of_lt_of_le (h.below key old hold) (nextId_perform emitter operation).1
    · rwa [hid]
  rising key := by
    rw [listenersOf_perform, List.map_append, List.pairwise_append]
    refine ⟨(h.rising key).sublist (sublist_onListener (fun _ _ ↦ rfl) operation key _), ?_, ?_⟩
    · have hone := length_joining_le emitter key operation
      match emitter.joining key operation, hone with
      | [], _ => exact .nil
      | [joined], _ => exact List.pairwise_singleton _ _
    · intro stays hstays joins hjoins
      obtain ⟨next, hnext, rfl⟩ := List.mem_map.mp hstays
      obtain ⟨joined, hjoined, rfl⟩ := List.mem_map.mp hjoins
      obtain ⟨old, hold, heq⟩ := List.mem_filterMap.mp hnext
      rw [Operation.id_of_onListener heq,
        ((nextId_perform emitter operation).2 key joined hjoined).1]
      exact h.below key old hold
  apart key listener hlistener other second hsecond hsame := by
    rcases origin_of_mem hlistener with ⟨old, hold, hid⟩ | ⟨hkey, hid, -⟩ <;>
      rcases origin_of_mem hsecond with ⟨older, holder, hother⟩ | ⟨hkeyOther, hother, -⟩
    · exact h.apart key old hold other older holder (hid.symm.trans (hsame.trans hother))
    · have hbelow := h.below key old hold
      omega
    · have hbelow := h.below other older holder
      omega
    · exact hkey.symm.trans hkeyOther

theorem Numbered.after (h : emitter.Numbered) (operations : List (Operation κ σ ε)) :
    (emitter.after operations).Numbered :=
  after_induction h (fun _ operation h ↦ h.perform operation) operations

/-- No two listeners of any keys share a number. -/
theorem Numbered.nodup (h : emitter.Numbered) (hlisted : emitter.keys.Nodup) :
    (emitter.roster.map fun entry ↦ entry.2.id).Nodup := by
  have hline (key : κ) : ((emitter.listenersOf key).map Listener.id).Nodup :=
    (h.rising key).imp Nat.ne_of_lt
  refine (nodup_roster hlisted fun key ↦ (hline key).of_map).map_on ?_
  rintro ⟨key, listener⟩ hlistener ⟨other, second⟩ hsecond hsame
  rw [mem_roster hlisted] at hlistener hsecond
  obtain rfl := h.apart key listener hlistener other second hsecond hsame
  exact congrArg _ (List.inj_on_of_nodup_map (hline key) hlistener hsecond hsame)

/-! ### Unsubscribing -/

theorem unsubscribe_eq_true_iff (emitter : Emitter κ σ ε) (key : κ) (id : Nat) :
    (emitter.unsubscribe key id).2 = true ↔
      ∃ listener ∈ emitter.listenersOf key, listener.id = id := by
  simp [unsubscribe]

/-- A listener with a number is the only one with it. -/
theorem Numbered.filter_id (h : emitter.Numbered) {front back : List (Listener σ)}
    {listener : Listener σ} (hline : emitter.listenersOf key = front ++ listener :: back) :
    (emitter.listenersOf key).filter (·.id != listener.id) = front ++ back := by
  have hrising := h.rising key
  rw [hline, List.map_append, List.map_cons, List.pairwise_append, List.pairwise_cons] at hrising
  obtain ⟨-, ⟨hback, -⟩, hfront⟩ := hrising
  have hfrontKept : front.filter (·.id != listener.id) = front := by
    refine List.filter_eq_self.mpr fun other hother ↦ bne_iff_ne.mpr (Nat.ne_of_lt ?_)
    exact hfront _ (List.mem_map_of_mem hother) _ List.mem_cons_self
  have hbackKept : back.filter (·.id != listener.id) = back := by
    refine List.filter_eq_self.mpr fun other hother ↦ bne_iff_ne.mpr (Nat.ne_of_gt ?_)
    exact hback _ (List.mem_map_of_mem hother)
  rw [hline, List.filter_append, hfrontKept, List.filter_cons_of_neg (by simp), hbackKept]

/-- One emitter is another without one listener of a key. -/
structure Drops (emitter : Emitter κ σ ε) (key : κ) (id : Nat) (next : Emitter κ σ ε) : Prop where
  line : ∃ front listener back, emitter.listenersOf key = front ++ listener :: back ∧
    listener.id = id ∧ next.listenersOf key = front ++ back
  others : ∀ other ≠ key, next.listenersOf other = emitter.listenersOf other
  rest : next = { emitter with listeners := next.listeners }

theorem Numbered.drops (h : emitter.Numbered) {id : Nat}
    (hlisted : ∃ listener ∈ emitter.listenersOf key, listener.id = id) :
    emitter.Drops key id (emitter.unsubscribe key id).1 where
  line := by
    obtain ⟨listener, hlistener, rfl⟩ := hlisted
    obtain ⟨front, back, hline⟩ := List.append_of_mem hlistener
    refine ⟨front, listener, back, hline, rfl, ?_⟩
    rw [listenersOf_unsubscribe, if_pos rfl, h.filter_id hline]
  others other hother := by rw [listenersOf_unsubscribe, if_neg hother.symm]
  rest := rfl

/-- A number that no listener of the key has takes nothing away. -/
theorem unsubscribe_of_not_listed (h : emitter.WellFormed) {id : Nat}
    (hlisted : ¬ ∃ listener ∈ emitter.listenersOf key, listener.id = id) :
    (emitter.unsubscribe key id).1 = emitter := by
  have hkept : (emitter.listenersOf key).filter (·.id != id) = emitter.listenersOf key :=
    List.filter_eq_self.mpr fun listener hlistener ↦
      bne_iff_ne.mpr fun hid ↦ hlisted ⟨listener, hlistener, hid⟩
  rw [unsubscribe, hkept]
  exact setListeners_listenersOf (h.populated key)

/-! ### Counting -/

theorem erase_setKept (emitter : Emitter κ σ ε) (key : κ) (events : List ε) :
    (emitter.setKept key events).kept.erase key = emitter.kept.erase key := by
  simp only [setKept]
  split
  · exact Table.erase_erase ..
  · exact Table.erase_set ..

/-- The events of all other keys stay as they are. -/
theorem erase_kept_perform (emitter : Emitter κ σ ε) (operation : Operation κ σ ε) :
    (emitter.perform operation).1.kept.erase operation.key = emitter.kept.erase operation.key := by
  cases operation with
  | subscribe key sink historic =>
    cases historic with
    | false => rfl
    | true => exact erase_setKept ..
  | subscribeOnce key sink historic =>
    cases historic with
    | false => rfl
    | true =>
      simp only [perform, subscribeOnceHistoric]
      cases emitter.keptFor key with
      | nil => rfl
      | cons event events => exact erase_setKept ..
  | emitCollectable key event =>
    simp only [perform, emitCollectable]
    split
    · rfl
    · split
      · rfl
      · exact erase_setKept ..
  | resetCollectable key => exact erase_setKept ..
  | unsubscribe | abandon | emit => rfl

theorem length_keptFor_perform (emitter : Emitter κ σ ε) (operation : Operation κ σ ε) (key : κ) :
    (emitter.keptFor key).length + (emitter.arriving key operation).length =
      (emitter.departing key operation).length +
        ((emitter.perform operation).1.keptFor key).length := by
  simpa using congrArg List.length (keptFor_perform emitter operation key)

/-- No more events leave than were kept for the key. -/
theorem length_departing_le (emitter : Emitter κ σ ε) (operation : Operation κ σ ε) (key : κ) :
    (emitter.departing key operation).length ≤ (emitter.keptFor key).length := by
  have hlength := length_keptFor_perform emitter operation key
  -- Only a collectable event is kept, and where it is, nothing leaves.
  cases operation with
  | emitCollectable => exact Nat.zero_le _
  | _ => exact Nat.le.intro hlength.symm

/-- The count goes up by what comes in and down by what leaves. -/
theorem WellFormed.keptTotal_perform (h : emitter.WellFormed) (operation : Operation κ σ ε) :
    (emitter.perform operation).1.keptTotal =
      emitter.keptTotal - (emitter.departing operation.key operation).length +
        (emitter.arriving operation.key operation).length := by
  have hbefore := h.keptTotal_eq operation.key
  have hafter := (h.perform operation).keptTotal_eq operation.key
  have hlength := length_keptFor_perform emitter operation operation.key
  have hle := length_departing_le emitter operation operation.key
  rw [erase_kept_perform] at hafter
  omega

/-! ### All together -/

/-- An operation stores no key with no events under it. -/
theorem get?_kept_perform (h : ∀ key, emitter.kept.get? key ≠ some [])
    (operation : Operation κ σ ε) :
    ∀ key, (emitter.perform operation).1.kept.get? key ≠ some [] :=
  perform_induction (motive := fun next ↦ ∀ key, next.kept.get? key ≠ some []) h
    (fun _ _ _ h ↦ h) (fun _ key events h ↦ Table.get?_ne_nil h key events) (fun _ _ h ↦ h)
    operation

theorem get?_kept_after (h : ∀ key, emitter.kept.get? key ≠ some [])
    (operations : List (Operation κ σ ε)) :
    ∀ key, (emitter.after operations).kept.get? key ≠ some [] :=
  after_induction (motive := fun next ↦ ∀ key, next.kept.get? key ≠ some []) h
    (fun _ operation h ↦ get?_kept_perform h operation) operations

/-- What holds of an emitter with a limit at every point of a run. -/
structure Consistent (limit : Option Nat) (emitter : Emitter κ σ ε) : Prop where
  /-- The events of all queues are counted. -/
  counted : emitter.kept.total List.length = emitter.keptTotal
  bounded : ∀ most, limit = some most → emitter.keptTotal ≤ most
  /-- Every key is stored once, and not with nothing under it. -/
  stored : emitter.listeners.keys.Nodup ∧ emitter.kept.keys.Nodup
  populated : ∀ entry ∈ emitter.listeners.entries, entry.2 ≠ []
  stocked : ∀ entry ∈ emitter.kept.entries, entry.2 ≠ []
  heard_iff : ∀ key, emitter.hasListeners key = true ↔ key ∈ emitter.keys
  /-- A number is given once, in the order of the lines. -/
  distinct : (emitter.roster.map fun entry ↦ entry.2.id).Nodup
  below : ∀ entry ∈ emitter.roster, entry.2.id < emitter.nextId
  rising : ∀ entry ∈ emitter.listeners.entries, (entry.2.map Listener.id).Pairwise (· < ·)
  /-- A number takes away the listener that has it, if the key has one, and nothing else. -/
  found_iff : ∀ key id, (emitter.unsubscribe key id).2 = true ↔
    ∃ listener ∈ emitter.listenersOf key, listener.id = id
  drops : ∀ key id, (emitter.unsubscribe key id).2 = true →
    emitter.Drops key id (emitter.unsubscribe key id).1
  unchanged : ∀ key id, (emitter.unsubscribe key id).2 = false →
    (emitter.unsubscribe key id).1 = emitter
  /-- Whatever is taken from the count was counted. -/
  covered : ∀ operation : Operation κ σ ε,
    (emitter.departing operation.key operation).length ≤
      (emitter.keptFor operation.key).length ∧
    (emitter.keptFor operation.key).length ≤ emitter.keptTotal
  accounted : ∀ operation : Operation κ σ ε, (emitter.perform operation).1.keptTotal =
    emitter.keptTotal - (emitter.departing operation.key operation).length +
      (emitter.arriving operation.key operation).length

theorem hasListeners_iff_mem_keys (h : ∀ key, emitter.listeners.get? key ≠ some []) (key : κ) :
    emitter.hasListeners key = true ↔ key ∈ emitter.keys := by
  rw [hasListeners, Bool.not_eq_true', List.isEmpty_eq_false_iff]
  constructor
  · exact not_imp_comm.mp listenersOf_of_notMem
  · intro hmem
    obtain ⟨listeners, hget⟩ := Table.exists_get?_of_mem_keys hmem
    rw [listenersOf, hget, Option.getD_some]
    exact fun hnil ↦ h key (hnil ▸ hget)

theorem WellFormed.consistent (h : emitter.WellFormed) (hnumbered : emitter.Numbered)
    (hstocked : ∀ key, emitter.kept.get? key ≠ some []) : emitter.Consistent emitter.limit where
  counted := h.counted
  bounded := h.bounded
  stored := ⟨h.listed, h.stored⟩
  populated entry hentry hnil := by
    have hget := (Table.get?_eq_some_iff h.listed).mpr hentry
    exact h.populated entry.1 (hnil ▸ hget)
  stocked entry hentry hnil := by
    have hget := (Table.get?_eq_some_iff h.stored).mpr hentry
    exact hstocked entry.1 (hnil ▸ hget)
  heard_iff := hasListeners_iff_mem_keys h.populated
  distinct := hnumbered.nodup h.listed
  below entry hentry := hnumbered.below entry.1 entry.2 ((mem_roster h.listed).mp hentry)
  rising entry hentry := by
    rw [← listenersOf_of_mem_entries h.listed hentry]
    exact hnumbered.rising entry.1
  found_iff := unsubscribe_eq_true_iff emitter
  drops key id hfound := hnumbered.drops ((unsubscribe_eq_true_iff emitter key id).mp hfound)
  unchanged key id hmissing := unsubscribe_of_not_listed h fun hlisted ↦
    Bool.false_ne_true (hmissing.symm.trans ((unsubscribe_eq_true_iff emitter key id).mpr hlisted))
  covered operation := ⟨length_departing_le emitter operation operation.key,
    Nat.le.intro (h.keptTotal_eq operation.key).symm⟩
  accounted := h.keptTotal_perform

/-- A new emitter is consistent, and stays so whatever is done to it. -/
theorem consistent_after (limit : Option Nat) (operations : List (Operation κ σ ε)) :
    ((new limit).after operations).Consistent limit := by
  have hconsistent := ((wellFormed_new limit).after operations).consistent
    ((numbered_new limit).after operations)
    (get?_kept_after (fun _ h ↦ Option.some_ne_none [] h.symm) operations)
  rwa [limit_after] at hconsistent

end Emitter

end Wireline

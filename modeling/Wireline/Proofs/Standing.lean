import Wireline.Client.Standing

/-!
# The standing is restored by its own calls

`Standing.after` is the standing after calls that succeeded. What restores a standing is asked for in
the same calls that make it: `use` with both names, null for one that is not set, and `authenticate`
with the token. Whatever the server answers to them, they set what is set in the standing and leave
what is not, so they complete every standing that has a part of it (`after_restoreRequests`). A fresh
connection has nothing of it but the address, and the standing has all of it; for these two
`standing_restored` says that the calls give the standing, or leave it.
-/

set_option autoImplicit false
set_option relaxedAutoImplicit false

namespace Wireline

namespace Standing

/-- The standing after calls that succeeded, each with its result. -/
def after (standing : Standing) (calls : List (Request × Value)) : Standing :=
  calls.foldl (fun standing call ↦ standing.apply call.1 call.2) standing

theorem after_append (standing : Standing) (calls others : List (Request × Value)) :
    standing.after (calls ++ others) = (standing.after calls).after others :=
  List.foldl_append

/-! ### The address -/

theorem apply_url (standing : Standing) (request : Request) (result : Value) :
    (standing.apply request result).url = standing.url := by
  unfold apply
  split <;> rfl

theorem after_url (standing : Standing) (calls : List (Request × Value)) :
    (standing.after calls).url = standing.url := by
  induction calls generalizing standing with
  | nil => rfl
  | cons call calls ih =>
    calc ((standing.apply call.1 call.2).after calls).url
      _ = (standing.apply call.1 call.2).url := ih _
      _ = standing.url := apply_url standing call.1 call.2

/-! ### What the calls set -/

theorem select_ofOption (current name : Option String) :
    select current (some (.ofOption .text name)) = name := by
  cases name <;> rfl

variable {part whole : Standing}

/-- The call that selects sets both names as they are in the standing that it is made for. -/
theorem apply_useRequest {request : Request} (h : whole.useRequest = some request)
    (result : Value) : part.apply request result =
      { part with namespaceName := whole.namespaceName, database := whole.database } := by
  unfold useRequest at h
  split at h <;> cases h
  have hnamespace := select_ofOption part.namespaceName whole.namespaceName
  have hdatabase := select_ofOption part.database whole.database
  simp [apply, hnamespace, hdatabase]

/-- The call that authenticates sets the token as it is in the standing that it is made for. -/
theorem apply_authenticateRequest {request : Request} (h : whole.authenticateRequest = some request)
    (result : Value) : part.apply request result = { part with token := whole.token } := by
  obtain ⟨token, htoken, rfl⟩ := Option.map_eq_some_iff.mp h
  rw [htoken]
  rfl

/-! ### Parts of a standing -/

/-- Both are at the same address, and all that is set in the one is set to the same in the other. -/
structure IsPartOf (part whole : Standing) : Prop where
  url : part.url = whole.url
  namespaceName : part.namespaceName = none ∨ part.namespaceName = whole.namespaceName
  database : part.database = none ∨ part.database = whole.database
  token : part.token = none ∨ part.token = whole.token

theorem IsPartOf.refl (standing : Standing) : standing.IsPartOf standing :=
  ⟨rfl, .inr rfl, .inr rfl, .inr rfl⟩

theorem isPartOf_of_url (whole : Standing) : IsPartOf { url := whole.url } whole :=
  ⟨rfl, .inl rfl, .inl rfl, .inl rfl⟩

section Calls

variable {calls : List (Request × Value)}

/-- The call that selects is left out only where there is nothing to set. -/
theorem IsPartOf.after_useRequest (h : part.IsPartOf whole)
    (hcalls : calls.map Prod.fst = whole.useRequest.toList) : part.after calls =
      { part with namespaceName := whole.namespaceName, database := whole.database } := by
  cases huse : whole.useRequest with
  | some request =>
    rw [huse] at hcalls
    obtain ⟨⟨_, result⟩, rfl, rfl⟩ := List.map_eq_singleton_iff.mp hcalls
    exact apply_useRequest huse result
  | none =>
    rw [huse] at hcalls
    rw [List.map_eq_nil_iff.mp hcalls]
    have hunset : whole.namespaceName = none ∧ whole.database = none := by
      simpa [useRequest] using huse
    have hnamespace : whole.namespaceName = part.namespaceName := by
      simpa [hunset.1, eq_comm] using h.namespaceName
    have hdatabase : whole.database = part.database := by
      simpa [hunset.2, eq_comm] using h.database
    rw [hnamespace, hdatabase]
    rfl

/-- The call that authenticates is left out only where there is no token. -/
theorem IsPartOf.after_authenticateRequest (h : part.IsPartOf whole)
    (hcalls : calls.map Prod.fst = whole.authenticateRequest.toList) :
    part.after calls = { part with token := whole.token } := by
  cases hauthenticate : whole.authenticateRequest with
  | some request =>
    rw [hauthenticate] at hcalls
    obtain ⟨⟨_, result⟩, rfl, rfl⟩ := List.map_eq_singleton_iff.mp hcalls
    exact apply_authenticateRequest hauthenticate result
  | none =>
    rw [hauthenticate] at hcalls
    rw [List.map_eq_nil_iff.mp hcalls]
    have hunset : whole.token = none := Option.map_eq_none_iff.mp hauthenticate
    have htoken : whole.token = part.token := by simpa [hunset, eq_comm] using h.token
    rw [htoken]
    rfl

/-- The calls that restore a standing complete every part of it, whatever is answered. -/
theorem after_restoreRequests (h : part.IsPartOf whole)
    (hcalls : calls.map Prod.fst = whole.restoreRequests) : part.after calls = whole := by
  obtain ⟨first, second, rfl, hfirst, hsecond⟩ := List.map_eq_append_iff.mp hcalls
  let selected : Standing :=
    { part with namespaceName := whole.namespaceName, database := whole.database }
  have hselected : selected.IsPartOf whole := ⟨h.url, .inr rfl, .inr rfl, h.token⟩
  calc part.after (first ++ second)
    _ = (part.after first).after second := after_append part first second
    _ = selected.after second := by rw [h.after_useRequest hfirst]
    _ = { selected with token := whole.token } := hselected.after_authenticateRequest hsecond
    _ = { whole with url := part.url } := rfl
    _ = whole := by rw [h.url]

end Calls

/-- Take any standing that calls have led to. The calls that restore it, whatever is answered to them,
lead to the same standing from one that has only the address, and leave the standing itself as it
is. The address is never changed. -/
theorem standing_restored (initial : Standing) (calls answered : List (Request × Value))
    (h : answered.map Prod.fst = (initial.after calls).restoreRequests) :
    (initial.after calls).url = initial.url ∧
    after { url := initial.url } answered = initial.after calls ∧
    (initial.after calls).after answered = initial.after calls := by
  have hurl : (initial.after calls).url = initial.url := after_url initial calls
  refine ⟨hurl, ?_, after_restoreRequests (.refl _) h⟩
  rw [← hurl]
  exact after_restoreRequests (isPartOf_of_url _) h

/-- A namespace is cleared, a database alone is selected, and the token comes in a field of the
answer. -/
theorem standing_restored_database :
    after { url := some "mem://tidal" } [(⟨"use", [.null, .text "test"]⟩, .bool false),
        (⟨"authenticate", [.text "jwt"]⟩, .undefined)] =
      { url := some "mem://tidal", database := some "test", token := some "jwt" } := by
  have hcalls : ({ url := some "mem://tidal", namespaceName := some "old" } : Standing).after
      [(⟨"use", [.null]⟩, .null), (⟨"use", [.undefined, .text "test"]⟩, .null),
        (⟨"signin", []⟩, .ofFields [("token", .text "jwt")])] =
      { url := some "mem://tidal", database := some "test", token := some "jwt" } := rfl
  have hrestored := standing_restored _ _ [(⟨"use", [.null, .text "test"]⟩, .bool false),
        (⟨"authenticate", [.text "jwt"]⟩, .undefined)] (by rw [hcalls]; rfl)
  exact hrestored.2.1.trans hcalls

end Standing

end Wireline

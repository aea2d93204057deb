import Wireline.Wire.Encode

/-!
# Values as a whole

Four notions reach every node of a value: how deep it nests (`Value.nesting`), whether all its
nodes have a property (`Value.Every`, and `Value.every_iff` in terms of the nodes that occur), how
many have one (`Value.count`), and what becomes of it when its nodes are replaced from the inside
out (`Value.rebuild`). Replacing changes nothing where every node is kept
(`Value.rebuild_eq_self`), and putting a tag on every node makes one more tag for each
(`Value.count_rebuild_tagged`).

Substitution acts on leaves only. It keeps what containers have by their length alone
(`Value.Every.adapt`), and putting undefined values under a tag adds the one level that the tag
makes (`Value.nesting_adapt`).
-/

set_option autoImplicit false
set_option relaxedAutoImplicit false

namespace Wireline

namespace Value

/-! ### Nesting -/

mutual

/-- How deep arrays, maps and tags nest in a value, where an undefined value counts as `bare`
levels. -/
def nesting (bare : Nat) : Value → Nat
  | .undefined => bare
  | .array items => nestingOfItems bare items + 1
  | .map entries => nestingOfEntries bare entries + 1
  | .tagged _ content => content.nesting bare + 1
  | _ => 0

def nestingOfItems (bare : Nat) : List Value → Nat
  | [] => 0
  | item :: items => max (item.nesting bare) (nestingOfItems bare items)

def nestingOfEntries (bare : Nat) : List (Value × Value) → Nat
  | [] => 0
  | (key, value) :: entries =>
    max (max (key.nesting bare) (value.nesting bare)) (nestingOfEntries bare entries)

end

theorem nestingOfItems_le_iff {bare n : Nat} {items : List Value} :
    nestingOfItems bare items ≤ n ↔ ∀ item ∈ items, item.nesting bare ≤ n := by
  induction items with
  | nil => simp [nestingOfItems]
  | cons item items ih => rw [nestingOfItems, Nat.max_le, ih, List.forall_mem_cons]

theorem nestingOfEntries_le_iff {bare n : Nat} {entries : List (Value × Value)} :
    nestingOfEntries bare entries ≤ n ↔
      ∀ entry ∈ entries, entry.1.nesting bare ≤ n ∧ entry.2.nesting bare ≤ n := by
  induction entries with
  | nil => simp [nestingOfEntries]
  | cons entry entries ih =>
    rw [nestingOfEntries, Nat.max_le, Nat.max_le, ih, List.forall_mem_cons]

/-! ### Properties of all nodes -/

mutual

/-- Every node of a value has the property, map keys included. -/
def Every (p : Value → Prop) : Value → Prop
  | .array items => p (.array items) ∧ EveryItem p items
  | .map entries => p (.map entries) ∧ EveryEntry p entries
  | .tagged tag content => p (.tagged tag content) ∧ content.Every p
  | v => p v

def EveryItem (p : Value → Prop) : List Value → Prop
  | [] => True
  | item :: items => item.Every p ∧ EveryItem p items

def EveryEntry (p : Value → Prop) : List (Value × Value) → Prop
  | [] => True
  | (key, value) :: entries => key.Every p ∧ value.Every p ∧ EveryEntry p entries

end

section Every

variable {p : Value → Prop}

mutual

theorem Every.of_forall (h : ∀ v, p v) : ∀ v : Value, v.Every p
  | .array items => ⟨h _, EveryItem.of_forall h items⟩
  | .map entries => ⟨h _, EveryEntry.of_forall h entries⟩
  | .tagged _ content => ⟨h _, Every.of_forall h content⟩
  | .undefined | .null | .bool _ | .integer _ | .float _ | .octets _ | .text _ | .gap _
  | .template _ | .encoded _ => h _

theorem EveryItem.of_forall (h : ∀ v, p v) : ∀ items : List Value, EveryItem p items
  | [] => trivial
  | item :: items => ⟨Every.of_forall h item, EveryItem.of_forall h items⟩

theorem EveryEntry.of_forall (h : ∀ v, p v) : ∀ entries : List (Value × Value), EveryEntry p entries
  | [] => trivial
  | (key, value) :: entries =>
    ⟨Every.of_forall h key, Every.of_forall h value, EveryEntry.of_forall h entries⟩

end

end Every

/-- The node stands somewhere in a value, map keys included. -/
inductive Occurs (node : Value) : Value → Prop
  | here : Occurs node node
  | item {items : List Value} {item : Value} (hmem : item ∈ items) (h : Occurs node item) :
      Occurs node (.array items)
  | key {entries : List (Value × Value)} {key value : Value} (hmem : (key, value) ∈ entries)
      (h : Occurs node key) : Occurs node (.map entries)
  | value {entries : List (Value × Value)} {key value : Value} (hmem : (key, value) ∈ entries)
      (h : Occurs node value) : Occurs node (.map entries)
  | content {tag : UInt64} {content : Value} (h : Occurs node content) :
      Occurs node (.tagged tag content)

section Occurs

variable {p : Value → Prop}

theorem everyItem_iff {items : List Value} :
    EveryItem p items ↔ ∀ item ∈ items, item.Every p := by
  induction items with
  | nil => simp [EveryItem]
  | cons item items ih => simp [EveryItem, ih]

theorem everyEntry_iff {entries : List (Value × Value)} :
    EveryEntry p entries ↔ ∀ entry ∈ entries, entry.1.Every p ∧ entry.2.Every p := by
  induction entries with
  | nil => simp [EveryEntry]
  | cons entry entries ih => simp [EveryEntry, ih, and_assoc]

theorem Every.root : ∀ {v : Value}, v.Every p → p v
  | .array _, h | .map _, h | .tagged _ _, h => h.1
  | .undefined, h | .null, h | .bool _, h | .integer _, h | .float _, h | .octets _, h | .text _, h
  | .gap _, h | .template _, h | .encoded _, h => h

theorem Every.of_occurs {node v : Value} (hnode : Occurs node v) (h : v.Every p) : p node := by
  induction hnode with
  | here => exact h.root
  | item hmem _ ih => exact ih (everyItem_iff.mp h.2 _ hmem)
  | key hmem _ ih => exact ih (everyEntry_iff.mp h.2 _ hmem).1
  | value hmem _ ih => exact ih (everyEntry_iff.mp h.2 _ hmem).2
  | content _ ih => exact ih h.2

mutual

theorem every_of_forall_occurs : ∀ v : Value, (∀ node, Occurs node v → p node) → v.Every p
  | .array items, h =>
    ⟨h _ .here, everyItem_of_forall_occurs items fun _ hmem node hnode ↦ h node (.item hmem hnode)⟩
  | .map entries, h =>
    ⟨h _ .here, everyEntry_of_forall_occurs entries fun _ hmem node hnode ↦
      hnode.elim (fun hkey ↦ h node (.key hmem hkey)) fun hvalue ↦ h node (.value hmem hvalue)⟩
  | .tagged _ content, h =>
    ⟨h _ .here, every_of_forall_occurs content fun node hnode ↦ h node (.content hnode)⟩
  | .undefined, h | .null, h | .bool _, h | .integer _, h | .float _, h | .octets _, h | .text _, h
  | .gap _, h | .template _, h | .encoded _, h => h _ .here

theorem everyItem_of_forall_occurs : ∀ items : List Value,
    (∀ item ∈ items, ∀ node, Occurs node item → p node) → EveryItem p items
  | [], _ => trivial
  | item :: items, h =>
    ⟨every_of_forall_occurs item (h item List.mem_cons_self),
      everyItem_of_forall_occurs items fun other hmem ↦ h other (List.mem_cons_of_mem _ hmem)⟩

theorem everyEntry_of_forall_occurs : ∀ entries : List (Value × Value),
    (∀ entry ∈ entries, ∀ node, Occurs node entry.1 ∨ Occurs node entry.2 → p node) →
      EveryEntry p entries
  | [], _ => trivial
  | (key, value) :: entries, h =>
    ⟨every_of_forall_occurs key fun node hnode ↦ h _ List.mem_cons_self node (.inl hnode),
      every_of_forall_occurs value fun node hnode ↦ h _ List.mem_cons_self node (.inr hnode),
      everyEntry_of_forall_occurs entries fun other hmem ↦ h other (List.mem_cons_of_mem _ hmem)⟩

end

/-- Every node has a property if and only if each node that occurs has it. -/
theorem every_iff {v : Value} : v.Every p ↔ ∀ node, Occurs node v → p node :=
  ⟨fun h _ hnode ↦ h.of_occurs hnode, every_of_forall_occurs v⟩

end Occurs

/-! ### Sameness -/

theorem sameChunks_refl (chunks : List (Octets × Gap)) : sameChunks chunks chunks = true := by
  induction chunks with
  | nil => rfl
  | cons chunk chunks ih => simp [sameChunks, ih]

mutual

/-- A value is the same as itself, also where it holds what is not a number. -/
theorem same_refl : ∀ v : Value, v.same v = true
  | .array items => sameItems_refl items
  | .map entries => sameEntries_refl entries
  | .tagged _ content => by simp [same, same_refl content]
  | .template t => by simp [same, sameChunks_refl]
  | .float x => Binary64.same_refl x
  | .undefined | .null | .bool _ | .integer _ | .octets _ | .text _ | .gap _ | .encoded _ => by
    simp [same]

theorem sameItems_refl : ∀ items : List Value, sameItems items items = true
  | [] => rfl
  | item :: items => by simp [sameItems, same_refl item, sameItems_refl items]

theorem sameEntries_refl : ∀ entries : List (Value × Value), sameEntries entries entries = true
  | [] => rfl
  | (key, value) :: entries => by
    simp [sameEntries, same_refl key, same_refl value, sameEntries_refl entries]

end

/-! ### Replacing every node -/

mutual

/-- The value with every node replaced, what is inside it first. -/
def rebuild (replace : Value → Value) : Value → Value
  | .array items => replace (.array (rebuildItems replace items))
  | .map entries => replace (.map (rebuildEntries replace entries))
  | .tagged tag content => replace (.tagged tag (content.rebuild replace))
  | v => replace v

def rebuildItems (replace : Value → Value) : List Value → List Value
  | [] => []
  | item :: items => item.rebuild replace :: rebuildItems replace items

def rebuildEntries (replace : Value → Value) : List (Value × Value) → List (Value × Value)
  | [] => []
  | (key, value) :: entries =>
    (key.rebuild replace, value.rebuild replace) :: rebuildEntries replace entries

end

section Rebuild

variable {p : Value → Prop} {replace : Value → Value}

theorem length_rebuildItems (items : List Value) :
    (rebuildItems replace items).length = items.length := by
  induction items with
  | nil => rfl
  | cons item items ih => rw [rebuildItems, List.length_cons, ih, List.length_cons]

theorem length_rebuildEntries (entries : List (Value × Value)) :
    (rebuildEntries replace entries).length = entries.length := by
  induction entries with
  | nil => rfl
  | cons entry entries ih => rw [rebuildEntries, List.length_cons, ih, List.length_cons]

mutual

/-- Where every node is kept, so is the value. -/
theorem rebuild_eq_self (hkept : ∀ node, p node → replace node = node) : ∀ v : Value,
    v.Every p → v.rebuild replace = v
  | .array items, h => by
    rw [rebuild, rebuildItems_eq_self hkept items h.2]
    exact hkept _ h.1
  | .map entries, h => by
    rw [rebuild, rebuildEntries_eq_self hkept entries h.2]
    exact hkept _ h.1
  | .tagged tag content, h => by
    rw [rebuild, rebuild_eq_self hkept content h.2]
    exact hkept _ h.1
  | .undefined, h | .null, h | .bool _, h | .integer _, h | .float _, h | .octets _, h | .text _, h
  | .gap _, h | .template _, h | .encoded _, h => hkept _ h

theorem rebuildItems_eq_self (hkept : ∀ node, p node → replace node = node) :
    ∀ items : List Value, EveryItem p items → rebuildItems replace items = items
  | [], _ => rfl
  | item :: items, h => by
    rw [rebuildItems, rebuild_eq_self hkept item h.1, rebuildItems_eq_self hkept items h.2]

theorem rebuildEntries_eq_self (hkept : ∀ node, p node → replace node = node) :
    ∀ entries : List (Value × Value), EveryEntry p entries →
      rebuildEntries replace entries = entries
  | [], _ => rfl
  | (key, value) :: entries, h => by
    rw [rebuildEntries, rebuild_eq_self hkept key h.1, rebuild_eq_self hkept value h.2.1,
      rebuildEntries_eq_self hkept entries h.2.2]

end

end Rebuild

/-! ### Counting nodes -/

mutual

/-- How many nodes of a value satisfy a test, map keys included. -/
def count (test : Value → Bool) : Value → Nat
  | .array items => countOfItems test items + (test (.array items)).toNat
  | .map entries => countOfEntries test entries + (test (.map entries)).toNat
  | .tagged tag content => content.count test + (test (.tagged tag content)).toNat
  | v => (test v).toNat

def countOfItems (test : Value → Bool) : List Value → Nat
  | [] => 0
  | item :: items => item.count test + countOfItems test items

def countOfEntries (test : Value → Bool) : List (Value × Value) → Nat
  | [] => 0
  | (key, value) :: entries => key.count test + value.count test + countOfEntries test entries

end

/-- Whether the value is something under the given tag. -/
def hasTag (tag : UInt64) : Value → Bool
  | .tagged other _ => other == tag
  | _ => false

section Count

variable {mark : UInt64}

mutual

/-- Replacing every node by itself under a mark puts one mark to each node. -/
theorem count_rebuild_tagged : ∀ v : Value, (v.rebuild (.tagged mark)).count (hasTag mark) =
    v.count (hasTag mark) + v.count fun _ ↦ true
  | .array items => by
    have hitems := countOfItems_rebuild_tagged items
    simp only [rebuild, count, hasTag, hitems, beq_self_eq_true, Bool.toNat_true, Bool.toNat_false]
    omega
  | .map entries => by
    have hentries := countOfEntries_rebuild_tagged entries
    simp only [rebuild, count, hasTag, hentries, beq_self_eq_true, Bool.toNat_true,
      Bool.toNat_false]
    omega
  | .tagged tag content => by
    have hcontent := count_rebuild_tagged content
    simp only [rebuild, count, hasTag, hcontent, beq_self_eq_true, Bool.toNat_true]
    omega
  | .undefined | .null | .bool _ | .integer _ | .float _ | .octets _ | .text _ | .gap _
  | .template _ | .encoded _ => by
    simp only [rebuild, count, hasTag, beq_self_eq_true, Bool.toNat_true, Bool.toNat_false]

theorem countOfItems_rebuild_tagged : ∀ items : List Value,
    countOfItems (hasTag mark) (rebuildItems (.tagged mark) items) =
      countOfItems (hasTag mark) items + countOfItems (fun _ ↦ true) items
  | [] => rfl
  | item :: items => by
    rw [rebuildItems, countOfItems, countOfItems, countOfItems, count_rebuild_tagged item,
      countOfItems_rebuild_tagged items]
    omega

theorem countOfEntries_rebuild_tagged : ∀ entries : List (Value × Value),
    countOfEntries (hasTag mark) (rebuildEntries (.tagged mark) entries) =
      countOfEntries (hasTag mark) entries + countOfEntries (fun _ ↦ true) entries
  | [] => rfl
  | (key, value) :: entries => by
    rw [rebuildEntries, countOfEntries, countOfEntries, countOfEntries, count_rebuild_tagged key,
      count_rebuild_tagged value, countOfEntries_rebuild_tagged entries]
    omega

end

end Count

/-! ### Substitution -/

theorem length_adaptItems (substitution : Option Substitution) (items : List Value) :
    (adaptItems substitution items).length = items.length := by
  induction items with
  | nil => rfl
  | cons item items ih => rw [adaptItems, List.length_cons, ih, List.length_cons]

theorem length_adaptEntries (substitution : Option Substitution) (entries : List (Value × Value)) :
    (adaptEntries substitution entries).length = entries.length := by
  induction entries with
  | nil => rfl
  | cons entry entries ih => rw [adaptEntries, List.length_cons, ih, List.length_cons]

/-- The node is not a template. -/
def NoTemplate : Value → Prop
  | .template _ => False
  | _ => True

theorem noTemplate_of_ne {v : Value} (h : ∀ t, v ≠ .template t) : v.NoTemplate := by
  cases v with
  | template t => exact absurd rfl (h t)
  | _ => trivial

mutual

/-- Without a substitution only templates have something to adapt. -/
theorem adapt_none : ∀ v : Value, v.Every NoTemplate → v.adapt none = v
  | .array items, h => by rw [adapt, adaptItems_none items h.2]
  | .map entries, h => by rw [adapt, adaptEntries_none entries h.2]
  | .tagged tag content, h => by rw [adapt, adapt_none content h.2]
  | .template _, h => h.elim
  | .undefined, _ | .null, _ | .bool _, _ | .integer _, _ | .float _, _ | .octets _, _ | .text _, _
  | .gap _, _ | .encoded _, _ => rfl

theorem adaptItems_none : ∀ items : List Value, EveryItem NoTemplate items →
    adaptItems none items = items
  | [], _ => rfl
  | item :: items, h => by rw [adaptItems, adapt_none item h.1, adaptItems_none items h.2]

theorem adaptEntries_none : ∀ entries : List (Value × Value), EveryEntry NoTemplate entries →
    adaptEntries none entries = entries
  | [], _ => rfl
  | (key, value) :: entries, h => by
    rw [adaptEntries, adapt_none key h.1, adapt_none value h.2.1, adaptEntries_none entries h.2.2]

end

section NestingAdapt

variable {bare : Nat} {tag : UInt64}

mutual

/-- An undefined value that counts as one level has it as the tag that it is put under. -/
theorem nesting_adapt : ∀ v : Value,
    (v.adapt (some (.undefinedUnder tag))).nesting bare = v.nesting 1
  | .array items => by rw [adapt, nesting, nesting, nestingOfItems_adapt items]
  | .map entries => by rw [adapt, nesting, nesting, nestingOfEntries_adapt entries]
  | .tagged tag content => by rw [adapt, nesting, nesting, nesting_adapt content]
  | .undefined | .null | .bool _ | .integer _ | .float _ | .octets _ | .text _ | .gap _
  | .template _ | .encoded _ => rfl

theorem nestingOfItems_adapt : ∀ items : List Value,
    nestingOfItems bare (adaptItems (some (.undefinedUnder tag)) items) = nestingOfItems 1 items
  | [] => rfl
  | item :: items => by
    rw [adaptItems, nestingOfItems, nestingOfItems, nesting_adapt item, nestingOfItems_adapt items]

theorem nestingOfEntries_adapt : ∀ entries : List (Value × Value),
    nestingOfEntries bare (adaptEntries (some (.undefinedUnder tag)) entries) =
      nestingOfEntries 1 entries
  | [] => rfl
  | (key, value) :: entries => by
    rw [adaptEntries, nestingOfEntries, nestingOfEntries, nesting_adapt key, nesting_adapt value,
      nestingOfEntries_adapt entries]

end

end NestingAdapt

/-- A property that a node has by its kind and length alone, and that does not exclude what a
substitution puts in place of a leaf. -/
structure KeptBy (p : Value → Prop) (substitution : Option Substitution) : Prop where
  leaf : ∀ v, v.Every p → (Substitution.leaf substitution v).Every p
  array : ∀ items others : List Value, items.length = others.length →
    p (.array items) → p (.array others)
  map : ∀ entries others : List (Value × Value), entries.length = others.length →
    p (.map entries) → p (.map others)
  tagged : ∀ tag content other, p (.tagged tag content) → p (.tagged tag other)
  template : ∀ t : Template, p (.template t) → p (.template t.adapt)

/-- What is not a leaf stays, and a leaf stays too or becomes something without gaps. -/
theorem leaf_eq_or (substitution : Option Substitution) (v : Value) :
    Substitution.leaf substitution v = v ∨
      v.leaf?.isSome ∧ ∃ g : Gapless, Substitution.leaf substitution v = g.toValue := by
  rw [Substitution.leaf]
  cases hreplaced : substitution.bind (·.onLeaf v) with
  | none => exact .inl rfl
  | some w =>
    obtain ⟨rule, -, hrule⟩ := Option.bind_eq_some_iff.mp hreplaced
    obtain ⟨g, hg, rfl⟩ := Option.map_eq_some_iff.mp hrule
    obtain ⟨leaf, hleaf, -⟩ := Option.bind_eq_some_iff.mp hg
    exact .inr ⟨Option.isSome_of_eq_some hleaf, g, rfl⟩

section Gapless

variable {p : Value → Prop}

mutual

/-- What has no gaps has every property that only gaps and templates can lack. -/
theorem every_gapless (hp : ∀ v, (∀ g, v ≠ .gap g) → (∀ t, v ≠ .template t) → p v) :
    ∀ g : Gapless, g.toValue.Every p
  | .leaf leaf => by cases leaf <;> exact hp _ nofun nofun
  | .array items => ⟨hp _ nofun nofun, everyItem_gapless hp items⟩
  | .map entries => ⟨hp _ nofun nofun, everyEntry_gapless hp entries⟩
  | .tagged _ content => ⟨hp _ nofun nofun, every_gapless hp content⟩

theorem everyItem_gapless (hp : ∀ v, (∀ g, v ≠ .gap g) → (∀ t, v ≠ .template t) → p v) :
    ∀ items : List Gapless, EveryItem p (Gapless.toItems items)
  | [] => trivial
  | item :: items => ⟨every_gapless hp item, everyItem_gapless hp items⟩

theorem everyEntry_gapless (hp : ∀ v, (∀ g, v ≠ .gap g) → (∀ t, v ≠ .template t) → p v) :
    ∀ entries : List (Gapless × Gapless), EveryEntry p (Gapless.toEntries entries)
  | [] => trivial
  | (key, value) :: entries =>
    ⟨every_gapless hp key, every_gapless hp value, everyEntry_gapless hp entries⟩

end

end Gapless

section KeptBy

variable {p : Value → Prop} {substitution : Option Substitution}

/-- A property that only gaps and templates can lack is kept, since no substitution makes them. -/
theorem KeptBy.of_forall (hp : ∀ v, (∀ g, v ≠ .gap g) → (∀ t, v ≠ .template t) → p v)
    (htemplate : ∀ t : Template, p (.template t) → p (.template t.adapt)) :
    KeptBy p substitution where
  leaf v h := by
    obtain hsame | ⟨-, g, hg⟩ := leaf_eq_or substitution v
    · rwa [hsame]
    · rw [hg]
      exact every_gapless hp g
  array _ _ _ _ := hp _ nofun nofun
  map _ _ _ _ := hp _ nofun nofun
  tagged _ _ _ _ := hp _ nofun nofun
  template := htemplate

theorem noTemplate_kept : KeptBy NoTemplate substitution :=
  .of_forall (fun _ _ htemplate ↦ noTemplate_of_ne htemplate) fun _ h ↦ h

mutual

theorem Every.adapt (hkept : KeptBy p substitution) : ∀ v : Value, v.Every p →
    (v.adapt substitution).Every p
  | .array items, h => ⟨hkept.array items _ (length_adaptItems substitution items).symm h.1,
      EveryItem.adapt hkept items h.2⟩
  | .map entries, h => ⟨hkept.map entries _ (length_adaptEntries substitution entries).symm h.1,
      EveryEntry.adapt hkept entries h.2⟩
  | .tagged tag content, h => ⟨hkept.tagged tag content _ h.1, Every.adapt hkept content h.2⟩
  | .template t, h => hkept.template t h
  | .undefined, h | .null, h | .bool _, h | .integer _, h | .float _, h | .octets _, h | .text _, h
  | .gap _, h | .encoded _, h => hkept.leaf _ h

theorem EveryItem.adapt (hkept : KeptBy p substitution) : ∀ items : List Value,
    EveryItem p items → EveryItem p (adaptItems substitution items)
  | [], _ => trivial
  | item :: items, h => ⟨Every.adapt hkept item h.1, EveryItem.adapt hkept items h.2⟩

theorem EveryEntry.adapt (hkept : KeptBy p substitution) : ∀ entries : List (Value × Value),
    EveryEntry p entries → EveryEntry p (adaptEntries substitution entries)
  | [], _ => trivial
  | (key, value) :: entries, h =>
    ⟨Every.adapt hkept key h.1, Every.adapt hkept value h.2.1,
      EveryEntry.adapt hkept entries h.2.2⟩

end

end KeptBy

end Value

end Wireline

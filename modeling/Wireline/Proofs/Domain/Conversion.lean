import Wireline.Domain.Decimal
import Wireline.Domain.Instant
import Wireline.Domain.Record
import Wireline.Proofs.Domain.Resending
import Wireline.Proofs.Domain.Span

/-!
# Domain values on the wire

Every domain type is read from the value that it is sent as (`ofValue_toValue` of each type). What
lies between is the wire. A value arrives as it was sent if it is of the data model and in range,
nothing in it is replaced on arrival, and it does not nest too deep. `Convention.Arrives` says this
of a value that stands some levels deep in what is sent, so that it goes from the parts of a value
to the whole: no tag of a domain type is one that is replaced on arrival, and the frame that a type
puts around the values embedded in it costs levels and nothing else.

Records and ranges of records go under one tag, and so does the textual name of a record. The frames
differ in the key, which is a range for the one and never for the other, or in that there is no key.
Arrival keeps this difference, whatever is embedded in the key. `domain_values_survive` has both
parts.
-/

set_option autoImplicit false
set_option relaxedAutoImplicit false

namespace Wireline

/-! ### To values and back -/

theorem TableName.ofValue_toValue (table : TableName) : ofValue table.toValue = .ok table := rfl

theorem Future.ofValue_toValue (future : Future) : ofValue future.toValue = .ok future := rfl

theorem Decimal.ofValue_toValue (decimal : Decimal) : ofValue decimal.toValue = .ok decimal :=
  dif_pos decimal.isNumeral_text

theorem Uuid.ofValue_toValue (uuid : Uuid) : ofValue uuid.toValue = .ok uuid := by
  have hoctets : ofOctets? uuid.octets = some uuid := dif_pos uuid.length_octets
  show Shape.uuidOctets.require (ofOctets? uuid.octets) = .ok uuid
  rw [hoctets]
  rfl

/-- Nothing is carried out of less than a second. -/
theorem Instant.new?_seconds_nanos (instant : Instant) :
    new? instant.seconds instant.nanos = some instant := by
  obtain ⟨seconds, nanos, hnanos⟩ := instant
  have hcarried : (nanos : Int) / nanosPerSecond = 0 :=
    Int.ediv_eq_zero_of_lt (Int.natCast_nonneg nanos) (Int.ofNat_lt.mpr hnanos)
  have hbelow : seconds.toInt < 0x8000000000000000 := seconds.toInt_lt
  simp only [new?, hcarried, Int.add_zero, if_pos hbelow, Int64.ofInt_toInt,
    Nat.mod_eq_of_lt hnanos]

theorem Instant.ofValue_toValue (instant : Instant) : ofValue instant.toValue = .ok instant := by
  have hsecond : instant.nanos < 1000000000 := instant.nanos_lt
  have hlimit : instant.nanos < 0x8000000000000000 := by omega
  have hnanos : (Int64.ofNat instant.nanos).toInt = instant.nanos := Int64.toInt_ofNat_of_lt hlimit
  have hpair : Span.compactPair (.array [.integer instant.seconds.toInt, .integer instant.nanos]) =
      .ok (instant.seconds, Int64.ofNat instant.nanos) :=
    Span.compactPair_two (Value.int64?_toInt _) (Value.int64?_natCast hlimit)
  have hword : ¬ (Int64.ofNat instant.nanos < 0 ∨ 0x100000000 ≤ (instant.nanos : Int)) :=
    not_or.mpr ⟨Span.not_ofNat_neg hlimit, by omega⟩
  simp only [ofValue, toValue, Value.tagged?, if_true, hpair, bind, Except.bind, hnanos,
    if_neg hword, Int.toNat_natCast, new?_seconds_nanos]
  rfl

theorem Bound.ofValue_toValue (bound : Bound) : ofValue bound.toValue = .ok bound := by
  cases bound <;> rfl

theorem Range.ofValue_toValue (range : Range) : ofValue range.toValue = .ok range := by
  have hread : ofValue range.toValue = (do
      let lower ← Bound.ofValue range.lower.toValue
      let upper ← Bound.ofValue range.upper.toValue
      return ⟨lower, upper⟩) := rfl
  rw [hread, Bound.ofValue_toValue, Bound.ofValue_toValue]
  rfl

theorem RecordKey.ofValue_toValue (key : RecordKey) : ofValue key.toValue = .ok key := by
  cases key with
  | text | array | object => rfl
  | integer key =>
    show (Shape.recordKeyInteger.require (Value.integer key.toInt).int64?).map integer = _
    rw [Value.int64?_toInt]
    rfl
  | uuid key =>
    show (Uuid.ofValue key.toValue).map uuid = _
    rw [Uuid.ofValue_toValue]
    rfl

/-! ### Records and ranges of records -/

/-- The value is something under the tag of ranges. -/
def Value.IsRange (v : Value) : Prop :=
  ∃ content, v = .tagged Tag.range content

theorem Range.ofValue_of_not_isRange {v : Value} (h : ¬ v.IsRange) : ∃ e, ofValue v = .error e := by
  cases v with
  | tagged tag content =>
    have htag : tag ≠ Tag.range := by
      rintro rfl
      exact h ⟨content, rfl⟩
    have hunder : (Value.tagged tag content).under Tag.range =
        .error (.unexpectedTag Tag.range tag) := if_neg htag
    exact ⟨_, by simp only [ofValue, hunder, bind, Except.bind]; rfl⟩
  | _ => exact ⟨_, rfl⟩

section Keys

variable (table : String) {key : Value}

theorem Value.recordParts_pair :
    (Value.tagged Tag.recordId (.array [.text table, key])).recordParts = .ok (table, key) := rfl

/-- A table with a key that is not a range is read as a record. -/
theorem RecordId.ofValue_of_not_isRange (h : ¬ key.IsRange) :
    ofValue (.tagged Tag.recordId (.array [.text table, key])) =
      (RecordKey.ofValue key).map (RecordId.mk table) := by
  have htag : ¬ (key.tagged?.map Prod.fst) = some Tag.range := by
    intro hrange
    cases key with
    | tagged tag content => exact h ⟨content, by cases hrange; rfl⟩
    | _ => cases hrange
  simp only [ofValue, Value.recordParts_pair, bind, Except.bind, if_neg htag]
  cases RecordKey.ofValue key <;> rfl

/-- A table with a key that is a range is not read as a record. -/
theorem RecordId.ofValue_of_isRange (h : key.IsRange) :
    ofValue (.tagged Tag.recordId (.array [.text table, key])) =
      .error (.shape .singleRecordKey) := by
  obtain ⟨content, rfl⟩ := h
  rfl

theorem RecordRange.ofValue_pair :
    ofValue (.tagged Tag.recordId (.array [.text table, key])) =
      (Range.ofValue key).map (RecordRange.mk table) := by
  simp only [ofValue, Value.recordParts_pair, bind, Except.bind]
  cases Range.ofValue key <;> rfl

/-- A table with a key that is not a range is not read as a range of records. -/
theorem RecordRange.ofValue_of_not_isRange (h : ¬ key.IsRange) :
    ∃ e, ofValue (.tagged Tag.recordId (.array [.text table, key])) = .error e := by
  obtain ⟨e, he⟩ := Range.ofValue_of_not_isRange h
  exact ⟨e, by rw [ofValue_pair, he]; rfl⟩

end Keys

theorem RecordKey.not_isRange (key : RecordKey) : ¬ key.toValue.IsRange := by
  rintro ⟨content, h⟩
  cases key <;> cases h

theorem RecordId.ofValue_toValue (id : RecordId) : ofValue id.toValue = .ok id := by
  rw [toValue, ofValue_of_not_isRange id.table id.key.not_isRange, RecordKey.ofValue_toValue]
  rfl

theorem RecordRange.ofValue_toValue (records : RecordRange) :
    ofValue records.toValue = .ok records := by
  rw [toValue, ofValue_pair, Range.ofValue_toValue]
  rfl

namespace Convention

/-- A key that is not a range does not become one on arrival. -/
theorem not_isRange_norm (key : RecordKey) : ¬ (norm key.toValue).IsRange := by
  rintro ⟨content, h⟩
  cases key <;> cases h

theorem isRange_norm (range : Range) : (norm range.toValue).IsRange :=
  ⟨_, rfl⟩

/-! ### What arrives as it was sent -/

/-- Standing this many levels deep in what is sent, the value arrives as it is: it is of the data
model and in range, nothing in it is replaced, and it does not nest too deep, an undefined value
counted as one level. -/
structure Arrives (levels : Nat) (v : Value) : Prop where
  isData : v.IsData
  inRange : v.InRange
  settled : Settled v
  nesting : v.nesting 1 + levels ≤ 256

/-- The octets of the text can be counted in a word. -/
def Counted (text : String) : Prop :=
  (Text.octets text).length < 0x10000000000000000

instance (text : String) : Decidable (Counted text) :=
  inferInstanceAs (Decidable (_ < _))

section Arrives

variable {levels : Nat}

theorem arrives_leaf {v : Value} (hdata : v.IsData) (hrange : v.InRange) (hsettled : Settled v)
    (hleaf : v.nesting 1 = 0) (hlevels : levels ≤ 256) : Arrives levels v :=
  ⟨hdata, hrange, hsettled, by rwa [hleaf, Nat.zero_add]⟩

theorem arrives_null (hlevels : levels ≤ 256) : Arrives levels .null :=
  arrives_leaf trivial trivial (by rintro w ⟨⟩) rfl hlevels

theorem arrives_text {text : String} (hcounted : Counted text) (hlevels : levels ≤ 256) :
    Arrives levels (.text text) :=
  arrives_leaf hcounted trivial (by rintro w ⟨⟩) rfl hlevels

theorem arrives_octets {octets : Octets} (hlength : octets.length < 0x10000000000000000)
    (hlevels : levels ≤ 256) : Arrives levels (.octets octets) :=
  arrives_leaf hlength trivial (by rintro w ⟨⟩) rfl hlevels

theorem arrives_integer {n : Int} (hleast : -0x10000000000000000 ≤ n)
    (hmost : n < 0x10000000000000000) (hlevels : levels ≤ 256) : Arrives levels (.integer n) :=
  arrives_leaf trivial ⟨hleast, hmost⟩ (by rintro w ⟨⟩) rfl hlevels

theorem arrives_int64 (word : Int64) (hlevels : levels ≤ 256) :
    Arrives levels (.integer word.toInt) := by
  have hleast : -0x8000000000000000 ≤ word.toInt := word.le_toInt
  have hmost : word.toInt < 0x8000000000000000 := word.toInt_lt
  exact arrives_integer (by omega) (by omega) hlevels

/-- Content under a tag stands one level deeper. -/
theorem Arrives.tagged {tag : UInt64} {content : Value} (h : Arrives (levels + 1) content)
    (htag : tag ∉ [Tag.absent, Tag.uuidText, Tag.spanText]) :
    Arrives levels (.tagged tag content) where
  isData := ⟨trivial, h.isData⟩
  inRange := ⟨trivial, h.inRange⟩
  settled := ⟨fun _ hreplaced ↦ htag hreplaced.tag_mem, h.settled⟩
  nesting := by
    have hnesting := h.nesting
    rw [Value.nesting]
    omega

/-- Items of an array stand one level deeper. -/
theorem arrives_array {items : List Value} (hlevels : levels < 256)
    (hlength : items.length < 0x10000000000000000)
    (h : ∀ item ∈ items, Arrives (levels + 1) item) : Arrives levels (.array items) where
  isData := ⟨hlength, Value.everyItem_iff.mpr fun item hitem ↦ (h item hitem).isData⟩
  inRange := ⟨trivial, Value.everyItem_iff.mpr fun item hitem ↦ (h item hitem).inRange⟩
  settled := ⟨by rintro w ⟨⟩, Value.everyItem_iff.mpr fun item hitem ↦ (h item hitem).settled⟩
  nesting := by
    have hitems : Value.nestingOfItems 1 items ≤ 256 - (levels + 1) :=
      Value.nestingOfItems_le_iff.mpr fun item hitem ↦ Nat.le_sub_of_add_le (h item hitem).nesting
    rw [Value.nesting]
    omega

/-- Keys and values of a map stand one level deeper. -/
theorem arrives_map {entries : List (Value × Value)} (hlevels : levels < 256)
    (hlength : entries.length < 0x10000000000000000)
    (h : ∀ entry ∈ entries, Arrives (levels + 1) entry.1 ∧ Arrives (levels + 1) entry.2) :
    Arrives levels (.map entries) where
  isData := ⟨hlength, Value.everyEntry_iff.mpr fun entry hentry ↦
    ⟨(h entry hentry).1.isData, (h entry hentry).2.isData⟩⟩
  inRange := ⟨trivial, Value.everyEntry_iff.mpr fun entry hentry ↦
    ⟨(h entry hentry).1.inRange, (h entry hentry).2.inRange⟩⟩
  settled := ⟨by rintro w ⟨⟩, Value.everyEntry_iff.mpr fun entry hentry ↦
    ⟨(h entry hentry).1.settled, (h entry hentry).2.settled⟩⟩
  nesting := by
    have hentries : Value.nestingOfEntries 1 entries ≤ 256 - (levels + 1) :=
      Value.nestingOfEntries_le_iff.mpr fun entry hentry ↦
        ⟨Nat.le_sub_of_add_le (h entry hentry).1.nesting,
          Nat.le_sub_of_add_le (h entry hentry).2.nesting⟩
    rw [Value.nesting]
    omega

theorem arrives_pair {first second : Value} (hfirst : Arrives (levels + 1) first)
    (hsecond : Arrives (levels + 1) second) : Arrives levels (.array [first, second]) := by
  have hlevels : levels < 256 := Nat.lt_of_lt_of_le (Nat.lt_succ_self levels)
    (Nat.le_trans (Nat.le_add_left _ _) hfirst.nesting)
  have hlength : 2 < 0x10000000000000000 := by decide
  refine arrives_array hlevels hlength (List.forall_mem_cons.mpr ⟨hfirst, ?_⟩)
  exact List.forall_mem_singleton.mpr hsecond

/-! ### What is embedded in a domain value -/

/-- What is embedded in the key arrives as it is where the key stands this many levels deep. -/
def KeyArrives (levels : Nat) : RecordKey → Prop
  | .text key => Counted key
  | .integer _ | .uuid _ => True
  | .array items =>
    items.length < 0x10000000000000000 ∧ ∀ item ∈ items, Arrives (levels + 1) item
  | .object entries =>
    entries.length < 0x10000000000000000 ∧
      ∀ entry ∈ entries, Arrives (levels + 1) entry.1 ∧ Arrives (levels + 1) entry.2

/-- The values at the bounds arrive as they are where the range stands this many levels deep. They
are within a tag, a list and a tag of the range. -/
def BoundsArrive (levels : Nat) (range : Range) : Prop :=
  (∀ v, range.lower.value? = some v → Arrives (levels + 3) v) ∧
    ∀ v, range.upper.value? = some v → Arrives (levels + 3) v

theorem arrives_uuid (uuid : Uuid) (hlevels : levels < 256) : Arrives levels uuid.toValue := by
  refine .tagged (arrives_octets ?_ hlevels) (by decide)
  rw [uuid.length_octets]
  decide

theorem arrives_key {key : RecordKey} (h : KeyArrives levels key) (hlevels : levels < 256) :
    Arrives levels key.toValue := by
  cases key with
  | text key => exact arrives_text h (Nat.le_of_lt hlevels)
  | integer key => exact arrives_int64 key (Nat.le_of_lt hlevels)
  | uuid key => exact arrives_uuid key hlevels
  | array items => exact arrives_array hlevels h.1 h.2
  | object entries => exact arrives_map hlevels h.1 h.2

theorem arrives_bound {bound : Bound} (h : ∀ v, bound.value? = some v → Arrives (levels + 1) v)
    (hlevels : levels ≤ 256) : Arrives levels bound.toValue := by
  cases bound with
  | included v => exact (h v rfl).tagged (by decide)
  | excluded v => exact (h v rfl).tagged (by decide)
  | unbounded => exact arrives_null hlevels

theorem arrives_range {range : Range} (h : BoundsArrive levels range) (hlevels : levels + 2 ≤ 256) :
    Arrives levels range.toValue :=
  .tagged (arrives_pair (arrives_bound h.1 hlevels) (arrives_bound h.2 hlevels)) (by decide)

end Arrives

/-! ### What survives -/

/-- The value is sent for `a`, what arrives is read, and it is read as `a`. -/
def Survives {α : Type} (ofValue : Value → Except DomainError α) (sent : Value) (a : α) : Prop :=
  ∃ octets arrived, encodeValue sent = .ok octets ∧ decodeValue octets = .ok arrived ∧
    ofValue arrived = .ok a

theorem Arrives.survives {α : Type} {ofValue : Value → Except DomainError α} {sent : Value} {a : α}
    (h : Arrives 0 sent) (hback : ofValue sent = .ok a) : Survives ofValue sent a :=
  ⟨_, sent, encodeValue_of_inRange h.isData h.inRange,
    decodeValue_sent h.isData h.inRange h.settled h.nesting, hback⟩

/-- The domain types survive the wire: if what is embedded in it arrives as it is where it stands, a
record, a range of records, a range, a table, a UUID, a decimal, a future or an instant is read from
what arrives. A range of records is never read as a record, a record never as a range of records, and
a textual name of a record as neither, as they are sent and as they arrive. -/
theorem domain_values_survive :
    (∀ id : RecordId, Counted id.table → KeyArrives 2 id.key →
      Survives RecordId.ofValue id.toValue id) ∧
    (∀ records : RecordRange, Counted records.table → BoundsArrive 2 records.keys →
      Survives RecordRange.ofValue records.toValue records) ∧
    (∀ range : Range, BoundsArrive 0 range → Survives Range.ofValue range.toValue range) ∧
    (∀ table : TableName, Counted table.name →
      Survives TableName.ofValue table.toValue table) ∧
    (∀ uuid : Uuid, Survives Uuid.ofValue uuid.toValue uuid) ∧
    (∀ decimal : Decimal, Counted decimal.text →
      Survives Decimal.ofValue decimal.toValue decimal) ∧
    (∀ future : Future, Counted future.expression →
      Survives Future.ofValue future.toValue future) ∧
    (∀ instant : Instant, Survives Instant.ofValue instant.toValue instant) ∧
    (∀ (records : RecordRange) (v : Value), v = records.toValue ∨ v = norm records.toValue →
      ∃ e, RecordId.ofValue v = .error e) ∧
    (∀ (id : RecordId) (v : Value), v = id.toValue ∨ v = norm id.toValue →
      ∃ e, RecordRange.ofValue v = .error e) ∧
    (∀ (id : TextualRecordId) (v : Value), v = id.toValue ∨ v = norm id.toValue →
      (∃ e, RecordId.ofValue v = .error e) ∧ ∃ e, RecordRange.ofValue v = .error e) := by
  refine ⟨fun id htable hkey ↦ ?_, fun records htable hkeys ↦ ?_, fun range hrange ↦ ?_,
    fun table htable ↦ ?_, fun uuid ↦ ?_, fun decimal htext ↦ ?_, fun future htext ↦ ?_,
    fun instant ↦ ?_, ?_, ?_, ?_⟩
  · refine Arrives.survives (.tagged ?_ (by decide)) id.ofValue_toValue
    exact arrives_pair (arrives_text htable (by decide)) (arrives_key hkey (by decide))
  · refine Arrives.survives (.tagged ?_ (by decide)) records.ofValue_toValue
    exact arrives_pair (arrives_text htable (by decide)) (arrives_range hkeys (by decide))
  · exact (arrives_range hrange (by decide)).survives range.ofValue_toValue
  · exact ((arrives_text htable (by decide)).tagged (by decide)).survives table.ofValue_toValue
  · exact (arrives_uuid uuid (by decide)).survives uuid.ofValue_toValue
  · exact ((arrives_text htext (by decide)).tagged (by decide)).survives decimal.ofValue_toValue
  · exact ((arrives_text htext (by decide)).tagged (by decide)).survives future.ofValue_toValue
  · have hnanos : instant.nanos < 1000000000 := instant.nanos_lt
    refine Arrives.survives (.tagged ?_ (by decide)) instant.ofValue_toValue
    exact arrives_pair (arrives_int64 _ (by decide))
      (arrives_integer (by omega) (by omega) (by decide))
  · rintro records v (rfl | rfl)
    · exact ⟨_, RecordId.ofValue_of_isRange records.table ⟨_, rfl⟩⟩
    · exact ⟨_, RecordId.ofValue_of_isRange records.table (isRange_norm records.keys)⟩
  · rintro id v (rfl | rfl)
    · exact RecordRange.ofValue_of_not_isRange id.table id.key.not_isRange
    · exact RecordRange.ofValue_of_not_isRange id.table (not_isRange_norm id.key)
  · rintro id v (rfl | rfl) <;> exact ⟨⟨_, rfl⟩, ⟨_, rfl⟩⟩

/-- A record with a key of several levels, an undefined value in it, and a range with one bound. -/
theorem domain_values_survive_nested :
    let id : RecordId := ⟨"person", .object [(.text "at", .array [.undefined, .integer (-1)])]⟩
    let records : RecordRange := ⟨"person", ⟨.included (.text "a"), .unbounded⟩⟩
    Survives RecordId.ofValue id.toValue id ∧
      Survives RecordRange.ofValue records.toValue records ∧
      ∃ e, RecordId.ofValue (norm records.toValue) = .error e := by
  intro id records
  have htable : Counted "person" := by decide
  have hundefined : Arrives 4 .undefined := ⟨trivial, trivial, by rintro w ⟨⟩, by decide⟩
  have hinteger : Arrives 4 (.integer (-1)) := arrives_integer (by decide) (by decide) (by decide)
  have hkey : KeyArrives 2 id.key := by
    refine ⟨by decide, List.forall_mem_singleton.mpr ⟨?_, arrives_pair hundefined hinteger⟩⟩
    exact arrives_text (by decide) (by decide)
  have hbounds : BoundsArrive 2 records.keys := by
    refine ⟨?_, by rintro v ⟨⟩⟩
    rintro v ⟨⟩
    exact arrives_text (by decide) (by decide)
  obtain ⟨hids, hranges, -, -, -, -, -, -, hrefused, -⟩ := domain_values_survive
  exact ⟨hids id htable hkey, hranges records htable hbounds, hrefused records _ (.inr rfl)⟩

end Convention

end Wireline

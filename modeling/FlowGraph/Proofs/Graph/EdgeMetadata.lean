import FlowGraph.Graph.Edge
import FlowGraph.Proofs.Fallible
import FlowGraph.Proofs.Json.Record
import FlowGraph.Proofs.Snapshot.Persistence

/-!
Changes of an edge's metadata, and how the metadata are written and loaded. The weight at the end of a list of
changes is the one that was given last, so all that can be said of weights is said of one change and of one
document.
-/

namespace FlowGraph

namespace Binary64
variable {x : Binary64}

/-- Whether this is a number, and not below zero. -/
def atLeastZero (x : Binary64) : Bool := !x.isNaN && 0 ≤ x.rank

theorem refused_iff : (x.isNaN || x.lt .zero) = true ↔ x.atLeastZero = false := by
  have number : zero.isNaN = false := by decide
  have rank : zero.rank = 0 := by decide
  cases shape : x.isNaN <;> simp [lt, number, rank, atLeastZero, shape]

theorem eq_infinity (least : x.atLeastZero = true) (infinite : x.isFinite = false) : x = infinity := by
  simp only [atLeastZero, Bool.and_eq_true, Bool.not_eq_true', decide_eq_true_eq] at least
  obtain ⟨number, above⟩ := least
  have magnitude : x.magnitude = infiniteMagnitude := by
    simp only [isNaN, decide_eq_false_iff_not] at number
    simp only [isFinite, decide_eq_false_iff_not] at infinite
    omega
  have positive : x.isNegative = false := by
    cases sign : x.isNegative with
    | false => rfl
    | true =>
        rw [rank, sign, if_pos rfl, magnitude] at above
        exact absurd above (by decide)
  have bits : x.bits.toNat = infiniteMagnitude := by
    simp only [isNegative, decide_eq_false_iff_not] at positive
    rw [← magnitude, Binary64.magnitude, Nat.mod_eq_of_lt (by omega)]
  cases x
  simp only [infinity, ofMagnitude, mk.injEq, ← UInt64.toNat_inj, bits]
  decide

theorem finite_iff_ne_infinity (least : x.atLeastZero = true) : x.isFinite = true ↔ x ≠ infinity := by
  constructor
  · rintro finite rfl
    exact absurd finite (by decide)
  · intro different
    by_contra infinite
    exact different (eq_infinity least (Bool.eq_false_iff.mpr infinite))

end Binary64

theorem Json.loadFloat_eq_ok {json : Json} {x : Binary64} : loadFloat json = .ok x ↔ json.toFloat? = some x := by
  unfold loadFloat
  cases json.toFloat? <;> simp [mismatch]

theorem Json.loadFloat_ofFloat {x y : Binary64} : loadFloat (ofFloat x) = .ok y ↔ x.isFinite = true ∧ x = y := by
  rw [loadFloat_eq_ok]
  cases finite : x.isFinite <;> simp [ofFloat, finite, toFloat?]

namespace EdgeMetadata
variable {start metadata next : EdgeMetadata}

theorem withWeight_eq_ok_iff {weight : Binary64} : metadata.withWeight weight = .ok next ↔
    weight.atLeastZero = true ∧ next = { metadata with weight } := by
  unfold withWeight
  split
  · rename_i refused
    simp [Binary64.refused_iff.mp refused]
  · rename_i accepted
    rw [Binary64.refused_iff, Bool.not_eq_false] at accepted
    simp [accepted, eq_comm]

inductive Change where
  | name (text : String)
  | description (text : String)
  | weight (given : Binary64)
  | property (key : String) (value : Json)

def Change.weight? : Change → Option Binary64
  | .weight given => some given
  | _ => none

@[simp] theorem Change.weight?_eq_some_iff {one : Change} {given : Binary64} :
    one.weight? = some given ↔ one = .weight given := by
  cases one <;> simp [weight?]

def change (metadata : EdgeMetadata) : Change → Except Error EdgeMetadata
  | .name text => .ok (metadata.withName text)
  | .description text => .ok (metadata.withDescription text)
  | .weight given => metadata.withWeight given
  | .property key value => .ok (metadata.withProperty key value)

def changed (metadata : EdgeMetadata) (changes : List Change) : Except Error EdgeMetadata :=
  changes.foldlM change metadata

/-- The weight that is given last. -/
def lastWeight (changes : List Change) : Option Binary64 := changes.reverse.findSome? Change.weight?

section
variable {first : Change} {changes : List Change}

theorem change_succeeds_iff : (∃ next, start.change first = .ok next) ↔
    ∀ given, first = .weight given → given.atLeastZero = true := by
  cases first <;> simp [change, withWeight_eq_ok_iff]

theorem kept_of_change (made : start.change first = .ok next) :
    next.weight = first.weight?.getD start.weight ∧ next.created = start.created := by
  cases first with
  | weight given =>
      obtain ⟨_, rfl⟩ := withWeight_eq_ok_iff.mp made
      exact ⟨rfl, rfl⟩
  | _ =>
      cases made
      exact ⟨rfl, rfl⟩

theorem changed_succeeds_iff : (∃ metadata, start.changed changes = .ok metadata) ↔
    ∀ given, Change.weight given ∈ changes → given.atLeastZero = true := by
  have accepted (metadata : EdgeMetadata) (one : Change) : (∃ next, metadata.change one = .ok next) ↔
      ∀ given, one = .weight given → given.atLeastZero = true := change_succeeds_iff
  rw [changed, Fallible.foldlM_succeeds_iff accepted]
  constructor
  · exact fun each given member => each _ member given rfl
  · rintro each _ member given rfl
    exact each given member

theorem lastWeight_cons : lastWeight (first :: changes) = (lastWeight changes).or first.weight? := by
  simp only [lastWeight, List.reverse_cons, List.findSome?_append, List.findSome?_cons, List.findSome?_nil]
  cases first.weight? <;> rfl

theorem mem_of_lastWeight {given : Binary64} (last : lastWeight changes = some given) :
    Change.weight given ∈ changes := by
  obtain ⟨one, member, same⟩ := List.exists_of_findSome?_eq_some last
  rw [Change.weight?_eq_some_iff] at same
  exact List.mem_reverse.mp (same ▸ member)

theorem not_mem_of_lastWeight (last : lastWeight changes = none) (given : Binary64) :
    Change.weight given ∉ changes := by
  intro member
  have absent := List.findSome?_eq_none_iff.mp last _ (List.mem_reverse.mpr member)
  cases absent

theorem kept_of_changed (made : start.changed changes = .ok metadata) :
    metadata.weight = (lastWeight changes).getD start.weight ∧ metadata.created = start.created := by
  induction changes generalizing start with
  | nil =>
      cases made
      exact ⟨rfl, rfl⟩
  | cons first rest ih =>
      obtain ⟨next, one, others⟩ := Fallible.foldlM_cons_eq_ok_iff.mp made
      obtain ⟨weight, created⟩ := kept_of_change one
      obtain ⟨lastly, same⟩ := ih others
      rw [lastWeight_cons, lastly, same, weight, created]
      cases lastWeight rest <;> simp

theorem atLeastZero_of_changed (made : start.changed changes = .ok metadata) :
    metadata.weight.atLeastZero = true ↔
      (∃ given, Change.weight given ∈ changes) ∨ start.weight.atLeastZero = true := by
  have each := changed_succeeds_iff.mp ⟨metadata, made⟩
  rw [(kept_of_changed made).1]
  cases last : lastWeight changes with
  | none => simp [not_mem_of_lastWeight last]
  | some given =>
      have member := mem_of_lastWeight last
      simp only [Option.getD_some, each given member, true_iff]
      exact .inl ⟨given, member⟩

theorem one_atLeastZero : one.atLeastZero = true := by decide +kernel

theorem atLeastZero_of_new {now : Instant} (made : (new now).changed changes = .ok metadata) :
    metadata.weight.atLeastZero = true :=
  (atLeastZero_of_changed made).mpr (.inr one_atLeastZero)

end

theorem weight_part_of_load {json : Json} (loads : load json = .ok metadata) :
    (∃ part, json.part? "weight" 2 = some part ∧ Json.loadFloat part = .ok metadata.weight) ∨
      (json.part? "weight" 2 = none ∧ metadata.weight = one) := by
  obtain ⟨layout, found, read⟩ := Json.layout_of_loadRecord loads
  simp only [Json.Fields.read_seq, Json.Fields.read_map, Json.Fields.read_defaulted] at read
  obtain ⟨_, _, ⟨_, _, ⟨_, weight, ⟨_, _, ⟨_, _, rfl⟩, _, rfl⟩, part, rfl⟩, _, rfl⟩, _, rfl⟩ := read
  rw [Json.part?_of_layout found]
  exact part.imp_right fun ⟨absent, standard⟩ => ⟨absent, standard.symm⟩

def statedWeight (json : Json) : Option Binary64 := (json.part? "weight" 2).bind Json.toFloat?

theorem weight_of_load {json : Json} (loads : load json = .ok metadata) :
    metadata.weight = (statedWeight json).getD one := by
  rcases weight_part_of_load loads with ⟨part, given, number⟩ | ⟨absent, standard⟩
  · rw [Json.loadFloat_eq_ok] at number
    rw [statedWeight, given, Option.bind_some, number, Option.getD_some]
  · rw [statedWeight, absent, Option.bind_none, Option.getD_none, standard]

theorem load_toJson {stamp : Instant → String} (finite : metadata.weight.isFinite = true)
    (faithful : Instant.ofStamp (stamp metadata.created) = some metadata.created) :
    load (metadata.toJson stamp) = .ok metadata := by
  have texts (text : Option String) : Json.loadOption Json.loadString (Json.ofOption .string text) = .ok text :=
    Json.loadOption_ofOption fun part _ => ⟨by simp, rfl⟩
  have weight : Json.loadFloat (.ofFloat metadata.weight) = .ok metadata.weight :=
    Json.loadFloat_ofFloat.mpr ⟨finite, rfl⟩
  have properties :
      Json.loadDict .ok Json.loadJson (.object metadata.properties.entries) = .ok metadata.properties := by
    have read : Json.loadDict .ok Json.loadJson
        (.object (metadata.properties.entries.map fun entry => (id entry.1, id entry.2))) =
          .ok metadata.properties :=
      Json.loadDict_entries id id fun entry _ => ⟨rfl, rfl⟩
    simpa using read
  refine Json.loadRecord_ofFields ?_
  simp only [Json.Fields.read_seq, Json.Fields.read_map, Json.Fields.read_defaulted, Json.Fields.read_required,
    Json.Layout.part?_ofList]
  exact ⟨_, _, ⟨_, _, ⟨_, _, ⟨_, _, ⟨_, .inl ⟨_, rfl, texts metadata.name⟩, rfl⟩,
    .inl ⟨_, rfl, texts metadata.description⟩, rfl⟩, .inl ⟨_, rfl, weight⟩, rfl⟩, .inl ⟨_, rfl, properties⟩, rfl⟩,
    ⟨_, rfl, Instant.load_stamp faithful⟩, rfl⟩

theorem finite_of_load_toJson {stamp : Instant → String} {other : EdgeMetadata}
    (loads : load (metadata.toJson stamp) = .ok other) : metadata.weight.isFinite = true := by
  have written : (metadata.toJson stamp).part? "weight" 2 = some (.ofFloat metadata.weight) :=
    Json.part?_ofFields "weight" 2 _
  rcases weight_part_of_load loads with ⟨part, given, number⟩ | ⟨absent, _⟩
  · obtain rfl := Option.some.inj (written.symm.trans given)
    exact (Json.loadFloat_ofFloat.mp number).1
  · rw [written] at absent
    cases absent

end EdgeMetadata

end FlowGraph

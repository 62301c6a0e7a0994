import FlowGraph.Engine.Outcome
import FlowGraph.Proofs.Json.Record
import FlowGraph.Proofs.Snapshot.History

/-!
Snapshots and suspensions that are written and loaded again. Whatever is written loads as it was, as long as its
numbers fit into 64 bits and its stamps can be read; and what loads, from either layout of its records and with
blanks around its identifiers, has just the position and the revision that the document gives.
-/

namespace FlowGraph

namespace Ident
variable {kind : IdentKind}

theorem ofText?_eq_some {text : String} {ident : Ident kind} :
    ofText? text = some ident ↔ ident.text = Text.trim text := by
  unfold ofText?
  split
  · rename_i blank
    simp only [reduceCtorEq, false_iff, blank]
    exact ident.nonempty
  · simp only [Option.some.injEq]
    exact ⟨fun same => same ▸ rfl, fun same => ext_text same.symm⟩

theorem load_eq_ok {json : Json} {ident : Ident kind} :
    load json = .ok ident ↔ ∃ text, json = .string text ∧ ident.text = Text.trim text := by
  unfold load
  split
  · rename_i text
    have same : (loadText text : Except String (Ident kind)) = .ok ident ↔ ofText? text = some ident := by
      unfold loadText ofText
      cases (ofText? text : Option (Ident kind)) <;> simp [Except.mapError]
    rw [same, ofText?_eq_some]
    simp
  · rename_i other
    simp only [Json.mismatch, reduceCtorEq, false_iff, not_exists, not_and]
    exact fun text same => (other text same).elim

theorem load_toJson (ident : Ident kind) : load ident.toJson = .ok ident :=
  load_eq_ok.mpr ⟨ident.text, rfl, ident.trimmed.symm⟩

theorem loadText_text (ident : Ident kind) : loadText ident.text = .ok ident := ident.load_toJson

end Ident

namespace Span

theorem ofParts?_self {span : Span} (small : span.seconds < Json.wordLimit) :
    ofParts? span.seconds span.nanos = some span := by
  have bound := span.nanos_lt
  have whole : span.seconds + span.nanos / 1000000000 = span.seconds := by omega
  have part : span.nanos % 1000000000 = span.nanos := Nat.mod_eq_of_lt bound
  simp only [ofParts?, whole, part]
  exact if_pos small

theorem loadParts_toJson {span : Span} (small : span.seconds < Json.wordLimit) :
    loadParts span.toJson = .ok (span.seconds, span.nanos) := by
  have bound := span.nanos_lt
  have nanos : loadNanos (.ofNat span.nanos) = .ok span.nanos := by
    have fits : (0 : Int) ≤ span.nanos ∧ (span.nanos : Int) ≤ 0xFFFFFFFF := by omega
    simp [loadNanos, Json.loadInt, Json.ofNat, fits, Except.map]
  refine Json.loadRecord_ofFields ?_
  simp only [Json.Fields.read_seq, Json.Fields.read_map, Json.Fields.read_required, Json.Layout.part?_ofList]
  exact ⟨_, _, ⟨_, ⟨_, rfl, Json.loadNat_ofNat small⟩, rfl⟩, ⟨_, rfl, nanos⟩, rfl⟩

theorem load_toJson {span : Span} (small : span.seconds < Json.wordLimit) : load span.toJson = .ok span := by
  have parts := loadParts_toJson small
  have known : (Dict.ofList [("secs", Json.ofNat span.seconds), ("nanos", .ofNat span.nanos)]).entries.any
      (fun field => field.1 != "secs" && field.1 != "nanos") = false := by
    rw [List.any_eq_false]
    intro field member
    rcases Dict.fst_mem_insertAll _ member with among | nothing
    · simp only [List.map_cons, List.map_nil, List.mem_cons, List.not_mem_nil, or_false] at among
      rcases among with same | same <;> simp [same]
    · cases nothing
  simp only [toJson, Json.ofFields] at parts ⊢
  simp only [load, known, parts, ofParts?_self small, bind, Except.bind]
  rfl

end Span

theorem Instant.load_stamp {stamp : Instant → String} {instant : Instant}
    (faithful : ofStamp (stamp instant) = some instant) : load (.string (stamp instant)) = .ok instant := by
  simp only [load, faithful]

namespace Position

def fields (position : Position) : Fields :=
  ⟨position.current, position.previous, position.visited, position.traversals, position.depth⟩

theorem visited_eq_append (position : Position) :
    position.visited = position.behind.reverse ++ [position.current] := by
  rw [visited, List.reverse_cons]

theorem ofFields_eq_ok {fields : Fields} {position : Position} :
    ofFields fields = .ok position ↔ fields = position.fields := by
  constructor
  · intro made
    unfold ofFields at made
    split at made
    · cases made
    rename_i last behind history
    split at made
    · cases made
    rename_i current
    split at made
    · cases made
    rename_i depth
    cases made
    have visited : fields.visited = behind.reverse ++ [fields.current] := by
      rw [← Classical.not_not.mp current, ← List.reverse_cons, ← history, List.reverse_reverse]
    cases fields
    simp only [Position.fields, visited_eq_append, Position.depth] at visited depth ⊢
    rw [visited, Classical.not_not.mp depth]
  · rintro rfl
    have history : position.visited.reverse = position.current :: position.behind := List.reverse_reverse _
    simp only [ofFields, fields, history, ne_eq, not_true_eq_false, ↓reduceIte, depth]

theorem load_eq_ok {json : Json} {position : Position} :
    load json = .ok position ↔ loadFields json = .ok position.fields := by
  unfold load
  cases loadFields json with
  | error message => simp [bind, Except.bind]
  | ok fields => simp [bind, Except.bind, Json.mapError_eq_ok, ofFields_eq_ok]

def instants (position : Position) : List Instant := position.traversals.entries.map Prod.snd

theorem load_toJson {stamp : Instant → String} {position : Position} (small : position.depth < Json.wordLimit)
    (faithful : ∀ instant ∈ position.instants, Instant.ofStamp (stamp instant) = some instant) :
    load (position.toJson stamp) = .ok position := by
  have previous : Json.loadOption Ident.load (Json.ofOption Ident.toJson position.previous) =
      .ok position.previous :=
    Json.loadOption_ofOption fun part _ => ⟨by simp [Ident.toJson], part.load_toJson⟩
  have visited : Json.loadList Ident.load (.array (position.visited.map Ident.toJson)) = .ok position.visited :=
    Json.loadList_map fun node _ => node.load_toJson
  have traversals : Json.loadDict Ident.loadText Instant.load
      (.object (position.traversals.entries.map fun entry => (entry.1.text, .string (stamp entry.2)))) =
        .ok position.traversals :=
    Json.loadDict_entries Ident.text (fun instant => .string (stamp instant)) fun entry member =>
      ⟨entry.1.loadText_text, Instant.load_stamp (faithful entry.2 (List.mem_map_of_mem member))⟩
  refine load_eq_ok.mpr (Json.loadRecord_ofFields ?_)
  simp only [Json.Fields.read_seq, Json.Fields.read_map, Json.Fields.read_required, Json.Layout.part?_ofList]
  exact ⟨_, _, ⟨_, _, ⟨_, _, ⟨_, _, ⟨_, ⟨_, rfl, position.current.load_toJson⟩, rfl⟩,
    Json.Fields.read_of_part (Json.Layout.part?_ofList _ _ _) previous, rfl⟩, ⟨_, rfl, visited⟩, rfl⟩,
    Json.Fields.read_of_part (Json.Layout.part?_ofList _ _ _) traversals, rfl⟩,
    ⟨_, rfl, Json.loadNat_ofNat small⟩, rfl⟩

end Position

namespace Revision

theorem withVersion_eq_ok {version : Nat} {created modified : Instant} {revision : Revision} :
    withVersion version created modified = .ok revision ↔
      (version, created, modified) = (revision.version, revision.created, revision.modified) := by
  constructor
  · intro made
    unfold withVersion at made
    split at made
    · split at made
      · cases made
        rfl
      · cases made
    · cases made
  · intro same
    cases same
    simp only [withVersion, revision.version_pos, revision.ordered, ↓reduceDIte]

theorem load_eq_ok {json : Json} {revision : Revision} :
    load json = .ok revision ↔
      loadFields json = .ok (revision.version, revision.created, revision.modified) := by
  unfold load
  cases loadFields json with
  | error message => simp [bind, Except.bind]
  | ok fields =>
      obtain ⟨version, created, modified⟩ := fields
      simp only [bind, Except.bind, Json.mapError_eq_ok, withVersion_eq_ok, Except.ok.injEq]

theorem load_toJson {stamp : Instant → String} {revision : Revision} (small : revision.version < Json.wordLimit)
    (created : Instant.ofStamp (stamp revision.created) = some revision.created)
    (modified : Instant.ofStamp (stamp revision.modified) = some revision.modified) :
    load (revision.toJson stamp) = .ok revision := by
  refine load_eq_ok.mpr (Json.loadRecord_ofFields ?_)
  simp only [Json.Fields.read_seq, Json.Fields.read_map, Json.Fields.read_required, Json.Layout.part?_ofList]
  exact ⟨_, _, ⟨_, _, ⟨_, ⟨_, rfl, Json.loadNat_ofNat small⟩, rfl⟩, ⟨_, rfl, Instant.load_stamp created⟩, rfl⟩,
    ⟨_, rfl, Instant.load_stamp modified⟩, rfl⟩

end Revision

namespace Context

theorem Entry.load_toJson (entry : Entry) : Entry.load entry.toJson = .ok entry := by
  refine Json.loadRecord_ofFields ?_
  simp only [Json.Fields.read_seq, Json.Fields.read_map, Json.Fields.read_required, Json.Layout.part?_ofList]
  exact ⟨_, _, ⟨_, ⟨_, rfl, rfl⟩, rfl⟩, ⟨_, rfl, rfl⟩, rfl⟩

theorem load_toJson (context : Context) : load context.toJson = .ok context := by
  have entries : Json.loadDict .ok Entry.load context.entriesJson = .ok context.entries :=
    Json.loadDict_entries id Entry.toJson fun entry _ => ⟨rfl, entry.2.load_toJson⟩
  refine Json.loadRecord_ofFields ?_
  simp only [Json.Fields.read_map, Json.Fields.read_required, Json.Layout.part?_ofList]
  exact ⟨_, ⟨_, rfl, entries⟩, rfl⟩

end Context

namespace Snapshot
variable {S : Type} {snapshot : Snapshot S}

def instants (snapshot : Snapshot S) : List Instant :=
  snapshot.revision.created :: snapshot.revision.modified ::
    snapshot.position.toList.flatMap Position.instants

def names (snapshot : Snapshot S) : List String :=
  snapshot.workflow.text :: snapshot.position.toList.flatMap fun position =>
    position.current.text :: position.previous.toList.map Ident.text ++ position.visited.map Ident.text ++
      position.traversals.entries.map fun entry => entry.1.text

/-- The numbers of the snapshot fit into 64 bits. -/
structure InRange (snapshot : Snapshot S) : Prop where
  version : snapshot.version < Json.wordLimit
  depth : snapshot.depth < Json.wordLimit

/-- The stamps that stand for the instants of the snapshot can be read. -/
def StampedBy (stamp : Instant → String) (snapshot : Snapshot S) : Prop :=
  ∀ instant ∈ snapshot.instants, Instant.ofStamp (stamp instant) = some instant

structure Sound (snapshot : Snapshot S) : Prop where
  history : ∀ position, snapshot.position = some position → position.visited ≠ [] ∧
    position.visited.getLast? = some position.current ∧ position.visited.length = position.depth + 1
  version : 1 ≤ snapshot.version
  ordered : snapshot.revision.modified.before snapshot.revision.created = false
  names : ∀ name ∈ snapshot.names, Text.trim name = name ∧ name ≠ ""

theorem sound (snapshot : Snapshot S) : snapshot.Sound where
  history position _ :=
    ⟨by simp [Position.visited], position.getLast?_visited, position.length_visited⟩
  version := snapshot.revision.version_pos
  ordered := snapshot.revision.ordered
  names name member := by
    have known {kind : IdentKind} (ident : Ident kind) : Text.trim ident.text = ident.text ∧ ident.text ≠ "" :=
      ⟨ident.trimmed, ident.nonempty⟩
    simp only [Snapshot.names, List.mem_cons, List.mem_flatMap, List.mem_append, List.mem_map] at member
    rcases member with rfl | ⟨position, _, ((rfl | ⟨node, _, rfl⟩) | ⟨node, _, rfl⟩) | ⟨entry, _, rfl⟩⟩
    · exact known _
    · exact known _
    · exact known node
    · exact known node
    · exact known entry.1

theorem load_toJson {stamp : Instant → String} {write : S → Json} {load : Json.Load S}
    (fits : snapshot.InRange) (stamped : snapshot.StampedBy stamp)
    (reads : load (write snapshot.data) = .ok snapshot.data) :
    Snapshot.load load (snapshot.toJson stamp write) = .ok snapshot := by
  have position : Json.loadOption Position.load (Json.ofOption (Position.toJson stamp) snapshot.position) =
      .ok snapshot.position := by
    refine Json.loadOption_ofOption fun position found => ⟨by simp [Position.toJson, Json.ofFields], ?_⟩
    refine Position.load_toJson ?_ fun instant member => stamped instant ?_
    · have depth := fits.depth
      rwa [Snapshot.depth, found] at depth
    · simp [instants, found, member]
  have revision : Revision.load (snapshot.revision.toJson stamp) = .ok snapshot.revision :=
    Revision.load_toJson fits.version (stamped _ (by simp [instants])) (stamped _ (by simp [instants]))
  refine Json.loadRecord_ofFields ?_
  simp only [Json.Fields.read_seq, Json.Fields.read_map, Json.Fields.read_required, Json.Layout.part?_ofList]
  exact ⟨_, _, ⟨_, _, ⟨_, _, ⟨_, _, ⟨_, ⟨_, rfl, snapshot.workflow.load_toJson⟩, rfl⟩, ⟨_, rfl, reads⟩, rfl⟩,
    ⟨_, rfl, snapshot.context.load_toJson⟩, rfl⟩,
    Json.Fields.read_of_part (Json.Layout.part?_ofList _ _ _) position, rfl⟩, ⟨_, rfl, revision⟩, rfl⟩

end Snapshot

namespace Suspension
variable {S : Type} {suspension : Suspension S}

structure InRange (suspension : Suspension S) : Prop where
  timeout : ∀ span, suspension.timeout = some span → span.seconds < Json.wordLimit
  snapshot : suspension.snapshot.InRange

theorem load_toJson {stamp : Instant → String} {write : S → Json} {load : Json.Load S}
    (fits : suspension.InRange) (stamped : suspension.snapshot.StampedBy stamp)
    (reads : load (write suspension.snapshot.data) = .ok suspension.snapshot.data) :
    Suspension.load load (suspension.toJson stamp write) = .ok suspension := by
  have timeout : Json.loadOption Span.load (Json.ofOption Span.toJson suspension.timeout) =
      .ok suspension.timeout :=
    Json.loadOption_ofOption fun span found =>
      ⟨by simp [Span.toJson, Json.ofFields], Span.load_toJson (fits.timeout span found)⟩
  refine Json.loadRecord_ofFields ?_
  simp only [Json.Fields.read_seq, Json.Fields.read_map, Json.Fields.read_required, Json.Layout.part?_ofList]
  exact ⟨_, _, ⟨_, _, ⟨_, _, ⟨_, ⟨_, rfl, rfl⟩, rfl⟩, ⟨_, rfl, rfl⟩, rfl⟩,
    Json.Fields.read_of_part (Json.Layout.part?_ofList _ _ _) timeout, rfl⟩,
    ⟨_, rfl, Snapshot.load_toJson fits.snapshot stamped reads⟩, rfl⟩

end Suspension
end FlowGraph

import FlowGraph.Proofs.Graph.EdgeMetadata

/-! Which weights an edge may come to have, and which metadata survive being stored. -/

namespace FlowGraph.EdgeMetadata

/-- Changes can be made just if no weight that they give is below zero or not a number, so whatever begins with new
metadata keeps to such weights. Metadata that were loaded do so just if a weight was given since, or if the document
states none or one that is at least zero. -/
theorem weights_at_least_zero_iff (changes : List Change) :
    (∀ start : EdgeMetadata, (∃ metadata, start.changed changes = .ok metadata) ↔
      ∀ given, Change.weight given ∈ changes → given.atLeastZero = true) ∧
    (∀ now metadata, (new now).changed changes = .ok metadata → metadata.weight.atLeastZero = true) ∧
    ∀ json start metadata, load json = .ok start → start.changed changes = .ok metadata →
      (metadata.weight.atLeastZero = true ↔ (∃ given, Change.weight given ∈ changes) ∨
        ∀ stated, statedWeight json = some stated → stated.atLeastZero = true) := by
  refine ⟨fun _ => changed_succeeds_iff, fun _ _ => atLeastZero_of_new, ?_⟩
  intro json start metadata loads made
  have first : start.weight.atLeastZero = true ↔
      ∀ stated, statedWeight json = some stated → stated.atLeastZero = true := by
    rw [weight_of_load loads]
    cases statedWeight json with
    | none => simp [one_atLeastZero]
    | some stated => simp
  rw [atLeastZero_of_changed made, first]

section

def opened : Instant := ⟨1577934245, 0⟩

def belowZero : Json :=
  .object [("created_at", .string "2020-01-02T03:04:05Z"), ("weight", .float ⟨0xBFF0000000000000⟩)]

def loadedBelowZero : EdgeMetadata := ⟨none, none, ⟨0xBFF0000000000000⟩, .empty, opened⟩

theorem weight_is_repaired : load belowZero = .ok loadedBelowZero ∧
    ∃ metadata, loadedBelowZero.changed [.weight .zero, .property "lane" (.string "fast")] = .ok metadata ∧
      metadata.weight.atLeastZero = true := by
  obtain ⟨succeeds, _, loaded⟩ := weights_at_least_zero_iff [.weight .zero, .property "lane" (.string "fast")]
  have loads : load belowZero = .ok loadedBelowZero := rfl
  obtain ⟨metadata, made⟩ := (succeeds loadedBelowZero).mpr <| by
    intro given member
    simp only [List.mem_cons, Change.weight.injEq, reduceCtorEq, List.not_mem_nil, or_false] at member
    subst member
    decide
  exact ⟨loads, metadata, made, (loaded _ _ _ loads made).mpr (.inl ⟨.zero, List.mem_cons_self⟩)⟩

/-- A weight below zero is loaded like any other. -/
theorem load_accepts_weight_below_zero :
    ∃ metadata, load belowZero = .ok metadata ∧ metadata.weight.atLeastZero = false :=
  ⟨loadedBelowZero, rfl, by decide +kernel⟩

end

/-- What is written of metadata that began as new ones loads as it was just if the last weight that was given is
finite, and an infinite one leaves nothing that could be loaded. The only thing taken for granted is that the
stamp of the instant can be read again. -/
theorem metadata_survive_storage_iff (stamp : Instant → String) (now : Instant)
    (faithful : Instant.ofStamp (stamp now) = some now) (changes : List Change) (metadata : EdgeMetadata)
    (made : (new now).changed changes = .ok metadata) :
    (load (metadata.toJson stamp) = .ok metadata ↔ lastWeight changes ≠ some .infinity) ∧
      (lastWeight changes = some .infinity → ∃ message, load (metadata.toJson stamp) = .error message) := by
  obtain ⟨weight, created⟩ := kept_of_changed made
  have readable : Instant.ofStamp (stamp metadata.created) = some metadata.created := by
    rw [created]
    exact faithful
  have infinite : metadata.weight = .infinity ↔ lastWeight changes = some .infinity := by
    rw [weight]
    cases lastWeight changes with
    | none =>
        have standard : (new now).weight ≠ .infinity := by
          show one ≠ .infinity
          decide +kernel
        simp [standard]
    | some given => simp
  have finite : metadata.weight.isFinite = true ↔ lastWeight changes ≠ some .infinity := by
    rw [Binary64.finite_iff_ne_infinity (atLeastZero_of_new made), Ne, infinite]
  constructor
  · constructor
    · intro loads
      exact finite.mp (finite_of_load_toJson loads)
    · intro given
      exact load_toJson (finite.mpr given) readable
  · intro given
    cases loads : load (metadata.toJson stamp) with
    | error message => exact ⟨message, rfl⟩
    | ok other => exact absurd given (finite.mp (finite_of_load_toJson loads))

section

def slight : EdgeMetadata :=
  ⟨some "", none, ⟨1⟩, .ofList [("lane", .array [.null, .float ⟨0x8000000000000000⟩])], opened⟩

theorem slight_survives_storage :
    (new opened).changed [.weight .infinity, .property "lane" (.array [.null, .float ⟨0x8000000000000000⟩]),
        .weight ⟨1⟩, .name ""] = .ok slight ∧
      Instant.ofStamp (Instant.stamp opened) = some opened ∧
        load (slight.toJson Instant.stamp) = .ok slight := by
  have made : (new opened).changed [.weight .infinity,
      .property "lane" (.array [.null, .float ⟨0x8000000000000000⟩]), .weight ⟨1⟩, .name ""] = .ok slight := rfl
  have faithful : Instant.ofStamp (Instant.stamp opened) = some opened := by decide +kernel
  exact ⟨made, faithful,
    (metadata_survive_storage_iff Instant.stamp opened faithful _ slight made).1.mpr (by decide)⟩

/-- An infinite weight is accepted when it is given, but metadata with it do not load again. -/
theorem infinite_weight_is_not_loaded :
    ∃ metadata, (new opened).changed [.weight .infinity] = .ok metadata ∧
      load (metadata.toJson Instant.stamp) = .error "unexpected value" :=
  ⟨{ new opened with weight := .infinity }, rfl, rfl⟩

end

end FlowGraph.EdgeMetadata

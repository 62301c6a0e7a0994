import FlowGraph.Proofs.Containment.Loop
import FlowGraph.Proofs.Graph.Topology

/-!
From a blueprint to a workflow. A graph is accepted just if it is well-formed, and a workflow is built from it
just if there is also something that makes its output. What is built starts where the blueprint says and gives
the same report as the blueprint.
-/

namespace FlowGraph
variable {W S O : Type} {nodes : List (Node W S)} {edges : List (Edge S)} {defaultEntry : Option NodeId}

theorem Command.foldl_distinct (more : List NodeId) (unique : more.Nodup) : ∀ kept : List NodeId,
    more.foldl (fun kept node => if kept.contains node then kept else kept ++ [node]) kept =
      kept ++ more.filter fun node => node ∉ kept := by
  induction more with
  | nil => simp
  | cons node rest ih =>
      intro kept
      obtain ⟨new, unique⟩ := List.nodup_cons.mp unique
      by_cases known : node ∈ kept
      · rw [List.foldl_cons, if_pos (by simpa using known), ih unique,
          List.filter_cons_of_neg (by simpa using known)]
      · have same : rest.filter (fun other => other ∉ kept ++ [node]) = rest.filter fun other => other ∉ kept := by
          refine List.filter_congr fun other member => ?_
          have apart : other ≠ node := fun same => new (same ▸ member)
          simp [apart]
        rw [List.foldl_cons, if_neg (by simpa using known), ih unique, same,
          List.filter_cons_of_pos (by simpa using known), List.append_assoc, List.singleton_append]

theorem Command.distinct_entries {declared : List NodeId} (unique : declared.Nodup) (chosen : Option NodeId) :
    distinct (chosen.toList ++ declared) = chosen.toList ++ declared.filter fun id => some id ≠ chosen := by
  rw [distinct, List.foldl_append, foldl_distinct _ unique]
  cases chosen with
  | none => simp
  | some id => simp

namespace Topology
variable {topology : Topology W S}

/-- The topology has its entry points in their order, starts at the first of them, and is checked as the parts
are. -/
structure Reflects (topology : Topology W S) (nodes : List (Node W S)) (edges : List (Edge S))
    (defaultEntry : Option NodeId) : Prop where
  entry : some topology.entry = defaultEntry.or ((nodes.find? Node.isEntryPoint).map Node.id)
  entryPoints : topology.entryPoints =
    defaultEntry.toList ++ (Graph.declaredEntries nodes).filter fun id => some id ≠ defaultEntry
  distinct : topology.entryPoints.Nodup
  report : topology.validate = Graph.validate nodes edges defaultEntry

theorem head?_entries (defaultEntry : Option NodeId) (distinct : (nodes.map Node.id).Nodup) :
    (Command.distinct (defaultEntry.toList ++ Graph.declaredEntries nodes)).head? =
      defaultEntry.or ((nodes.find? Node.isEntryPoint).map Node.id) := by
  rw [Command.distinct_entries (Graph.nodup_declaredEntries distinct), List.head?_append]
  cases defaultEntry with
  | none => simp [Graph.head?_declaredEntries]
  | some id => simp

theorem nodup_entries (defaultEntry : Option NodeId) (distinct : (nodes.map Node.id).Nodup) :
    (Command.distinct (defaultEntry.toList ++ Graph.declaredEntries nodes)).Nodup := by
  have declared := Graph.nodup_declaredEntries distinct
  rw [Command.distinct_entries declared]
  cases defaultEntry with
  | none => simpa using declared
  | some id => simpa using declared.sublist List.filter_sublist

theorem build_of_wellFormed (wellFormed : Graph.WellFormed nodes edges defaultEntry) :
    ∃ topology, build nodes edges defaultEntry = .ok topology := by
  have valid : (Graph.validate nodes edges defaultEntry).isValid = true :=
    List.isEmpty_iff.mpr (Graph.validate_errors_eq_nil_iff.mpr wellFormed)
  simp only [build, valid, Bool.not_true, Bool.false_eq_true, ↓reduceIte]
  split
  · rename_i nowhere
    have first := head?_entries defaultEntry wellFormed.distinctNodes
    rw [nowhere, List.head?_nil, eq_comm, Option.or_eq_none_iff, Option.map_eq_none_iff, List.find?_eq_none] at first
    rcases wellFormed.entered with given | ⟨node, member, declared⟩
    · rw [first.1] at given
      cases given
    · exact absurd declared (first.2 node member)
  · exact ⟨_, rfl⟩

theorem reflects_build (built : build nodes edges defaultEntry = .ok topology) :
    topology.Reflects nodes edges defaultEntry := by
  have distinct := (wellFormed_of_build built).distinctNodes
  have first := head?_entries defaultEntry distinct
  have unique := nodup_entries defaultEntry distinct
  have listed := Command.distinct_entries (Graph.nodup_declaredEntries distinct) defaultEntry
  simp only [build] at built
  split at built
  · cases built
  split at built
  · cases built
  · rename_i entry others found
    cases built
    rw [found] at first unique listed
    exact ⟨first, listed, unique, rfl⟩

end Topology

namespace Blueprint
variable {blueprint : Blueprint W S O}

theorem isValid_iff : blueprint.validate.isValid = true ↔
    Graph.WellFormed blueprint.nodes blueprint.edges blueprint.defaultEntry :=
  List.isEmpty_iff.trans Graph.validate_errors_eq_nil_iff

theorem build_of_not_wellFormed
    (broken : ¬Graph.WellFormed blueprint.nodes blueprint.edges blueprint.defaultEntry) :
    blueprint.build = .error (.validation blueprint.validate.errors) := by
  have invalid : blueprint.validate.isValid = false := Bool.eq_false_iff.mpr (mt isValid_iff.mp broken)
  simp [build, invalid, bind, Except.bind, throw, throwThe, MonadExceptOf.throw]

theorem build_without_extractor
    (wellFormed : Graph.WellFormed blueprint.nodes blueprint.edges blueprint.defaultEntry)
    (missing : blueprint.extractor = none) : blueprint.build = .error .missingOutputExtractor := by
  simp [build, isValid_iff.mpr wellFormed, missing, throw, throwThe, MonadExceptOf.throw]

/-- A graph is free of errors just if it is well-formed. A workflow is built from it just if there is an
extractor as well, and otherwise the errors of the graph come first. The workflow reflects the blueprint. -/
theorem builds_well_formed_graphs (blueprint : Blueprint W S O) :
    (blueprint.validate.errors = [] ↔
      Graph.WellFormed blueprint.nodes blueprint.edges blueprint.defaultEntry) ∧
    ((∃ workflow, blueprint.build = .ok workflow) ↔
      Graph.WellFormed blueprint.nodes blueprint.edges blueprint.defaultEntry ∧ blueprint.extractor.isSome) ∧
    (¬Graph.WellFormed blueprint.nodes blueprint.edges blueprint.defaultEntry →
      blueprint.build = .error (.validation blueprint.validate.errors)) ∧
    (Graph.WellFormed blueprint.nodes blueprint.edges blueprint.defaultEntry → blueprint.extractor = none →
      blueprint.build = .error .missingOutputExtractor) ∧
    ∀ workflow, blueprint.build = .ok workflow →
      workflow.engine.topology.Reflects blueprint.nodes blueprint.edges blueprint.defaultEntry := by
  refine ⟨Graph.validate_errors_eq_nil_iff, ?_, build_of_not_wellFormed, build_without_extractor, ?_⟩
  · constructor
    · rintro ⟨workflow, built⟩
      obtain ⟨extractor, topology, given, found, _⟩ := build_eq_ok.mp built
      exact ⟨Topology.wellFormed_of_build found, Option.isSome_iff_exists.mpr ⟨extractor, given⟩⟩
    · rintro ⟨wellFormed, some⟩
      obtain ⟨extractor, given⟩ := Option.isSome_iff_exists.mp some
      obtain ⟨topology, found⟩ := Topology.build_of_wellFormed wellFormed
      exact ⟨_, build_eq_ok.mpr ⟨extractor, topology, given, found, rfl⟩⟩
  · exact fun workflow built => Topology.reflects_build (build_topology built)

section

def counterNode : NodeId := ⟨"counter", by decide +kernel, by decide⟩
def officeNode : NodeId := ⟨"office", by decide +kernel, by decide⟩
def depotNode : NodeId := ⟨"depot", by decide +kernel, by decide⟩

def shop (extractor : Option (Snapshot String → Effect Unit (Attempt String))) : Blueprint Unit String String where
  name := none
  nodes :=
    [(Node.new counterNode fun _ => .never).asEntryPoint, Node.new officeNode fun _ => .never,
      (Node.new depotNode fun _ => .never).asEntryPoint]
  edges :=
    [.new ⟨"order", by decide +kernel, by decide⟩ counterNode officeNode .always default,
      .new ⟨"delivery", by decide +kernel, by decide⟩ officeNode depotNode .always default]
  defaultEntry := some depotNode
  extractor
  monitors := []
  executor := .pure true
  merger := .lastWriterWins
  ids := fun _ => .pure "run"
  tracer := fun _ => .pure ()
  timers := none
  config := {}

theorem shop_opens_at_depot : (shop none).build = .error .missingOutputExtractor ∧
    ∃ workflow, (shop (some fun snapshot => .pure (.ok snapshot.data))).build = .ok workflow ∧
      workflow.engine.topology.entry = depotNode ∧ workflow.engine.topology.entryPoints = [depotNode, counterNode] ∧
      workflow.engine.topology.validate = (shop none).validate := by
  have fine : (shop none).validate.errors = [] := by decide +kernel
  obtain ⟨accepted, _, _, missing, _⟩ := builds_well_formed_graphs (shop none)
  obtain ⟨_, builds, _, _, reflects⟩ :=
    builds_well_formed_graphs (shop (some fun snapshot => .pure (.ok snapshot.data)))
  obtain ⟨workflow, built⟩ := builds.mpr ⟨accepted.mp fine, rfl⟩
  have same := reflects workflow built
  exact ⟨missing (accepted.mp fine) rfl, workflow, built, Option.some.inj same.entry, same.entryPoints, same.report⟩

end

end Blueprint

end FlowGraph

import FlowGraph.Proofs.Containment.Loop
import FlowGraph.Proofs.Program.Calls
import FlowGraph.Proofs.Workflow.Noting

/-!
Monitors only observe. Whoever looks on, and however their callbacks end, a run comes to the same result at the
same time; and every monitor is called with the same notices in the same order, whatever the others do.
-/

namespace FlowGraph
variable {W V S O : Type}

namespace Effect
variable {α : Type} {same : W → W → Prop}

theorem Respects.beside {N : Type} {effect : Effect W α} (respects : effect.Respects same) (alike : N → N → Prop) :
    (effect.beside N).Respects fun one other => same one.1 other.1 ∧ alike one.2 other.2 := by
  rintro time ⟨world, notes⟩ ⟨view, others⟩ ⟨looks, kept⟩
  obtain ⟨value, later⟩ := respects time world view looks
  exact ⟨value, later, kept⟩

end Effect

theorem Activity.Calls.beside {N α : Type} {good : ∀ {γ : Type}, Effect W γ → Prop}
    {fine : ∀ {γ : Type}, Effect (W × N) γ → Prop} {activity : Activity W α} (calls : activity.Calls good)
    (lifts : ∀ {γ : Type} (effect : Effect W γ), good effect → fine (effect.beside N)) :
    (activity.beside N).Calls fine := by
  induction activity with
  | done value => trivial
  | call effect next ih =>
      exact ⟨lifts effect calls.1, fun value gives => ih value (calls.2 value (Effect.gives_of_beside gives))⟩
  | sleep millis next ih => exact ih () calls
  | broken panic => trivial
  | never => trivial

theorem Node.Calls.beside {N : Type} {good : ∀ {γ : Type}, Effect W γ → Prop}
    {fine : ∀ {γ : Type}, Effect (W × N) γ → Prop} {node : Node W S} (calls : node.Calls good)
    (lifts : ∀ {γ : Type} (effect : Effect W γ), good effect → fine (effect.beside N)) :
    (node.beside N).Calls fine where
  process snapshot := (calls.process snapshot).beside lifts
  validate hook given snapshot := by
    obtain ⟨plain, found, rfl⟩ := Option.map_eq_some_iff.mp given
    exact lifts _ (calls.validate plain found snapshot)
  before hook given snapshot := by
    obtain ⟨plain, found, rfl⟩ := Option.map_eq_some_iff.mp given
    exact lifts _ (calls.before plain found snapshot)
  after hook given snapshot command := by
    obtain ⟨plain, found, rfl⟩ := Option.map_eq_some_iff.mp given
    exact lifts _ (calls.after plain found snapshot command)
  onError hook given snapshot error := by
    obtain ⟨plain, found, rfl⟩ := Option.map_eq_some_iff.mp given
    exact lifts _ (calls.onError plain found snapshot error)

namespace Monitor
variable {same : W → W → Prop} {tracer : Tracer W}

/-- Nobody but monitors can tell that the monitor has been called. -/
def Hidden (same : W → W → Prop) (monitor : Monitor W S) : Prop := ∀ notice, (monitor notice).Hidden same

theorem Hidden.guarded (equivalence : Equivalence same) (silent : ∀ line, (tracer line).Hidden same)
    {monitor : Monitor W S} (hidden : monitor.Hidden same) (notice : Notice S) :
    (monitor.guarded tracer notice).Hidden same := by
  refine (hidden notice).andThen equivalence ?_
  rintro (panic | _)
  · exact silent _
  · exact fun _ world => equivalence.refl world

theorem composite_hidden (equivalence : Equivalence same) (silent : ∀ line, (tracer line).Hidden same)
    {monitors : List (Monitor W S)} (hidden : ∀ monitor ∈ monitors, monitor.Hidden same) :
    (composite tracer monitors).Hidden same := by
  intro notice
  refine Effect.Hidden.map ?_ _
  induction monitors with
  | nil => exact fun _ world => equivalence.refl world
  | cons monitor rest ih =>
      refine ((hidden monitor List.mem_cons_self).guarded equivalence silent notice).andThen equivalence ?_
      exact fun _ => ih fun other later => hidden other (List.mem_cons_of_mem monitor later)

theorem tracing_hidden (equivalence : Equivalence same) (silent : ∀ line, (tracer line).Hidden same) :
    (tracing (S := S) tracer).Hidden same := by
  intro notice
  unfold tracing
  split
  · exact (silent _).map _
  · exact fun _ world => equivalence.refl world

end Monitor

abbrev CallLog (S : Type) := List (Nat × Notice S)

def CallLog.heardBy (place : Nat) (log : CallLog S) : List (Notice S) :=
  log.filterMap fun call => if call.1 = place then some call.2 else none

/-- The monitor at a place, with every call of it written down. -/
def Monitor.overheard (place : Nat) (monitor : Monitor W S) : Monitor (W × CallLog S) S := fun notice =>
  (monitor notice).noting (place, notice)

def Monitor.allOverheard (place : Nat) : List (Monitor W S) → List (Monitor (W × CallLog S) S)
  | [] => []
  | monitor :: rest => monitor.overheard place :: allOverheard (place + 1) rest

namespace Blueprint

def watchedBy (blueprint : Blueprint W S O) (monitors : List (Monitor W S)) : Blueprint W S O :=
  { blueprint with monitors }

def overheard (blueprint : Blueprint W S O) : Blueprint (W × CallLog S) S O where
  name := blueprint.name
  nodes := blueprint.nodes.map (Node.beside (CallLog S))
  edges := blueprint.edges
  defaultEntry := blueprint.defaultEntry
  extractor := blueprint.extractor.map fun extract snapshot => (extract snapshot).beside (CallLog S)
  monitors := Monitor.allOverheard 0 blueprint.monitors
  executor := blueprint.executor.beside (CallLog S)
  merger := fun base joined => (blueprint.merger base joined).beside (CallLog S)
  ids := fun kind => (blueprint.ids kind).beside (CallLog S)
  tracer := fun line => (blueprint.tracer line).beside (CallLog S)
  timers := blueprint.timers
  config := blueprint.config

/-- Every call that a run makes of anything but its monitors is good. -/
structure Calls (good : ∀ {γ : Type}, Effect W γ → Prop) (blueprint : Blueprint W S O) : Prop where
  nodes : ∀ node ∈ blueprint.nodes, node.Calls good
  executor : good blueprint.executor
  merger : ∀ base joined, good (blueprint.merger base joined)
  ids : ∀ kind, good (blueprint.ids kind)
  extractor : ∀ extract, blueprint.extractor = some extract → ∀ snapshot, good (extract snapshot)

theorem Calls.overheard {good : ∀ {γ : Type}, Effect W γ → Prop}
    {fine : ∀ {γ : Type}, Effect (W × CallLog S) γ → Prop} {blueprint : Blueprint W S O}
    (calls : blueprint.Calls good)
    (lifts : ∀ {γ : Type} (effect : Effect W γ), good effect → fine (effect.beside (CallLog S))) :
    blueprint.overheard.Calls fine where
  nodes node member := by
    obtain ⟨plain, among, rfl⟩ := List.mem_map.mp member
    exact (calls.nodes plain among).beside lifts
  executor := lifts _ calls.executor
  merger base joined := lifts _ (calls.merger base joined)
  ids kind := lifts _ (calls.ids kind)
  extractor extract given snapshot := by
    obtain ⟨plain, found, rfl⟩ := Option.map_eq_some_iff.mp given
    exact lifts _ (calls.extractor plain found snapshot)

end Blueprint

namespace Graph
variable {edges : List (Edge S)} {f : Node W S → Node V S}

theorem hasNode_map (ids : ∀ node, (f node).id = node.id) (nodes : List (Node W S)) (id : NodeId) :
    hasNode (nodes.map f) id = hasNode nodes id := by
  simp only [hasNode, List.any_map, Function.comp_def, ids]

theorem declaredEntries_map (ids : ∀ node, (f node).id = node.id)
    (metadata : ∀ node, (f node).metadata = node.metadata) (nodes : List (Node W S)) :
    declaredEntries (nodes.map f) = declaredEntries nodes := by
  have marks : Node.isEntryPoint ∘ f = Node.isEntryPoint := by
    funext node
    simp only [Function.comp_apply, Node.isEntryPoint, metadata]
  have names : Node.id ∘ f = Node.id := funext ids
  simp only [declaredEntries, List.filter_map, List.map_map, marks, names]

theorem edgesErrors_map (ids : ∀ node, (f node).id = node.id) (nodes : List (Node W S)) (edges : List (Edge S)) :
    ∀ seen, edgesErrors (nodes.map f) seen edges = edgesErrors nodes seen edges := by
  induction edges with
  | nil => exact fun _ => rfl
  | cons edge rest ih =>
      intro seen
      simp only [edgesErrors, edgeErrors, hasNode_map ids, ih]

/-- The checks look at the identifiers and the metadata of nodes only. -/
theorem validate_map (ids : ∀ node, (f node).id = node.id) (metadata : ∀ node, (f node).metadata = node.metadata)
    (nodes : List (Node W S)) (edges : List (Edge S)) (entry : Option NodeId) :
    validate (nodes.map f) edges entry = validate nodes edges entry := by
  have names : (nodes.map f).map Node.id = nodes.map Node.id := by
    simp only [List.map_map, Function.comp_def, ids]
  have known (id : NodeId) : hasNode (nodes.map f) id = hasNode nodes id := hasNode_map ids nodes id
  have entries : declaredEntries (nodes.map f) = declaredEntries nodes := declaredEntries_map ids metadata nodes
  have starts : roots (nodes.map f) entry = roots nodes entry := by
    simp only [roots, entries, funext known]
  simp only [validate, List.isEmpty_map, duplicateNodes, names, edgesErrors_map ids, entryErrors, known, entries,
    entryWarnings, unreachableWarnings, starts, List.filter_map, List.map_map, Function.comp_def, ids]

end Graph

section
variable {N : Type}

theorem Topology.nodePlaces_beside (nodes : List (Node W S)) :
    ∀ place table, nodePlaces place table (nodes.map (Node.beside N)) = nodePlaces place table nodes := by
  induction nodes with
  | nil => exact fun _ _ => rfl
  | cons node rest ih => exact fun place table => ih _ _

theorem Topology.build_beside {nodes : List (Node W S)} {edges : List (Edge S)} {defaultEntry : Option NodeId}
    {topology : Topology W S} (built : build nodes edges defaultEntry = .ok topology) :
    build (nodes.map (Node.beside N)) edges defaultEntry = .ok (topology.beside N) := by
  have report := Graph.validate_map (f := Node.beside N) (fun _ => rfl) (fun _ => rfl) nodes edges defaultEntry
  have entries := Graph.declaredEntries_map (f := Node.beside N) (fun _ => rfl) (fun _ => rfl) nodes
  simp only [build, report, entries, nodePlaces_beside] at built ⊢
  split at built
  · cases built
  · rename_i valid
    rw [if_neg valid]
    split at built
    · cases built
    · cases built
      rfl

end

namespace CallLog

theorem heardBy_append (place : Nat) (log more : CallLog S) :
    (log ++ more).heardBy place = log.heardBy place ++ more.heardBy place := List.filterMap_append

def toAll (notice : Notice S) (first count : Nat) : CallLog S :=
  (List.range' first count).map fun place => (place, notice)

theorem heardBy_toAll (notice : Notice S) (place count : Nat) :
    ∀ first, (toAll notice first count).heardBy place =
      if first ≤ place ∧ place < first + count then [notice] else [] := by
  induction count with
  | zero =>
      intro first
      rw [if_neg (by omega)]
      rfl
  | succ count ih =>
      intro first
      have rest := ih (first + 1)
      simp only [toAll, heardBy, List.range'_succ, List.map_cons] at rest ⊢
      by_cases here : first = place
      · subst here
        simp only [List.filterMap_cons, ↓reduceIte]
        rw [rest, if_neg (by omega), if_pos (by omega)]
      · simp only [List.filterMap_cons, here, ↓reduceIte]
        rw [rest]
        exact if_congr (by omega) rfl rfl

end CallLog

namespace Monitor

def besideLog (tracer : Tracer W) : Tracer (W × CallLog S) := fun line => (tracer line).beside (CallLog S)

theorem guarded_overheard (tracer : Tracer W) (place : Nat) (monitor : Monitor W S) (notice : Notice S) (time : Nat)
    (world : W) (log : CallLog S) :
    (monitor.overheard place).guarded (besideLog tracer) notice time (world, log) =
      ((), (monitor.guarded tracer notice time world).2, log ++ [(place, notice)]) := by
  simp only [guarded, Effect.andThen, overheard, Effect.noting]
  cases (monitor notice time world).1 <;> rfl

theorem composite_overheard (tracer : Tracer W) (monitors : List (Monitor W S)) (notice : Notice S) (time : Nat) :
    ∀ (place : Nat) (world : W) (log : CallLog S),
      composite (besideLog tracer) (allOverheard place monitors) notice time (world, log) =
        (.ok (), (composite tracer monitors notice time world).2,
          log ++ CallLog.toAll notice place monitors.length) := by
  induction monitors with
  | nil =>
      intro place world log
      simp only [CallLog.toAll, List.length_nil, List.range'_zero, List.map_nil, List.append_nil]
      rfl
  | cons monitor rest ih =>
      intro place world log
      have first := guarded_overheard tracer place monitor notice time world log
      have others := ih (place + 1) (monitor.guarded tracer notice time world).2 (log ++ [(place, notice)])
      simp only [composite, Effect.map, Effect.each, Effect.andThen, allOverheard] at others ⊢
      rw [first]
      simp only
      rw [others]
      simp [CallLog.toAll, List.range'_succ]

end Monitor

namespace Blueprint

/-- Whatever the monitors do, each of them is called with the notice, once and in order. -/
theorem observer_overheard (blueprint : Blueprint W S O) (notice : Notice S) (time : Nat) (world : W)
    (log : CallLog S) :
    blueprint.overheard.observer notice time (world, log) =
      ((), (blueprint.observer notice time world).2,
        log ++ CallLog.toAll notice 0 blueprint.monitors.length) := by
  obtain ⟨name, nodes, edges, defaultEntry, extractor, monitors, executor, merger, ids, tracer, timers, config⟩ :=
    blueprint
  match monitors with
  | [] =>
      simp only [observer, monitor, overheard, Monitor.allOverheard, Monitor.guarded, Monitor.tracing,
        CallLog.toAll, List.length_nil, List.range'_zero, List.map_nil, List.append_nil, Effect.andThen]
      cases Monitor.line? notice <;> rfl
  | [lone] => exact Monitor.guarded_overheard tracer 0 lone notice time world log
  | first :: second :: rest =>
      have all := Monitor.composite_overheard tracer (first :: second :: rest) notice time 0 world log
      have settled : (Monitor.composite tracer (first :: second :: rest) notice time world).1 = .ok () := rfl
      change Monitor.guarded (Monitor.besideLog tracer) (Monitor.composite (Monitor.besideLog tracer)
        (Monitor.allOverheard 0 (first :: second :: rest))) notice time (world, log) = _
      simp only [Monitor.guarded, Effect.andThen, all, observer, monitor, settled]
      rfl

/-- Every one of so many monitors has been called with these notices, in this order. -/
def HeardByAll (count : Nat) (told : List (Notice S)) (log : CallLog S) : Prop :=
  ∀ place < count, log.heardBy place = told

theorem HeardByAll.toAll {count : Nat} {told : List (Notice S)} {log : CallLog S} (heard : HeardByAll count told log)
    (notice : Notice S) : HeardByAll count (told ++ [notice]) (log ++ CallLog.toAll notice 0 count) := by
  intro place among
  rw [CallLog.heardBy_append, CallLog.heardBy_toAll, heard place among, if_pos ⟨Nat.zero_le _, by omega⟩]

def HeardAlike (same : W → W → Prop) (count otherCount : Nat) (one other : W × CallLog S) : Prop :=
  same one.1 other.1 ∧ ∃ told, HeardByAll count told one.2 ∧ HeardByAll otherCount told other.2

theorem HeardAlike.blank {same : W → W → Prop} {world view : W} (looks : same world view) (count otherCount : Nat) :
    HeardAlike same count otherCount (world, ([] : CallLog S)) (view, []) :=
  ⟨looks, [], fun _ _ => rfl, fun _ _ => rfl⟩

variable {same : W → W → Prop} {blueprint : Blueprint W S O} {first second : List (Monitor W S)}

theorem observer_hidden (blueprint : Blueprint W S O) (equivalence : Equivalence same)
    (silent : ∀ line, (blueprint.tracer line).Hidden same)
    (hidden : ∀ monitor ∈ blueprint.monitors, monitor.Hidden same) (notice : Notice S) :
    (blueprint.observer notice).Hidden same := by
  refine Monitor.Hidden.guarded equivalence silent ?_ notice
  unfold monitor
  split
  · exact Monitor.tracing_hidden equivalence silent
  · rename_i lone alone
    exact hidden lone (by rw [alone]; exact List.mem_cons_self)
  · exact Monitor.composite_hidden equivalence silent hidden

theorem assembled_mirrors (calls : blueprint.Calls (Effect.Respects same)) (first second : List (Monitor W S))
    (observers : ∀ notice, ((blueprint.watchedBy first).observer notice).Alike same
      ((blueprint.watchedBy second).observer notice))
    {extractor : Snapshot S → Effect W (Attempt O)} (given : blueprint.extractor = some extractor)
    {topology : Topology W S}
    (found : Topology.build blueprint.nodes blueprint.edges blueprint.defaultEntry = .ok topology) :
    ((blueprint.watchedBy first).assembled extractor topology).Mirrors same
      ((blueprint.watchedBy second).assembled extractor topology) where
  engine :=
    { config := rfl
      timers := rfl
      apply := by
        refine Engine.apply_congr ?_ ?_ ?_
        · exact fun _ => rfl
        · exact fun _ _ => rfl
        · rfl
      nodes current := by
        simp only [assembled]
        cases there : topology.node? current with
        | none => exact .none
        | some node =>
            have member := Topology.mem_nodes_of_node? there
            rw [(Topology.madeOf_build found).nodes] at member
            exact .some fun snapshot => ((calls.nodes node member).lifecycle _ snapshot).follows
      observer notice _ := observers notice
      executor := calls.executor
      merger base joined _ := calls.merger base joined }
  ids := calls.ids
  extractor := calls.extractor extractor given
  config := rfl
  entry := rfl
  contains _ := rfl

theorem build_overheard (blueprint : Blueprint W S O) {extractor : Snapshot S → Effect W (Attempt O)}
    (given : blueprint.extractor = some extractor) {topology : Topology W S}
    (found : Topology.build blueprint.nodes blueprint.edges blueprint.defaultEntry = .ok topology) :
    blueprint.overheard.build = .ok (blueprint.overheard.assembled
      (fun snapshot => (extractor snapshot).beside (CallLog S)) (topology.beside (CallLog S))) :=
  build_eq_ok.mpr ⟨_, _, by rw [overheard, given]; rfl, Topology.build_beside found, rfl⟩

/-- Writing down the calls of the monitors does not change what a run does. -/
theorem overheard_mirrors (blueprint : Blueprint W S O) (extractor : Snapshot S → Effect W (Attempt O))
    (topology : Topology W S) :
    (blueprint.overheard.assembled (fun snapshot => (extractor snapshot).beside (CallLog S))
      (topology.beside (CallLog S))).Mirrors (Beside fun _ => True) (blueprint.assembled extractor topology) where
  engine :=
    { config := rfl
      timers := rfl
      apply := by
        refine Engine.apply_congr ?_ ?_ ?_
        · exact fun _ => rfl
        · exact fun _ _ => rfl
        · rfl
      nodes current := by
        simp only [assembled, Topology.node?_beside]
        cases topology.node? current with
        | none => exact .none
        | some node =>
            refine .some fun snapshot => ?_
            rw [← Node.lifecycle_beside]
            exact Activity.beside_follows _ _
      observer notice _ := by
        rintro time ⟨world, log⟩ _ ⟨rfl, _⟩
        simp only [assembled, observer_overheard]
        exact ⟨trivial, rfl, trivial⟩
      executor := Effect.beside_alike _ _
      merger _ _ _ := Effect.beside_alike _ _ }
  ids _ := Effect.beside_alike _ _
  extractor _ := Effect.beside_alike _ _
  config := rfl
  entry := rfl
  contains _ := rfl

theorem heardAlike_observer (observers : ∀ notice, ((blueprint.watchedBy first).observer notice).Alike same
      ((blueprint.watchedBy second).observer notice)) (notice : Notice S) :
    ((blueprint.watchedBy first).overheard.observer notice).Alike (HeardAlike same first.length second.length)
      ((blueprint.watchedBy second).overheard.observer notice) := by
  rintro time ⟨world, log⟩ ⟨view, otherLog⟩ ⟨looks, told, heard, otherHeard⟩
  rw [observer_overheard, observer_overheard]
  exact ⟨rfl, (observers notice time world view looks).2, told ++ [notice], heard.toAll notice,
    otherHeard.toAll notice⟩

theorem Calls.respects_overheard (calls : blueprint.Calls (Effect.Respects same)) (count otherCount : Nat) :
    blueprint.overheard.Calls (Effect.Respects (HeardAlike same count otherCount)) :=
  calls.overheard fun _ respects => respects.beside fun log otherLog =>
    ∃ told, HeardByAll count told log ∧ HeardByAll otherCount told otherLog

theorem overheard_alike (calls : blueprint.Calls (Effect.Respects same))
    (observers : ∀ notice, ((blueprint.watchedBy first).observer notice).Alike same
      ((blueprint.watchedBy second).observer notice))
    {extractor : Snapshot S → Effect W (Attempt O)} (given : blueprint.extractor = some extractor)
    {topology : Topology W S}
    (found : Topology.build blueprint.nodes blueprint.edges blueprint.defaultEntry = .ok topology) :
    ((blueprint.watchedBy first).overheard.assembled (fun snapshot => (extractor snapshot).beside (CallLog S))
      (topology.beside (CallLog S))).Mirrors (HeardAlike same first.length second.length)
      ((blueprint.watchedBy second).overheard.assembled (fun snapshot => (extractor snapshot).beside (CallLog S))
        (topology.beside (CallLog S))) := by
  have output : blueprint.overheard.extractor =
      some fun snapshot => (extractor snapshot).beside (CallLog S) := by
    rw [overheard, given]
    rfl
  exact assembled_mirrors (calls.respects_overheard _ _) (Monitor.allOverheard 0 first)
    (Monitor.allOverheard 0 second) (heardAlike_observer observers) output (Topology.build_beside found)

end Blueprint

/-- Monitors only observe. Take any two lists of monitors for a blueprint whose nodes, executor, merger, identifiers
and extractor do the same in worlds that look the same to them, and suppose that neither a monitor nor the tracer
changes how the world looks. Then both workflows come to the same result of a request at the same time, and at
every point of both runs all monitors of both lists have been called with the same notices in the same order,
however their callbacks end. The calls are those of the runs in which they are written down beside the world, and
these go through the same worlds to the same result. -/
theorem monitors_only_observe {same : W → W → Prop} (equivalence : Equivalence same) (blueprint : Blueprint W S O)
    (calls : blueprint.Calls (Effect.Respects same)) (silent : ∀ line, (blueprint.tracer line).Hidden same)
    {first second : List (Monitor W S)} (hidden : ∀ monitor ∈ first ++ second, monitor.Hidden same)
    {workflow : Workflow W S O} (built : (blueprint.watchedBy first).build = .ok workflow) :
    ∃ other heard otherHeard, (blueprint.watchedBy second).build = .ok other ∧
      (blueprint.watchedBy first).overheard.build = .ok heard ∧
      (blueprint.watchedBy second).overheard.build = .ok otherHeard ∧
      ∀ attached clock allowance request world view, same world view →
        Option.Rel (Machine.EndsAlike same) (workflow.run attached clock allowance request world)
          (other.run attached clock allowance request view) ∧
        Option.Rel (Machine.EndsAlike (Beside fun _ => True))
          (heard.run attached clock allowance request (world, []))
          (workflow.run attached clock allowance request world) ∧
        Option.Rel (Machine.EndsAlike (Beside fun _ => True))
          (otherHeard.run attached clock allowance request (view, []))
          (other.run attached clock allowance request view) ∧
        Option.Rel (Machine.EndsAlike (Blueprint.HeardAlike same first.length second.length))
          (heard.run attached clock allowance request (world, []))
          (otherHeard.run attached clock allowance request (view, [])) ∧
        ∀ rounds, Blueprint.HeardAlike same first.length second.length
          (heard.machineAfter attached clock allowance request (world, []) rounds).world
          (otherHeard.machineAfter attached clock allowance request (view, []) rounds).world := by
  obtain ⟨extractor, topology, given, found, rfl⟩ := Blueprint.build_eq_ok.mp built
  have observers (notice : Notice S) : ((blueprint.watchedBy first).observer notice).Alike same
      ((blueprint.watchedBy second).observer notice) := by
    refine Effect.Hidden.alike equivalence ?_ ?_
    · exact (blueprint.watchedBy first).observer_hidden equivalence silent
        (fun monitor member => hidden monitor (List.mem_append_left _ member)) notice
    · exact (blueprint.watchedBy second).observer_hidden equivalence silent
        (fun monitor member => hidden monitor (List.mem_append_right _ member)) notice
  have plain : Workflow.Mirrors same ((blueprint.watchedBy first).assembled extractor topology)
      ((blueprint.watchedBy second).assembled extractor topology) :=
    Blueprint.assembled_mirrors calls first second observers given found
  have noted := Blueprint.overheard_alike calls observers given found
  have listens (monitors : List (Monitor W S)) :=
    (blueprint.watchedBy monitors).overheard_mirrors extractor topology
  have records (monitors : List (Monitor W S)) :=
    Blueprint.build_overheard (blueprint.watchedBy monitors) given found
  refine ⟨_, _, _, Blueprint.build_eq_ok.mpr ⟨_, _, given, found, rfl⟩, records first, records second, ?_⟩
  intro attached clock allowance request world view looks
  have blank := Blueprint.HeardAlike.blank (S := S) looks first.length second.length
  exact ⟨plain.run attached clock allowance request looks,
    (listens first).run attached clock allowance request ⟨rfl, trivial⟩,
    (listens second).run attached clock allowance request ⟨rfl, trivial⟩,
    noted.run attached clock allowance request blank, noted.related_after attached clock allowance request blank⟩

section
def busyNode : NodeId := ⟨"busy", by decide +kernel, by decide⟩

def busy : Blueprint Nat Unit Unit where
  name := none
  nodes := [(Node.new busyNode fun _ => .done (.ok (.ofAction (.complete none)))).asEntryPoint]
  edges := []
  defaultEntry := none
  extractor := some fun _ => .pure (.ok ())
  monitors := []
  executor := .pure true
  merger := .lastWriterWins
  ids := fun _ => .pure "run"
  tracer := fun _ => .pure ()
  timers := none
  config := {}

def counting : Monitor Nat Unit := fun _ _ count => (.ok (), count + 1)

def grumpy : Monitor Nat Unit := fun _ _ count => (.error (.text "leave me alone"), count)

theorem busy_calls : busy.Calls (Effect.Respects fun _ _ => True) where
  nodes node member := by
    cases List.mem_singleton.mp member
    constructor
    · exact fun _ => trivial
    · rintro hook ⟨⟩
    · rintro hook ⟨⟩
    · rintro hook ⟨⟩
    · rintro hook ⟨⟩
  executor _ _ _ _ := ⟨rfl, trivial⟩
  merger _ _ _ _ _ _ := ⟨rfl, trivial⟩
  ids _ _ _ _ _ := ⟨rfl, trivial⟩
  extractor extract given snapshot := by
    cases given
    exact fun _ _ _ _ => ⟨rfl, trivial⟩

theorem busy_counted : ((busy.watchedBy [counting, grumpy]).build.toOption.bind fun workflow =>
    (workflow.run true (fun _ _ => default) 2 (.start () .empty) 0).map fun ending => ending.2.world) = some 4 := by
  decide +kernel

theorem monitors_of_busy_only_observe :
    ∃ workflow other, (busy.watchedBy [counting, grumpy]).build = .ok workflow ∧
      (busy.watchedBy []).build = .ok other ∧
      ((workflow.run true (fun _ _ => default) 2 (.start () .empty) 0).map fun ending => ending.2.world) = some 4 ∧
      ∀ attached clock allowance request world view,
        Option.Rel (Machine.EndsAlike fun _ _ => True) (workflow.run attached clock allowance request world)
          (other.run attached clock allowance request view) := by
  have equivalence : Equivalence fun _ _ : Nat => True :=
    ⟨fun _ => trivial, fun _ => trivial, fun _ _ => trivial⟩
  have unnoticed : ∀ monitor ∈ [counting, grumpy] ++ [], Monitor.Hidden (fun _ _ => True) monitor :=
    fun _ _ _ _ _ => trivial
  have counted := busy_counted
  cases built : (busy.watchedBy [counting, grumpy]).build with
  | error error =>
      rw [built] at counted
      cases counted
  | ok workflow =>
      rw [built] at counted
      obtain ⟨other, _, _, otherBuilt, _, _, alike⟩ := monitors_only_observe equivalence busy busy_calls
        (fun _ _ _ => trivial) unnoticed built
      refine ⟨workflow, other, rfl, otherBuilt, counted, ?_⟩
      intro attached clock allowance request world view
      exact (alike attached clock allowance request world view trivial).1

end
end FlowGraph

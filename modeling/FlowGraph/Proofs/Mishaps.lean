import FlowGraph.Proofs.ForkGate
import FlowGraph.Proofs.Loop.Pauses
import FlowGraph.Proofs.Program.Agrees
import FlowGraph.Proofs.Traversal

/-!
Executions that go wrong. A snapshot may be refused by the validation of its node, a hook or the processor may
panic, the processor may fail, or the engine may refuse to move or to fork. In all of these cases the loop comes
to an end with the very snapshot that it was given, and so it does when one of its limits stops it.
-/

namespace FlowGraph
variable {W S : Type}

/-- Whatever the world answers and the clock shows, the program comes to a good end. It starts no branches and waits
for nobody. -/
def Program.SurelyEnds {R : Type} (good : R → Prop) : Program W R → Prop
  | .done result => good result
  | .call effect next => ∀ value, effect.Gives value → (next value).SurelyEnds good
  | .clock next => ∀ readings, (next readings).SurelyEnds good
  | .sleep _ next => (next ()).SurelyEnds good
  | .launch .. | .receive .. | .broken _ | .never | .exhausted => False

theorem Activity.MayEnd.bind {α β : Type} {activity : Activity W α} {next : α → Activity W β} {value : α}
    {attempt : Attempt β} (first : activity.MayEnd (.ok value)) (rest : (next value).MayEnd attempt) :
    (activity.bind next).MayEnd attempt := by
  induction activity with
  | done own =>
      cases first
      exact rest
  | call effect onward ih =>
      obtain ⟨found, gives, may⟩ := first
      exact ⟨found, gives, ih found may⟩
  | sleep millis onward ih => exact ih () first
  | broken panic => cases first
  | never => exact first

theorem Activity.bind_mayEnd_ok_iff {α β : Type} {activity : Activity W α} {next : α → Activity W β} {result : β} :
    (activity.bind next).MayEnd (.ok result) ↔
      ∃ value, activity.MayEnd (.ok value) ∧ (next value).MayEnd (.ok result) := by
  constructor
  · intro may
    rcases may.of_bind with onward | ⟨_, _, ⟨⟩⟩
    exact onward
  · rintro ⟨value, first, rest⟩
    exact first.bind rest

namespace Node

/-- What may come of a hook. Without one, it is as if there were a hook with this value. -/
def Comes {α : Type} (hook : Option (Effect W (Attempt α))) (value : α) (came : Attempt α) : Prop :=
  match hook with
  | none => came = .ok value
  | some effect => effect.Gives came

/-- How an execution of a node has gone. -/
inductive Course (S : Type) where
  | invalid (error : Error)
  | panicked (panic : Panic)
  | failed (error : Error)
  | answered (command : Command S)

section
variable (timers : Option String) (node : Node W S) (snapshot : Snapshot S)

def Validates (came : Attempt (Except Error Unit)) : Prop :=
  Comes (node.hooks.validate.map fun validate => validate snapshot) (.ok ()) came

def Prepares (came : Attempt Unit) : Prop := Comes (node.hooks.before.map fun before => before snapshot) () came

/-- What may come of the hook behind the processor. -/
def Concludes (reply : Except Error (Command S)) (came : Attempt Unit) : Prop :=
  match reply with
  | .ok command => Comes (node.hooks.after.map fun after => after snapshot command) () came
  | .error error => Comes (node.hooks.onError.map fun onError => onError snapshot error) () came

def Passes : Prop := node.Validates snapshot (.ok (.ok ())) ∧ node.Prepares snapshot (.ok ())

/-- The courses that an execution may take, by what its hooks and its processor come to. -/
inductive Takes : Course S → Prop where
  | invalid {error : Error} (refuses : node.Validates snapshot (.ok (.error error))) : Takes (.invalid error)
  | validationPanics {panic : Panic} (panics : node.Validates snapshot (.error panic)) : Takes (.panicked panic)
  | preparationPanics {panic : Panic} (valid : node.Validates snapshot (.ok (.ok ())))
      (panics : node.Prepares snapshot (.error panic)) : Takes (.panicked panic)
  | processorPanics {panic : Panic} (passes : node.Passes snapshot)
      (panics : (node.processed timers snapshot).MayEnd (.ok (.broken panic))) : Takes (.panicked panic)
  | conclusionPanics {reply : Except Error (Command S)} {panic : Panic} (passes : node.Passes snapshot)
      (replies : (node.processed timers snapshot).MayEnd (.ok (.given reply)))
      (panics : node.Concludes snapshot reply (.error panic)) : Takes (.panicked panic)
  | failed {error : Error} (passes : node.Passes snapshot)
      (replies : (node.processed timers snapshot).MayEnd (.ok (.given (.error error))))
      (concludes : node.Concludes snapshot (.error error) (.ok ())) : Takes (.failed error)
  | answered {command : Command S} (passes : node.Passes snapshot)
      (replies : (node.processed timers snapshot).MayEnd (.ok (.given (.ok command))))
      (concludes : node.Concludes snapshot (.ok command) (.ok ())) : Takes (.answered command)

end

/-- What the loop is told. -/
def Course.reply (node : Node W S) : Course S → Except Error (Command S)
  | invalid error => .error (node.rejection error)
  | panicked panic => contain panic
  | failed error => .error error
  | answered command => .ok command

section
variable {timers : Option String} {node : Node W S} {snapshot : Snapshot S} {reply : Except Error (Command S)}
  {next : Activity W (Except Error (Command S))}

theorem guarded_mayEnd_iff {α : Type} {effect : Effect W (Attempt α)}
    {next : α → Activity W (Except Error (Command S))} :
    (guarded effect next).MayEnd (.ok reply) ↔
      (∃ value, effect.Gives (.ok value) ∧ (next value).MayEnd (.ok reply)) ∨
        ∃ panic, effect.Gives (.error panic) ∧ reply = contain panic := by
  constructor
  · rintro ⟨panic | value, gives, may⟩
    · exact .inr ⟨panic, gives, Except.ok.inj may⟩
    · exact .inl ⟨value, gives, may⟩
  · rintro (⟨value, gives, may⟩ | ⟨panic, gives, rfl⟩)
    · exact ⟨_, gives, may⟩
    · exact ⟨_, gives, rfl⟩

theorem signalled_mayEnd_iff {effect : Effect W (Attempt Unit)} :
    (guarded effect fun _ => next).MayEnd (.ok reply) ↔
      (effect.Gives (.ok ()) ∧ next.MayEnd (.ok reply)) ∨
        ∃ panic, effect.Gives (.error panic) ∧ reply = contain panic := by
  rw [guarded_mayEnd_iff]
  exact or_congr_left ⟨fun ⟨_, both⟩ => both, fun both => ⟨(), both⟩⟩

theorem validated_mayEnd_iff :
    (node.validated snapshot next).MayEnd (.ok reply) ↔
      (node.Validates snapshot (.ok (.ok ())) ∧ next.MayEnd (.ok reply)) ∨
        (∃ error, node.Validates snapshot (.ok (.error error)) ∧ reply = .error (node.rejection error)) ∨
          ∃ panic, node.Validates snapshot (.error panic) ∧ reply = contain panic := by
  unfold validated Validates Comes
  cases node.hooks.validate with
  | none => simp
  | some validate =>
      simp only [guarded_mayEnd_iff, Option.map_some]
      constructor
      · rintro (⟨error | _, gives, may⟩ | panics)
        · exact .inr (.inl ⟨error, gives, Except.ok.inj may⟩)
        · exact .inl ⟨gives, may⟩
        · exact .inr (.inr panics)
      · rintro (⟨gives, may⟩ | ⟨error, gives, rfl⟩ | panics)
        · exact .inl ⟨_, gives, may⟩
        · exact .inl ⟨_, gives, rfl⟩
        · exact .inr panics

theorem prepared_mayEnd_iff :
    (node.prepared snapshot next).MayEnd (.ok reply) ↔
      (node.Prepares snapshot (.ok ()) ∧ next.MayEnd (.ok reply)) ∨
        ∃ panic, node.Prepares snapshot (.error panic) ∧ reply = contain panic := by
  unfold prepared Prepares Comes
  cases node.hooks.before with
  | none => simp
  | some before => simp [signalled_mayEnd_iff]

theorem concluded_mayEnd_iff {given : Except Error (Command S)} :
    (node.concluded snapshot given).MayEnd (.ok reply) ↔
      (node.Concludes snapshot given (.ok ()) ∧ reply = given) ∨
        ∃ panic, node.Concludes snapshot given (.error panic) ∧ reply = contain panic := by
  unfold concluded Concludes Comes
  cases given with
  | error error =>
      simp only
      cases node.hooks.onError with
      | none => simp [Activity.MayEnd]
      | some onError => simp [signalled_mayEnd_iff, Activity.MayEnd]
  | ok command =>
      simp only
      cases node.hooks.after with
      | none => simp [Activity.MayEnd]
      | some after => simp [signalled_mayEnd_iff, Activity.MayEnd]

theorem lifecycle_of_given {given : Except Error (Command S)} (passes : node.Passes snapshot)
    (replies : (node.processed timers snapshot).MayEnd (.ok (.given given)))
    (may : (node.concluded snapshot given).MayEnd (.ok reply)) :
    (node.lifecycle timers snapshot).MayEnd (.ok reply) := by
  refine validated_mayEnd_iff.mpr (.inl ⟨passes.1, prepared_mayEnd_iff.mpr (.inl ⟨passes.2, ?_⟩)⟩)
  exact replies.bind may

theorem lifecycle_of_takes {course : Course S} (takes : node.Takes timers snapshot course) :
    (node.lifecycle timers snapshot).MayEnd (.ok (course.reply node)) := by
  cases takes with
  | invalid refuses => exact validated_mayEnd_iff.mpr (.inr (.inl ⟨_, refuses, rfl⟩))
  | validationPanics panics => exact validated_mayEnd_iff.mpr (.inr (.inr ⟨_, panics, rfl⟩))
  | preparationPanics valid panics =>
      exact validated_mayEnd_iff.mpr (.inl ⟨valid, prepared_mayEnd_iff.mpr (.inr ⟨_, panics, rfl⟩)⟩)
  | processorPanics passes panics =>
      refine validated_mayEnd_iff.mpr (.inl ⟨passes.1, prepared_mayEnd_iff.mpr (.inl ⟨passes.2, ?_⟩)⟩)
      exact panics.bind rfl
  | conclusionPanics passes replies panics =>
      exact lifecycle_of_given passes replies (concluded_mayEnd_iff.mpr (.inr ⟨_, panics, rfl⟩))
  | failed passes replies concludes =>
      exact lifecycle_of_given passes replies (concluded_mayEnd_iff.mpr (.inl ⟨concludes, rfl⟩))
  | answered passes replies concludes =>
      exact lifecycle_of_given passes replies (concluded_mayEnd_iff.mpr (.inl ⟨concludes, rfl⟩))

theorem takes_of_lifecycle (may : (node.lifecycle timers snapshot).MayEnd (.ok reply)) :
    ∃ course, node.Takes timers snapshot course ∧ course.reply node = reply := by
  rcases validated_mayEnd_iff.mp may with ⟨valid, may⟩ | ⟨error, refuses, rfl⟩ | ⟨panic, panics, rfl⟩
  · rcases prepared_mayEnd_iff.mp may with ⟨ready, may⟩ | ⟨panic, panics, rfl⟩
    · obtain ⟨given | panic, replies, may⟩ := Activity.bind_mayEnd_ok_iff.mp may
      · rcases concluded_mayEnd_iff.mp may with ⟨concludes, rfl⟩ | ⟨panic, panics, rfl⟩
        · cases reply with
          | error error => exact ⟨_, .failed ⟨valid, ready⟩ replies concludes, rfl⟩
          | ok command => exact ⟨_, .answered ⟨valid, ready⟩ replies concludes, rfl⟩
        · exact ⟨_, .conclusionPanics ⟨valid, ready⟩ replies panics, rfl⟩
      · exact ⟨_, .processorPanics ⟨valid, ready⟩ replies, (Except.ok.inj may).symm⟩
    · exact ⟨_, .preparationPanics valid panics, rfl⟩
  · exact ⟨_, .invalid refuses, rfl⟩
  · exact ⟨_, .validationPanics panics, rfl⟩

/-- An execution answers what one of its courses tells the loop. -/
theorem lifecycle_mayEnd_iff :
    (node.lifecycle timers snapshot).MayEnd (.ok reply) ↔
      ∃ course, node.Takes timers snapshot course ∧ course.reply node = reply := by
  constructor
  · exact takes_of_lifecycle
  · rintro ⟨course, takes, rfl⟩
    exact lifecycle_of_takes takes

end

end Node

namespace Engine

def Limited (config : ExecutionConfig) (steps : Nat) (current : NodeId) (snapshot : Snapshot S) : Prop :=
  config.maxSteps < steps + 1 ∨
    0 < config.maxVisitsPerNode ∧ config.maxVisitsPerNode < snapshot.visitCount current

/-- An execution has gone wrong, or the engine refuses what its command asks for: a traversal or a join for whatever
reason, and a fork because it does not reach one of its targets. -/
inductive Spoils (engine : Engine W S) (mode : Mode) (current : NodeId) (snapshot : Snapshot S) :
    Node.Course S → Prop where
  | invalid (error : Error) : Spoils engine mode current snapshot (.invalid error)
  | panicked (panic : Panic) : Spoils engine mode current snapshot (.panicked panic)
  | failed (error : Error) : Spoils engine mode current snapshot (.failed error)
  | unmoved {command : Command S} {target : NodeId} {condition : Option (Condition S)} {data : Option S}
      {readings : Readings} {error : Error} {last : Option (Snapshot S)}
      (asks : command.action = .traverse target condition data)
      (refused : engine.apply mode current snapshot command readings = .ok (.finish (.failed error last))) :
      Spoils engine mode current snapshot (.answered command)
  | unjoined {command : Command S} {node : NodeId} {policy : WaitPolicy} {timeout : Option Span} {data : Option S}
      {readings : Readings} {error : Error} {last : Option (Snapshot S)}
      (asks : command.action = .join node policy timeout data)
      (refused : engine.apply mode current snapshot command readings = .ok (.finish (.failed error last))) :
      Spoils engine mode current snapshot (.answered command)
  | unforked {command : Command S} {targets : List NodeId} {strategy : ForkStrategy}
      {conditions : Dict NodeId (Condition S)} {data : Option S} {target : NodeId}
      (asks : command.action = .fork targets strategy conditions data) (member : target ∈ targets)
      (unreachable : engine.Unreachable current target) : Spoils engine mode current snapshot (.answered command)

/-- The loop has ended with the snapshot as it was: with a suspension behind a panic, and with a failure
otherwise. -/
def EndsUntouched (snapshot : Snapshot S) : Node.Course S → Outcome S → Prop
  | .panicked _, outcome => ∃ reason, outcome = .suspended ⟨"execution-error", reason, none, snapshot⟩
  | _, outcome => ∃ error, outcome = .failed error (some snapshot)

section
variable {engine : Engine W S} {mode : Mode} {current target : NodeId} {snapshot : Snapshot S} {command : Command S}
  {condition : Option (Condition S)} {data : Option S} {readings : Readings} {error : Error}

theorem guardFault_eq_none_iff {config : ExecutionConfig} {steps : Nat} :
    guardFault config (steps + 1) snapshot current = none ↔ ¬Limited config steps current snapshot := by
  unfold guardFault Limited ExecutionConfig.visitLimit
  by_cases many : config.maxSteps < steps + 1
  · simp [many]
  · by_cases limited : 0 < config.maxVisitsPerNode
    · simp [many, limited]
    · simp [many, limited]

theorem traverse_refused {updates : Context}
    (refused : engine.traverse current snapshot target condition updates data readings = .ok (.error error))
    (more : Context) (payload : Option S) (later : Readings) :
    engine.traverse current snapshot target condition more payload later = .ok (.error error) := by
  simp only [traverse, bind, Except.bind, pure, Except.pure] at refused ⊢
  cases holds : conditionHolds condition snapshot with
  | error panic => simp [holds] at refused
  | ok held =>
      cases held with
      | false => simpa [holds] using refused
      | true =>
          cases selected : engine.selectEdge current snapshot target with
          | error panic => simp [holds, selected] at refused
          | ok found =>
              cases found with
              | error reason => simpa [holds, selected] using refused
              | ok edge => simp [holds, selected] at refused

theorem apply_of_moves (asks : Moves mode command target condition data) (readings : Readings) :
    engine.apply mode current snapshot command readings =
      (engine.traverse current snapshot target condition command.updates data readings).map (ofMove snapshot) := by
  rcases asks with traverses | ⟨rfl, rfl, policy, timeout, joins⟩
  · simp only [apply, traverses]
    rfl
  · simp only [apply, joins]
    rfl

theorem refused_of_moves (asks : Moves mode command target condition data) {last : Option (Snapshot S)}
    (refused : engine.apply mode current snapshot command readings = .ok (.finish (.failed error last)))
    (later : Readings) :
    engine.apply mode current snapshot command later = .ok (.finish (.failed error (some snapshot))) := by
  rw [apply_of_moves asks] at refused ⊢
  cases traversed : engine.traverse current snapshot target condition command.updates data readings with
  | error panic =>
      rw [traversed] at refused
      cases refused
  | ok answer =>
      rw [traversed] at refused
      cases answer with
      | ok next => cases refused
      | error reason =>
          cases refused
          rw [traverse_refused traversed]
          rfl

theorem refused_of_joins {node : NodeId} {policy : WaitPolicy} {timeout : Option Span} {last : Option (Snapshot S)}
    (asks : command.action = .join node policy timeout data)
    (refused : engine.apply mode current snapshot command readings = .ok (.finish (.failed error last)))
    (later : Readings) :
    engine.apply mode current snapshot command later = .ok (.finish (.failed error (some snapshot))) := by
  cases mode with
  | root => exact refused_of_moves (.inr ⟨rfl, rfl, policy, timeout, asks⟩) refused later
  | branch =>
      simp only [apply, asks, bind, Except.bind, pure, Except.pure] at refused ⊢
      cases selected : engine.selectEdge current snapshot node with
      | error panic => simp [selected] at refused
      | ok answer =>
          cases answer with
          | ok edge => simp [selected] at refused
          | error reason =>
              simp only [selected, Except.ok.injEq, Step.finish.injEq, Outcome.failed.injEq] at refused ⊢
              exact ⟨refused.1, trivial⟩

theorem refused_of_unreachable {targets : List NodeId} {strategy : ForkStrategy}
    {conditions : Dict NodeId (Condition S)} (asks : command.action = .fork targets strategy conditions data)
    (member : target ∈ targets) (unreachable : engine.Unreachable current target) :
    ∃ error, ∀ readings, engine.apply mode current snapshot command readings =
      .ok (.finish (.failed error (some snapshot))) := by
  cases fault : engine.forkFault current targets with
  | none => exact absurd unreachable ((forkFault_eq_none_iff engine current targets).mp fault target member)
  | some error =>
      refine ⟨error, fun readings => ?_⟩
      simp only [apply, asks, fault]
      rfl

variable {allowance steps : Nat}

theorem goOn_surelyEnds {good : Outcome S → Prop} {outcome : Outcome S} (ends : good outcome)
    (finishes : ∀ readings, engine.apply mode current snapshot command readings = .ok (.finish outcome)) :
    (engine.goOn allowance mode steps current snapshot (.ok command)).SurelyEnds good := by
  intro _ _ readings
  simp only [carryOut, finishes readings]
  exact ends

theorem goOn_of_spoils {node : Node W S} {course : Node.Course S}
    (spoils : engine.Spoils mode current snapshot course) :
    (engine.goOn allowance mode steps current snapshot (course.reply node)).SurelyEnds
      (EndsUntouched snapshot course) := by
  cases spoils with
  | invalid error => exact ⟨_, rfl⟩
  | failed error => exact ⟨_, rfl⟩
  | panicked panic => exact goOn_surelyEnds ⟨_, rfl⟩ fun _ => rfl
  | unmoved asks refused => exact goOn_surelyEnds ⟨_, rfl⟩ (refused_of_moves (.inl asks) refused)
  | unjoined asks refused => exact goOn_surelyEnds ⟨_, rfl⟩ (refused_of_joins asks refused)
  | unforked asks member unreachable =>
      obtain ⟨error, refused⟩ := refused_of_unreachable asks member unreachable
      exact goOn_surelyEnds ⟨error, rfl⟩ refused

end

/-- A loop that a limit stops ends with the snapshot that it stands at. Otherwise it executes its node, and the
answer is what one of the courses of that execution tells; if the course spoils the execution, then whatever
happens, the loop ends with the snapshot that the node was given: nothing that its command would have changed is
changed. -/
theorem spoiled_execution_keeps_snapshot (engine : Engine W S) (allowance : Nat) (mode : Mode) (steps : Nat)
    (snapshot : Snapshot S) (current : NodeId) (standing : snapshot.currentNode = some current) :
    (Limited engine.config steps current snapshot →
      ∃ error, engine.drive (allowance + 1) mode steps snapshot = .done (.failed error (some snapshot))) ∧
    ∀ node, ¬Limited engine.config steps current snapshot → engine.topology.node? current = some node →
      engine.drive (allowance + 1) mode steps snapshot =
        engine.notify (.nodeStarted current snapshot)
          (.perform (node.lifecycle engine.timers snapshot) (engine.goOn allowance mode steps current snapshot)) ∧
      (∀ reply, (node.lifecycle engine.timers snapshot).MayEnd (.ok reply) ↔
        ∃ course, node.Takes engine.timers snapshot course ∧ course.reply node = reply) ∧
      ∀ course, engine.Spoils mode current snapshot course →
        (engine.goOn allowance mode steps current snapshot (course.reply node)).SurelyEnds
          (EndsUntouched snapshot course) := by
  constructor
  · intro limited
    cases fault : guardFault engine.config (steps + 1) snapshot current with
    | none => exact absurd limited (guardFault_eq_none_iff.mp fault)
    | some error =>
        refine ⟨error, ?_⟩
        rw [drive]
        simp only [standing, fault]
        rfl
  · intro node free known
    refine ⟨drive_executes allowance mode standing (guardFault_eq_none_iff.mpr free) known, ?_, ?_⟩
    · exact fun reply => Node.lifecycle_mayEnd_iff
    · exact fun course spoils => goOn_of_spoils spoils

section

def leave : Command String := ⟨.traverse exitNode none (some "final"), ready⟩

def leaver : Node Unit String := (Node.new hallNode fun _ => .done (.ok leave)).asEntryPoint

def lobby : Engine Unit String :=
  { building with topology := (Topology.build [leaver, Node.new exitNode fun _ => .never]
      [.new readyEdge hallNode exitNode (.present "ready") default] none).toOption.get rfl }

/-- In a branch, too, a traversal that its edge refuses writes nothing, and neither does a loop that has
executed all the nodes that it may. -/
theorem refused_leave_writes_nothing :
    (∃ error, lobby.drive 5 .branch 10000 inHall = .done (.failed error (some inHall))) ∧
    leaver.Takes none inHall (.answered leave) ∧ lobby.Spoils .branch hallNode inHall (.answered leave) ∧
    (leaver.lifecycle none inHall).MayEnd (.ok (.ok leave)) ∧
    (lobby.goOn 4 .branch 0 hallNode inHall (.ok leave)).SurelyEnds (EndsUntouched inHall (.answered leave)) := by
  have takes : leaver.Takes none inHall (.answered leave) := .answered ⟨rfl, rfl⟩ rfl rfl
  have spoils : lobby.Spoils .branch hallNode inHall (.answered leave) :=
    .unmoved rfl (by rfl : lobby.apply .branch hallNode inHall leave (fun _ => default) = _)
  obtain ⟨stopped, _⟩ := spoiled_execution_keeps_snapshot lobby 4 .branch 10000 inHall hallNode rfl
  obtain ⟨_, executed⟩ := spoiled_execution_keeps_snapshot lobby 4 .branch 0 inHall hallNode rfl
  have free : ¬Limited lobby.config 0 hallNode inHall := by
    rintro (many | ⟨counts, _⟩)
    · exact absurd many (by decide)
    · exact absurd counts (by decide)
  obtain ⟨_, answers, untouched⟩ := executed leaver free rfl
  exact ⟨stopped (.inl (by decide)), takes, spoils, (answers _).mpr ⟨_, takes, rfl⟩, untouched _ spoils⟩

end

end Engine
end FlowGraph

import FlowGraph.Engine.Step

/-!
What a command can come to. Each step is one of the ways listed here, with the checks that it has passed or failed.
-/

namespace FlowGraph.Engine
variable {W S : Type}

/-- The command asks to move along an edge. A join outside a branch is such a move. -/
def Moves (mode : Mode) (command : Command S) (target : NodeId) (condition : Option (Condition S))
    (data : Option S) : Prop :=
  command.action = .traverse target condition data ∨
    mode = .root ∧ condition = none ∧ ∃ policy timeout, command.action = .join target policy timeout data

inductive Applied (engine : Engine W S) (mode : Mode) (current : NodeId) (snapshot : Snapshot S)
    (command : Command S) (readings : Readings) : Step S → Prop where
  | moved {target : NodeId} {condition : Option (Condition S)} {data : Option S} {edge : Edge S}
      (asks : Moves mode command target condition data) (open_ : conditionHolds condition snapshot = .ok true)
      (selected : engine.selectEdge current snapshot target = .ok (.ok edge)) :
      Applied engine mode current snapshot command readings
        (.proceed ((withUpdates snapshot command.updates data readings).traverse edge.id target
          (readings edgeReading) (readings moveReading)))
  | shut {target : NodeId} {condition : Option (Condition S)} {data : Option S}
      (asks : Moves mode command target condition data) (shut : conditionHolds condition snapshot = .ok false) :
      Applied engine mode current snapshot command readings
        (.finish (.failed (.traversal current target ("condition not satisfied: " ++ describeCondition condition))
          (some snapshot)))
  | unselected {target : NodeId} {condition : Option (Condition S)} {data : Option S} {error : Error}
      (asks : Moves mode command target condition data)
      (refused : engine.selectEdge current snapshot target = .ok (.error error)) :
      Applied engine mode current snapshot command readings (.finish (.failed error (some snapshot)))
  | forked {targets taken : List NodeId} {strategy : ForkStrategy} {conditions : Dict NodeId (Condition S)}
      {data : Option S} (asks : command.action = .fork targets strategy conditions data)
      (free : engine.forkFault current targets = none)
      (chosen : forkTargets current (withUpdates snapshot command.updates data readings) targets strategy
        conditions = .ok (.ok taken)) :
      Applied engine mode current snapshot command readings
        (.fork ⟨current, withUpdates snapshot command.updates data readings, taken, strategy⟩)
  | unforked {targets : List NodeId} {strategy : ForkStrategy} {conditions : Dict NodeId (Condition S)}
      {data : Option S} {error : Error} (asks : command.action = .fork targets strategy conditions data)
      (fault : engine.forkFault current targets = some error) :
      Applied engine mode current snapshot command readings (.finish (.failed error (some snapshot)))
  | unchosen {targets : List NodeId} {strategy : ForkStrategy} {conditions : Dict NodeId (Condition S)}
      {data : Option S} {error : Error} (asks : command.action = .fork targets strategy conditions data)
      (refused : forkTargets current (withUpdates snapshot command.updates data readings) targets strategy
        conditions = .ok (.error error)) :
      Applied engine mode current snapshot command readings
        (.finish (.failed error (some (withUpdates snapshot command.updates data readings))))
  | joined {node : NodeId} {policy : WaitPolicy} {timeout : Option Span} {data : Option S} {edge : Edge S}
      (branch : mode = .branch) (asks : command.action = .join node policy timeout data)
      (selected : engine.selectEdge current snapshot node = .ok (.ok edge)) :
      Applied engine mode current snapshot command readings
        (.finish (.joined node policy timeout (withUpdates snapshot command.updates data readings)))
  | unjoined {node : NodeId} {policy : WaitPolicy} {timeout : Option Span} {data : Option S} {error : Error}
      (branch : mode = .branch) (asks : command.action = .join node policy timeout data)
      (refused : engine.selectEdge current snapshot node = .ok (.error error)) :
      Applied engine mode current snapshot command readings (.finish (.failed error (some snapshot)))
  | suspended {id reason : String} {timeout : Option Span} (asks : command.action = .suspend id reason timeout) :
      Applied engine mode current snapshot command readings
        (.finish (.suspended ⟨id, reason, timeout, withUpdates snapshot command.updates none readings⟩))
  | completed {data : Option S} (asks : command.action = .complete data) :
      Applied engine mode current snapshot command readings
        (.finish (.completed (withUpdates snapshot command.updates data readings)))
  | recovered {message : String} {fallback : NodeId} (asks : command.action = .error message true (some fallback))
      (known : engine.topology.contains fallback = true) :
      Applied engine mode current snapshot command readings
        (.proceed ((withUpdates snapshot command.updates none readings).moveTo fallback (readings moveReading)))
  | stranded {message : String} {fallback : NodeId} (asks : command.action = .error message true (some fallback))
      (unknown : engine.topology.contains fallback = false) :
      Applied engine mode current snapshot command readings
        (.finish (.failed (.nodeNotFound fallback) (some (withUpdates snapshot command.updates none readings))))
  | reported {message : String} {recoverable : Bool} {fallback : Option NodeId}
      (asks : command.action = .error message recoverable fallback) :
      Applied engine mode current snapshot command readings
        (.finish (.failed (.command current message recoverable)
          (some (withUpdates snapshot command.updates none readings))))

variable {engine : Engine W S} {mode : Mode} {current : NodeId} {snapshot : Snapshot S} {command : Command S}
  {readings : Readings} {step : Step S}

theorem applied_of_move {target : NodeId} {condition : Option (Condition S)} {data : Option S}
    (asks : Moves mode command target condition data)
    (moves : (do
      let moved ← engine.traverse current snapshot target condition command.updates data readings
      pure (ofMove snapshot moved)) = Except.ok step) :
    engine.Applied mode current snapshot command readings step := by
  simp only [traverse, bind, Except.bind, pure, Except.pure] at moves
  cases holds : conditionHolds condition snapshot with
  | error panic =>
      simp only [holds] at moves
      cases moves
  | ok held =>
      cases held with
      | false =>
          simp only [holds] at moves
          cases moves
          exact .shut asks holds
      | true =>
          simp only [holds] at moves
          cases selected : engine.selectEdge current snapshot target with
          | error panic =>
              simp only [selected] at moves
              cases moves
          | ok found =>
              simp only [selected] at moves
              cases found with
              | error error =>
                  cases moves
                  exact .unselected asks selected
              | ok edge =>
                  cases moves
                  exact .moved asks holds selected

theorem applied_of_apply (applied : engine.apply mode current snapshot command readings = .ok step) :
    engine.Applied mode current snapshot command readings step := by
  unfold apply at applied
  cases asks : command.action with
  | traverse target condition data =>
      simp only [asks] at applied
      exact applied_of_move (.inl asks) applied
  | fork targets strategy conditions data =>
      simp only [asks, bind, Except.bind, pure, Except.pure] at applied
      split at applied
      · cases applied
        exact .unforked asks ‹_›
      · split at applied
        · cases applied
        · split at applied <;> cases applied
          · exact .forked asks ‹_› ‹_›
          · exact .unchosen asks ‹_›
  | join node policy timeout data =>
      cases mode with
      | root =>
          simp only [asks] at applied
          exact applied_of_move (.inr ⟨rfl, rfl, policy, timeout, asks⟩) applied
      | branch =>
          simp only [asks, bind, Except.bind, pure, Except.pure] at applied
          split at applied
          · cases applied
          · split at applied <;> cases applied
            · exact .unjoined rfl asks ‹_›
            · exact .joined rfl asks ‹_›
  | suspend id reason timeout =>
      simp only [asks, pure, Except.pure] at applied
      cases applied
      exact .suspended asks
  | complete data =>
      simp only [asks, pure, Except.pure] at applied
      cases applied
      exact .completed asks
  | error message recoverable fallback =>
      simp only [asks, pure, Except.pure] at applied
      split at applied
      · split at applied <;> cases applied
        · exact .recovered asks ‹_›
        · exact .stranded asks (Bool.eq_false_iff.mpr ‹_›)
      · cases applied
        exact .reported asks

end FlowGraph.Engine

import FlowGraph.Proofs.Graph.Command

/-! What modifiers make of a command: nothing but the parts that they give, and never another command. -/

namespace FlowGraph.Command
variable {S : Type}

/-- There is a command for a draft just if what it asks for is well formed, and a list of modifiers is accepted
just if each value that it writes has a form. However a command is modified, it asks for the same as in the
beginning; of the rest, each part is as the last modifier gives it that gives it; a modifier for a part that the
command does not have does nothing; and the updates are those that were set last, with all that was written
since. -/
theorem modified_commands_keep_intent (draft : Draft) :
    ((∃ start : Command S, draft.command = .ok start) ↔ ∃ intent, draft.Asks intent ∧ intent.WellFormed) ∧
    ∀ start : Command S, draft.command = .ok start → ∀ modifiers : List (Modifier S),
      ((∃ command, start.modified modifiers = .ok command) ↔
        ∀ one ∈ writes modifiers, one.kind.isWritable one.value = true) ∧
      ∀ command, start.modified modifiers = .ok command →
        command.intent = start.intent ∧ draft.Asks command.intent ∧ command.intent.WellFormed ∧
        command.action = command.intent.modified modifiers ∧
        (∀ modifier : Modifier S, modifier.fits command.intent = false → command.modify modifier = .ok command) ∧
        Leaves modifiers command.updates := by
  refine ⟨command_succeeds_iff, fun start made modifiers => ⟨modified_succeeds_iff, fun command modified => ?_⟩⟩
  obtain ⟨asks, wellFormed⟩ := asks_of_command made
  obtain ⟨plain, blank⟩ := begins_of_command made
  have action := action_of_modified plain modified
  have kept : command.intent = start.intent := intent_of_action action
  rw [kept]
  exact ⟨rfl, asks, wellFormed, action, fun modifier unfit => modify_of_not_fits (kept.symm ▸ unfit),
    leaves_of_modified blank modified⟩

section

def northNode : NodeId := ⟨"north", by decide +kernel, by decide⟩
def southNode : NodeId := ⟨"south", by decide +kernel, by decide⟩

/-- A target is given twice. -/
def survey : Draft := .fork [northNode, southNode, northNode]

def triesKey : ContextKey (.int .u8) := ⟨"tries"⟩

/-- What is written first is lost, and a policy is nothing for a fork. -/
def surveyModifiers : List (Modifier String) :=
  [.write ⟨.string, ⟨"region"⟩, "eu"⟩, .context .empty, .data "first", .branchCondition northNode .never,
    .write ⟨_, triesKey, ⟨3, by decide, by decide⟩⟩, .policy .any, .strategy .conditional, .data "second",
    .branchCondition northNode .always, .write ⟨_, triesKey, ⟨4, by decide, by decide⟩⟩]

def surveyCommand : Command String where
  action := .fork [northNode, southNode] .conditional (.ofList [(northNode, .always)]) (some "second")
  updates := ⟨.ofList [("tries", ⟨"u8", .int 4⟩)]⟩

theorem survey_keeps_intent : ∃ start : Command String, survey.command = .ok start ∧
    start.modified surveyModifiers = .ok surveyCommand ∧ survey.Asks (.fork [northNode, southNode]) ∧
    surveyCommand.modify (.timeout ⟨1, 0, by decide⟩) = .ok surveyCommand ∧
      Leaves surveyModifiers surveyCommand.updates := by
  obtain ⟨_, follows⟩ := modified_commands_keep_intent (S := String) survey
  have made : survey.command =
      .ok (ofAction (S := String) (.fork [northNode, southNode] .parallel .empty none)) := rfl
  obtain ⟨_, results⟩ := follows _ made surveyModifiers
  have modified : (ofAction (.fork [northNode, southNode] .parallel .empty none)).modified surveyModifiers =
      .ok surveyCommand := rfl
  obtain ⟨_, asks, _, _, others, leaves⟩ := results _ modified
  exact ⟨_, made, modified, asks, others (.timeout ⟨1, 0, by decide⟩) rfl, leaves⟩

end

end FlowGraph.Command

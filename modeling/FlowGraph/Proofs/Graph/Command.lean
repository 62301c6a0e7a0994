import Mathlib.Data.List.Induction
import FlowGraph.Graph.Node.Command
import FlowGraph.Proofs.Fallible
import FlowGraph.Proofs.TypedKeys

/-!
How commands are made and modified. What a command asks for is settled when it is made; of everything else that
it carries, the modifier that comes last says what it is. So a modified command can be read off the list of its
modifiers.
-/

namespace FlowGraph.Command

/-- Each node of the list once, in the order in which the nodes occur first. -/
structure FirstOccurrences (nodes kept : List NodeId) : Prop where
  mem_iff : ∀ node, node ∈ kept ↔ node ∈ nodes
  ordered : kept.Pairwise fun earlier later => nodes.idxOf earlier < nodes.idxOf later

section
variable {nodes kept : List NodeId}

theorem FirstOccurrences.nodup (occur : FirstOccurrences nodes kept) : kept.Nodup := by
  apply occur.ordered.imp
  intro earlier later before same
  exact Nat.lt_irrefl _ (same ▸ before)

theorem FirstOccurrences.eq_nil_iff (occur : FirstOccurrences nodes kept) : kept = [] ↔ nodes = [] := by
  simp only [List.eq_nil_iff_forall_not_mem, occur.mem_iff]

theorem distinct_concat (nodes : List NodeId) (node : NodeId) : distinct (nodes ++ [node]) =
    if node ∈ distinct nodes then distinct nodes else distinct nodes ++ [node] := by
  simp [distinct, List.foldl_append]

theorem firstOccurrences_distinct (nodes : List NodeId) : FirstOccurrences nodes (distinct nodes) := by
  induction nodes using List.reverseRecOn with
  | nil => exact ⟨fun _ => Iff.rfl, .nil⟩
  | append_singleton nodes node ih =>
      have before : (distinct nodes).Pairwise fun earlier later =>
          (nodes ++ [node]).idxOf earlier < (nodes ++ [node]).idxOf later := by
        refine ih.ordered.imp_of_mem fun first second before => ?_
        rwa [List.idxOf_append_of_mem ((ih.mem_iff _).mp first), List.idxOf_append_of_mem ((ih.mem_iff _).mp second)]
      rw [distinct_concat]
      split
      · rename_i known
        refine ⟨fun other => ?_, before⟩
        rw [ih.mem_iff, List.mem_append, List.mem_singleton]
        exact (or_iff_left_of_imp fun same => same ▸ (ih.mem_iff _).mp known).symm
      · rename_i new
        refine ⟨fun other => by rw [List.mem_append, List.mem_append, ih.mem_iff], ?_⟩
        refine List.pairwise_append.mpr ⟨before, List.pairwise_singleton _ _, fun earlier member last same => ?_⟩
        rw [ih.mem_iff] at new member
        rw [List.mem_singleton.mp same, List.idxOf_append_of_mem member, List.idxOf_append_of_notMem new]
        exact Nat.lt_add_right _ (List.idxOf_lt_length_of_mem member)

theorem mem_distinct {node : NodeId} : node ∈ distinct nodes ↔ node ∈ nodes :=
  (firstOccurrences_distinct nodes).mem_iff node

end

inductive Intent where
  | traverse (target : NodeId)
  | fork (targets : List NodeId)
  | join (node : NodeId)
  | suspend (id reason : String)
  | complete
  | error (message : String) (recoverable : Bool) (fallback : Option NodeId)

/-- A fork has somewhere to go and goes nowhere twice, and a suspension says something in both of its texts. -/
def Intent.WellFormed : Intent → Prop
  | fork targets => targets ≠ [] ∧ targets.Nodup
  | suspend id reason => Text.allBlank id = false ∧ Text.allBlank reason = false
  | _ => True

inductive Draft where
  | traverse (target : NodeId)
  | fork (targets : List NodeId)
  | join (node : NodeId)
  | suspend (id reason : String)
  | executionError (message : String)
  | complete
  | error (message : String)
  | recoverableError (message : String) (fallback : NodeId)

namespace Draft
variable {S : Type}

/-- What is meant by a draft, whether or not there can be a command for it. -/
inductive Asks : Draft → Intent → Prop where
  | traverse {target : NodeId} : Asks (.traverse target) (.traverse target)
  | fork {targets kept : List NodeId} : FirstOccurrences targets kept → Asks (.fork targets) (.fork kept)
  | join {node : NodeId} : Asks (.join node) (.join node)
  | suspend {id reason : String} : Asks (.suspend id reason) (.suspend id reason)
  | silentError {message : String} : Text.allBlank message = true →
      Asks (.executionError message) (.suspend "execution-error" "node execution panicked")
  | executionError {message : String} : Text.allBlank message = false →
      Asks (.executionError message) (.suspend "execution-error" ("node execution panicked: " ++ message))
  | complete : Asks .complete .complete
  | error {message : String} : Asks (.error message) (.error message false none)
  | recoverableError {message : String} {fallback : NodeId} :
      Asks (.recoverableError message fallback) (.error message true (some fallback))

def command : Draft → Except Error (Command S)
  | traverse target => .ok (.traverse target)
  | fork targets => Command.fork targets
  | join node => .ok (.join node)
  | suspend id reason => Command.suspend id reason
  | executionError message => .ok (.executionError message)
  | complete => .ok .complete
  | error message => .ok (.error message)
  | recoverableError message fallback => .ok (.recoverableError message fallback)

end Draft

structure Write where
  kind : Kind
  key : ContextKey kind
  value : kind.Value

def putAll (context : Context) (writes : List Write) : Except Error Context :=
  writes.foldlM (fun context one => context.put one.key one.value) context

inductive Modifier (S : Type) where
  | context (updates : Context)
  | write (one : Write)
  | data (given : S)
  | condition (given : Condition S)
  | strategy (given : ForkStrategy)
  | branchCondition (target : NodeId) (given : Condition S)
  | policy (given : WaitPolicy)
  | timeout (given : Span)

variable {S : Type}

namespace Modifier

@[simp] def context? : Modifier S → Option Context
  | context updates => some updates
  | _ => none

@[simp] def write? : Modifier S → Option Write
  | write one => some one
  | _ => none

@[simp] def data? : Modifier S → Option S
  | data given => some given
  | _ => none

@[simp] def condition? : Modifier S → Option (Condition S)
  | condition given => some given
  | _ => none

@[simp] def strategy? : Modifier S → Option ForkStrategy
  | strategy given => some given
  | _ => none

@[simp] def branchCondition? : Modifier S → Option (NodeId × Condition S)
  | branchCondition target given => some (target, given)
  | _ => none

@[simp] def policy? : Modifier S → Option WaitPolicy
  | policy given => some given
  | _ => none

@[simp] def timeout? : Modifier S → Option Span
  | timeout given => some given
  | _ => none

/-- Whether a command that asks for this has the part that the modifier gives. -/
def fits : Modifier S → Intent → Bool
  | context _, _ | write _, _ => true
  | data _, .suspend .. | data _, .error .. => false
  | data _, _ => true
  | condition _, .traverse _ => true
  | strategy _, .fork _ | branchCondition .., .fork _ => true
  | policy _, .join _ => true
  | timeout _, .join _ | timeout _, .suspend .. => true
  | _, _ => false

end Modifier

def last {α : Type} (part : Modifier S → Option α) (modifiers : List (Modifier S)) : Option α :=
  modifiers.reverse.findSome? part

def writes (modifiers : List (Modifier S)) : List Write := modifiers.filterMap Modifier.write?

def Intent.modified : Intent → List (Modifier S) → Action S
  | traverse target, modifiers =>
      .traverse target (last Modifier.condition? modifiers) (last Modifier.data? modifiers)
  | fork targets, modifiers =>
    .fork targets ((last Modifier.strategy? modifiers).getD .parallel)
      (.ofList (modifiers.filterMap Modifier.branchCondition?)) (last Modifier.data? modifiers)
  | join node, modifiers =>
    .join node ((last Modifier.policy? modifiers).getD .all) (last Modifier.timeout? modifiers)
      (last Modifier.data? modifiers)
  | suspend id reason, modifiers => .suspend id reason (last Modifier.timeout? modifiers)
  | complete, modifiers => .complete (last Modifier.data? modifiers)
  | error message recoverable fallback, _ => .error message recoverable fallback

/-- The updates of a command with these modifiers: those that were set last, and over them the values that were
written since. A command begins without any updates. -/
inductive Leaves : List (Modifier S) → Context → Prop where
  | unset {modifiers : List (Modifier S)} {updates : Context} : (∀ modifier ∈ modifiers, modifier.context? = none) →
      putAll .empty (writes modifiers) = .ok updates → Leaves modifiers updates
  | set {before after : List (Modifier S)} {given updates : Context} :
      (∀ modifier ∈ after, modifier.context? = none) → putAll given (writes after) = .ok updates →
      Leaves (before ++ .context given :: after) updates

def intent (command : Command S) : Intent :=
  match command.action with
  | .traverse target _ _ => .traverse target
  | .fork targets _ _ _ => .fork targets
  | .join node _ _ _ => .join node
  | .suspend id reason _ => .suspend id reason
  | .complete _ => .complete
  | .error message recoverable fallback => .error message recoverable fallback

def modify (command : Command S) : Modifier S → Except Error (Command S)
  | .context updates => .ok (command.withContext updates)
  | .write one => command.withContextValue one.key one.value
  | .data given => .ok (command.withData given)
  | .condition given => .ok (command.withCondition given)
  | .strategy given => .ok (command.withStrategy given)
  | .branchCondition target given => .ok (command.withBranchCondition target given)
  | .policy given => .ok (command.withPolicy given)
  | .timeout given => .ok (command.withTimeout given)

def modified (command : Command S) (modifiers : List (Modifier S)) : Except Error (Command S) :=
  modifiers.foldlM modify command

section
variable {draft : Draft} {start command next : Command S} {before modifiers : List (Modifier S)}
  {modifier : Modifier S}

theorem asks_of_command (made : draft.command = .ok start) : draft.Asks start.intent ∧ start.intent.WellFormed := by
  cases draft with
  | fork targets =>
      simp only [Draft.command, fork] at made
      split at made <;> cases made
      rename_i some
      have occur := firstOccurrences_distinct targets
      refine ⟨.fork occur, fun nowhere => some ?_, occur.nodup⟩
      rw [occur.eq_nil_iff.mp nowhere, List.isEmpty_nil]
  | suspend id reason =>
      simp only [Draft.command, suspend] at made
      split at made
      · cases made
      rename_i named
      split at made <;> cases made
      rename_i given
      exact ⟨.suspend, Bool.eq_false_iff.mpr named, Bool.eq_false_iff.mpr given⟩
  | executionError message =>
      have said : Text.allBlank "node execution panicked: " = false := by decide +kernel
      cases made
      cases silent : Text.allBlank message with
      | true =>
          simp only [intent, executionError, ofAction, silent, if_true]
          exact ⟨.silentError silent, by decide +kernel, by decide +kernel⟩
      | false =>
          simp only [intent, executionError, ofAction, silent, Bool.false_eq_true, if_false]
          exact ⟨.executionError silent, by decide +kernel, by rw [Text.allBlank_append, said, Bool.false_and]⟩
  | traverse _ =>
      cases made
      exact ⟨.traverse, trivial⟩
  | join _ =>
      cases made
      exact ⟨.join, trivial⟩
  | complete =>
      cases made
      exact ⟨.complete, trivial⟩
  | error _ =>
      cases made
      exact ⟨.error, trivial⟩
  | recoverableError _ _ =>
      cases made
      exact ⟨.recoverableError, trivial⟩

/-- There is a command for a draft just if what it asks for is well formed. -/
theorem command_succeeds_iff :
    (∃ start : Command S, draft.command = .ok start) ↔ ∃ intent, draft.Asks intent ∧ intent.WellFormed := by
  constructor
  · rintro ⟨start, made⟩
    exact ⟨start.intent, asks_of_command made⟩
  · rintro ⟨intent, asks, wellFormed⟩
    cases asks with
    | fork occur =>
        have some := mt occur.eq_nil_iff.mpr wellFormed.1
        exact ⟨_, if_neg (mt List.isEmpty_iff.mp some)⟩
    | suspend => simp [Draft.command, suspend, wellFormed.1, wellFormed.2]
    | _ => exact ⟨_, rfl⟩

theorem begins_of_command (made : draft.command = .ok start) :
    start.action = start.intent.modified [] ∧ start.updates = .empty := by
  cases draft with
  | fork targets =>
      simp only [Draft.command, fork] at made
      split at made <;> cases made
      exact ⟨rfl, rfl⟩
  | suspend id reason =>
      simp only [Draft.command, suspend] at made
      split at made
      · cases made
      split at made <;> cases made
      exact ⟨rfl, rfl⟩
  | _ =>
      cases made
      exact ⟨rfl, rfl⟩

theorem withContextValue_eq_ok_iff {one : Write} : command.withContextValue one.key one.value = .ok next ↔
    ∃ updates, command.updates.put one.key one.value = .ok updates ∧ next = { command with updates } := by
  unfold withContextValue
  cases command.updates.put one.key one.value <;> simp [bind, Except.bind, pure, Except.pure, eq_comm]

theorem modify_succeeds_iff : (∃ next, command.modify modifier = .ok next) ↔
    ∀ one, modifier.write? = some one → one.kind.isWritable one.value = true := by
  cases modifier with
  | write one =>
      have written : (∃ updates, command.updates.put one.key one.value = .ok updates) ↔
          one.kind.isWritable one.value = true := Context.put_succeeds_iff
      simp only [modify, withContextValue_eq_ok_iff, Modifier.write?, Option.some.injEq, forall_eq', ← written]
      exact ⟨fun ⟨_, updates, put, _⟩ => ⟨updates, put⟩, fun ⟨updates, put⟩ => ⟨_, updates, put, rfl⟩⟩
  | _ => simp [modify, Modifier.write?]

theorem last_concat {α : Type} (part : Modifier S → Option α) :
    last part (modifiers ++ [modifier]) = (part modifier).or (last part modifiers) := by
  simp only [last, List.reverse_append, List.reverse_singleton, List.singleton_append, List.findSome?_cons]
  cases part modifier <;> rfl

theorem action_of_modify {intent : Intent} (made : command.modify modifier = .ok next)
    (known : command.action = intent.modified before) : next.action = intent.modified (before ++ [modifier]) := by
  cases modifier with
  | write one =>
      obtain ⟨updates, _, rfl⟩ := withContextValue_eq_ok_iff.mp made
      cases intent <;> simp [known, Intent.modified, last_concat, List.filterMap_cons]
  | branchCondition target given =>
      cases made
      cases intent <;> simp [withBranchCondition, known, Intent.modified, last_concat, Dict.ofList_concat]
  | _ =>
      cases made
      cases intent <;>
        simp [withContext, withData, withCondition, withStrategy, withPolicy, withTimeout, known, Intent.modified,
          last_concat, List.filterMap_cons]

theorem intent_of_action {intent : Intent} (known : command.action = intent.modified modifiers) :
    command.intent = intent := by
  rw [Command.intent, known]
  cases intent <;> rfl

theorem modified_concat : start.modified (before ++ [modifier]) = .ok next ↔
    ∃ command, start.modified before = .ok command ∧ command.modify modifier = .ok next := by
  simp only [modified, Fallible.foldlM_append_eq_ok_iff, Fallible.foldlM_singleton]

theorem action_of_modified (begins : start.action = start.intent.modified [])
    (made : start.modified modifiers = .ok command) : command.action = start.intent.modified modifiers := by
  induction modifiers using List.reverseRecOn generalizing command with
  | nil =>
      cases made
      exact begins
  | append_singleton before modifier ih =>
      obtain ⟨middle, earlier, last⟩ := modified_concat.mp made
      exact action_of_modify last (ih earlier)

theorem modify_of_not_fits (unfit : modifier.fits command.intent = false) :
    command.modify modifier = .ok command := by
  obtain ⟨action, updates⟩ := command
  cases modifier <;> cases action <;> simp [Modifier.fits, intent] at unfit <;> rfl

theorem updates_of_modify (made : command.modify modifier = .ok next) (unset : modifier.context? = none)
    (unwritten : modifier.write? = none) : next.updates = command.updates := by
  cases modifier with
  | context _ => cases unset
  | write _ => cases unwritten
  | _ =>
      cases made
      simp only [withData, withCondition, withStrategy, withBranchCondition, withPolicy, withTimeout]
      split <;> rfl

theorem Leaves.behind {updates later : Context} (leaves : Leaves before updates) (unset : modifier.context? = none)
    (put : putAll updates (writes [modifier]) = .ok later) : Leaves (before ++ [modifier]) later := by
  have among {after : List (Modifier S)} (others : ∀ one ∈ after, one.context? = none) :
      ∀ one ∈ after ++ [modifier], one.context? = none :=
    List.forall_mem_append.mpr ⟨others, List.forall_mem_singleton.mpr unset⟩
  have atop {first : Context} {after : List (Modifier S)} (earlier : putAll first (writes after) = .ok updates) :
      putAll first (writes (after ++ [modifier])) = .ok later := by
    rw [writes, List.filterMap_append]
    exact Fallible.foldlM_append_eq_ok_iff.mpr ⟨updates, earlier, put⟩
  cases leaves with
  | unset others earlier => exact .unset (among others) (atop earlier)
  | set others earlier =>
      rw [List.append_assoc, List.cons_append]
      exact .set (among others) (atop earlier)

theorem leaves_of_modify (made : command.modify modifier = .ok next) (leaves : Leaves before command.updates) :
    Leaves (before ++ [modifier]) next.updates := by
  cases modifier with
  | context updates =>
      cases made
      exact .set (by simp) rfl
  | write one =>
      obtain ⟨updates, put, rfl⟩ := withContextValue_eq_ok_iff.mp made
      exact leaves.behind rfl ((Fallible.foldlM_singleton _ _ one).trans put)
  | _ =>
      rw [updates_of_modify made rfl rfl]
      exact leaves.behind rfl rfl

theorem leaves_of_modified (begins : start.updates = .empty) (made : start.modified modifiers = .ok command) :
    Leaves modifiers command.updates := by
  induction modifiers using List.reverseRecOn generalizing command with
  | nil =>
      cases made
      exact .unset (by simp) (congrArg Except.ok begins.symm)
  | append_singleton before modifier ih =>
      obtain ⟨middle, earlier, last⟩ := modified_concat.mp made
      exact leaves_of_modify last (ih earlier)

theorem modified_succeeds_iff : (∃ command, start.modified modifiers = .ok command) ↔
    ∀ one ∈ writes modifiers, one.kind.isWritable one.value = true := by
  have each (command : Command S) (modifier : Modifier S) : (∃ next, command.modify modifier = .ok next) ↔
      ∀ one, modifier.write? = some one → one.kind.isWritable one.value = true := modify_succeeds_iff
  rw [modified, Fallible.foldlM_succeeds_iff each]
  simp only [writes, List.mem_filterMap]
  exact ⟨fun each one ⟨modifier, member, gives⟩ => each modifier member one gives,
    fun each modifier member one gives => each one ⟨modifier, member, gives⟩⟩

end

end FlowGraph.Command

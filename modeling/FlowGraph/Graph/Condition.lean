import FlowGraph.Program.Attempt
import FlowGraph.Snapshot

/-!
Conditions on snapshots. A condition is a tree; its description follows from its structure, and its
evaluation looks at the second part of a conjunction or disjunction only if the first leaves it open.
-/

namespace FlowGraph

inductive Condition (S : Type) where
  | always
  | never
  | whole (description : String) (holds : Snapshot S → Attempt Bool)
  | value {kind : Kind} (key : ContextKey kind) (description : String)
      (holds : kind.Value → Attempt Bool)
  | present (name : String)
  | equals {kind : Kind} (key : ContextKey kind) (expected : kind.Value)
  | greater (name : String) (threshold : Binary64)
  | less (name : String) (threshold : Binary64)
  | both (first second : Condition S)
  | either (first second : Condition S)
  | negation (condition : Condition S)

namespace Condition
variable {S : Type}

instance : Inhabited (Condition S) := ⟨always⟩

def number? (context : Context) (name : String) : Option Binary64 :=
  (context.getRaw name).bind Json.toFloat?

/-- A condition on a value fails if the key finds none. -/
def evaluate : Condition S → Snapshot S → Attempt Bool
  | always, _ => pure true
  | never, _ => pure false
  | whole _ holds, snapshot => holds snapshot
  | value key _ holds, snapshot =>
    match snapshot.context.get key with
    | some found => holds found
    | none => pure false
  | present name, snapshot => pure (snapshot.context.contains name)
  | @equals _ kind key expected, snapshot =>
    pure ((snapshot.context.get key).any fun found => kind.same found expected)
  | greater name threshold, snapshot => pure ((number? snapshot.context name).any threshold.lt)
  | less name threshold, snapshot => pure ((number? snapshot.context name).any (·.lt threshold))
  | both first second, snapshot => do
    if ← first.evaluate snapshot then second.evaluate snapshot else pure false
  | either first second, snapshot => do
    if ← first.evaluate snapshot then pure true else second.evaluate snapshot
  | negation condition, snapshot => do
    let held ← condition.evaluate snapshot
    pure (!held)

def description : Condition S → String
  | always => "always"
  | never => "never"
  | whole description _ => description
  | value _ description _ => description
  | present name => name ++ " is present"
  | @equals _ kind key expected => key.name ++ " == " ++ kind.describe expected
  | greater name threshold => name ++ " > " ++ DecimalStyle.plain.text threshold
  | less name threshold => name ++ " < " ++ DecimalStyle.plain.text threshold
  | both first second => "(" ++ first.description ++ " AND " ++ second.description ++ ")"
  | either first second => "(" ++ first.description ++ " OR " ++ second.description ++ ")"
  | negation condition => "NOT " ++ condition.description

def isAlways : Condition S → Bool
  | always => true
  | _ => false

def record (condition : Condition S) : String :=
  "EdgeCondition(" ++ Text.quoted condition.description ++ ")"

end Condition

end FlowGraph

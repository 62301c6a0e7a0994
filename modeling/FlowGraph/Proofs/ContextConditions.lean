import Mathlib.Logic.Basic
import FlowGraph.Graph.Condition

/-!
Conditions on the context. They see nothing of a snapshot but the entries under the keys that they name, so two
snapshots that have the same entries there cannot be told apart by them, whatever else they hold.
-/

namespace FlowGraph

theorem Binary64.lt_asymm {x y : Binary64} (below : x.lt y = true) : y.lt x = false := by
  simp only [lt, Bool.and_eq_true, Bool.not_eq_true', decide_eq_true_eq] at below
  have above : ¬y.rank < x.rank := by omega
  simp only [lt, above, decide_false, Bool.and_false]

namespace Condition
variable {S : Type}

def isContextual : Condition S → Bool
  | whole _ _ => false
  | both first second | either first second => first.isContextual && second.isContextual
  | negation condition => condition.isContextual
  | _ => true

def names : Condition S → List String
  | value key _ _ | equals key _ => [key.name]
  | present name | greater name _ | less name _ => [name]
  | both first second | either first second => first.names ++ second.names
  | negation condition => condition.names
  | always | never | whole _ _ => []

/-- The conditions that ask for one entry of the context. -/
inductive AsksFor : String → Condition S → Prop where
  | value {kind : Kind} {key : ContextKey kind} {description : String} {holds : kind.Value → Attempt Bool} :
      AsksFor key.name (.value key description holds)
  | present {name : String} : AsksFor name (.present name)
  | equals {kind : Kind} {key : ContextKey kind} {expected : kind.Value} : AsksFor key.name (.equals key expected)
  | greater {name : String} {threshold : Binary64} : AsksFor name (.greater name threshold)
  | less {name : String} {threshold : Binary64} : AsksFor name (.less name threshold)

section
variable {name : String} {leaf condition : Condition S} {first second snapshot : Snapshot S} {x threshold : Binary64}

theorem evaluate_leaf_congr (asks : AsksFor name leaf)
    (same : first.context.entries.get? name = second.context.entries.get? name) :
    leaf.evaluate first = leaf.evaluate second := by
  cases asks with
  | value => simp only [evaluate, Context.get, same]
  | present => simp only [evaluate, Context.contains, Dict.contains, same]
  | equals => simp only [evaluate, Context.get, same]
  | greater => simp only [evaluate, number?, Context.getRaw, same]
  | less => simp only [evaluate, number?, Context.getRaw, same]

theorem evaluate_congr (contextual : condition.isContextual = true)
    (agree : ∀ name ∈ condition.names, first.context.entries.get? name = second.context.entries.get? name) :
    condition.evaluate first = condition.evaluate second := by
  induction condition with
  | always => rfl
  | never => rfl
  | whole => cases contextual
  | value => exact evaluate_leaf_congr .value (agree _ List.mem_cons_self)
  | present => exact evaluate_leaf_congr .present (agree _ List.mem_cons_self)
  | equals => exact evaluate_leaf_congr .equals (agree _ List.mem_cons_self)
  | greater => exact evaluate_leaf_congr .greater (agree _ List.mem_cons_self)
  | less => exact evaluate_leaf_congr .less (agree _ List.mem_cons_self)
  | both one other ihOne ihOther =>
      obtain ⟨left, right⟩ := Bool.and_eq_true_iff.mp contextual
      rw [evaluate, evaluate, ihOne left fun name among => agree name (List.mem_append_left _ among),
        ihOther right fun name among => agree name (List.mem_append_right _ among)]
  | either one other ihOne ihOther =>
      obtain ⟨left, right⟩ := Bool.and_eq_true_iff.mp contextual
      rw [evaluate, evaluate, ihOne left fun name among => agree name (List.mem_append_left _ among),
        ihOther right fun name among => agree name (List.mem_append_right _ among)]
  | negation condition ih => rw [evaluate, evaluate, ih contextual agree]

theorem evaluate_leaf_of_absent (asks : AsksFor name leaf) (absent : snapshot.context.entries.get? name = none) :
    leaf.evaluate snapshot = .ok false := by
  cases asks <;>
    simp [evaluate, Context.get, Context.contains, Dict.contains, number?, Context.getRaw, absent, pure, Except.pure]

theorem any_number?_iff {context : Context} {test : Binary64 → Bool} : (number? context name).any test = true ↔
    ∃ entry x, context.entries.get? name = some entry ∧ entry.value.toFloat? = some x ∧ test x = true := by
  simp only [number?, Context.getRaw, Option.any_eq_true, Option.bind_eq_some_iff, Option.map_eq_some_iff,
    exists_exists_and_eq_and]
  exact ⟨fun ⟨x, ⟨entry, found, number⟩, passes⟩ => ⟨entry, x, found, number, passes⟩,
    fun ⟨entry, x, found, number, passes⟩ => ⟨x, ⟨entry, found, number⟩, passes⟩⟩

theorem greater_holds_iff : (greater name threshold).evaluate snapshot = .ok true ↔ ∃ entry x,
    snapshot.context.entries.get? name = some entry ∧ entry.value.toFloat? = some x ∧ threshold.lt x = true := by
  simp only [evaluate, pure, Except.pure, Except.ok.injEq, any_number?_iff]

theorem less_holds_iff : (less name threshold).evaluate snapshot = .ok true ↔ ∃ entry x,
    snapshot.context.entries.get? name = some entry ∧ entry.value.toFloat? = some x ∧ x.lt threshold = true := by
  simp only [evaluate, pure, Except.pure, Except.ok.injEq, any_number?_iff]

theorem not_greater_and_less : ¬((greater name threshold).evaluate snapshot = .ok true ∧
    (less name threshold).evaluate snapshot = .ok true) := by
  rintro ⟨above, below⟩
  obtain ⟨entry, x, found, number, higher⟩ := greater_holds_iff.mp above
  obtain ⟨other, y, again, same, lower⟩ := less_holds_iff.mp below
  obtain rfl := Option.some.inj (found.symm.trans again)
  obtain rfl := Option.some.inj (number.symm.trans same)
  rw [Binary64.lt_asymm higher] at lower
  cases lower

/-- A condition that looks at nothing but the context gives the same answer, or breaks off in the same way, on
all snapshots that have the same entries under the keys in its tree. Where a key has no entry, each condition
that asks for it is false. A number is compared as what its entry stands for, so it is never both above and
below a threshold. -/
theorem conditions_see_only_their_keys :
    (∀ condition : Condition S, condition.isContextual = true → ∀ first second : Snapshot S,
      (∀ name ∈ condition.names, first.context.entries.get? name = second.context.entries.get? name) →
        condition.evaluate first = condition.evaluate second) ∧
    (∀ (name : String) (leaf : Condition S), AsksFor name leaf → ∀ snapshot : Snapshot S,
      snapshot.context.entries.get? name = none → leaf.evaluate snapshot = .ok false) ∧
    ∀ (name : String) (threshold : Binary64) (snapshot : Snapshot S),
      ((greater name threshold).evaluate snapshot = .ok true ↔ ∃ entry x,
        snapshot.context.entries.get? name = some entry ∧ entry.value.toFloat? = some x ∧ threshold.lt x = true) ∧
      ((less name threshold).evaluate snapshot = .ok true ↔ ∃ entry x,
        snapshot.context.entries.get? name = some entry ∧ entry.value.toFloat? = some x ∧ x.lt threshold = true) ∧
      ¬((greater name threshold).evaluate snapshot = .ok true ∧
        (less name threshold).evaluate snapshot = .ok true) :=
  ⟨fun _ contextual _ _ => evaluate_congr contextual, fun _ _ asks _ => evaluate_leaf_of_absent asks,
    fun _ _ _ => ⟨greater_holds_iff, less_holds_iff, not_greater_and_less⟩⟩

end

section

def marksKey : ContextKey (.int .u8) := ⟨"marks"⟩

def promising : Condition String :=
  .both (.greater "marks" (.ofNat 4))
    (.negation (.either (.present "region") (.value marksKey "hundred" fun marks => pure (marks.value = 100))))

def marks (others : Dict String Context.Entry) : Context := ⟨others.insert "marks" ⟨"u8", .int 5⟩⟩

def pupil : Snapshot String :=
  (Snapshot.new ⟨"pupil", by decide +kernel, by decide⟩ "" default).withContext (marks .empty) ⟨1, 0⟩

def graduate : Snapshot String :=
  .initial ⟨"graduate", by decide +kernel, by decide⟩ "thesis" (marks (.ofList [("title", ⟨"bool", .bool true⟩)]))
    ⟨"auditorium", by decide +kernel, by decide⟩ default

theorem pupil_passes_like_graduate : promising.evaluate pupil = promising.evaluate graduate ∧
    promising.evaluate graduate = .ok true ∧
    (Condition.present (S := String) "title").evaluate pupil = .ok false ∧
    (Condition.less (S := String) "marks" (.ofNat 4)).evaluate graduate ≠ .ok true := by
  obtain ⟨alike, absent, compares⟩ := conditions_see_only_their_keys (S := String)
  refine ⟨alike promising rfl pupil graduate ?_, by rfl, absent "title" _ .present pupil (by decide +kernel), ?_⟩
  · simp only [promising, names, marksKey, List.mem_append, List.mem_singleton]
    rintro name (rfl | rfl | rfl) <;> rfl
  · intro below
    exact (compares "marks" (.ofNat 4) graduate).2.2 ⟨by rfl, below⟩

end

end Condition
end FlowGraph

import Mathlib.Data.List.Induction
import FlowGraph.Engine.Join
import FlowGraph.Proofs.Dict

/-!
What the default merger makes of the contexts of joined branches. Each branch brings the context of the
fork along with its own writes over it, so a branch that joins later puts entries of the fork back over
what earlier branches wrote. The main statement says exactly which keys keep their last writer's entry.
-/

namespace FlowGraph

namespace Context

/-- The entry that the last of some updates to hold a key gives it. -/
def written (updates : List Context) (name : String) : Option Entry :=
  updates.reverse.findSome? fun update => update.entries.get? name

/-- The entry of a key when no write of a branch is lost: that of the last branch that wrote the key
itself, and that of the fork if no branch did. -/
def lastWritten (base : Context) (writes : List (List Context)) (name : String) : Option Entry :=
  (writes.reverse.findSome? fun updates => written updates name) <|> base.entries.get? name

theorem get?_merge (context updates : Context) (name : String) :
    (context.merge updates).entries.get? name =
      (updates.entries.get? name <|> context.entries.get? name) :=
  Dict.get?_union context.entries updates.entries name

theorem written_concat (updates : List Context) (last : Context) (name : String) :
    written (updates ++ [last]) name = (last.entries.get? name <|> written updates name) := by
  simp only [written, List.reverse_append, List.reverse_cons, List.reverse_nil, List.nil_append,
    List.cons_append, List.findSome?_cons]
  cases last.entries.get? name <;> rfl

theorem get?_foldl_merge (base : Context) (name : String) (updates : List Context) :
    (updates.foldl merge base).entries.get? name =
      (written updates name <|> base.entries.get? name) := by
  induction updates using List.reverseRecOn with
  | nil => rfl
  | append_singleton updates last ih =>
      rw [List.foldl_append, List.foldl_cons, List.foldl_nil, get?_merge, ih, written_concat]
      cases last.entries.get? name <;> rfl

theorem findSome?_inherited_iff {α : Type} (inherited : Option α) (own : List (Option α)) :
    ((own.reverse.findSome? fun entry => entry <|> inherited) <|> inherited) =
        (own.reverse.findSome? id <|> inherited) ↔
      inherited = none ∨ (∃ entry, own.getLast? = some entry ∧ entry.isSome) ∨
        (own.reverse.findSome? id <|> inherited) = inherited := by
  induction own using List.reverseRecOn with
  | nil => simp
  | append_singleton earlier last _ =>
      simp only [List.reverse_append, List.reverse_cons, List.reverse_nil, List.nil_append,
        List.cons_append, List.findSome?_cons, List.getLast?_append, List.getLast?_singleton,
        Option.some_or, Option.some.injEq, exists_eq_left', id]
      cases last with
      | some entry => simp
      | none =>
          cases inherited with
          | none => simp [Function.id_def]
          | some entry => simp [eq_comm]

theorem written_map_foldl_merge (base : Context) (writes : List (List Context)) (name : String) :
    written (writes.map fun updates => updates.foldl merge base) name =
      ((writes.map fun updates => written updates name).reverse.findSome? fun entry =>
        entry <|> base.entries.get? name) := by
  rw [written, ← List.map_reverse, ← List.map_reverse, List.findSome?_map, List.findSome?_map]
  congr 1
  funext updates
  exact get?_foldl_merge base name updates

end Context

section
variable {W S : Type}

theorem lastWriterWins_context (base : Snapshot S) (joined : List (JoinedBranch S)) :
    (lastWriterWins base joined).context =
      (joined.map fun branch => branch.snapshot.context).foldl Context.merge base.context := by
  rw [List.foldl_map]
  rfl

theorem reconcile_lastWriterWins (base : Snapshot S) (joined : List (JoinedBranch S))
    (position : Position) (positioned : base.position = some position) (node : NodeId) (time : Nat)
    (world : W) (readings : Readings) :
    Engine.reconcile base node joined (Merger.lastWriterWins base joined time world).1 readings =
      .ok (Engine.reconciled base position node joined (lastWriterWins base joined) readings) := by
  simp only [Merger.lastWriterWins, Effect.pure, Engine.reconcile, positioned]

theorem reconciled_context (base : Snapshot S) (position : Position) (node : NodeId)
    (joined : List (JoinedBranch S)) (merged : Merged S) (readings : Readings) :
    (Engine.reconciled base position node joined merged readings).context = merged.context := by
  rfl

/-- When each branch brings the context of the fork with its own updates merged over it, a key keeps its
last writer's entry exactly if the fork does not know the key, the branch that joined last wrote it
itself, or the entry to keep is that of the fork. The snapshot that goes on has the merged context. -/
theorem lastWriterWins_keeps_writes_iff (base : Snapshot S) (joined : List (JoinedBranch S))
    (writes : List (List Context))
    (grown : (joined.map fun branch => branch.snapshot.context) =
      writes.map fun updates => updates.foldl Context.merge base.context) :
    (∀ name, (lastWriterWins base joined).context.entries.get? name =
          base.context.lastWritten writes name ↔
        base.context.entries.get? name = none ∨
          (∃ updates, writes.getLast? = some updates ∧ (Context.written updates name).isSome) ∨
          base.context.lastWritten writes name = base.context.entries.get? name) ∧
      ∀ (position : Position) (node : NodeId) (time : Nat) (world : W) (readings : Readings),
        base.position = some position →
          ∃ next,
            Engine.reconcile base node joined (Merger.lastWriterWins base joined time world).1
              readings = .ok next ∧
            next.context = (lastWriterWins base joined).context := by
  constructor
  · intro name
    have found := Context.get?_foldl_merge base.context name
      (writes.map fun updates => updates.foldl Context.merge base.context)
    rw [Context.written_map_foldl_merge, ← grown, ← lastWriterWins_context] at found
    have kept : base.context.lastWritten writes name =
        ((writes.map fun updates => Context.written updates name).reverse.findSome? id <|>
          base.context.entries.get? name) := by
      rw [Context.lastWritten, ← List.map_reverse, List.findSome?_map]
      rfl
    rw [found, kept, Context.findSome?_inherited_iff]
    simp only [List.getLast?_map, Option.map_eq_some_iff, exists_exists_and_eq_and]
  · intro position node time world readings positioned
    exact ⟨_, reconcile_lastWriterWins base joined position positioned node time world readings,
      reconciled_context base position node joined _ readings⟩

end

section
def verdict (value : String) : Context := ⟨⟨[("verdict", ⟨"text", .string value⟩)], by simp⟩⟩

def reviewNode : NodeId := ⟨"review", by decide +kernel, by decide⟩

def underReview (context : Context) : Snapshot Unit :=
  .initial ⟨"reviewing", by decide +kernel, by decide⟩ () context reviewNode default

/-- Branches that wrote these updates over the verdict that the fork knew. -/
def reviews (writes : List (List Context)) : List (JoinedBranch Unit) :=
  writes.map fun updates =>
    ⟨reviewNode, reviewNode, underReview (updates.foldl Context.merge (verdict "old"))⟩

theorem lastWriterWins_keeps_last_review :
    (lastWriterWins (underReview (verdict "old")) (reviews [[], [verdict "new"]])).context.entries.get?
        "verdict" = (verdict "old").lastWritten [[], [verdict "new"]] "verdict" ∧
      ∃ next,
        Engine.reconcile (underReview (verdict "old")) reviewNode (reviews [[], [verdict "new"]])
          (Merger.lastWriterWins (underReview (verdict "old")) (reviews [[], [verdict "new"]]) 0 ()).1
          default = .ok next ∧
        next.context = (lastWriterWins (underReview (verdict "old"))
          (reviews [[], [verdict "new"]])).context := by
  have kept := lastWriterWins_keeps_writes_iff (W := Unit) (underReview (verdict "old"))
    (reviews [[], [verdict "new"]]) [[], [verdict "new"]] rfl
  constructor
  · apply (kept.1 "verdict").mpr
    exact .inr (.inl ⟨[verdict "new"], rfl, rfl⟩)
  · exact kept.2 _ reviewNode 0 () default rfl

/-- One branch writes a verdict, and another one that joins later and writes nothing brings back the
verdict of the fork. -/
theorem lastWriterWins_loses_only_write :
    ((reviews [[verdict "new"], []]).map fun branch => branch.snapshot.context) =
        [[verdict "new"], []].map (fun updates => updates.foldl Context.merge (verdict "old")) ∧
      (verdict "old").lastWritten [[verdict "new"], []] "verdict" =
        some ⟨"text", .string "new"⟩ ∧
      (lastWriterWins (underReview (verdict "old")) (reviews [[verdict "new"], []])).context.entries.get?
        "verdict" = some ⟨"text", .string "old"⟩ ∧
      (⟨"text", .string "new"⟩ : Context.Entry) ≠ ⟨"text", .string "old"⟩ := by
  refine ⟨rfl, rfl, rfl, ?_⟩
  simp

end

end FlowGraph

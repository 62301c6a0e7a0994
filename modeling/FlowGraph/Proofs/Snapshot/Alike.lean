import FlowGraph.Engine.Drive
import FlowGraph.Proofs.Dict

/-!
Snapshots that differ in what the clock showed and in nothing else. Which instants pass for the same is a
parameter: all of them, or only equal ones. Whatever is done to such snapshots, and at such times, they stay so.
-/

namespace FlowGraph

/-- Which instants may pass for the same: each for itself, and the later ones of two pairs if both pairs do. -/
structure Instant.Blurred (same : Instant → Instant → Prop) : Prop where
  refl : ∀ instant, same instant instant
  later : ∀ {known other now time}, same known other → same now time →
    same (known.later now) (other.later time)

def Readings.Alike (same : Instant → Instant → Prop) (readings others : Readings) : Prop :=
  ∀ place another, same (readings place) (others another)

variable {S : Type} {same : Instant → Instant → Prop}

structure Position.Alike (same : Instant → Instant → Prop) (position other : Position) : Prop where
  current : position.current = other.current
  behind : position.behind = other.behind
  previous : position.previous = other.previous
  traversals : position.traversals.Alike same other.traversals

structure Revision.Alike (same : Instant → Instant → Prop) (revision other : Revision) : Prop where
  version : revision.version = other.version
  created : same revision.created other.created
  modified : same revision.modified other.modified

structure Snapshot.Alike (same : Instant → Instant → Prop) (snapshot other : Snapshot S) : Prop where
  workflow : snapshot.workflow = other.workflow
  data : snapshot.data = other.data
  context : snapshot.context = other.context
  position : Option.Rel (Position.Alike same) snapshot.position other.position
  revision : snapshot.revision.Alike same other.revision

inductive Outcome.Alike (same : Instant → Instant → Prop) : Outcome S → Outcome S → Prop where
  | completed {snapshot other : Snapshot S} (alike : snapshot.Alike same other) :
      Alike same (.completed snapshot) (.completed other)
  | suspended {id reason : String} {timeout : Option Span} {snapshot other : Snapshot S}
      (alike : snapshot.Alike same other) :
      Alike same (.suspended ⟨id, reason, timeout, snapshot⟩) (.suspended ⟨id, reason, timeout, other⟩)
  | failed {error : Error} {snapshot other : Option (Snapshot S)}
      (alike : Option.Rel (Snapshot.Alike same) snapshot other) :
      Alike same (.failed error snapshot) (.failed error other)
  | joined {node : NodeId} {policy : WaitPolicy} {timeout : Option Span} {snapshot other : Snapshot S}
      (alike : snapshot.Alike same other) :
      Alike same (.joined node policy timeout snapshot) (.joined node policy timeout other)

namespace Position
variable {position other : Position}

theorem Alike.refl (blurred : Instant.Blurred same) (position : Position) : position.Alike same position :=
  ⟨rfl, rfl, rfl, .refl blurred.refl _⟩

theorem Alike.visited (alike : position.Alike same other) : position.visited = other.visited := by
  simp only [Position.visited, alike.current, alike.behind]

theorem Alike.moveTo (alike : position.Alike same other) (node : NodeId) :
    (position.moveTo node).Alike same (other.moveTo node) where
  current := rfl
  behind := by simp only [Position.moveTo, push, alike.current, alike.behind]
  previous := by simp only [Position.moveTo, push, alike.current]
  traversals := alike.traversals

theorem Alike.traverse (alike : position.Alike same other) (edge : EdgeId) (node : NodeId)
    {time now : Instant} (times : same time now) :
    (position.traverse edge node time).Alike same (other.traverse edge node now) :=
  { alike.moveTo node with traversals := alike.traversals.insert edge times }

theorem Alike.foldl_moveTo (walk : List NodeId) : ∀ {position other : Position}, position.Alike same other →
    (walk.foldl Position.moveTo position).Alike same (walk.foldl Position.moveTo other) := by
  induction walk with
  | nil => exact fun alike => alike
  | cons node rest ih => exact fun alike => ih (alike.moveTo node)

theorem stampLatest_eq_insert {stamps : Dict EdgeId Instant} {edge : EdgeId} {known : Instant}
    (found : stamps.get? edge = some known) (time : Instant) :
    stampLatest stamps edge time = stamps.insert edge (known.later time) := by
  simp only [stampLatest, found, Instant.later]
  split
  · rfl
  · exact (Dict.insert_of_get? found).symm

theorem stampLatest_alike (blurred : Instant.Blurred same) {stamps others : Dict EdgeId Instant}
    (alike : stamps.Alike same others) (edge : EdgeId) {time now : Instant} (times : same time now) :
    (stampLatest stamps edge time).Alike same (stampLatest others edge now) := by
  have both := alike.get? edge
  cases here : stamps.get? edge with
  | none =>
      cases there : others.get? edge with
      | none =>
          simp only [stampLatest, here, there]
          exact alike.insert edge times
      | some other =>
          rw [here, there] at both
          cases both
  | some known =>
      cases there : others.get? edge with
      | none =>
          rw [here, there] at both
          cases both
      | some other =>
          rw [here, there] at both
          cases both with
          | some pair =>
              rw [stampLatest_eq_insert here, stampLatest_eq_insert there]
              exact alike.insert edge (blurred.later pair times)

theorem foldl_stampLatest_alike (blurred : Instant.Blurred same) {entries others : List (EdgeId × Instant)}
    (entriesAlike : List.Forall₂ (fun one other => one.1 = other.1 ∧ same one.2 other.2) entries others) :
    ∀ {stamps table : Dict EdgeId Instant}, stamps.Alike same table →
      (entries.foldl (fun stamps entry => stampLatest stamps entry.1 entry.2) stamps).Alike same
        (others.foldl (fun stamps entry => stampLatest stamps entry.1 entry.2) table) := by
  induction entriesAlike with
  | nil => exact fun alike => alike
  | cons first _ ih =>
      intro stamps table alike
      rw [List.foldl_cons, List.foldl_cons, first.1]
      exact ih (stampLatest_alike blurred alike _ first.2)

theorem Alike.absorb (blurred : Instant.Blurred same) (alike : position.Alike same other)
    {branch another : Position} (branches : branch.Alike same another) (since : Nat) :
    (position.absorb branch since).Alike same (other.absorb another since) := by
  have walked := alike.foldl_moveTo (branch.visited.drop since)
  have stamped := foldl_stampLatest_alike blurred branches.traversals walked.traversals
  simp only [Position.absorb, ← branches.visited]
  exact { walked with traversals := stamped }

end Position

namespace Revision
variable {revision other : Revision}

theorem Alike.refl (blurred : Instant.Blurred same) (revision : Revision) : revision.Alike same revision :=
  ⟨rfl, blurred.refl _, blurred.refl _⟩

theorem Alike.advance (blurred : Instant.Blurred same) (alike : revision.Alike same other)
    {now time : Instant} (times : same now time) :
    (revision.advance now).Alike same (other.advance time) :=
  ⟨congrArg (· + 1) alike.version, alike.created, blurred.later alike.modified times⟩

theorem Alike.advancePast (blurred : Instant.Blurred same) (alike : revision.Alike same other)
    (floor : Nat) {now time : Instant} (times : same now time) :
    (revision.advancePast floor now).Alike same (other.advancePast floor time) where
  version := by simp only [Revision.advancePast, alike.version]
  created := alike.created
  modified := blurred.later alike.modified times

end Revision

namespace Snapshot
variable {snapshot other : Snapshot S} {now time : Instant}

theorem Alike.refl (blurred : Instant.Blurred same) (snapshot : Snapshot S) : snapshot.Alike same snapshot where
  workflow := rfl
  data := rfl
  context := rfl
  position := by
    cases snapshot.position with
    | none => exact .none
    | some position => exact .some (.refl blurred position)
  revision := .refl blurred _

theorem Alike.version (alike : snapshot.Alike same other) : snapshot.version = other.version :=
  alike.revision.version

theorem Alike.currentNode (alike : snapshot.Alike same other) : snapshot.currentNode = other.currentNode := by
  have positions := alike.position
  unfold Snapshot.currentNode
  generalize snapshot.position = here at positions
  generalize other.position = there at positions
  cases positions with
  | none => rfl
  | some pair => exact congrArg some pair.current

theorem Alike.visitCount (alike : snapshot.Alike same other) (node : NodeId) :
    snapshot.visitCount node = other.visitCount node := by
  have positions := alike.position
  unfold Snapshot.visitCount
  generalize snapshot.position = here at positions
  generalize other.position = there at positions
  cases positions with
  | none => rfl
  | some pair => simp only [Position.visitCount, pair.current, pair.behind]

theorem Alike.advanced (blurred : Instant.Blurred same) (alike : snapshot.Alike same other)
    (times : same now time) : (snapshot.advanced now).Alike same (other.advanced time) :=
  { alike with revision := alike.revision.advance blurred times }

theorem Alike.withData (blurred : Instant.Blurred same) (alike : snapshot.Alike same other) (data : S)
    (times : same now time) : (snapshot.withData data now).Alike same (other.withData data time) :=
  { alike.advanced blurred times with data := rfl }

theorem Alike.withContext (blurred : Instant.Blurred same) (alike : snapshot.Alike same other)
    (context : Context) (times : same now time) :
    (snapshot.withContext context now).Alike same (other.withContext context time) :=
  { alike.advanced blurred times with context := rfl }

theorem Alike.mergeContext (blurred : Instant.Blurred same) (alike : snapshot.Alike same other)
    (updates : Context) (times : same now time) :
    (snapshot.mergeContext updates now).Alike same (other.mergeContext updates time) := by
  unfold Snapshot.mergeContext
  rw [alike.context]
  exact alike.withContext blurred _ times

theorem Alike.withPosition (blurred : Instant.Blurred same) (alike : snapshot.Alike same other)
    {here there : Position} (positions : here.Alike same there) (times : same now time) :
    (snapshot.withPosition here now).Alike same (other.withPosition there time) :=
  { alike.advanced blurred times with position := .some positions }

theorem Alike.reposition (blurred : Instant.Blurred same) (alike : snapshot.Alike same other) (node : NodeId)
    {move again : Position → Position}
    (moves : ∀ {here there : Position}, here.Alike same there → (move here).Alike same (again there))
    (times : same now time) :
    (snapshot.reposition node move now).Alike same (other.reposition node again time) := by
  have positions := alike.position
  unfold Snapshot.reposition
  generalize snapshot.position = here at positions
  generalize other.position = there at positions
  cases positions with
  | none => exact alike.withPosition blurred (.refl blurred _) times
  | some pair => exact alike.withPosition blurred (moves pair) times

theorem Alike.moveTo (blurred : Instant.Blurred same) (alike : snapshot.Alike same other) (node : NodeId)
    (times : same now time) : (snapshot.moveTo node now).Alike same (other.moveTo node time) :=
  alike.reposition blurred node (fun pair => pair.moveTo node) times

theorem Alike.traverse (blurred : Instant.Blurred same) (alike : snapshot.Alike same other) (edge : EdgeId)
    (node : NodeId) {stamp mark : Instant} (stamps : same stamp mark) (times : same now time) :
    (snapshot.traverse edge node stamp now).Alike same (other.traverse edge node mark time) :=
  alike.reposition blurred node (fun pair => pair.traverse edge node stamps) times

theorem Alike.advancedPast (blurred : Instant.Blurred same) (alike : snapshot.Alike same other) (floor : Nat)
    (times : same now time) : (snapshot.advancedPast floor now).Alike same (other.advancedPast floor time) :=
  { alike with revision := alike.revision.advancePast blurred floor times }

theorem Alike.withUpdates (blurred : Instant.Blurred same) (alike : snapshot.Alike same other)
    (updates : Context) (data : Option S) {readings others : Readings}
    (times : readings.Alike same others) :
    (Engine.withUpdates snapshot updates data readings).Alike same
      (Engine.withUpdates other updates data others) := by
  have merged : (if updates.isEmpty then snapshot else snapshot.mergeContext updates (readings 0)).Alike same
      (if updates.isEmpty then other else other.mergeContext updates (others 0)) := by
    split
    · exact alike
    · exact alike.mergeContext blurred updates (times 0 0)
  cases data with
  | none => exact merged
  | some data => exact merged.withData blurred data (times _ _)

end Snapshot

structure JoinedBranch.Alike (same : Instant → Instant → Prop) (joined other : JoinedBranch S) : Prop where
  branch : joined.branch = other.branch
  joinNode : joined.joinNode = other.joinNode
  snapshot : joined.snapshot.Alike same other.snapshot

theorem lastWriterWins_alike {base other : Snapshot S} (bases : base.Alike same other)
    {joined others : List (JoinedBranch S)} (branches : List.Forall₂ (JoinedBranch.Alike same) joined others) :
    lastWriterWins base joined = lastWriterWins other others := by
  have last : (joined.getLast?.map fun branch => branch.snapshot.data) =
      others.getLast?.map fun branch => branch.snapshot.data := by
    rw [← List.getLast?_map, ← List.getLast?_map]
    congr 1
    induction branches with
    | nil => rfl
    | cons pair _ ih => rw [List.map_cons, List.map_cons, pair.snapshot.data, ih]
  have contexts : ∀ context : Context,
      joined.foldl (fun context branch => context.merge branch.snapshot.context) context =
        others.foldl (fun context branch => context.merge branch.snapshot.context) context := by
    clear last
    induction branches with
    | nil => exact fun _ => rfl
    | cons pair _ ih =>
        intro context
        rw [List.foldl_cons, List.foldl_cons, pair.snapshot.context, ih]
  simp only [lastWriterWins, last, bases.data, bases.context, contexts]

namespace Engine

theorem absorbed_alike (blurred : Instant.Blurred same) {joined others : List (JoinedBranch S)}
    (branches : List.Forall₂ (JoinedBranch.Alike same) joined others) (since : Nat) :
    ∀ {position other : Position}, position.Alike same other →
      (joined.foldl (fun position joined =>
        match joined.snapshot.position with
        | some other => position.absorb other since
        | none => position) position).Alike same
      (others.foldl (fun position joined =>
        match joined.snapshot.position with
        | some other => position.absorb other since
        | none => position) other) := by
  induction branches with
  | nil => exact fun alike => alike
  | @cons first another _ _ pair _ ih =>
      intro position other alike
      have positions := pair.snapshot.position
      simp only [List.foldl_cons]
      refine ih ?_
      generalize first.snapshot.position = here at positions ⊢
      generalize another.snapshot.position = there at positions ⊢
      cases positions with
      | none => exact alike
      | some pair => exact alike.absorb blurred pair since

theorem highestVersion_alike {joined others : List (JoinedBranch S)}
    (branches : List.Forall₂ (JoinedBranch.Alike same) joined others) :
    highestVersion joined = highestVersion others := by
  unfold highestVersion
  generalize 0 = floor
  induction branches generalizing floor with
  | nil => rfl
  | cons pair _ ih => rw [List.foldl_cons, List.foldl_cons, pair.snapshot.version, ih]

theorem reconciled_alike (blurred : Instant.Blurred same) {base other : Snapshot S}
    (bases : base.Alike same other) {position another : Position} (positions : position.Alike same another)
    {joined others : List (JoinedBranch S)} (branches : List.Forall₂ (JoinedBranch.Alike same) joined others)
    (node : NodeId) (merged : Merged S) {readings later : Readings} (times : readings.Alike same later) :
    (reconciled base position node joined merged readings).Alike same
      (reconciled other another node others merged later) := by
  have history : (absorbed position joined).Alike same (absorbed another others) := by
    unfold absorbed
    rw [positions.visited]
    exact absorbed_alike blurred branches _ positions
  have placed := ((bases.withData blurred merged.data (times 0 0)).withContext blurred merged.context
    (times 1 1)).withPosition blurred history (times 2 2)
  have moved := placed.moveTo blurred node (times 3 3)
  simp only [reconciled, highestVersion_alike branches]
  exact moved.advancedPast blurred _ (times 4 4)

end Engine

end FlowGraph

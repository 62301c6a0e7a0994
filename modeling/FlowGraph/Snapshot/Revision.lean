import FlowGraph.Snapshot.Position

/-!
The version of a snapshot, which rises with every change, and when it was made and last changed. Versions have
no bound here; one of 64 bits is the same until it wraps, as `Revision.version_after_of_lt` says.
-/

namespace FlowGraph

structure Revision where
  version : Nat
  created : Instant
  modified : Instant
  version_pos : 1 ≤ version
  ordered : modified.before created = false

namespace Revision

theorem later_ordered {created modified now : Instant} (ordered : modified.before created = false) :
    (modified.later now).before created = false := by
  unfold Instant.later
  split
  · rename_i advanced
    simp only [Instant.before, Bool.or_eq_true, Bool.or_eq_false_iff, Bool.and_eq_true,
      Bool.and_eq_false_iff, decide_eq_true_eq, decide_eq_false_iff_not, beq_iff_eq,
      beq_eq_false_iff_ne] at ordered advanced ⊢
    omega
  · exact ordered

def first (now : Instant) : Revision where
  version := 1
  created := now
  modified := now
  version_pos := Nat.le_refl 1
  ordered := by simp [Instant.before]

def withVersion (version : Nat) (created modified : Instant) : Except Error Revision :=
  if positive : 1 ≤ version then
    if ordered : modified.before created = false then
      .ok ⟨version, created, modified, positive, ordered⟩
    else .error (.invalidMetadata "last_modified precedes created_at")
  else .error (.invalidMetadata ("version must be >= 1, got " ++ toString version))

/-- The revision that follows this one and the version `floor`. -/
def advancePast (revision : Revision) (floor : Nat) (now : Instant) : Revision where
  version := max revision.version floor + 1
  created := revision.created
  modified := revision.modified.later now
  version_pos := by omega
  ordered := later_ordered revision.ordered

/-- The next revision. Its time of change does not go back even if the clock does. -/
def advance (revision : Revision) (now : Instant) : Revision where
  version := revision.version + 1
  created := revision.created
  modified := revision.modified.later now
  version_pos := by omega
  ordered := later_ordered revision.ordered

def toJson (stamp : Instant → String) (revision : Revision) : Json :=
  .ofFields
    [("version", .ofNat revision.version), ("created_at", .string (stamp revision.created)),
     ("last_modified", .string (stamp revision.modified))]

def loadFields : Json.Load (Nat × Instant × Instant) :=
  Json.loadRecord true <|
    (fun version created modified => (version, created, modified))
      <$> Json.required "version" Json.loadNat
      <*> Json.required "created_at" Instant.load
      <*> Json.required "last_modified" Instant.load

def load (json : Json) : Except String Revision := do
  let (version, created, modified) ← loadFields json
  (withVersion version created modified).mapError Error.message

end Revision

end FlowGraph

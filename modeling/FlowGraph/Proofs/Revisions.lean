import FlowGraph.Proofs.Fallible
import FlowGraph.Proofs.Snapshot.Persistence
import FlowGraph.Proofs.Snapshot.Progress
import FlowGraph.Proofs.TypedKeys

/-!
How revisions rise, whatever the clock shows. A revision is changed at readings of a clock that may go back,
past versions that need not be known before; its version rises with each change all the same, and its times stay
in order. A snapshot that is changed in any way but as the result of a join goes on by one version for each
change.
-/

namespace FlowGraph

namespace Revision

structure Fields where
  version : Nat
  created : Instant
  modified : Instant

def fields (revision : Revision) : Fields := ⟨revision.version, revision.created, revision.modified⟩

namespace Fields

/-- There is a first version, and nothing is modified before it is created. -/
structure Lawful (fields : Fields) : Prop where
  positive : 1 ≤ fields.version
  ordered : fields.modified.before fields.created = false

def advance (fields : Fields) (now : Instant) : Fields :=
  { fields with version := fields.version + 1, modified := fields.modified.later now }

end Fields

inductive Change where
  | advance (now : Instant)
  | advancePast (floor : Nat) (now : Instant)

namespace Change

def reading : Change → Instant
  | advance now | advancePast _ now => now

def perform : Change → Revision → Revision
  | advance now, revision => revision.advance now
  | advancePast floor now, revision => revision.advancePast floor now

/-- The same change of fields that nothing ties together. To go past a version is to go on and replace the
version. -/
def record : Change → Fields → Fields
  | advance now, fields => fields.advance now
  | advancePast floor now, fields => { fields.advance now with version := max fields.version floor + 1 }

def raise : Change → Nat → Nat
  | advance _, version => version + 1
  | advancePast floor _, version => max version floor + 1

/-- The same for a version of 64 bits, which begins again at zero behind the last one. -/
def wrap : Change → UInt64 → UInt64
  | advance _, version => version + 1
  | advancePast floor _, version => max version (.ofNat floor) + 1

end Change

def after (start : Revision) (changes : List Change) : Revision :=
  changes.foldl (fun revision change => change.perform revision) start

/-- The instants that the last change of a revision may show. -/
def times (start : Revision) (changes : List Change) : List Instant := start.modified :: changes.map Change.reading

/-- What can be said of a revision by the changes that led to it. -/
structure Accounts (start : Revision) (changes : List Change) (last : Revision) : Prop where
  fields : last.fields = changes.foldl (fun fields change => change.record fields) start.fields
  lawful : last.fields.Lawful
  created : last.created = start.created
  version : last.version = changes.foldl (fun version change => change.raise version) start.version
  rises : start.version + changes.length ≤ last.version
  bounded : ∀ limit, start.version ≤ limit → (∀ floor now, Change.advancePast floor now ∈ changes → floor ≤ limit) →
    last.version ≤ limit + changes.length
  modified : last.modified ∈ start.times changes
  latest : ∀ time ∈ start.times changes, last.modified.before time = false

theorem fields_perform (change : Change) (revision : Revision) :
    (change.perform revision).fields = change.record revision.fields := by
  cases change <;> rfl

theorem version_perform (change : Change) (revision : Revision) :
    (change.perform revision).version = change.raise revision.version := by
  cases change <;> rfl

theorem modified_perform (change : Change) (revision : Revision) :
    (change.perform revision).modified = revision.modified.later change.reading := by
  cases change <;> rfl

theorem created_perform (change : Change) (revision : Revision) :
    (change.perform revision).created = revision.created := by
  cases change <;> rfl

theorem Fields.Lawful.record {fields : Fields} (lawful : fields.Lawful) (change : Change) :
    (change.record fields).Lawful where
  positive := by cases change <;> exact Nat.le_add_left 1 _
  ordered := by
    have kept (now : Instant) : (fields.modified.later now).before fields.created = false :=
      Instant.before_trans lawful.ordered (Instant.later_not_before _ _)
    cases change <;> exact kept _

theorem lt_raise (change : Change) (version : Nat) : version < change.raise version := by
  cases change with
  | advance _ => exact Nat.lt_succ_self version
  | advancePast floor _ => exact Nat.lt_succ_of_le (Nat.le_max_left version floor)

theorem raise_le {change : Change} {version limit : Nat} (below : version ≤ limit)
    (past : ∀ floor now, change = .advancePast floor now → floor ≤ limit) : change.raise version ≤ limit + 1 := by
  cases change with
  | advance _ => exact Nat.succ_le_succ below
  | advancePast floor now => exact Nat.succ_le_succ (Nat.max_le.mpr ⟨below, past floor now rfl⟩)

theorem after_append (start : Revision) (earlier later : List Change) :
    start.after (earlier ++ later) = (start.after earlier).after later :=
  List.foldl_append

theorem lawful_recorded (changes : List Change) : ∀ {fields : Fields}, fields.Lawful →
    (changes.foldl (fun fields change => change.record fields) fields).Lawful := by
  induction changes with
  | nil => exact fun lawful => lawful
  | cons change rest ih => exact fun lawful => ih (lawful.record change)

theorem fields_after (start : Revision) (changes : List Change) :
    (start.after changes).fields = changes.foldl (fun fields change => change.record fields) start.fields :=
  (List.foldl_hom fields fun revision change => (fields_perform change revision).symm).symm

theorem version_after (start : Revision) (changes : List Change) :
    (start.after changes).version = changes.foldl (fun version change => change.raise version) start.version :=
  (List.foldl_hom version fun revision change => (version_perform change revision).symm).symm

theorem created_after (changes : List Change) : ∀ start :
    Revision, (start.after changes).created = start.created := by
  induction changes with
  | nil => exact fun _ => rfl
  | cons change rest ih => exact fun start => (ih (change.perform start)).trans (created_perform change start)

theorem version_add_length_le (changes : List Change) : ∀ start : Revision,
    start.version + changes.length ≤ (start.after changes).version := by
  induction changes with
  | nil => exact fun start => Nat.le_refl start.version
  | cons change rest ih =>
      intro start
      have raised := lt_raise change start.version
      have behind := ih (change.perform start)
      rw [version_perform] at behind
      rw [List.length_cons]
      exact Nat.le_trans (by omega) behind

theorem version_after_le (changes : List Change) : ∀ {start : Revision} {limit : Nat}, start.version ≤ limit →
    (∀ floor now, Change.advancePast floor now ∈ changes → floor ≤ limit) →
      (start.after changes).version ≤ limit + changes.length := by
  induction changes with
  | nil => exact fun below _ => below
  | cons change rest ih =>
      intro start limit below past
      have raised : (change.perform start).version ≤ limit + 1 := by
        rw [version_perform]
        exact raise_le below fun floor now same => past floor now (same ▸ List.mem_cons_self)
      have behind := ih raised fun floor now member =>
        Nat.le_succ_of_le (past floor now (List.mem_cons_of_mem change member))
      rw [List.length_cons]
      exact Nat.le_trans behind (by omega)

theorem toNat_add_one {version : Nat} (below : version + 1 < UInt64.size) :
    (UInt64.ofNat version + 1).toNat = version + 1 := by
  have known : version < UInt64.size := Nat.lt_of_succ_lt below
  rw [UInt64.toNat_add, UInt64.toNat_ofNat_of_lt' known]
  exact Nat.mod_eq_of_lt below

theorem max_ofNat {version floor : Nat} (below : max version floor < UInt64.size) :
    max (UInt64.ofNat version) (.ofNat floor) = .ofNat (max version floor) := by
  have first : version < UInt64.size := Nat.lt_of_le_of_lt (Nat.le_max_left _ _) below
  have second : floor < UInt64.size := Nat.lt_of_le_of_lt (Nat.le_max_right _ _) below
  change (if UInt64.ofNat version ≤ .ofNat floor then UInt64.ofNat floor else .ofNat version) = _
  simp only [UInt64.ofNat_le_iff_le first second, Nat.max_def]
  split <;> rfl

theorem toNat_wrap {change : Change} {version : Nat} (below : change.raise version < UInt64.size) :
    (change.wrap (.ofNat version)).toNat = change.raise version := by
  cases change with
  | advance now => exact toNat_add_one below
  | advancePast floor now =>
      rw [Change.wrap, max_ofNat (Nat.lt_of_succ_lt below)]
      exact toNat_add_one below

/-- Versions have no bound here. As long as the last one has 64 bits, none of them has wrapped. -/
theorem version_after_of_lt (changes : List Change) : ∀ start : Revision,
    (start.after changes).version < UInt64.size →
    (changes.foldl (fun version (change : Change) => change.wrap version) (UInt64.ofNat start.version)).toNat =
      (start.after changes).version := by
  induction changes with
  | nil => exact fun start below => UInt64.toNat_ofNat_of_lt' below
  | cons change rest ih =>
      intro start below
      have next : change.raise start.version < UInt64.size := by
        rw [← version_perform]
        exact Nat.lt_of_le_of_lt (Nat.le_trans (Nat.le_add_right _ _) (version_add_length_le rest _)) below
      have counted : change.wrap (.ofNat start.version) = .ofNat (change.perform start).version := by
        rw [version_perform, ← toNat_wrap next, UInt64.ofNat_toNat]
      rw [List.foldl_cons, counted]
      exact ih (change.perform start) below

theorem modified_mem_times (changes : List Change) : ∀ start : Revision,
    (start.after changes).modified ∈ start.times changes := by
  induction changes with
  | nil => exact fun start => List.mem_cons_self
  | cons change rest ih =>
      intro start
      have behind := ih (change.perform start)
      simp only [times, List.map_cons, List.mem_cons, modified_perform] at behind ⊢
      rcases behind with first | later
      · rcases Instant.later_eq start.modified change.reading with same | same
        · exact .inl (first.trans same)
        · exact .inr (.inl (first.trans same))
      · exact .inr (.inr later)

theorem modified_latest (changes : List Change) : ∀ start : Revision,
    ∀ time ∈ start.times changes, (start.after changes).modified.before time = false := by
  induction changes with
  | nil =>
      intro start time member
      rw [List.mem_singleton.mp member]
      exact Instant.before_irrefl start.modified
  | cons change rest ih =>
      intro start time member
      have behind := ih (change.perform start)
      have next := behind _ List.mem_cons_self
      rw [modified_perform] at next
      simp only [times, List.map_cons, List.mem_cons] at member
      rcases member with rfl | rfl | later
      · exact Instant.before_trans (Instant.later_not_before _ _) next
      · exact Instant.before_trans (Instant.later_not_before_right _ _) next
      · exact behind time (List.mem_cons_of_mem _ later)

theorem lawful_fields (revision : Revision) : revision.fields.Lawful := ⟨revision.version_pos, revision.ordered⟩

theorem accounts_after (start : Revision) (changes : List Change) :
    Accounts start changes (start.after changes) where
  fields := fields_after start changes
  lawful := fields_after start changes ▸ lawful_recorded changes start.lawful_fields
  created := created_after changes start
  version := version_after start changes
  rises := version_add_length_le changes start
  bounded _ := version_after_le changes
  modified := modified_mem_times changes start
  latest := modified_latest changes start

theorem version_advanced (readings : List Instant) (start : Revision) :
    (start.after (readings.map Change.advance)).version = start.version + readings.length := by
  rw [version_after, List.foldl_map]
  induction readings generalizing start with
  | nil => rfl
  | cons now rest ih =>
      have behind := ih (start.advance now)
      rw [List.length_cons, Nat.add_comm rest.length, ← Nat.add_assoc]
      exact behind

theorem withVersion_eq_ok_iff {fields : Fields} {revision : Revision} :
    withVersion fields.version fields.created fields.modified = .ok revision ↔
      fields.Lawful ∧ revision.fields = fields := by
  rw [withVersion_eq_ok]
  constructor
  · intro same
    have whole : revision.fields = fields := by
      cases fields
      cases same
      rfl
    exact ⟨whole ▸ revision.lawful_fields, whole⟩
  · rintro ⟨_, rfl⟩
    rfl

theorem load_succeeds_iff {json : Json} : (∃ revision, load json = .ok revision) ↔
    ∃ fields : Fields, loadFields json = .ok (fields.version, fields.created, fields.modified) ∧ fields.Lawful := by
  simp only [load_eq_ok]
  constructor
  · exact fun ⟨revision, loaded⟩ => ⟨revision.fields, loaded, revision.lawful_fields⟩
  · rintro ⟨fields, loaded, lawful⟩
    exact ⟨⟨fields.version, fields.created, fields.modified, lawful.positive, lawful.ordered⟩, loaded⟩

end Revision

namespace Snapshot
variable {S : Type}

inductive Operation (S : Type) where
  | withData (data : S)
  | withContext (context : Context)
  | withContextValue (kind : Kind) (key : ContextKey kind) (value : kind.Value)
  | mergeContext (updates : Context)
  | withPosition (position : Position)
  | moveTo (node : NodeId)
  | traverse (edge : EdgeId) (node : NodeId) (time : Instant)
  | resetTo (node : NodeId)

namespace Operation

def perform : Operation S → Snapshot S → Instant → Except Error (Snapshot S)
  | withData data, snapshot, now => .ok (snapshot.withData data now)
  | withContext context, snapshot, now => .ok (snapshot.withContext context now)
  | withContextValue _ key value, snapshot, now => snapshot.withContextValue key value now
  | mergeContext updates, snapshot, now => .ok (snapshot.mergeContext updates now)
  | withPosition position, snapshot, now => .ok (snapshot.withPosition position now)
  | moveTo node, snapshot, now => .ok (snapshot.moveTo node now)
  | traverse edge node time, snapshot, now => .ok (snapshot.traverse edge node time now)
  | resetTo node, snapshot, now => .ok (snapshot.resetTo node now)

def isWritable : Operation S → Bool
  | withContextValue kind _ value => kind.isWritable value
  | _ => true

end Operation

/-- Operations, each at a reading of the clock, up to the first one that is refused. -/
def performed (start : Snapshot S) (steps : List (Operation S × Instant)) : Except Error (Snapshot S) :=
  steps.foldlM (fun snapshot step => step.1.perform snapshot step.2) start

theorem withContextValue_eq_ok {kind : Kind} {snapshot next : Snapshot S} {key : ContextKey kind}
    {value : kind.Value} {now : Instant} : snapshot.withContextValue key value now = .ok next ↔
      ∃ context, snapshot.context.put key value = .ok context ∧ next = snapshot.withContext context now := by
  unfold withContextValue
  cases snapshot.context.put key value with
  | error fault => simp [bind, Except.bind]
  | ok context => simp [bind, Except.bind, pure, Except.pure, eq_comm]

theorem perform_succeeds_iff (operation : Operation S) (snapshot : Snapshot S) (now : Instant) :
    (∃ next, operation.perform snapshot now = .ok next) ↔ operation.isWritable = true := by
  cases operation with
  | withContextValue kind key value =>
      have accepted : (∃ context, snapshot.context.put key value = .ok context) ↔ kind.isWritable value = true :=
        Context.put_succeeds_iff
      simp only [Operation.perform, Operation.isWritable, withContextValue_eq_ok, ← accepted]
      exact ⟨fun ⟨_, context, put, _⟩ => ⟨context, put⟩, fun ⟨context, put⟩ => ⟨_, context, put, rfl⟩⟩
  | _ => simp [Operation.perform, Operation.isWritable]

theorem revision_perform {operation : Operation S} {snapshot next : Snapshot S} {now : Instant}
    (made : operation.perform snapshot now = .ok next) : next.revision = snapshot.revision.advance now := by
  cases operation with
  | withContextValue kind key value =>
      obtain ⟨context, _, rfl⟩ := withContextValue_eq_ok.mp made
      rfl
  | withData data => cases made; rfl
  | withContext context => cases made; rfl
  | mergeContext updates => cases made; rfl
  | withPosition position => cases made; rfl
  | moveTo node => cases made; exact snapshot.revision_reposition _ _ now
  | traverse edge node time => cases made; exact snapshot.revision_reposition _ _ now
  | resetTo node => cases made; exact snapshot.revision_reposition _ _ now

theorem performed_succeeds_iff (start : Snapshot S) (steps : List (Operation S × Instant)) :
    (∃ last, start.performed steps = .ok last) ↔ ∀ step ∈ steps, step.1.isWritable = true :=
  Fallible.foldlM_succeeds_iff fun snapshot step => perform_succeeds_iff step.1 snapshot step.2

theorem revision_performed (steps : List (Operation S × Instant)) : ∀ {start last : Snapshot S},
    start.performed steps = .ok last →
      last.revision = start.revision.after ((steps.map Prod.snd).map Revision.Change.advance) := by
  induction steps with
  | nil =>
      intro start last made
      cases made
      rfl
  | cons step rest ih =>
      intro start last made
      obtain ⟨next, first, behind⟩ := Fallible.foldlM_cons_eq_ok_iff.mp made
      rw [ih behind, revision_perform first]
      rfl

end Snapshot

/-- Revisions are new ones or given by fields that are lawful, and stay lawful under any changes at any readings
of the clock: the version rises as the changes say, the time of creation stays, and the time of the last change
is the latest of all readings and the time before them, from any point of the history on. Operations on a
snapshot fail just for values that have no form, and raise its version by exactly their number. -/
theorem revisions_rise_under_any_clock :
    (∀ now, (Revision.first now).fields = ⟨1, now, now⟩) ∧
    (∀ (fields : Revision.Fields) (revision : Revision),
      Revision.withVersion fields.version fields.created fields.modified = .ok revision ↔
        fields.Lawful ∧ revision.fields = fields) ∧
    (∀ json, (∃ revision, Revision.load json = .ok revision) ↔ ∃ fields : Revision.Fields,
      Revision.loadFields json = .ok (fields.version, fields.created, fields.modified) ∧ fields.Lawful) ∧
    (∀ json revision, Revision.load json = .ok revision ↔
      Revision.loadFields json = .ok (revision.version, revision.created, revision.modified)) ∧
    (∀ (start : Revision) (earlier later : List Revision.Change),
      Revision.Accounts (start.after earlier) later (start.after (earlier ++ later))) ∧
    (∀ (S : Type) (start : Snapshot S) (steps : List (Snapshot.Operation S × Instant)),
      (∃ last, start.performed steps = .ok last) ↔ ∀ step ∈ steps, step.1.isWritable = true) ∧
    ∀ (S : Type) (start last : Snapshot S) (steps : List (Snapshot.Operation S × Instant)),
      start.performed steps = .ok last →
        last.version = start.version + steps.length ∧
        last.revision = start.revision.after ((steps.map Prod.snd).map Revision.Change.advance) := by
  refine ⟨fun _ => rfl, fun _ _ => Revision.withVersion_eq_ok_iff, fun _ => Revision.load_succeeds_iff,
    fun _ _ => Revision.load_eq_ok, ?_, fun _ => Snapshot.performed_succeeds_iff, ?_⟩
  · intro start earlier later
    rw [Revision.after_append]
    exact Revision.accounts_after (start.after earlier) later
  · intro S start last steps made
    have revision := Snapshot.revision_performed steps made
    refine ⟨?_, revision⟩
    rw [Snapshot.version, revision, Revision.version_advanced, List.length_map]
    rfl

namespace Revision

def draftJson : Json :=
  .object [("created_at", .string "2020-01-02T03:04:05Z"), ("last_modified", .string "2020-01-02T04:04:05Z"),
    ("version", .int 4)]

def draft : Revision := ⟨4, ⟨1577934245, 0⟩, ⟨1577937845, 0⟩, by decide, by decide⟩

/-- The clock shows the year 1970 at the first and at the last change. -/
def setbacks : List Change :=
  [.advance ⟨0, 0⟩, .advancePast 7 ⟨1577930000, 0⟩, .advancePast 2 ⟨1577940000, 0⟩, .advance ⟨0, 0⟩]

def lecternNode : NodeId := ⟨"lectern", by decide +kernel, by decide⟩

def drafted : Snapshot Unit := ⟨⟨"drafting", by decide +kernel, by decide⟩, (), .empty, none, draft⟩

def edits : List (Snapshot.Operation Unit × Instant) :=
  [(.withContextValue .char ⟨"initial"⟩ 'é', ⟨0, 0⟩), (.moveTo lecternNode, ⟨1577940000, 0⟩),
    (.mergeContext .empty, ⟨0, 0⟩), (.resetTo lecternNode, ⟨0, 0⟩)]

theorem draft_rises_under_setbacks : load draftJson = .ok draft ∧ (draft.after setbacks).version = 10 ∧
    (draft.after setbacks).fields.Lawful ∧ (draft.after setbacks).modified.before ⟨1577940000, 0⟩ = false ∧
    ∃ last, drafted.performed edits = .ok last ∧ last.version = 8 := by
  obtain ⟨_, _, _, loads, accounts, succeeds, rises⟩ := revisions_rise_under_any_clock
  have reached := accounts draft [] setbacks
  obtain ⟨last, made⟩ := (succeeds Unit drafted edits).mpr (by decide)
  refine ⟨(loads _ _).mpr rfl, reached.version, reached.lawful, reached.latest _ ?_, last, made, ?_⟩
  · exact List.mem_of_elem_eq_true (by decide)
  · exact (rises Unit drafted last edits made).1

end Revision

end FlowGraph

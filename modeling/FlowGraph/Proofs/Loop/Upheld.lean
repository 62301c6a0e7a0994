import FlowGraph.Proofs.Loop.Follows
import FlowGraph.Proofs.Loop.Vouched
import FlowGraph.Proofs.Program.Upheld

/-!
Loops that keep an invariant of the record. It is enough to say what holds of a loop that stands at a snapshot
and of a fork that it has come to, and to look at what one turn makes of that; then a loop keeps the invariant
with all its branches, at any depth.
-/

namespace FlowGraph

/-- What is kept of a record, of a loop of some kind that stands at a snapshot, of a fork of it, and of what it
may end with. The branches of a fork are loops of kinds of their own. -/
structure Keeping (S : Type) where
  Kind : Type
  Fork : Type
  inv : List (Note S) → Prop
  stands : Kind → Mode → List (Note S) → Snapshot S → Prop
  forks : Kind → Mode → List (Note S) → Snapshot S → ForkRequest S → Fork → Prop
  ends : Kind → List (Note S) → Outcome S → Prop
  branch : Fork → NodeId → Kind

namespace Keeping
variable {S : Type}

/-- As soon as it is on record that the loop goes on with the next snapshot, it stands there. -/
def Leads (keeping : Keeping S) (kind : keeping.Kind) (mode : Mode) (given : Snapshot S) (notes : List (Note S))
    (next : Snapshot S) : Prop :=
  ∀ more, notes ⊆ more → keeping.inv more → keeping.inv (more ++ [.told (.stateUpdated given next)]) ∧
    keeping.stands kind mode (more ++ [.told (.stateUpdated given next)]) next

def Brings (keeping : Keeping S) (fork : keeping.Fork) (target : NodeId) (report : List (Note S) × Outcome S) :
    Prop :=
  keeping.ends (keeping.branch fork target) report.1 report.2

/-- The join has recorded what the branches of the fork report, and nothing else. -/
def Collected (keeping : Keeping S) (fork : keeping.Fork) (notes : List (Note S)) (join : Join S) : Prop :=
  join.Records fun target outcome => keeping.Brings fork target (notes, outcome)

end Keeping

theorem Join.Records.mono {S : Type} {good wide : NodeId → Outcome S → Prop} {join : Join S}
    (records : join.Records good) (weaker : ∀ name outcome, good name outcome → wide name outcome) :
    join.Records wide := by
  cases records with
  | blank terms nobody => exact .blank terms nobody
  | fixed fixed agreed fits => exact .fixed fixed agreed fun report member => weaker _ _ (fits report member)

namespace Engine
variable {W S : Type}

/-- Each turn of a loop keeps what is to be kept. -/
structure Keeps (engine : Engine W S) (keeping : Keeping S) : Prop where
  stays : ∀ {kind mode notes more given}, keeping.stands kind mode notes given → notes ⊆ more →
    keeping.stands kind mode more given
  lasts : ∀ {kind mode notes more given request fork}, keeping.forks kind mode notes given request fork →
    notes ⊆ more → keeping.forks kind mode more given request fork
  enduring : ∀ kind, Enduring (keeping.ends kind)
  entered : ∀ {kind mode notes given current}, keeping.stands kind mode notes given → keeping.inv notes →
    keeping.inv (notes ++ [.told (.nodeStarted current given)])
  answered : ∀ {kind mode notes given current command}, keeping.stands kind mode notes given → keeping.inv notes →
    keeping.inv (notes ++ [.told (.nodeCompleted current given command)])
  stopped : ∀ {kind mode notes given error}, keeping.stands kind mode notes given →
    keeping.ends kind notes (.failed error (some given))
  finished : ∀ {kind mode notes current node given steps command readings outcome},
    keeping.stands kind mode notes given → engine.Executed notes current node given steps command →
      engine.apply mode current given command readings = .ok (.finish outcome) → keeping.ends kind notes outcome
  moved : ∀ {kind mode notes current node given steps command readings next},
    keeping.stands kind mode notes given → engine.Executed notes current node given steps command →
      engine.apply mode current given command readings = .ok (.proceed next) →
        keeping.Leads kind mode given notes next
  forked : ∀ {kind mode notes current node given steps command readings request},
    keeping.stands kind mode notes given → engine.Executed notes current node given steps command →
      engine.apply mode current given command readings = .ok (.fork request) →
        ∃ fork, keeping.forks kind mode notes given request fork
  seeded : ∀ {kind mode notes given request fork target}, keeping.forks kind mode notes given request fork →
    target ∈ request.targets → ∀ time,
      keeping.stands (keeping.branch fork target) .branch notes (request.base.moveTo target time)
  unjoined : ∀ {kind mode notes given request fork error}, keeping.forks kind mode notes given request fork →
    keeping.ends kind notes (.failed error (some request.base))
  ended : ∀ {kind mode notes given request fork target outcome}, keeping.forks kind mode notes given request fork →
    keeping.ends (keeping.branch fork target) notes outcome → ¬IsJoin outcome → keeping.ends kind notes outcome
  astray : ∀ {kind mode notes given request fork target node policy timeout last error},
    keeping.forks kind mode notes given request fork →
      keeping.ends (keeping.branch fork target) notes (.joined node policy timeout last) →
        keeping.ends kind notes (.failed error (some last))
  merging : ∀ {kind mode notes given request fork joined}, keeping.forks kind mode notes given request fork →
    keeping.inv notes → keeping.inv (notes ++ [.merges request.base joined])
  rejoined : ∀ {kind mode notes given request fork join terms answer readings next},
    keeping.forks kind mode notes given request fork → keeping.Collected fork notes join → join.terms = some terms →
      .merges request.base join.joined ∈ notes → (engine.merger request.base join.joined).Gives answer →
        reconcile request.base terms.node join.joined answer readings = .ok next →
          keeping.Leads kind mode given notes next

theorem perform_upholds {α N R : Type} {inv : List N → Prop} {protocol : Protocol (List N × R)}
    {ends : List N → R → Prop} {notes : List N} (activity : Activity W α) {next : α → Program (W × List N) R}
    (onward : ∀ value more, notes ⊆ more → activity.MayEnd (.ok value) →
      (next value).Upholds inv protocol ends more) :
    (Program.perform (activity.beside (List N)) next).Upholds inv protocol ends notes := by
  induction activity generalizing notes with
  | done value => exact onward value notes (List.Subset.refl _) rfl
  | call effect rest ih =>
      rintro time ⟨world, record⟩ adds holds
      refine ⟨List.Subset.refl _, holds, ih _ fun value more later may => ?_⟩
      exact onward value more (List.Subset.trans adds later) ⟨_, ⟨time, world, rfl⟩, may⟩
  | sleep millis rest ih => exact ih () onward
  | broken panic => trivial
  | never => trivial

theorem beside_upholds {α N : Type} (effect : Effect W α) (inv : List N → Prop) :
    (effect.beside (List N)).Upholds inv :=
  fun _ world holds => ⟨List.Subset.refl world.2, holds⟩

theorem notify_upholds {engine : Engine W S} {inv : List (Note S) → Prop}
    {protocol : Protocol (List (Note S) × Outcome S)} {ends : List (Note S) → Outcome S → Prop}
    {notes : List (Note S)} (notice : Notice S) {next : Program (W × List (Note S)) (Outcome S)}
    (onward : ∀ more, notes ⊆ more → inv more → inv (more ++ [.told notice]) ∧
      next.Upholds inv protocol ends (more ++ [.told notice])) :
    (engine.noting.notify notice next).Upholds inv protocol ends notes := by
  rintro time ⟨world, record⟩ adds holds
  obtain ⟨keeps, rest⟩ := onward record adds holds
  exact ⟨List.subset_append_left _ _, keeps, rest⟩

namespace Keeps
variable {engine : Engine W S} {keeping : Keeping S} {kind : keeping.Kind} {mode : Mode} {notes more : List (Note S)}
  {given : Snapshot S} {request : ForkRequest S} {forking : keeping.Fork}
  {protocol : Protocol (List (Note S) × Outcome S)} {branch : Snapshot S → Program (W × List (Note S)) (Outcome S)}

theorem collected (keeps : engine.Keeps keeping) {join : Join S} (collected : keeping.Collected forking notes join)
    (adds : notes ⊆ more) : keeping.Collected forking more join :=
  Join.Records.mono collected fun _ outcome => keeps.enduring _ notes more outcome adds

theorem record (keeps : engine.Keeps keeping) (forks : keeping.forks kind mode notes given request forking)
    {join : Join S} (collected : keeping.Collected forking notes join) {target : NodeId} {outcome : Outcome S}
    (reports : keeping.ends (keeping.branch forking target) notes outcome) :
    (∀ ending, join.record target outcome = .error ending → keeping.ends kind notes ending) ∧
      ∀ next, join.record target outcome = .ok next → keeping.Collected forking notes next := by
  refine ⟨fun ending refused => ?_, fun next taken => (Join.Records.next collected reports taken).1⟩
  rcases Join.record_error refused with ⟨rfl, other⟩ | ⟨_, _, _, _, _, _, rfl, rfl⟩
  · exact keeps.ended forks reports other
  · exact keeps.astray forks reports

theorem submit (inv : List (Note S) → Prop) {ends : List (Note S) → Outcome S → Prop} (targets : List NodeId) :
    ∀ {next : List NodeId → Program (W × List (Note S)) (Outcome S)} {notes : List (Note S)},
      (∀ taken ⊆ targets, ∀ more, notes ⊆ more → (next taken).Upholds inv protocol ends more) →
        (engine.noting.submit next targets).Upholds inv protocol ends notes := by
  induction targets with
  | nil => exact fun onward => onward [] (List.Subset.refl _) _ (List.Subset.refl _)
  | cons target rest ih =>
      intro next notes onward
      refine .call (beside_upholds _ _) fun taken more adds => ih fun others fewer latest later => ?_
      refine onward _ ?_ latest (List.Subset.trans adds later)
      split
      · exact List.cons_subset_cons target fewer
      · exact List.subset_cons_of_subset target fewer

theorem conclude (keeps : engine.Keeps keeping) (forks : keeping.forks kind mode notes given request forking)
    {join : Join S} (collected : keeping.Collected forking notes join)
    {next : Snapshot S → Program (W × List (Note S)) (Outcome S)}
    (onward : ∀ later more, notes ⊆ more → keeping.Leads kind mode given more later →
      (next later).Upholds keeping.inv protocol (keeping.ends kind) more) :
    (engine.noting.conclude request join next).Upholds keeping.inv protocol (keeping.ends kind) notes := by
  unfold Engine.conclude
  split
  · exact keeps.unjoined forks
  · rename_i terms fixed
    rintro time ⟨world, record⟩ adds holds
    have kept : notes ⊆ record ++ [.merges request.base join.joined] := List.subset_append_of_subset_left _ adds
    have later := keeps.lasts forks kept
    refine ⟨List.subset_append_left _ _, keeps.merging (keeps.lasts forks adds) holds, fun readings => ?_⟩
    simp only
    split
    · rename_i next merged
      refine onward next _ kept (keeps.rejoined later (keeps.collected collected kept) fixed ?_ ?_ merged)
      · exact List.mem_append_right _ List.mem_cons_self
      · exact ⟨time, world, rfl⟩
    · exact keeps.unjoined later

theorem inSequence (keeps : engine.Keeps keeping) (forks : keeping.forks kind mode notes given request forking)
    (started : Nat) {next : Join S → Program (W × List (Note S)) (Outcome S)}
    (branches : ∀ target ∈ request.targets, ∀ time wide more, notes ⊆ more →
      (branch (request.base.moveTo target time)).Upholds keeping.inv wide
        (keeping.ends (keeping.branch forking target))
        more)
    (onward : ∀ (join : Join S) wide more, notes ⊆ more → keeping.Collected forking more join →
      (next join).Upholds keeping.inv wide (keeping.ends kind) more)
    (targets : List NodeId) : targets ⊆ request.targets → ∀ (join : Join S) protocol more, notes ⊆ more →
      keeping.Collected forking more join →
        (inSequence branch request started next join targets).Upholds keeping.inv protocol (keeping.ends kind)
          more := by
  induction targets with
  | nil => exact fun _ join protocol more adds collected => onward join protocol more adds collected
  | cons target rest ih =>
      intro among join protocol more adds collected
      rw [Engine.inSequence]
      split
      · exact onward join protocol more adds collected
      · intro readings
        refine (branches target (among List.mem_cons_self) _ protocol more adds).bind ?_
        intro wide _ outcome latest later reports
        have kept := List.Subset.trans adds later
        obtain ⟨refused, recorded⟩ := keeps.record (keeps.lasts forks kept) (keeps.collected collected later) reports
        split
        · exact refused _ ‹_›
        · rename_i joined taken
          refine .time fun now last grows => ?_
          have wider := List.Subset.trans kept grows
          split
          · exact keeps.unjoined (keeps.lasts forks wider)
          · exact ih (fun _ member => among (List.mem_cons_of_mem _ member)) joined wide last wider
              (keeps.collected (recorded joined taken) grows)

theorem gather (keeps : engine.Keeps keeping) (forks : keeping.forks kind mode notes given request forking)
    (started channel : Nat)
    (known : protocol channel = some (keeping.Brings forking))
    {next : Join S → Program (W × List (Note S)) (Outcome S)}
    (onward : ∀ (join : Join S) more, notes ⊆ more → keeping.Collected forking more join →
      (next join).Upholds keeping.inv protocol (keeping.ends kind) more) (allowance : Nat) :
    ∀ (join : Join S) more, notes ⊆ more → keeping.Collected forking more join →
      (engine.noting.gather request started channel next allowance join).Upholds keeping.inv protocol
        (keeping.ends kind) more := by
  induction allowance with
  | zero => exact fun _ _ _ _ => trivial
  | succ allowance ih =>
      intro join more adds collected
      rw [Engine.gather]
      split
      · exact onward join more adds collected
      · refine .time fun now later grows => ?_
        have unjoined {error : Error} {latest : List (Note S)} (wider : later ⊆ latest) :
            keeping.ends kind latest (.failed error (some request.base)) :=
          keeps.unjoined (keeps.lasts forks (List.Subset.trans adds (List.Subset.trans grows wider)))
        split
        · exact unjoined (List.Subset.refl later)
        · split
          · trivial
          · refine ⟨_, known, fun delivery latest newer fits => ?_⟩
            have soFar := List.Subset.trans grows newer
            have kept := List.Subset.trans adds soFar
            rcases delivery with ⟨target, outcome⟩ | _ | _
            · obtain ⟨refused, recorded⟩ := keeps.record (keeps.lasts forks kept)
                (keeps.collected collected soFar) fits
              simp only
              split
              · exact refused _ ‹_›
              · exact ih _ latest kept (recorded _ ‹_›)
            · exact unjoined newer
            · exact ih join latest kept (keeps.collected collected soFar)

theorem fork (keeps : engine.Keeps keeping) (forks : keeping.forks kind mode notes given request forking)
    {next : Snapshot S → Program (W × List (Note S)) (Outcome S)} (allowance : Nat)
    (branches : ∀ target ∈ request.targets, ∀ time wide more, notes ⊆ more →
      (branch (request.base.moveTo target time)).Upholds keeping.inv wide
        (keeping.ends (keeping.branch forking target))
        more)
    (onward : ∀ later wide more, notes ⊆ more → keeping.Leads kind mode given more later →
      (next later).Upholds keeping.inv wide (keeping.ends kind) more) :
    (engine.noting.fork branch allowance request next).Upholds keeping.inv protocol (keeping.ends kind) notes := by
  have concludes (join : Join S) (wide : Protocol (List (Note S) × Outcome S)) (more : List (Note S))
      (adds : notes ⊆ more) (collected : keeping.Collected forking more join) :
      (engine.noting.conclude request join next).Upholds keeping.inv wide (keeping.ends kind) more :=
    keeps.conclude (keeps.lasts forks adds) collected fun later latest newer =>
      onward later wide latest (List.Subset.trans adds newer)
  have nobody (total : Nat) (timeout : Option Span) (more : List (Note S)) :
      keeping.Collected forking more (.start request.source total timeout) := .blank rfl rfl
  have channelled (started : Nat) (more : List (Note S)) (adds : notes ⊆ more) :
      (Program.clock fun readings => engine.noting.submit (fun taken =>
        .launch taken (fun place target => branch (request.base.moveTo target (readings place)))
          fun channel => engine.noting.gather request started channel
            (engine.noting.conclude request · next) allowance
            (Join.start request.source request.targets.length engine.noting.config.joinTimeout))
        request.targets).Upholds keeping.inv protocol (keeping.ends kind) more := by
    intro readings
    refine submit _ request.targets fun taken among later grows => ?_
    have kept := List.Subset.trans adds grows
    refine ⟨keeping.Brings forking, fun target => keeps.enduring _, fun place target member => ?_, ?_⟩
    · exact branches target (among member) _ .closed later kept
    · intro channel fresh
      refine keeps.gather forks started channel (Protocol.opened_same _ _ _) ?_ allowance _ later kept (nobody _ _ _)
      exact fun join => concludes join _
  refine .time fun started more adds => ?_
  split
  · exact keeps.inSequence forks started branches concludes request.targets (List.Subset.refl _) _ protocol more adds
      (nobody _ _ _)
  · exact channelled started more adds
  · exact channelled started more adds

def Drives (engine : Engine W S) (keeping : Keeping S) (allowance : Nat) : Prop :=
  ∀ (kind : keeping.Kind) (mode : Mode) (steps : Nat) (snapshot : Snapshot S)
    (protocol : Protocol (List (Note S) × Outcome S)) (notes : List (Note S)),
    keeping.stands kind mode notes snapshot →
      (engine.noting.drive allowance mode steps snapshot).Upholds keeping.inv protocol (keeping.ends kind) notes

theorem proceed {allowance steps : Nat} (drives : Drives engine keeping allowance) {next : Snapshot S}
    (leads : keeping.Leads kind mode given notes next) :
    (engine.noting.notify (.stateUpdated given next) (engine.noting.drive allowance mode steps next)).Upholds
      keeping.inv protocol (keeping.ends kind) notes := by
  refine notify_upholds _ fun more adds holds => ?_
  obtain ⟨keeps, stands⟩ := leads more adds holds
  exact ⟨keeps, drives kind mode steps next protocol _ stands⟩

theorem command (keeps : engine.Keeps keeping) {allowance steps : Nat} (drives : Drives engine keeping allowance)
    {current : NodeId} {node : Node W S} {command : Command S} (stands : keeping.stands kind mode notes given)
    (executed : engine.Executed notes current node given (steps + 1) command) (readings : Readings) :
    (Program.ofAttempt (engine.noting.apply mode current given command readings) fun step =>
      let proceed (next : Snapshot S) :=
        engine.noting.notify (.stateUpdated given next) (engine.noting.drive allowance mode (steps + 1) next)
      match step with
      | .proceed next => proceed next
      | .finish outcome => .done outcome
      | .fork request =>
        engine.noting.fork (engine.noting.drive allowance .branch 0) allowance request proceed).Upholds
        keeping.inv protocol (keeping.ends kind) notes := by
  rw [engine.apply_noting]
  cases applied : engine.apply mode current given command readings with
  | error panic => trivial
  | ok step =>
      cases step with
      | proceed next => exact proceed drives (keeps.moved stands executed applied)
      | finish outcome => exact keeps.finished stands executed applied
      | fork request =>
          obtain ⟨fork, forks⟩ := keeps.forked stands executed applied
          refine keeps.fork forks allowance (fun target member time wide latest newer => ?_)
            fun next wide latest _ leads => proceed drives leads
          exact drives _ .branch 0 _ wide latest (keeps.seeded (keeps.lasts forks newer) member time)

theorem drive (keeps : engine.Keeps keeping) (allowance : Nat) : Drives engine keeping allowance := by
  induction allowance with
  | zero => exact fun _ _ _ _ _ _ _ => trivial
  | succ allowance ih =>
      intro kind mode steps snapshot protocol notes stands
      rw [Engine.drive]
      split
      · exact keeps.stopped stands
      rename_i current standing
      split
      · exact keeps.stopped stands
      rename_i guarded
      rw [engine.node?_noting]
      cases known : engine.topology.node? current with
      | none => exact keeps.stopped stands
      | some node =>
          refine notify_upholds _ fun first adds holds => ?_
          refine ⟨keeps.entered (keeps.stays stands adds) holds, ?_⟩
          have entered : notes ⊆ first ++ [.told (.nodeStarted current snapshot)] :=
            List.subset_append_of_subset_left _ adds
          rw [engine.lifecycle_noting]
          refine perform_upholds _ fun reply second grows may => ?_
          have soFar := List.Subset.trans entered grows
          cases reply with
          | error error => exact keeps.stopped (keeps.stays stands soFar)
          | ok command =>
              refine notify_upholds _ fun more later holds => ?_
              have stillStands := keeps.stays stands (List.Subset.trans soFar later)
              refine ⟨keeps.answered stillStands holds, fun readings => ?_⟩
              have executed : engine.Executed
                  (more ++ [.told (.nodeCompleted current snapshot command)]) current node
                  snapshot (steps + 1) command :=
                ⟨List.mem_append_right _ List.mem_cons_self, standing, guarded, known, may⟩
              exact keeps.command ih (keeps.stays stillStands (List.subset_append_left _ _)) executed readings

end Keeps
end Engine
end FlowGraph

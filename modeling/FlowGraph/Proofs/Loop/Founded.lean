import FlowGraph.Proofs.Loop.Upheld

/-!
What the record says of the snapshots that loops go on with. A loop has moved to such a snapshot, or the merger
has been called, on record, with the branches behind whose join it goes on.
-/

namespace FlowGraph.Engine
variable {W S : Type}

/-- A loop may go on from one snapshot to the next, and if it does so behind a join then the merger's call is
noted. -/
inductive Founded (engine : Engine W S) (notes : List (Note S)) (previous next : Snapshot S) : Prop where
  | moved {mode : Mode} (answers : engine.Answers mode previous (.proceed next))
  | rejoined {mode : Mode} {request : ForkRequest S} {node : NodeId} {joined : List (JoinedBranch S)}
      (answers : engine.Answers mode previous (.fork request)) (noted : .merges request.base joined ∈ notes)
      (rejoins : engine.Rejoins request node joined next)

def AllFounded (engine : Engine W S) (notes : List (Note S)) : Prop :=
  ∀ previous next, .told (.stateUpdated previous next) ∈ notes → engine.Founded notes previous next

def founding (engine : Engine W S) : Keeping S where
  Kind := Outcome S → Prop
  Fork := ForkRequest S
  inv := engine.AllFounded
  stands may mode _ given := ∀ outcome, engine.Ends mode given outcome → may outcome
  forks may mode _ given request fork := fork = request ∧ engine.Answers mode given (.fork request) ∧
    ∀ outcome, engine.Ends mode given outcome → may outcome
  ends may _ outcome := may outcome
  branch request target := engine.Reported request target

variable {engine : Engine W S} {notes more : List (Note S)} {mode : Mode} {previous next : Snapshot S}

theorem Founded.mono (founded : engine.Founded notes previous next) (adds : notes ⊆ more) :
    engine.Founded more previous next := by
  cases founded with
  | moved answers => exact .moved answers
  | rejoined answers noted rejoins => exact .rejoined answers (adds noted) rejoins

theorem AllFounded.concat {note : Note S} (founded : engine.AllFounded notes)
    (new : ∀ previous next, note = .told (.stateUpdated previous next) →
      engine.Founded (notes ++ [note]) previous next) :
    engine.AllFounded (notes ++ [note]) := by
  intro previous next noted
  rcases List.mem_append.mp noted with old | last
  · exact (founded previous next old).mono (List.subset_append_left _ _)
  · exact new previous next (List.mem_singleton.mp last).symm

theorem leads_of_founded {may : Outcome S → Prop}
    (stands : ∀ outcome, engine.Ends mode previous outcome → may outcome)
    (turn : engine.Turn mode previous next)
    (founds : ∀ more, notes ⊆ more → engine.Founded more previous next) :
    engine.founding.Leads may mode previous notes next := by
  intro more adds founded
  refine ⟨founded.concat ?_, fun outcome ends => stands outcome (ends.turn turn)⟩
  rintro _ _ ⟨⟩
  exact founds _ (List.subset_append_of_subset_left _ adds)

theorem keeps_founding (engine : Engine W S) : engine.Keeps engine.founding where
  stays := fun stands _ => stands
  lasts := fun forks _ => forks
  enduring := fun _ _ _ _ _ holds => holds
  entered := fun _ founded => founded.concat (by rintro _ _ ⟨⟩)
  answered := fun _ founded => founded.concat (by rintro _ _ ⟨⟩)
  stopped := fun stands => stands _ (.stopped _ _ _)
  finished := fun stands executed applied => stands _ (.finished (executed.answers applied))
  moved := by
    intro may mode notes current node given steps command readings next stands executed applied
    have answers := executed.answers applied
    exact leads_of_founded stands (.moved answers) fun more _ => .moved answers
  forked := fun stands executed applied => ⟨_, rfl, executed.answers applied, stands⟩
  seeded := by
    rintro may mode notes given request _ target ⟨rfl, _, _⟩ member time outcome ends
    exact ⟨member, time, ends⟩
  unjoined := fun ⟨_, answers, stands⟩ => stands _ (.unjoined answers _)
  ended := by
    rintro may mode notes given request _ target outcome ⟨rfl, answers, stands⟩ ⟨started, time, comes⟩ other
    exact stands _ (.branchEnded answers started comes other)
  astray := by
    rintro may mode notes given request _ target node policy timeout last error ⟨rfl, answers, stands⟩
      ⟨started, time, comes⟩
    exact stands _ (.astray answers started comes error)
  merging := fun _ founded => founded.concat (by rintro _ _ ⟨⟩)
  rejoined := by
    rintro may mode notes given request _ join terms answer readings next ⟨rfl, answers, stands⟩
      collected fixed noted
      gives settled
    cases collected with
    | blank none _ =>
        rw [none] at fixed
        cases fixed
    | fixed same agreed fits =>
        rw [fixed] at same
        cases same
        have rejoins := MayJoin.rejoins ⟨_, _, agreed, fits⟩ gives settled
        exact leads_of_founded stands (.rejoined answers rejoins)
          fun more adds => .rejoined answers (adds noted) rejoins

end FlowGraph.Engine

import FlowGraph.Proofs.Loop.Outline
import FlowGraph.Proofs.Program.Recorded

/-!
The order of the stages of an execution. Each stage is called at most once, and only where those before it have
succeeded; what the loop is told follows from what has come of them, and no panic gets past the lifecycle.
-/

namespace FlowGraph
variable {W S : Type}

/-- An entry of the record of an execution: a stage with what has come of it. The processor has a first entry
when it is called. -/
inductive Stage (S : Type) where
  | validated (came : Attempt (Except Error Unit))
  | prepared (came : Attempt Unit)
  | called
  | processed (came : Attempt (Except Error (Command S)))
  | concluded (command : Command S) (came : Attempt Unit)
  | handled (error : Error) (came : Attempt Unit)

namespace Stage

/-- The place of a stage in an execution. What follows a command and what follows an error have the same place. -/
def rank : Stage S → Nat
  | validated _ => 0
  | prepared _ => 1
  | called => 2
  | processed _ => 3
  | concluded .. => 4
  | handled .. => 4

def panic? : Stage S → Option Panic
  | validated (.error panic) => some panic
  | prepared (.error panic) => some panic
  | processed (.error panic) => some panic
  | concluded _ (.error panic) => some panic
  | handled _ (.error panic) => some panic
  | _ => none

end Stage

namespace Node

def hooksRecorded (hooks : Hooks W S) : Hooks (W × List (Stage S)) S where
  validate := hooks.validate.map fun validate snapshot => (validate snapshot).recording fun came => [.validated came]
  before := hooks.before.map fun before snapshot => (before snapshot).recording fun came => [.prepared came]
  after := hooks.after.map fun after snapshot command =>
    (after snapshot command).recording fun came => [.concluded command came]
  onError := hooks.onError.map fun onError snapshot error =>
    (onError snapshot error).recording fun came => [.handled error came]

/-- The same node, which writes down each call of its functions. -/
def recorded (timers : Option String) (node : Node W S) : Node (W × List (Stage S)) S where
  id := node.id
  metadata := node.metadata
  process := fun snapshot => .noting .called ((node.process snapshot).recorded timers .processed)
  hooks := hooksRecorded node.hooks

section
variable (timers : Option String) (node : Node W S) (snapshot : Snapshot S)
  {next : Activity (W × List (Stage S)) (Except Error (Command S))} {plain : Activity W (Except Error (Command S))}

theorem guarded_records {α : Type} {effect : Effect W (Attempt α)} {notes : Attempt α → List (Stage S)}
    {next : α → Activity (W × List (Stage S)) (Except Error (Command S))}
    {plain : α → Activity W (Except Error (Command S))} (rest : ∀ value, (next value).Records (plain value)) :
    (guarded (effect.recording notes) next).Records (guarded effect plain) := by
  refine .call ?_
  rintro (panic | value)
  · exact .done (contain panic)
  · exact rest value

theorem validated_records (rest : next.Records plain) :
    ((node.recorded timers).validated snapshot next).Records (node.validated snapshot plain) := by
  unfold validated
  simp only [recorded, hooksRecorded]
  cases node.hooks.validate with
  | none => exact rest
  | some validate =>
      refine guarded_records ?_
      rintro (error | accepted)
      · exact .done _
      · exact rest

theorem prepared_records (rest : next.Records plain) :
    ((node.recorded timers).prepared snapshot next).Records (node.prepared snapshot plain) := by
  unfold prepared
  simp only [recorded, hooksRecorded]
  cases node.hooks.before with
  | none => exact rest
  | some before => exact guarded_records fun _ => rest

theorem concluded_records (reply : Except Error (Command S)) :
    ((node.recorded timers).concluded snapshot reply).Records (node.concluded snapshot reply) := by
  unfold concluded
  simp only [recorded, hooksRecorded]
  cases reply with
  | ok command =>
      cases node.hooks.after with
      | none => exact .done _
      | some after => exact guarded_records fun _ => .done _
  | error error =>
      cases node.hooks.onError with
      | none => exact .done _
      | some onError => exact guarded_records fun _ => .done _

theorem processed_records :
    ((node.recorded timers).processed timers snapshot).Records (node.processed timers snapshot) := by
  refine Activity.Records.contained (Activity.Records.bind ?_ fun _ => .done _) timers Reply.broken
  exact .noting (Activity.recorded_records timers Stage.processed (node.process snapshot))

theorem lifecycle_records :
    ((node.recorded timers).lifecycle timers snapshot).Records (node.lifecycle timers snapshot) := by
  refine node.validated_records timers snapshot (node.prepared_records timers snapshot ?_)
  refine (node.processed_records timers snapshot).bind ?_
  rintro (reply | panic)
  · exact node.concluded_records timers snapshot reply
  · exact .done _

end

section
variable (node : Node W S)

def accepted : List (Stage S) := node.hooks.validate.toList.map fun _ => .validated (.ok (.ok ()))

def ready : List (Stage S) := node.hooks.before.toList.map fun _ => .prepared (.ok ())

def closing (reply : Except Error (Command S)) (came : Attempt Unit) : List (Stage S) :=
  match reply with
  | .ok command => node.hooks.after.toList.map fun _ => .concluded command came
  | .error error => node.hooks.onError.toList.map fun _ => .handled error came

/-- The records that an execution may leave, each with what the loop is told. -/
inductive Route : List (Stage S) → Except Error (Command S) → Prop where
  | rejected (error : Error) (present : node.hooks.validate.isSome) :
      Route [.validated (.ok (.error error))] (.error (node.rejection error))
  | validationPanics (panic : Panic) (present : node.hooks.validate.isSome) :
      Route [.validated (.error panic)] (contain panic)
  | preparationPanics (panic : Panic) (present : node.hooks.before.isSome) :
      Route (node.accepted ++ [.prepared (.error panic)]) (contain panic)
  | processorPanics (panic : Panic) :
      Route (node.accepted ++ node.ready ++ [.called, .processed (.error panic)]) (contain panic)
  | replied (reply : Except Error (Command S)) :
      Route (node.accepted ++ node.ready ++ [.called, .processed (.ok reply)] ++ node.closing reply (.ok ())) reply
  | conclusionPanics (reply : Except Error (Command S)) (panic : Panic)
      (present : node.closing reply (.ok ()) ≠ []) :
      Route (node.accepted ++ node.ready ++ [.called, .processed (.ok reply)] ++ node.closing reply (.error panic))
        (contain panic)

end

section
variable {timers : Option String} {node : Node W S} {snapshot : Snapshot S} {notes last : List (Stage S)}
  {came : Attempt (Except Error (Command S))} {next : Activity (W × List (Stage S)) (Except Error (Command S))}

theorem endsNoting_guarded {α : Type} {effect : Effect W (Attempt α)} {entries : Attempt α → List (Stage S)}
    {next : α → Activity (W × List (Stage S)) (Except Error (Command S))}
    (ends : (guarded (effect.recording entries) next).EndsNoting notes came last) :
    (∃ value, (next value).EndsNoting (notes ++ entries (.ok value)) came last) ∨
      ∃ panic, came = .ok (contain panic) ∧ last = notes ++ entries (.error panic) := by
  obtain ⟨time, view, ends⟩ := ends
  simp only [Effect.recording] at ends
  rcases answer : (effect time view).1 with panic | value
  · rw [answer] at ends
    exact .inr ⟨panic, ends⟩
  · rw [answer] at ends
    exact .inl ⟨value, ends⟩

theorem endsNoting_validated
    (ends : ((node.recorded timers).validated snapshot next).EndsNoting notes came last) :
    next.EndsNoting (notes ++ node.accepted) came last ∨
      node.hooks.validate.isSome ∧
        ((∃ error, came = .ok (.error (node.rejection error)) ∧ last = notes ++ [.validated (.ok (.error error))]) ∨
          ∃ panic, came = .ok (contain panic) ∧ last = notes ++ [.validated (.error panic)]) := by
  unfold validated at ends
  unfold accepted
  simp only [recorded, hooksRecorded] at ends
  cases hook : node.hooks.validate with
  | none =>
      rw [hook] at ends
      exact .inl (by simpa using ends)
  | some validate =>
      simp only [hook, Option.map_some] at ends
      rcases endsNoting_guarded ends with ⟨error | accepted, ends⟩ | panics
      · exact .inr ⟨rfl, .inl ⟨error, ends⟩⟩
      · exact .inl ends
      · exact .inr ⟨rfl, .inr panics⟩

theorem endsNoting_prepared
    (ends : ((node.recorded timers).prepared snapshot next).EndsNoting notes came last) :
    next.EndsNoting (notes ++ node.ready) came last ∨
      node.hooks.before.isSome ∧
        ∃ panic, came = .ok (contain panic) ∧ last = notes ++ [.prepared (.error panic)] := by
  unfold prepared at ends
  unfold ready
  simp only [recorded, hooksRecorded] at ends
  cases hook : node.hooks.before with
  | none =>
      rw [hook] at ends
      exact .inl (by simpa using ends)
  | some before =>
      simp only [hook, Option.map_some] at ends
      rcases endsNoting_guarded ends with ⟨_, ends⟩ | panics
      · exact .inl ends
      · exact .inr ⟨rfl, panics⟩

theorem endsNoting_processed {came : Attempt (Reply S)}
    (ends : ((node.recorded timers).processed timers snapshot).EndsNoting notes came last) :
    (∃ reply, came = .ok (.given reply) ∧ last = notes ++ [.called, .processed (.ok reply)]) ∨
      ∃ panic, came = .ok (.broken panic) ∧ last = notes ++ [.called, .processed (.error panic)] := by
  obtain ⟨_, _, ends⟩ := ends
  rcases Activity.endsNoting_recorded ends with ⟨reply, same, record⟩ | ⟨panic, same, record⟩
  · exact .inl ⟨reply, same, by simpa [Effect.recording] using record⟩
  · exact .inr ⟨panic, same, by simpa [Effect.recording] using record⟩

theorem endsNoting_concluded {reply : Except Error (Command S)}
    (ends : ((node.recorded timers).concluded snapshot reply).EndsNoting notes came last) :
    (came = .ok reply ∧ last = notes ++ node.closing reply (.ok ())) ∨
      node.closing reply (.ok ()) ≠ [] ∧
        ∃ panic, came = .ok (contain panic) ∧ last = notes ++ node.closing reply (.error panic) := by
  unfold concluded at ends
  unfold closing
  simp only [recorded, hooksRecorded] at ends
  cases reply with
  | ok command =>
      cases hook : node.hooks.after with
      | none =>
          rw [hook] at ends
          exact .inl (by simpa [Activity.EndsNoting] using ends)
      | some after =>
          simp only [hook, Option.map_some] at ends
          rcases endsNoting_guarded ends with ⟨_, ends⟩ | panics
          · exact .inl ends
          · exact .inr ⟨List.cons_ne_nil _ _, panics⟩
  | error error =>
      cases hook : node.hooks.onError with
      | none =>
          rw [hook] at ends
          exact .inl (by simpa [Activity.EndsNoting] using ends)
      | some onError =>
          simp only [hook, Option.map_some] at ends
          rcases endsNoting_guarded ends with ⟨_, ends⟩ | panics
          · exact .inl ends
          · exact .inr ⟨List.cons_ne_nil _ _, panics⟩

theorem route_of_endsNoting
    (ends : ((node.recorded timers).lifecycle timers snapshot).EndsNoting [] came last) :
    ∃ reply, came = .ok reply ∧ node.Route last reply := by
  rcases endsNoting_validated ends with ends | ⟨present, ⟨error, rfl, rfl⟩ | ⟨panic, rfl, rfl⟩⟩
  · rcases endsNoting_prepared ends with ends | ⟨present, panic, rfl, rfl⟩
    · rcases ends.of_bind with ⟨reply, middle, processed, concluded⟩ | ⟨panic, processed, rfl⟩
      · rcases endsNoting_processed processed with ⟨given, same, rfl⟩ | ⟨panic, same, rfl⟩
        · cases same
          rcases endsNoting_concluded concluded with ⟨rfl, rfl⟩ | ⟨present, panic, rfl, rfl⟩
          · exact ⟨_, rfl, .replied given⟩
          · exact ⟨_, rfl, .conclusionPanics given panic present⟩
        · cases same
          obtain ⟨rfl, rfl⟩ := concluded
          exact ⟨_, rfl, .processorPanics panic⟩
      · rcases endsNoting_processed processed with ⟨given, same, _⟩ | ⟨panic, same, _⟩ <;> cases same
    · exact ⟨_, rfl, .preparationPanics panic present⟩
  · exact ⟨_, rfl, .rejected error present⟩
  · exact ⟨_, rfl, .validationPanics panic present⟩

end

def Accepts (stages : List (Stage S)) : Prop := ∀ came, .validated came ∈ stages → came = .ok (.ok ())

def Readies (stages : List (Stage S)) : Prop := ∀ came, .prepared came ∈ stages → came = .ok ()

def Suspends (panic : Panic) (reply : Except Error (Command S)) : Prop :=
  ∃ reason, reply = .ok ⟨.suspend "execution-error" reason none, .empty⟩ ∧ Text.allBlank reason = false ∧
    (Text.allBlank panic.message = false → ∃ before behind, reason = before ++ panic.message ++ behind)

/-- What a record and the reply of an execution say about each other. -/
structure Lawful (node : Node W S) (stages : List (Stage S)) (reply : Except Error (Command S)) : Prop where
  ordered : (stages.map Stage.rank).Sublist [0, 1, 2, 3, 4]
  validates : (∃ came, .validated came ∈ stages) ↔ node.hooks.validate.isSome
  prepares : (∃ came, .prepared came ∈ stages) ↔ node.hooks.before.isSome ∧ Accepts stages
  processes : .called ∈ stages ↔ Accepts stages ∧ Readies stages
  returns : (∃ came, .processed came ∈ stages) ↔ .called ∈ stages
  concludes : ∀ command, (∃ came, .concluded command came ∈ stages) ↔
    node.hooks.after.isSome ∧ .processed (.ok (.ok command)) ∈ stages
  handles : ∀ error, (∃ came, .handled error came ∈ stages) ↔
    node.hooks.onError.isSome ∧ .processed (.ok (.error error)) ∈ stages
  fails : ∀ error, reply = .error error ↔
    (∃ cause, .validated (.ok (.error cause)) ∈ stages ∧ error = node.rejection cause) ∨
      .processed (.ok (.error error)) ∈ stages ∧ ∀ panic, .handled error (.error panic) ∉ stages
  rejects : ∀ cause, .validated (.ok (.error cause)) ∈ stages →
    ∃ place message, reply = .error (.stateValidation place message)
  answers : ∀ command, .processed (.ok (.ok command)) ∈ stages →
    (∀ panic, .concluded command (.error panic) ∉ stages) → reply = .ok command
  suspends : ∀ stage ∈ stages, ∀ panic, stage.panic? = some panic → Suspends panic reply

section
variable {node : Node W S} {stage : Stage S} {stages : List (Stage S)} {reply given : Except Error (Command S)}
  {came : Attempt Unit}

theorem mem_accepted : stage ∈ node.accepted ↔ node.hooks.validate.isSome ∧ stage = .validated (.ok (.ok ())) := by
  unfold accepted
  cases node.hooks.validate <;> simp

theorem mem_ready : stage ∈ node.ready ↔ node.hooks.before.isSome ∧ stage = .prepared (.ok ()) := by
  unfold ready
  cases node.hooks.before <;> simp

theorem mem_closing : stage ∈ node.closing reply came ↔
    (node.hooks.after.isSome ∧ ∃ command, .ok command = reply ∧ stage = .concluded command came) ∨
      node.hooks.onError.isSome ∧ ∃ error, .error error = reply ∧ stage = .handled error came := by
  unfold closing
  cases reply with
  | ok command => cases node.hooks.after <;> simp
  | error error => cases node.hooks.onError <;> simp

theorem Route.validates (route : node.Route stages reply) :
    (∃ came, .validated came ∈ stages) ↔ node.hooks.validate.isSome := by
  cases route <;> simp_all [mem_accepted, mem_ready, mem_closing]

theorem Route.prepares (route : node.Route stages reply) :
    (∃ came, .prepared came ∈ stages) ↔ node.hooks.before.isSome ∧ Accepts stages := by
  cases route <;> simp_all [mem_accepted, mem_ready, mem_closing, Accepts]

theorem Route.processes (route : node.Route stages reply) :
    .called ∈ stages ↔ Accepts stages ∧ Readies stages := by
  cases route <;> simp_all [mem_accepted, mem_ready, mem_closing, Accepts, Readies]

theorem Route.returns (route : node.Route stages reply) :
    (∃ came, .processed came ∈ stages) ↔ .called ∈ stages := by
  cases route <;> simp_all [mem_accepted, mem_ready, mem_closing]

theorem Route.concludes (route : node.Route stages reply) (command : Command S) :
    (∃ came, .concluded command came ∈ stages) ↔
      node.hooks.after.isSome ∧ .processed (.ok (.ok command)) ∈ stages := by
  cases route <;> simp [mem_accepted, mem_ready, mem_closing]

theorem Route.handles (route : node.Route stages reply) (error : Error) :
    (∃ came, .handled error came ∈ stages) ↔
      node.hooks.onError.isSome ∧ .processed (.ok (.error error)) ∈ stages := by
  cases route <;> simp [mem_accepted, mem_ready, mem_closing]

theorem ranks_opening (node : Node W S) : ((node.accepted ++ node.ready).map Stage.rank).Sublist [0, 1] := by
  unfold accepted ready
  cases node.hooks.validate <;> cases node.hooks.before <;> simp [Stage.rank]

theorem ranks_closing (node : Node W S) (reply : Except Error (Command S)) (came : Attempt Unit) :
    ((node.closing reply came).map Stage.rank).Sublist [4] := by
  unfold closing
  cases reply with
  | ok command => cases node.hooks.after <;> simp [Stage.rank]
  | error error => cases node.hooks.onError <;> simp [Stage.rank]

theorem ranks_processed (node : Node W S) (came : Attempt (Except Error (Command S))) :
    ((node.accepted ++ node.ready ++ [Stage.called, Stage.processed came]).map Stage.rank).Sublist
      [0, 1, 2, 3] := by
  rw [List.map_append]
  exact node.ranks_opening.append (.refl [2, 3])

theorem Route.ordered (route : node.Route stages reply) : (stages.map Stage.rank).Sublist [0, 1, 2, 3, 4] := by
  cases route with
  | rejected error present => exact List.singleton_sublist.mpr (by simp [Stage.rank])
  | validationPanics panic present => exact List.singleton_sublist.mpr (by simp [Stage.rank])
  | preparationPanics panic present =>
      unfold accepted
      cases node.hooks.validate <;> simp [Stage.rank]
  | processorPanics panic => exact (node.ranks_processed _).trans (List.sublist_append_left [0, 1, 2, 3] [4])
  | replied reply =>
      rw [List.map_append]
      exact (node.ranks_processed _).append (node.ranks_closing reply _)
  | conclusionPanics reply panic present =>
      rw [List.map_append]
      exact (node.ranks_processed _).append (node.ranks_closing reply _)

theorem present_of_closing (present : node.closing reply came ≠ []) :
    (∀ command, reply = .ok command → node.hooks.after.isSome) ∧
      ∀ error, reply = .error error → node.hooks.onError.isSome := by
  unfold closing at present
  constructor
  · rintro command rfl
    cases hook : node.hooks.after <;> simp_all
  · rintro error rfl
    cases hook : node.hooks.onError <;> simp_all

theorem Route.fails (route : node.Route stages reply) (error : Error) :
    reply = .error error ↔
      (∃ cause, .validated (.ok (.error cause)) ∈ stages ∧ error = node.rejection cause) ∨
        .processed (.ok (.error error)) ∈ stages ∧ ∀ panic, .handled error (.error panic) ∉ stages := by
  cases route with
  | rejected cause present => simp [eq_comm]
  | validationPanics panic present => simp [contain]
  | preparationPanics panic present => simp [contain, mem_accepted]
  | processorPanics panic => simp [contain, mem_accepted, mem_ready]
  | replied reply => simpa [mem_accepted, mem_ready, mem_closing] using eq_comm
  | conclusionPanics reply panic present =>
      have handles := (present_of_closing present).2 error
      simp only [contain, reduceCtorEq, false_iff]
      rintro (⟨cause, member, _⟩ | ⟨member, calm⟩)
      · simp [mem_accepted, mem_ready, mem_closing] at member
      · obtain rfl : .error error = reply := by simpa [mem_accepted, mem_ready, mem_closing] using member
        exact calm panic (List.mem_append_right _ (mem_closing.mpr (.inr ⟨handles rfl, error, rfl, rfl⟩)))

theorem Route.answers (route : node.Route stages reply) (command : Command S)
    (processed : .processed (.ok (.ok command)) ∈ stages)
    (calm : ∀ panic, .concluded command (.error panic) ∉ stages) : reply = .ok command := by
  cases route with
  | rejected cause present => simp at processed
  | validationPanics panic present => simp at processed
  | preparationPanics panic present => simp [mem_accepted] at processed
  | processorPanics panic => simp [mem_accepted, mem_ready] at processed
  | replied reply =>
      have same : .ok command = reply := by simpa [mem_accepted, mem_ready, mem_closing] using processed
      exact same.symm
  | conclusionPanics reply panic present =>
      obtain rfl : .ok command = reply := by simpa [mem_accepted, mem_ready, mem_closing] using processed
      have follows := (present_of_closing present).1 command rfl
      exact absurd (List.mem_append_right _ (mem_closing.mpr (.inl ⟨follows, command, rfl, rfl⟩))) (calm panic)

theorem calm_opening (member : stage ∈ node.accepted ++ node.ready) : stage.panic? = none := by
  rcases List.mem_append.mp member with early | early
  · rw [(mem_accepted.mp early).2]
    rfl
  · rw [(mem_ready.mp early).2]
    rfl

theorem panic_of_processed {ended : Attempt (Except Error (Command S))} {panic : Panic}
    (member : stage ∈ node.accepted ++ node.ready ++ [.called, .processed ended])
    (panicked : stage.panic? = some panic) : ended = .error panic := by
  rcases List.mem_append.mp member with early | processing
  · rw [calm_opening early] at panicked
    cases panicked
  · simp only [List.mem_cons, List.not_mem_nil, or_false] at processing
    rcases processing with rfl | rfl
    · cases panicked
    · cases ended with
      | ok reply => cases panicked
      | error thrown => exact congrArg Except.error (Option.some.inj panicked)

theorem panic_of_closing {panic : Panic} (member : stage ∈ node.closing reply came)
    (panicked : stage.panic? = some panic) : came = .error panic := by
  rcases mem_closing.mp member with ⟨_, _, _, rfl⟩ | ⟨_, _, _, rfl⟩ <;>
    cases came with
    | ok done => cases panicked
    | error thrown => exact congrArg Except.error (Option.some.inj panicked)

theorem suspends_contain (panic : Panic) : Suspends panic (contain (S := S) panic) := by
  refine ⟨_, rfl, ?_, fun quoted => ?_⟩
  · split
    · decide +kernel
    · simp only [Text.allBlank, String.toList_append, List.all_append]
      rfl
  · rw [if_neg (by simp [quoted])]
    exact ⟨"node execution panicked: ", "", by rw [String.append_empty]⟩

theorem Route.suspends (route : node.Route stages reply) (panic : Panic) (member : stage ∈ stages)
    (panicked : stage.panic? = some panic) : Suspends panic reply := by
  cases route with
  | rejected cause present =>
      cases List.mem_singleton.mp member
      cases panicked
  | validationPanics panic present =>
      cases List.mem_singleton.mp member
      cases panicked
      exact suspends_contain _
  | preparationPanics panic present =>
      rcases List.mem_append.mp member with early | late
      · rw [calm_opening (List.mem_append_left _ early)] at panicked
        cases panicked
      · cases List.mem_singleton.mp late
        cases panicked
        exact suspends_contain _
  | processorPanics panic =>
      cases panic_of_processed member panicked
      exact suspends_contain _
  | replied reply =>
      rcases List.mem_append.mp member with early | late
      · cases panic_of_processed early panicked
      · cases panic_of_closing late panicked
  | conclusionPanics reply panic present =>
      rcases List.mem_append.mp member with early | late
      · cases panic_of_processed early panicked
      · cases panic_of_closing late panicked
        exact suspends_contain _

theorem Route.rejects (route : node.Route stages reply) (cause : Error)
    (refused : .validated (.ok (.error cause)) ∈ stages) :
    ∃ place message, reply = .error (.stateValidation place message) := by
  have same := (route.fails (node.rejection cause)).mpr (.inl ⟨cause, refused, rfl⟩)
  unfold rejection at same
  split at same
  · exact ⟨_, _, same⟩
  · exact ⟨_, _, same⟩

theorem Route.lawful (route : node.Route stages reply) : node.Lawful stages reply where
  ordered := route.ordered
  validates := route.validates
  prepares := route.prepares
  processes := route.processes
  returns := route.returns
  concludes := route.concludes
  handles := route.handles
  fails := route.fails
  rejects := route.rejects
  answers := route.answers
  suspends _ member panic panicked := route.suspends panic member panicked

end

/-- Whatever its stages come to, an execution of a node that keeps no one waiting forever comes to a reply, and
never panics. Each way in which it may end leaves a record of its stages, and the record and the reply obey one
law. -/
theorem lifecycle_lawful (timers : Option String) (node : Node W S) (snapshot : Snapshot S) (world : W) :
    (node.Returns → (node.lifecycle timers snapshot).Returns) ∧
      (∀ came, (node.lifecycle timers snapshot).MayEnd came ↔
        ∃ stages, ((node.recorded timers).lifecycle timers snapshot).EndsNoting [] came stages) ∧
      ∀ came stages, ((node.recorded timers).lifecycle timers snapshot).EndsNoting [] came stages →
        ∃ reply, came = .ok reply ∧ node.Lawful stages reply := by
  refine ⟨fun returns => returns.lifecycle timers snapshot,
    fun came => (node.lifecycle_records timers snapshot).mayEnd_iff world, fun came stages ends => ?_⟩
  obtain ⟨reply, same, route⟩ := route_of_endsNoting ends
  exact ⟨reply, same, route.lawful⟩

section
def fragile : Node Unit Unit where
  id := ⟨"fragile", by decide +kernel, by decide⟩
  metadata := default
  process := fun _ => .done (.error (.unpositioned))
  hooks :=
    { validate := some fun _ => .pure (.ok (.ok ()))
      onError := some fun _ _ => .pure (.error (.text "again")) }

def atFragile : Snapshot Unit :=
  .initial ⟨"breaking", by decide +kernel, by decide⟩ () .empty fragile.id default

def fragileStages : List (Stage Unit) :=
  [.validated (.ok (.ok ())), .called, .processed (.ok (.error .unpositioned)),
    .handled .unpositioned (.error (.text "again"))]

theorem fragile_suspends :
    (fragile.lifecycle none atFragile).Returns ∧ ∃ reply,
      ((fragile.recorded none).lifecycle none atFragile).EndsNoting [] (.ok reply) fragileStages ∧
        fragile.Lawful fragileStages reply ∧ Suspends (.text "again") reply := by
  obtain ⟨returns, _, lawful⟩ := lifecycle_lawful none fragile atFragile ()
  have ends : ((fragile.recorded none).lifecycle none atFragile).EndsNoting []
      (.ok (.ok (.executionError "again"))) fragileStages :=
    ⟨0, (), 0, (), 0, (), 0, (), rfl, rfl⟩
  obtain ⟨reply, same, law⟩ := lawful _ _ ends
  cases same
  exact ⟨returns fun _ => trivial, _, ends, law,
    law.suspends (.handled .unpositioned (.error (.text "again"))) (by simp [fragileStages]) _ rfl⟩
end

end Node
end FlowGraph

import FlowGraph.Proofs.Snapshot.Kind
import FlowGraph.Snapshot.Context

/-! What a key reads after a value was put under some key of a context. -/

namespace FlowGraph.Context
variable {kind : Kind} {context next : Context} {key : ContextKey kind} {value : kind.Value}

theorem put_eq_ok_iff : context.put key value = .ok next ↔
    ∃ form, kind.encode value = .ok form ∧ next = ⟨context.entries.insert key.name ⟨kind.tag, form⟩⟩ := by
  unfold put
  cases kind.encode value with
  | error fault => simp [bind, Except.bind]
  | ok form => simp [bind, Except.bind, pure, Except.pure, eq_comm]

theorem put_succeeds_iff : (∃ next, context.put key value = .ok next) ↔ kind.isWritable value = true := by
  rw [← Kind.encode_succeeds_iff]
  constructor
  · rintro ⟨next, put⟩
    obtain ⟨form, written, _⟩ := put_eq_ok_iff.mp put
    exact ⟨form, written⟩
  · rintro ⟨form, written⟩
    exact ⟨_, put_eq_ok_iff.mpr ⟨form, written, rfl⟩⟩

theorem error_of_put {fault : Error} (fails : context.put key value = .error fault) :
    ∃ text, fault = .json text := by
  unfold put at fails
  cases written : kind.encode value with
  | error other =>
      rw [written] at fails
      cases fails
      exact Kind.error_of_encode written
  | ok form =>
      rw [written] at fails
      cases fails

theorem get_of_entry {entry : Entry} (found : context.entries.get? key.name = some entry) :
    context.get key = if entry.tag = kind.tag then kind.decode entry.value else none := by
  simp [get, found]

theorem get?_of_put (put : context.put key value = .ok next) (name : String) :
    (name = key.name ∧ ∃ form, kind.encode value = .ok form ∧ next.entries.get? name = some ⟨kind.tag, form⟩) ∨
      (name ≠ key.name ∧ next.entries.get? name = context.entries.get? name) := by
  obtain ⟨form, written, rfl⟩ := put_eq_ok_iff.mp put
  have found := Dict.get?_insert context.entries key.name name ⟨kind.tag, form⟩
  by_cases same : name = key.name
  · subst same
    rw [if_pos rfl] at found
    exact .inl ⟨rfl, form, written, found⟩
  · rw [if_neg fun equal => same equal.symm] at found
    exact .inr ⟨same, found⟩

/-- A value can be put just if it has a form, and otherwise the reason is its form. From the context that holds
it, a key of its name and kind reads the very value just if the value lasts, keys of that name and any other
kind read nothing, and under all other names every key reads what it read before. -/
theorem put_is_read_back_iff (context : Context) (key : ContextKey kind) (value : kind.Value) :
    ((∃ next, context.put key value = .ok next) ↔ kind.isWritable value = true) ∧
    (∀ fault, context.put key value = .error fault → ∃ text, fault = .json text) ∧
    ∀ next, context.put key value = .ok next →
      (next.get key = some value ↔ kind.lasts value = true) ∧
      (∀ (other : Kind) (twin : ContextKey other), twin.name = key.name → other ≠ kind → next.get twin = none) ∧
      ∀ (other : Kind) (stranger : ContextKey other), stranger.name ≠ key.name →
        next.get stranger = context.get stranger ∧ next.getRaw stranger.name = context.getRaw stranger.name := by
  refine ⟨put_succeeds_iff, fun fault => error_of_put, fun next put => ⟨?_, ?_, ?_⟩⟩
  · rcases get?_of_put put key.name with ⟨_, form, written, found⟩ | ⟨apart, _⟩
    · rw [get_of_entry found, if_pos rfl]
      exact Kind.decode_iff_lasts written
    · exact absurd rfl apart
  · intro other twin same different
    rcases get?_of_put put twin.name with ⟨_, form, _, found⟩ | ⟨apart, _⟩
    · rw [get_of_entry found, if_neg fun tags => different (Kind.tag_injective tags).symm]
    · exact absurd same apart
  · intro other stranger apart
    rcases get?_of_put put stranger.name with ⟨same, _⟩ | ⟨_, kept⟩
    · exact absurd same apart
    · simp only [get, getRaw, kept, and_self]

section

def limits : Dict String (Option Binary64) := .ofList [("", none), ("low", some ⟨1⟩)]

def limitsKey : ContextKey (.map .string (.option .float)) := ⟨"limits"⟩

def listedKey : ContextKey (.list .string) := ⟨"limits"⟩

def askedKey : ContextKey .char := ⟨"asked"⟩

def scoreKey : ContextKey .float := ⟨"score"⟩

theorem limits_are_read_back : ∃ asked next, empty.put askedKey 'é' = .ok asked ∧
    asked.put limitsKey limits = .ok next ∧ next.get limitsKey = some limits ∧ next.get listedKey = none ∧
      next.get askedKey = some 'é' := by
  obtain ⟨first, _, afterFirst⟩ := put_is_read_back_iff empty askedKey 'é'
  obtain ⟨asked, holds⟩ := first.mpr rfl
  obtain ⟨second, _, afterSecond⟩ := put_is_read_back_iff asked limitsKey limits
  obtain ⟨next, put⟩ := second.mpr (by decide)
  obtain ⟨read, others, kept⟩ := afterSecond next put
  have before : asked.get askedKey = some 'é' := (afterFirst asked holds).1.mpr rfl
  have after : next.get askedKey = some 'é' := (kept _ askedKey (by decide)).1.trans before
  exact ⟨asked, next, holds, put, read.mpr (by decide), others _ listedKey rfl (by simp), after⟩

/-- A number that is none is put without any complaint, and nothing is read from the key afterwards. -/
theorem nan_is_not_read_back : ∃ next, empty.put scoreKey .nan = .ok next ∧ next.get scoreKey = none :=
  ⟨⟨.ofList [("score", ⟨"f64", .null⟩)]⟩, rfl, rfl⟩

end

end FlowGraph.Context

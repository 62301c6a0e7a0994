import FlowGraph.Proofs.LastWriter
import FlowGraph.Proofs.Snapshot.Updates
import FlowGraph.Proofs.TypedKeys

/-!
The algebra of merging contexts. Where both contexts know a key the second one counts, so the order of updates
matters, but not how they are grouped: a run may apply updates one by one or merge them first. Merging forgets
nothing but what it overwrites, and leaves the keys alone that the second context does not know.
-/

namespace FlowGraph

namespace Context

def united (updates : List Context) : Context := updates.foldl merge empty

/-- On every key that both contexts know, their entries are equal. -/
def Agree (equal : Entry → Entry → Prop) (a b : Context) : Prop :=
  ∀ name one other, a.entries.get? name = some one → b.entries.get? name = some other → equal one other

theorem ext_lookup {a b : Context} (same : ∀ name, a.entries.get? name = b.entries.get? name) : a = b :=
  congrArg mk (Dict.ext_get? same)

theorem get?_of_absent {context : Context} {name : String} (absent : context.contains name = false) :
    context.entries.get? name = none :=
  Option.not_isSome_iff_eq_none.mp (Bool.eq_false_iff.mp absent)

theorem merge_assoc (a b c : Context) : (a.merge b).merge c = a.merge (b.merge c) := by
  refine ext_lookup fun name => ?_
  simp only [get?_merge]
  cases c.entries.get? name <;> rfl

theorem merge_self (a : Context) : a.merge a = a := by
  refine ext_lookup fun name => ?_
  rw [get?_merge]
  cases a.entries.get? name <;> rfl

theorem empty_merge (a : Context) : empty.merge a = a := by
  refine ext_lookup fun name => ?_
  rw [get?_merge]
  cases a.entries.get? name <;> rfl

theorem merge_empty (a : Context) : a.merge empty = a := a.merge_of_isEmpty rfl

theorem foldl_merge (updates : List Context) : ∀ context : Context,
    updates.foldl merge context = context.merge (united updates) := by
  induction updates with
  | nil => exact fun context => context.merge_empty.symm
  | cons first rest ih =>
      intro context
      have first_counts : united (first :: rest) = first.merge (united rest) := by
        rw [← ih first, united, List.foldl_cons, empty_merge]
      calc
        rest.foldl merge (context.merge first) = (context.merge first).merge (united rest) := ih _
        _ = context.merge (first.merge (united rest)) := merge_assoc context first (united rest)
        _ = context.merge (united (first :: rest)) := by rw [first_counts]

theorem get?_merge_eq_ite (a b : Context) (name : String) : (a.merge b).entries.get? name =
    if b.contains name then b.entries.get? name else a.entries.get? name := by
  rw [get?_merge, contains, Dict.contains]
  cases b.entries.get? name <;> rfl

theorem get_merge {kind : Kind} (a b : Context) (key : ContextKey kind) :
    (a.merge b).get key = if b.contains key.name then b.get key else a.get key := by
  simp only [get, get?_merge_eq_ite]
  split <;> rfl

theorem merge_comm_iff (a b : Context) : a.merge b = b.merge a ↔ Agree Eq a b := by
  constructor
  · intro commutes name one other held known
    have looked := congrArg (fun context => context.entries.get? name) commutes
    simp only [get?_merge, held, known] at looked
    exact (Option.some.inj looked).symm
  · intro agree
    refine ext_lookup fun name => ?_
    simp only [get?_merge]
    cases held : a.entries.get? name with
    | none => cases b.entries.get? name <;> rfl
    | some one =>
        cases known : b.entries.get? name with
        | none => rfl
        | some other => rw [agree name one other held known]

section

theorem sameList_iff {α : Type} {same : α → α → Bool} {first second : List α} :
    Kind.sameList same first second = true ↔ List.Forall₂ (fun one other => same one other = true) first second := by
  induction first generalizing second with
  | nil => cases second <;> simp [Kind.sameList]
  | cons one rest ih =>
      cases second with
      | nil => simp [Kind.sameList]
      | cons other others => simp [Kind.sameList, ih]

theorem same_iff_get? {a b : Context} : a.same b = true ↔
    ∀ name, Option.Rel (fun one other => one.same other = true) (a.entries.get? name) (b.entries.get? name) := by
  rw [← Dict.alike_iff_get?, same, sameList_iff]
  simp only [Bool.and_eq_true, beq_iff_eq, Dict.Alike]

theorem same_merge_iff {a b : Context} (steady : a.same a = true) (steady' : b.same b = true) :
    (a.merge b).same (b.merge a) = true ↔ Agree (fun one other => one.same other = true) b a := by
  simp only [same_iff_get?, get?_merge] at *
  constructor
  · intro related name other one known held
    have here := related name
    rw [known, held] at here
    cases here with
    | some equal => exact equal
  · intro agree name
    have own := steady name
    have own' := steady' name
    cases held : a.entries.get? name with
    | none => simpa [held] using own'
    | some one =>
        cases known : b.entries.get? name with
        | none => simpa [held, known] using own
        | some other => exact .some (agree name other one known held)

end

section
variable {kind : Kind} {before after other : Context} {name : String} {entry : Option Entry}

/-- The second context has the entry under the name, or none, and is the first one under all other names. -/
def Sets (name : String) (entry : Option Entry) (before after : Context) : Prop :=
  ∀ looked, after.entries.get? looked = if Key.text name = Key.text looked then entry else before.entries.get? looked

theorem sets_insert (context : Context) (name : String) (entry : Entry) :
    Sets name (some entry) context ⟨context.entries.insert name entry⟩ :=
  fun looked => Dict.get?_insert context.entries name looked entry

theorem sets_remove (context : Context) (name : String) : Sets name none context (context.remove name) :=
  fun looked => Dict.get?_erase context.entries name looked

theorem Sets.unique (sets : Sets name entry before after) (sets' : Sets name entry before other) : after = other :=
  ext_lookup fun looked => (sets looked).trans (sets' looked).symm

theorem Sets.merge (sets : Sets name entry before after) (absent : other.contains name = false) :
    Sets name entry (before.merge other) (after.merge other) ∧
      Sets name entry (other.merge before) (other.merge after) := by
  have unknown {looked : String} (same : Key.text name = Key.text looked) : other.entries.get? looked = none := by
    rw [← Key.text_injective same]
    exact get?_of_absent absent
  constructor
  · intro looked
    simp only [get?_merge, sets looked]
    split
    · rename_i same
      rw [unknown same]
      rfl
    · rfl
  · intro looked
    simp only [get?_merge, sets looked]
    split
    · rename_i same
      rw [unknown same]
      cases entry <;> rfl
    · rfl

theorem put_merge (context : Context) (key : ContextKey kind) (value : kind.Value)
    (absent : other.contains key.name = false) :
    (context.put key value).map (·.merge other) = (context.merge other).put key value ∧
      (context.put key value).map other.merge = (other.merge context).put key value := by
  unfold put
  cases kind.encode value with
  | error fault => exact ⟨rfl, rfl⟩
  | ok form =>
      obtain ⟨first, second⟩ := (sets_insert context key.name ⟨kind.tag, form⟩).merge absent
      exact ⟨congrArg Except.ok (first.unique (sets_insert _ _ _)),
        congrArg Except.ok (second.unique (sets_insert _ _ _))⟩

theorem remove_merge (context : Context) (absent : other.contains name = false) :
    (context.remove name).merge other = (context.merge other).remove name ∧
      other.merge (context.remove name) = (other.merge context).remove name := by
  obtain ⟨first, second⟩ := (sets_remove context name).merge absent
  exact ⟨first.unique (sets_remove _ _), second.unique (sets_remove _ _)⟩

end

end Context

theorem Engine.context_foldl_withUpdates {S : Type} (steps : List (Context × Option S × Readings)) :
    ∀ snapshot : Snapshot S,
      (steps.foldl (fun snapshot step => withUpdates snapshot step.1 step.2.1 step.2.2) snapshot).context =
        snapshot.context.merge (Context.united (steps.map Prod.fst)) := by
  intro snapshot
  rw [← Context.foldl_merge, List.foldl_map]
  exact (List.foldl_hom Snapshot.context fun snapshot step => (context_withUpdates snapshot step.1 _ _).symm).symm

namespace Context

/-- Merging is a union in which the second context counts. It is associative and idempotent, the empty context
changes nothing, and it commutes just for contexts that agree on the keys they share. So updates may be applied
one by one or all at once, and a key that a context does not know may be put or removed before it is merged or
afterwards. -/
theorem merging_is_right_biased_union :
    (∀ (a b : Context) (name : String), (a.merge b).entries.get? name =
      if b.contains name then b.entries.get? name else a.entries.get? name) ∧
    (∀ (kind : Kind) (a b : Context) (key : ContextKey kind),
      (a.merge b).get key = if b.contains key.name then b.get key else a.get key) ∧
    (∀ a b c : Context, (a.merge b).merge c = a.merge (b.merge c)) ∧
    (∀ a : Context, a.merge a = a ∧ empty.merge a = a ∧ a.merge empty = a) ∧
    (∀ a b : Context, a.merge b = b.merge a ↔ Agree Eq a b) ∧
    (∀ a b : Context, a.same a = true → b.same b = true →
      ((a.merge b).same (b.merge a) = true ↔ Agree (fun one other => one.same other = true) b a)) ∧
    (∀ (updates : List Context) (context : Context), updates.foldl merge context = context.merge (united updates)) ∧
    (∀ (S : Type) (snapshot : Snapshot S) (steps : List (Context × Option S × Readings)) (data : Option S)
      (readings : Readings),
      (steps.foldl (fun snapshot step => Engine.withUpdates snapshot step.1 step.2.1 step.2.2) snapshot).context =
        (Engine.withUpdates snapshot (united (steps.map Prod.fst)) data readings).context) ∧
    ∀ (kind : Kind) (key : ContextKey kind) (value : kind.Value) (a b : Context), b.contains key.name = false →
      ((a.put key value).map (·.merge b) = (a.merge b).put key value ∧
        (a.put key value).map b.merge = (b.merge a).put key value) ∧
      (a.remove key.name).merge b = (a.merge b).remove key.name ∧
        b.merge (a.remove key.name) = (b.merge a).remove key.name := by
  refine ⟨get?_merge_eq_ite, fun _ => get_merge, merge_assoc, fun a => ⟨a.merge_self, a.empty_merge, a.merge_empty⟩,
    merge_comm_iff, fun _ _ => same_merge_iff, foldl_merge, ?_, ?_⟩
  · intro S snapshot steps data readings
    rw [Engine.context_foldl_withUpdates, Engine.context_withUpdates]
  · intro kind key value a b absent
    exact ⟨put_merge a key value absent, remove_merge a absent⟩

section

def balance (zero : Binary64) : Entry := ⟨"f64", .float zero⟩

def overdrawn : Context := ⟨.ofList [("balance", balance ⟨0x8000000000000000⟩)]⟩

def settled : Context := ⟨.ofList [("balance", balance ⟨0⟩), ("holder", ⟨"char", .string "é"⟩)]⟩

def holderKey : ContextKey .char := ⟨"holder"⟩

/-- The two zeros compare as equal, so it makes no difference that counts which context is merged into which,
although the results are not the same. The holder may be changed before the balance is merged or afterwards. -/
theorem balances_merge_either_way :
    Agree (fun one other => one.same other = true) settled overdrawn ∧
      overdrawn.merge settled ≠ settled.merge overdrawn ∧
      (settled.put holderKey 'ü').map (·.merge overdrawn) = (settled.merge overdrawn).put holderKey 'ü' ∧
      (settled.remove "holder").merge overdrawn = (settled.merge overdrawn).remove "holder" := by
  obtain ⟨_, _, _, _, commutes, compares, _, _, apart⟩ := merging_is_right_biased_union
  have equal : (overdrawn.merge settled).same (settled.merge overdrawn) = true := by decide +kernel
  refine ⟨(compares overdrawn settled (by decide +kernel) (by decide +kernel)).mp equal, ?_, ?_⟩
  · intro same
    have entries := (commutes overdrawn settled).mp same "balance" _ _ rfl rfl
    simp [balance] at entries
  · obtain ⟨⟨put, _⟩, removed, _⟩ := apart .char holderKey 'ü' settled overdrawn (by decide +kernel)
    exact ⟨put, removed⟩

end

end Context
end FlowGraph

import FlowGraph.Json.Basic
import FlowGraph.Proofs.Dict

/-!
Values that are written and read item by item. A list or a table can be written just if all of its items can,
and it is read back just if all of them are.
-/

namespace FlowGraph.Json
variable {α β ε : Type}

theorem map_eq_ok_iff {f : α → β} {made : Except ε α} {y : β} :
    made.map f = .ok y ↔ ∃ x, made = .ok x ∧ f x = y := by
  cases made <;> simp [Except.map]

theorem map_succeeds_iff {f : α → β} {made : Except ε α} : (∃ y, made.map f = .ok y) ↔ ∃ x, made = .ok x := by
  cases made <;> simp [Except.map]

theorem map_eq_error_iff {f : α → β} {made : Except ε α} {fault : ε} :
    made.map f = .error fault ↔ made = .error fault := by
  cases made <;> simp [Except.map]

theorem mapM_eq_ok_iff {f : α → Except ε β} {xs : List α} {ys : List β} :
    xs.mapM f = .ok ys ↔ List.Forall₂ (fun x y => f x = .ok y) xs ys := by
  induction xs generalizing ys with
  | nil => cases ys <;> simp [pure, Except.pure]
  | cons x xs ih =>
      rw [List.mapM_cons]
      cases first : f x with
      | error fault => cases ys <;> simp [bind, Except.bind, first]
      | ok y =>
          cases behind : xs.mapM f with
          | error fault => cases ys <;> simp [bind, Except.bind, first, ← ih, behind]
          | ok others => cases ys <;> simp [bind, Except.bind, pure, Except.pure, first, ← ih, behind]

theorem mapM_eq_some_iff {f : α → Option β} {xs : List α} {ys : List β} :
    xs.mapM f = some ys ↔ List.Forall₂ (fun x y => f x = some y) xs ys := by
  induction xs generalizing ys with
  | nil => cases ys <;> simp
  | cons x xs ih =>
      rw [List.mapM_cons]
      cases first : f x with
      | none => cases ys <;> simp [first]
      | some y =>
          cases behind : xs.mapM f with
          | none => cases ys <;> simp [first, ← ih, behind]
          | some others => cases ys <;> simp [first, ← ih, behind]

theorem mapM_succeeds_iff {f : α → Except ε β} {xs : List α} :
    (∃ ys, xs.mapM f = .ok ys) ↔ ∀ x ∈ xs, ∃ y, f x = .ok y := by
  simp only [mapM_eq_ok_iff]
  induction xs with
  | nil => simp
  | cons x xs ih =>
      rw [List.forall_mem_cons, ← ih]
      constructor
      · rintro ⟨_, first | ⟨first, behind⟩⟩
        exact ⟨⟨_, first⟩, _, behind⟩
      · rintro ⟨⟨y, first⟩, ys, behind⟩
        exact ⟨y :: ys, .cons first behind⟩

theorem error_of_mapM {f : α → Except ε β} {xs : List α} {fault : ε} (fails : xs.mapM f = .error fault) :
    ∃ x ∈ xs, f x = .error fault := by
  induction xs with
  | nil => cases fails
  | cons x xs ih =>
      rw [List.mapM_cons] at fails
      cases first : f x with
      | error other =>
          rw [first] at fails
          cases fails
          exact ⟨x, List.mem_cons_self, first⟩
      | ok y =>
          cases behind : xs.mapM f with
          | ok others => simp [first, behind, bind, Except.bind, pure, Except.pure] at fails
          | error other =>
              simp only [first, behind, bind, Except.bind, Except.error.injEq] at fails
              obtain ⟨faulty, member, same⟩ := ih (fails ▸ behind)
              exact ⟨faulty, List.mem_cons_of_mem _ member, same⟩

theorem mapM_reads_back_iff {write : α → Except ε β} {read : β → Option α} {lasts : α → Bool} {xs : List α}
    {ys : List β} (written : xs.mapM write = .ok ys)
    (each : ∀ x y, write x = .ok y → (read y = some x ↔ lasts x = true)) :
    ys.mapM read = some xs ↔ xs.all lasts = true := by
  rw [mapM_eq_ok_iff] at written
  rw [mapM_eq_some_iff]
  induction written with
  | nil => simp
  | @cons x y xs ys first behind ih =>
      have here := each x y first
      rw [List.forall₂_cons, List.all_cons, Bool.and_eq_true, here, ih]

theorem map_eq_map {γ : Type} {f : α → γ} {g : β → γ} {xs : List α} {ys : List β}
    (paired : List.Forall₂ (fun x y => f x = g y) xs ys) : xs.map f = ys.map g := by
  induction paired with
  | nil => rfl
  | cons first _ ih => rw [List.map_cons, List.map_cons, first, ih]

theorem fields_read_back_iff {κ : Type} [Key κ] {write : α → Except ε Json} {name : String → Option κ}
    {read : Json → Option α} {lasts : α → Bool} {table : Dict κ α} {fields : List (String × Json)}
    (named : ∀ key : κ, name (Key.text key) = some key)
    (written : (table.entries.mapM fun entry => (write entry.2).map fun form => (Key.text entry.1, form)) =
      .ok fields)
    (each : ∀ value form, write value = .ok form → (read form = some value ↔ lasts value = true)) :
    (fields.mapM fun field => (name field.1).bind fun key => (read field.2).map fun value => (key, value)).map
        Dict.ofList = some table ↔
      table.entries.all (fun entry => lasts entry.2) = true := by
  have back : (fields.mapM fun field => (name field.1).bind fun key =>
      (read field.2).map fun value => (key, value)) =
      some table.entries ↔ table.entries.all (fun entry => lasts entry.2) = true := by
    refine mapM_reads_back_iff written fun entry field made => ?_
    obtain ⟨form, encoded, rfl⟩ := map_eq_ok_iff.mp made
    simp [named, ← each _ _ encoded, Prod.ext_iff]
  rw [← back, Option.map_eq_some_iff]
  constructor
  · rintro ⟨entries, found, same⟩
    have before : table.entries.map (fun entry => some entry.1) = fields.map fun field => name field.1 := by
      refine map_eq_map ((mapM_eq_ok_iff.mp written).imp fun entry field made => ?_)
      obtain ⟨form, _, rfl⟩ := map_eq_ok_iff.mp made
      exact (named entry.1).symm
    have after : (fields.map fun field => name field.1) = entries.map fun entry => some entry.1 := by
      refine map_eq_map ((mapM_eq_some_iff.mp found).imp fun field entry made => ?_)
      obtain ⟨key, spelled, made⟩ := Option.bind_eq_some_iff.mp made
      obtain ⟨value, _, rfl⟩ := Option.map_eq_some_iff.mp made
      exact spelled
    have keys : entries.map Prod.fst = table.entries.map Prod.fst := by
      refine List.map_injective_iff.mpr (Option.some_injective κ) ?_
      simpa [Function.comp_def] using (before.trans after).symm
    rw [found, (Dict.ofList_eq_iff keys).mp same]
  · intro found
    exact ⟨table.entries, found, table.ofList_entries⟩

end FlowGraph.Json

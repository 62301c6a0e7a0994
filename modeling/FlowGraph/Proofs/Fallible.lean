import Mathlib.Data.List.Basic

/-! Chains of changes, each of which may be refused. A chain succeeds just if every change in it does. -/

namespace FlowGraph.Fallible
variable {α β ε : Type} {change : α → β → Except ε α} {start last : α} {first : β} {changes : List β}

theorem foldlM_cons_eq_ok_iff : (first :: changes).foldlM change start = .ok last ↔
    ∃ next, change start first = .ok next ∧ changes.foldlM change next = .ok last := by
  rw [List.foldlM_cons]
  cases change start first <;> simp [bind, Except.bind]

theorem foldlM_append_eq_ok_iff {more : List β} : (changes ++ more).foldlM change start = .ok last ↔
    ∃ middle, changes.foldlM change start = .ok middle ∧ more.foldlM change middle = .ok last := by
  rw [List.foldlM_append]
  cases changes.foldlM change start <;> simp [bind, Except.bind]

theorem foldlM_singleton (change : α → β → Except ε α) (start : α) (one : β) :
    [one].foldlM change start = change start one := by
  rw [List.foldlM_cons]
  exact bind_pure _

/-- If it depends on a change alone whether it is refused, it depends on the changes alone whether a chain fails. -/
theorem foldlM_succeeds_iff {accepted : β → Prop}
    (each : ∀ value one, (∃ next, change value one = .ok next) ↔ accepted one) :
    (∃ last, changes.foldlM change start = .ok last) ↔ ∀ one ∈ changes, accepted one := by
  induction changes generalizing start with
  | nil => simp [pure, Except.pure]
  | cons first rest ih =>
      simp only [foldlM_cons_eq_ok_iff, List.forall_mem_cons]
      constructor
      · rintro ⟨last, next, made, behind⟩
        exact ⟨(each start first).mp ⟨next, made⟩, ih.mp ⟨last, behind⟩⟩
      · rintro ⟨first, others⟩
        obtain ⟨next, made⟩ := (each start _).mpr first
        obtain ⟨last, behind⟩ := ih.mpr others
        exact ⟨last, next, made, behind⟩

end FlowGraph.Fallible

import Mathlib.Data.List.Basic

/-!
Lists that agree up to some elements that do not count. Both lists have the same pairs of twins in the same order,
and between them each may have elements of its own that are left aside.
-/

namespace FlowGraph
universe u
variable {α β γ δ : Type u}

inductive Woven (twin : α → β → Prop) (left : α → Prop) (right : β → Prop) : List α → List β → Prop where
  | nil : Woven twin left right [] []
  | both {first : α} {second : β} {firsts : List α} {seconds : List β} (pair : twin first second)
      (rest : Woven twin left right firsts seconds) : Woven twin left right (first :: firsts) (second :: seconds)
  | left {first : α} {firsts : List α} {seconds : List β} (aside : left first)
      (rest : Woven twin left right firsts seconds) : Woven twin left right (first :: firsts) seconds
  | right {second : β} {firsts : List α} {seconds : List β} (aside : right second)
      (rest : Woven twin left right firsts seconds) : Woven twin left right firsts (second :: seconds)

namespace Woven
variable {twin : α → β → Prop} {left : α → Prop} {right : β → Prop} {firsts moreFirsts : List α}
  {seconds moreSeconds : List β}

theorem mono {other : α → β → Prop} {moreLeft : α → Prop} {moreRight : β → Prop}
    (woven : Woven twin left right firsts seconds) (pairs : ∀ a b, twin a b → other a b)
    (lefts : ∀ a, left a → moreLeft a) (rights : ∀ b, right b → moreRight b) :
    Woven other moreLeft moreRight firsts seconds := by
  induction woven with
  | nil => exact .nil
  | both pair _ ih => exact .both (pairs _ _ pair) ih
  | left aside _ ih => exact .left (lefts _ aside) ih
  | right aside _ ih => exact .right (rights _ aside) ih

theorem symm (woven : Woven twin left right firsts seconds) :
    Woven (fun b a => twin a b) right left seconds firsts := by
  induction woven with
  | nil => exact .nil
  | both pair _ ih => exact .both pair ih
  | left aside _ ih => exact .right aside ih
  | right aside _ ih => exact .left aside ih

theorem append (woven : Woven twin left right firsts seconds) (more : Woven twin left right moreFirsts moreSeconds) :
    Woven twin left right (firsts ++ moreFirsts) (seconds ++ moreSeconds) := by
  induction woven with
  | nil => exact more
  | both pair _ ih => exact .both pair ih
  | left aside _ ih => exact .left aside ih
  | right aside _ ih => exact .right aside ih

theorem refl (list : List α) {aside : α → Prop} : Woven Eq aside aside list list := by
  induction list with
  | nil => exact .nil
  | cons first rest ih => exact .both rfl ih

theorem apart (lefts : ∀ a ∈ firsts, left a) (rights : ∀ b ∈ seconds, right b) :
    Woven twin left right firsts seconds := by
  induction firsts with
  | cons first rest ih =>
      exact .left (lefts _ List.mem_cons_self) (ih fun a member => lefts a (List.mem_cons_of_mem _ member))
  | nil =>
      induction seconds with
      | nil => exact .nil
      | cons second rest ih =>
          exact .right (rights _ List.mem_cons_self) (ih fun b member => rights b (List.mem_cons_of_mem _ member))

theorem map {f : α → γ} {g : β → δ} {other : γ → δ → Prop} {moreLeft : γ → Prop} {moreRight : δ → Prop}
    (woven : Woven twin left right firsts seconds) (pairs : ∀ a b, twin a b → other (f a) (g b))
    (lefts : ∀ a, left a → moreLeft (f a)) (rights : ∀ b, right b → moreRight (g b)) :
    Woven other moreLeft moreRight (firsts.map f) (seconds.map g) := by
  induction woven with
  | nil => exact .nil
  | both pair _ ih => exact .both (pairs _ _ pair) ih
  | left aside _ ih => exact .left (lefts _ aside) ih
  | right aside _ ih => exact .right (rights _ aside) ih

theorem filter (woven : Woven twin left right firsts seconds) (keep : α → Bool) (keepToo : β → Bool)
    (alike : ∀ a b, twin a b → keep a = keepToo b) :
    Woven twin left right (firsts.filter keep) (seconds.filter keepToo) := by
  induction woven with
  | nil => exact .nil
  | @both first second _ _ pair _ ih =>
      have same := alike _ _ pair
      cases kept : keepToo second with
      | true => simpa only [List.filter_cons, same, kept, ↓reduceIte] using .both pair ih
      | false => simpa only [List.filter_cons, same, kept, Bool.false_eq_true, ↓reduceIte] using ih
  | left aside _ ih =>
      rw [List.filter_cons]
      split
      · exact .left aside ih
      · exact ih
  | right aside _ ih =>
      rw [List.filter_cons]
      split
      · exact .right aside ih
      · exact ih

theorem left_of_mem (woven : Woven twin left right firsts seconds) :
    ∀ a ∈ firsts, left a ∨ ∃ b ∈ seconds, twin a b := by
  induction woven with
  | nil => exact fun a member => absurd member List.not_mem_nil
  | both pair _ ih =>
      intro a member
      rcases List.mem_cons.mp member with rfl | later
      · exact .inr ⟨_, List.mem_cons_self, pair⟩
      · exact (ih a later).imp_right fun ⟨b, known, twins⟩ => ⟨b, List.mem_cons_of_mem _ known, twins⟩
  | left aside _ ih =>
      intro a member
      rcases List.mem_cons.mp member with rfl | later
      · exact .inl aside
      · exact ih a later
  | right _ _ ih =>
      intro a member
      exact (ih a member).imp_right fun ⟨b, known, twins⟩ => ⟨b, List.mem_cons_of_mem _ known, twins⟩

theorem dropped {keep : α → Bool} {aside : α → Prop} (list : List α)
    (drops : ∀ a ∈ list, keep a = false → aside a) : Woven Eq aside aside list (list.filter keep) := by
  induction list with
  | nil => exact .nil
  | cons first rest ih =>
      have others := ih fun a member => drops a (List.mem_cons_of_mem _ member)
      rw [List.filter_cons]
      split
      · exact .both rfl others
      · rename_i out
        exact .left (drops first List.mem_cons_self (by simpa using out)) others

theorem grown {aside : α → Prop} (list : List α) {more : List α} (adds : ∀ a ∈ more, aside a) :
    Woven Eq aside aside list (list ++ more) := by
  have added : Woven Eq aside aside [] more := apart (fun a member => absurd member List.not_mem_nil) adds
  have longer := (refl list).append added
  rwa [List.append_nil] at longer

theorem of_filter {keep : α → Bool} {twin : α → α → Prop} {left right : α → Prop} {firsts : List α} :
    ∀ {seconds : List α}, seconds.filter keep = firsts.filter keep → (∀ a ∈ firsts, keep a = true → twin a a) →
      (∀ a ∈ firsts, keep a = false → left a) → (∀ b ∈ seconds, keep b = false → right b) →
        Woven twin left right firsts seconds := by
  induction firsts with
  | nil =>
      intro seconds kept _ _ rights
      refine .apart (by simp) fun b member => rights b member ?_
      simpa using List.filter_eq_nil_iff.mp kept b member
  | cons first rest ih =>
      intro seconds kept pairs lefts rights
      have onward {seconds : List α} (kept : seconds.filter keep = rest.filter keep)
          (rights : ∀ b ∈ seconds, keep b = false → right b) : Woven twin left right rest seconds :=
        ih kept (fun a member => pairs a (List.mem_cons_of_mem _ member))
          (fun a member => lefts a (List.mem_cons_of_mem _ member)) rights
      cases known : keep first with
      | false =>
          rw [List.filter_cons_of_neg (by simp [known])] at kept
          exact .left (lefts first List.mem_cons_self known) (onward kept rights)
      | true =>
          rw [List.filter_cons_of_pos known, List.filter_eq_cons_iff] at kept
          obtain ⟨others, later, rfl, dropped, _, kept⟩ := kept
          have before : Woven twin left right [] others :=
            .apart (by simp) fun b member =>
              rights b (List.mem_append_left _ member) (by simpa using dropped b member)
          refine before.append (.both (pairs first List.mem_cons_self known) (onward kept fun b member => ?_))
          exact rights b (List.mem_append_right _ (List.mem_cons_of_mem _ member))

theorem uncons {first : α} (woven : Woven twin left right (first :: firsts) seconds) :
    ∃ others rest, seconds = others ++ rest ∧ (∀ b ∈ others, right b) ∧
      ((left first ∧ Woven twin left right firsts rest) ∨
        ∃ second seconds, rest = second :: seconds ∧ twin first second ∧
          Woven twin left right firsts seconds) := by
  generalize same : first :: firsts = whole at woven
  induction woven with
  | nil => cases same
  | both pair rest _ =>
      cases same
      exact ⟨[], _, rfl, by simp, .inr ⟨_, _, rfl, pair, rest⟩⟩
  | left aside rest _ =>
      cases same
      exact ⟨[], _, rfl, by simp, .inl ⟨aside, rest⟩⟩
  | @right second _ _ aside _ ih =>
      obtain ⟨others, rest, rfl, asides, found⟩ := ih same
      refine ⟨second :: others, rest, rfl, fun b member => ?_, found⟩
      rcases List.mem_cons.mp member with rfl | later
      · exact aside
      · exact asides b later

theorem graft {aside : α → Prop} (woven : Woven twin left right firsts seconds) {others : List α}
    (alike : Woven Eq aside aside firsts others) (lefts : ∀ a, aside a → left a)
    (rights : ∀ a b, twin a b → aside a → right b) : Woven twin left right others seconds := by
  induction firsts generalizing others seconds with
  | nil =>
      refine .apart (fun a member => lefts a ?_) fun b member => ?_
      · exact (alike.symm.left_of_mem a member).resolve_right (by simp)
      · exact (woven.symm.left_of_mem b member).resolve_right (by simp)
  | cons first rest ih =>
      obtain ⟨before, after, rfl, befores, found⟩ := alike.uncons
      obtain ⟨extra, later, rfl, extras, twins⟩ := woven.uncons
      refine (apart (fun a member => lefts a (befores a member)) extras).append ?_
      rcases found with ⟨out, others⟩ | ⟨_, after, rfl, rfl, others⟩
      · rcases twins with ⟨_, goesOn⟩ | ⟨second, later, rfl, pair, goesOn⟩
        · exact ih goesOn others
        · exact .right (rights _ _ pair out) (ih goesOn others)
      · rcases twins with ⟨aside, goesOn⟩ | ⟨second, later, rfl, pair, goesOn⟩
        · exact .left aside (ih goesOn others)
        · exact .both pair (ih goesOn others)

section
variable {aside : α → Prop} {list middle last : List α}

theorem back (woven : Woven Eq aside aside list middle) : Woven Eq aside aside middle list :=
  woven.symm.mono (fun _ _ same => same.symm) (fun _ out => out) fun _ out => out

theorem trans (first : Woven Eq aside aside list middle) (second : Woven Eq aside aside middle last) :
    Woven Eq aside aside list last := by
  refine (first.back.graft second (fun _ out => out) ?_).back
  rintro a _ rfl out
  exact out

end
end Woven
end FlowGraph

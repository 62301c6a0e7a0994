import Mathlib.Data.List.Basic
import FlowGraph.Config.Expand

/-!
What becomes of a text whose references are expanded. From left to right, a text divides in just one way into
references that are closed and single letters, up to a last reference that may be left open. Each part is
expanded on its own, and only the open reference is not left as it was.
-/

namespace FlowGraph.Environment

inductive Part where
  | letter (c : Char)
  | reference (name : List Char)

def Part.text : Part → List Char
  | letter c => [c]
  | reference name => '$' :: '\x7b' :: (name ++ ['\x7d'])

/-- A reference stands for the value of its variable if that is set, and for itself otherwise. -/
def Part.expanded (environment : Environment) : Part → List Char
  | letter c => [c]
  | reference name => ((environment (String.ofList name)).map String.toList).getD (reference name).text

/-- The text of a reference that is left open, with the end of the text for its end. -/
def openText (name : List Char) : List Char := '$' :: '\x7b' :: name

def Opens (text : List Char) : Prop := ∃ behind, text = '$' :: '\x7b' :: behind

/-- How a text divides into parts, and the name of the reference that is left open behind them, if there is one.
A name goes up to the next closing brace, whatever it holds. -/
inductive Divides : List Char → List Part → Option (List Char) → Prop
  | done : Divides [] [] none
  | reference {name rest : List Char} {parts : List Part} {ending : Option (List Char)} : '\x7d' ∉ name →
      Divides rest parts ending →
        Divides ('$' :: '\x7b' :: (name ++ '\x7d' :: rest)) (.reference name :: parts) ending
  | left {name : List Char} : '\x7d' ∉ name → Divides (openText name) [] (some name)
  | letter {c : Char} {rest : List Char} {parts : List Part} {ending : Option (List Char)} : ¬Opens (c :: rest) →
      Divides rest parts ending → Divides (c :: rest) (.letter c :: parts) ending

/-- The text that is promised: closed references to variables that are set give way to their values, and
everything else stays, with the reference that is left open. -/
def promised (environment : Environment) (parts : List Part) (ending : Option (List Char)) : List Char :=
  parts.flatMap (Part.expanded environment) ++ (ending.map openText).getD []

section
variable {environment : Environment} {text rest name : List Char} {parts : List Part} {ending : Option (List Char)}

theorem Divides.text_eq (divides : Divides text parts ending) :
    text = parts.flatMap Part.text ++ (ending.map openText).getD [] := by
  induction divides with
  | done => rfl
  | reference _ _ ih => simp [Part.text, ← ih]
  | left _ => rfl
  | letter _ _ ih => simp [Part.text, ← ih]

theorem exists_divides (text : List Char) : ∃ parts ending, Divides text parts ending := by
  induction size : text.length using Nat.strongRecOn generalizing text with
  | ind size ih =>
      subst size
      cases text with
      | nil => exact ⟨[], none, .done⟩
      | cons c rest =>
          by_cases opens : Opens (c :: rest)
          · obtain ⟨behind, same⟩ := opens
            rw [same] at ih ⊢
            by_cases closes : '\x7d' ∈ behind
            · obtain ⟨name, others, rfl, closed⟩ := List.eq_append_cons_of_mem closes
              have shorter : others.length < ('$' :: '\x7b' :: (name ++ '\x7d' :: others)).length := by
                simp only [List.length_cons, List.length_append]
                omega
              obtain ⟨parts, ending, divides⟩ := ih _ shorter others rfl
              exact ⟨_, ending, .reference closed divides⟩
            · exact ⟨[], some behind, .left closes⟩
          · obtain ⟨parts, ending, divides⟩ := ih rest.length (by simp) rest rfl
            exact ⟨_, ending, .letter opens divides⟩

theorem append_brace_inj {name' rest' : List Char} (closed : '\x7d' ∉ name) (closed' : '\x7d' ∉ name')
    (same : name ++ '\x7d' :: rest = name' ++ '\x7d' :: rest') : name = name' ∧ rest = rest' := by
  induction name generalizing name' with
  | nil =>
      cases name' with
      | nil => exact ⟨rfl, (List.cons.inj same).2⟩
      | cons c name' =>
          have first : '\x7d' = c := (List.cons.inj same).1
          exact absurd (first ▸ List.mem_cons_self) closed'
  | cons c name ih =>
      cases name' with
      | nil =>
          have first : c = '\x7d' := (List.cons.inj same).1
          exact absurd (first ▸ List.mem_cons_self) closed
      | cons c' name' =>
          simp only [List.mem_cons, not_or] at closed closed'
          simp only [List.cons_append, List.cons.injEq] at same
          obtain ⟨names, rests⟩ := ih closed.2 closed'.2 same.2
          exact ⟨by rw [same.1, names], rests⟩

theorem Divides.unique {parts' : List Part} {ending' : Option (List Char)} (one : Divides text parts ending)
    (other : Divides text parts' ending') : parts = parts' ∧ ending = ending' := by
  induction one generalizing parts' ending' with
  | done =>
      cases other
      exact ⟨rfl, rfl⟩
  | @reference name rest parts ending closed _ ih =>
      generalize same : '$' :: '\x7b' :: (name ++ '\x7d' :: rest) = text at other
      cases other with
      | done => cases same
      | reference closed' divides =>
          simp only [List.cons.injEq, true_and] at same
          obtain ⟨rfl, rfl⟩ := append_brace_inj closed closed' same
          obtain ⟨rfl, rfl⟩ := ih divides
          exact ⟨rfl, rfl⟩
      | left left =>
          simp only [openText, List.cons.injEq, true_and] at same
          exact absurd (same ▸ by simp) left
      | letter plain _ => exact absurd ⟨_, same.symm⟩ plain
  | @left name left =>
      generalize same : openText name = text at other
      cases other with
      | done => cases same
      | reference _ _ =>
          simp only [openText, List.cons.injEq, true_and] at same
          exact absurd (same ▸ by simp) left
      | left _ =>
          simp only [openText, List.cons.injEq, true_and] at same
          exact ⟨rfl, congrArg some same⟩
      | letter plain _ => exact absurd ⟨_, same.symm⟩ plain
  | @letter c rest parts ending plain _ ih =>
      generalize same : c :: rest = text at other
      cases other with
      | done => cases same
      | reference _ _ => exact absurd ⟨_, same⟩ plain
      | left _ => exact absurd ⟨_, same⟩ plain
      | letter _ divides =>
          cases same
          obtain ⟨rfl, rfl⟩ := ih divides
          exact ⟨rfl, rfl⟩

theorem expandFrom_letter {c : Char} (plain : ¬Opens (c :: rest)) :
    expandFrom environment none (c :: rest) = c :: expandFrom environment none rest := by
  rw [expandFrom]
  rintro behind rfl rfl
  exact plain ⟨behind, rfl⟩

theorem expandFrom_name {c : Char} (known : List Char) (other : c ≠ '\x7d') :
    expandFrom environment (some known) (c :: rest) = expandFrom environment (some (c :: known)) rest := by
  rw [expandFrom]
  exact other

theorem resolve_eq : environment.resolve name = Part.expanded environment (.reference name) := by
  unfold resolve
  cases set : environment (String.ofList name) <;> simp [Part.expanded, Part.text, set]

theorem expandFrom_closed (closed : '\x7d' ∉ name) (known : List Char) :
    expandFrom environment (some known) (name ++ '\x7d' :: rest) =
      Part.expanded environment (.reference (known.reverse ++ name)) ++ expandFrom environment none rest := by
  induction name generalizing known with
  | nil => simp [expandFrom, resolve_eq]
  | cons c name ih =>
      simp only [List.mem_cons, not_or] at closed
      rw [List.cons_append, expandFrom_name known (Ne.symm closed.1), ih closed.2]
      simp

theorem expandFrom_left (left : '\x7d' ∉ name) (known : List Char) :
    expandFrom environment (some known) name = Part.expanded environment (.reference (known.reverse ++ name)) := by
  induction name generalizing known with
  | nil => simp [expandFrom, resolve_eq]
  | cons c name ih =>
      simp only [List.mem_cons, not_or] at left
      rw [expandFrom_name known (Ne.symm left.1), ih left.2]
      simp

/-- Each part is expanded on its own, and a reference that is left open as if the end of the text closed it. -/
theorem expandFrom_eq (divides : Divides text parts ending) : expandFrom environment none text =
    parts.flatMap (Part.expanded environment) ++
      (ending.map fun name => Part.expanded environment (.reference name)).getD [] := by
  induction divides with
  | done => rfl
  | reference closed _ ih =>
      rw [expandFrom, expandFrom_closed closed, ih]
      simp
  | left left =>
      rw [openText, expandFrom, expandFrom_left left]
      simp
  | letter plain _ ih =>
      rw [expandFrom_letter plain, ih]
      simp [Part.expanded]

theorem expanded_eq_openText_iff : Part.expanded environment (.reference name) = openText name ↔
    environment (String.ofList name) = some (String.ofList (openText name)) := by
  cases set : environment (String.ofList name) with
  | none => simp [Part.expanded, Part.text, openText, set]
  | some value => simp [Part.expanded, set, ← String.toList_inj]

theorem flatMap_expanded_of_unset
    (unset : ∀ name, Part.reference name ∈ parts → environment (String.ofList name) = none) :
    parts.flatMap (Part.expanded environment) = parts.flatMap Part.text := by
  refine List.flatMap_congr fun part member => ?_
  cases part with
  | letter c => rfl
  | reference name => simp [Part.expanded, unset name member]

/-- A text divides in just one way, and its expansion is the one that is promised just if the reference that is
left open, if there is one, names a variable whose value is that very text. An open reference is expanded as if
the end of the text closed it. So a text in which no variable is set expands to itself just if it leaves no
reference open. -/
theorem expansion_as_promised_iff (environment : Environment) (text : String) :
    (∃! division : List Part × Option (List Char), Divides text.toList division.1 division.2) ∧
    ∀ parts ending, Divides text.toList parts ending →
      ((environment.expand text).toList = environment.promised parts ending ↔
        ∀ name, ending = some name → environment (String.ofList name) = some (String.ofList (openText name))) ∧
      (∀ name, ending = some name → (environment.expand text).toList =
        parts.flatMap (Part.expanded environment) ++ Part.expanded environment (.reference name)) ∧
      ((∀ name, Part.reference name ∈ parts ∨ ending = some name → environment (String.ofList name) = none) →
        (environment.expand text = text ↔ ending = none)) := by
  constructor
  · obtain ⟨parts, ending, divides⟩ := exists_divides text.toList
    refine ⟨(parts, ending), divides, fun other divides' => ?_⟩
    obtain ⟨sameParts, sameEnding⟩ := divides'.unique divides
    exact Prod.ext sameParts sameEnding
  · intro parts ending divides
    have expanded : (environment.expand text).toList = parts.flatMap (Part.expanded environment) ++
        (ending.map fun name => Part.expanded environment (.reference name)).getD [] := by
      rw [expand, String.toList_ofList, expandFrom_eq divides]
    refine ⟨?_, ?_, ?_⟩
    · rw [expanded, promised, List.append_cancel_left_eq]
      cases ending with
      | none => simp
      | some name => simpa using expanded_eq_openText_iff
    · rintro name rfl
      rw [expanded, Option.map_some, Option.getD_some]
    · intro unset
      have untouched : parts.flatMap (Part.expanded environment) = parts.flatMap Part.text :=
        flatMap_expanded_of_unset fun name member => unset name (.inl member)
      rw [← String.toList_inj, expanded, divides.text_eq, untouched, List.append_cancel_left_eq]
      cases ending with
      | none => simp
      | some name => simp [Part.expanded, unset name (.inr rfl), Part.text, openText]

end

section

def settings : Environment
  | "A" => some "$\x7bB\x7d"
  | "B" => some "b"
  | _ => none

def sample : String := "$$\x7bA\x7d$\x7ba$\x7bB\x7d$"

def sampleParts : List Part :=
  [.letter '$', .reference ['A'], .reference ['a', '$', '\x7b', 'B'], .letter '$']

theorem sample_expands_as_promised : Divides sample.toList sampleParts none ∧
    settings.expand sample = "$$\x7bB\x7d$\x7ba$\x7bB\x7d$" := by
  have divides : Divides sample.toList sampleParts none := by
    have letters : sample.toList =
        ['$', '$', '\x7b', 'A', '\x7d', '$', '\x7b', 'a', '$', '\x7b', 'B', '\x7d', '$'] := by decide +kernel
    rw [letters]
    apply Divides.letter (by simp [Opens])
    apply @Divides.reference ['A'] _ _ _ (by decide)
    apply @Divides.reference ['a', '$', '\x7b', 'B'] _ _ _ (by decide)
    exact .letter (by simp [Opens]) .done
  obtain ⟨_, expands⟩ := expansion_as_promised_iff settings sample
  have promise := (expands sampleParts none divides).1.mpr (by simp)
  refine ⟨divides, String.toList_inj.mp (promise.trans ?_)⟩
  decide +kernel

/-- A reference that is left open gains a brace, although its variable is not set. -/
theorem open_reference_gains_brace : Divides "$\x7bA".toList [] (some ['A']) ∧
    expand (fun _ => none) "$\x7bA" = "$\x7bA\x7d" :=
  ⟨.left (by decide), by decide +kernel⟩

end

end FlowGraph.Environment

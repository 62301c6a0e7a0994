import Mathlib.Data.List.Nodup
import FlowGraph.Ident.Sequence

/-!
Identifiers that come from one sequence. Blanks at the ends of a text do not count, so two texts could become equal
when they are trimmed; they do not, because what follows the last dash of a text is its number, and no trimming
reaches it. The stem and the names of the kinds may be any texts, with dashes and digits of their own.
-/

namespace FlowGraph

namespace Text

theorem suffix_trimStartChars {text ending : List Char} {first : Char} (ends : first :: ending <:+ text)
    (visible : isBlank first = false) : first :: ending <:+ trimStartChars text := by
  obtain ⟨front, rfl⟩ := ends
  rw [trimStartChars, List.dropWhile_append]
  split
  · have kept : (first :: ending).dropWhile isBlank = first :: ending :=
      List.dropWhile_cons_of_neg (by simp [visible])
    exact ⟨[], kept.symm⟩
  · exact List.suffix_append _ _

theorem suffix_trimChars {text ending : List Char} {first last : Char} (ends : first :: ending ++ [last] <:+ text)
    (visible : isBlank first = false) (seen : isBlank last = false) :
    first :: ending ++ [last] <:+ trimChars text := by
  have kept : first :: ending ++ [last] <:+ trimStartChars text := suffix_trimStartChars ends visible
  have bare : trimStartChars (trimStartChars text).reverse = (trimStartChars text).reverse := by
    obtain ⟨front, same⟩ := kept
    rw [← same, ← List.append_assoc, List.reverse_concat, trimStartChars,
      List.dropWhile_cons_of_neg (by simp [seen])]
  rwa [trimChars, bare, List.reverse_reverse]

end Text

namespace IdSequence

inductive Request where
  | text (kind : String)
  | ident (kind : IdentKind)

namespace Request

def kindName : Request → String
  | text kind => kind
  | ident kind => kind.name

def answer : Request → IdSequence → Except Error String × IdSequence
  | text kind, ids => (.ok (ids.draw kind).1, (ids.draw kind).2)
  | ident kind, ids => ((ids.generate kind).1.map Ident.text, (ids.generate kind).2)

def shown : Request → String → String
  | text _, drawn => drawn
  | ident _, drawn => Text.trim drawn

end Request

def answers (ids : IdSequence) : List Request → List (Except Error String)
  | [] => []
  | request :: rest => (request.answer ids).1 :: (request.answer ids).2.answers rest

def numbered (stem kind : String) (number : Nat) : String := stem ++ "-" ++ kind ++ "-" ++ toString number

def texts (stem : String) (requests : List Request) : List String :=
  requests.mapIdx fun place request => request.shown (numbered stem request.kindName (place + 1))

/-- The last dash of a text and what follows it. -/
def numeral (number : Nat) : List Char := '-' :: Nat.toDigits 10 number

theorem isDigit_visible {c : Char} (digit : c.isDigit = true) : Text.isBlank c = false := by
  simp only [Char.isDigit, Bool.and_eq_true, decide_eq_true_eq, UInt32.le_iff_toNat_le] at digit
  have low : 48 ≤ c.toNat := digit.1
  have high : c.toNat ≤ 57 := digit.2
  simp only [Text.isBlank, Text.inRanges, Text.blankRanges, List.any_cons, List.any_nil, Bool.or_false,
    Bool.or_eq_false_iff, Bool.and_eq_false_iff, decide_eq_false_iff_not]
  omega

theorem isDigit_of_mem_digits {c : Char} {number : Nat} (member : c ∈ Nat.toDigits 10 number) : c.isDigit = true :=
  Nat.isDigit_of_mem_toDigits (by decide) (by decide) member

theorem dash_not_mem_digits (number : Nat) : '-' ∉ Nat.toDigits 10 number :=
  fun member => absurd (isDigit_of_mem_digits member) (by decide)

theorem numeral_suffix (stem kind : String) (number : Nat) :
    numeral number <:+ (Text.trim (numbered stem kind number)).toList := by
  obtain ⟨digits, last, split⟩ := (List.eq_nil_or_concat' (Nat.toDigits 10 number)).resolve_left Nat.toDigits_ne_nil
  have seen : Text.isBlank last = false :=
    isDigit_visible (isDigit_of_mem_digits (split ▸ List.mem_append_right _ List.mem_cons_self))
  have ends : '-' :: digits ++ [last] <:+ (numbered stem kind number).toList := by
    rw [List.cons_append, ← split]
    refine ⟨(stem ++ "-" ++ kind).toList, ?_⟩
    simp [numbered]
  have kept := Text.suffix_trimChars ends (by decide) seen
  rw [numeral, split]
  simpa [Text.trim] using kept

theorem digits_of_suffix {one other : Nat} (within : numeral one <:+ numeral other) :
    Nat.toDigits 10 one = Nat.toDigits 10 other := by
  rcases List.suffix_cons_iff.mp within with same | inside
  · exact (List.cons.inj same).2
  · exact absurd (inside.subset List.mem_cons_self) (dash_not_mem_digits other)

theorem number_unique {text : List Char} {one other : Nat} (ends : numeral one <:+ text)
    (ends' : numeral other <:+ text) : one = other := by
  have digits : Nat.toDigits 10 one = Nat.toDigits 10 other := by
    rcases List.suffix_or_suffix_of_suffix ends ends' with within | within
    · exact digits_of_suffix within
    · exact (digits_of_suffix within).symm
  calc
    one = Nat.ofDigitChars 10 (Nat.toDigits 10 one) 0 := Nat.ofDigitChars_ten_toDigits.symm
    _ = Nat.ofDigitChars 10 (Nat.toDigits 10 other) 0 := by rw [digits]
    _ = other := Nat.ofDigitChars_ten_toDigits

theorem number_of_trim_eq {stem stem' kind kind' : String} {one other : Nat}
    (same : Text.trim (numbered stem kind one) = Text.trim (numbered stem' kind' other)) : one = other :=
  number_unique (numeral_suffix stem kind one) (same ▸ numeral_suffix stem' kind' other)

theorem trim_shown (request : Request) (drawn : String) : Text.trim (request.shown drawn) = Text.trim drawn := by
  cases request with
  | text kind => rfl
  | ident kind => exact Text.trim_trim drawn

theorem ofText_numbered (kind : IdentKind) (stem : String) (number : Nat) :
    (Ident.ofText (numbered stem kind.name number) : Except Error (Ident kind)).map Ident.text =
      .ok (Text.trim (numbered stem kind.name number)) := by
  have visible : Text.trim (numbered stem kind.name number) ≠ "" := by
    intro blank
    have ends := numeral_suffix stem kind.name number
    rw [blank] at ends
    exact List.cons_ne_nil _ _ (List.suffix_nil.mp ends)
  simp only [Ident.ofText, Ident.ofText?, visible, ↓reduceDIte, Except.map]

theorem answer_eq (request : Request) (ids : IdSequence) :
    request.answer ids =
      (.ok (request.shown (numbered ids.stem request.kindName ids.next.toNat)), ⟨ids.stem, ids.next + 1⟩) := by
  cases request with
  | text kind => rfl
  | ident kind =>
      have made := ofText_numbered kind ids.stem ids.next.toNat
      have drawn : ids.draw kind.name = (numbered ids.stem kind.name ids.next.toNat, ⟨ids.stem, ids.next + 1⟩) := rfl
      simp only [Request.answer, generate, drawn, made]
      rfl

theorem answers_eq (requests : List Request) : ∀ ids : IdSequence, ids.next.toNat + requests.length ≤ UInt64.size →
    ids.answers requests = (requests.mapIdx fun place request =>
      request.shown (numbered ids.stem request.kindName (ids.next.toNat + place))).map .ok := by
  induction requests with
  | nil => exact fun _ _ => rfl
  | cons request rest ih =>
      intro ids few
      have behind : (⟨ids.stem, ids.next + 1⟩ : IdSequence).answers rest = (rest.mapIdx fun place request =>
          request.shown (numbered ids.stem request.kindName (ids.next.toNat + (place + 1)))).map .ok := by
        cases rest with
        | nil => rfl
        | cons second others =>
            have room : ids.next.toNat + 1 < UInt64.size := by
              simp only [List.length_cons] at few
              omega
            have next : (ids.next + 1).toNat = ids.next.toNat + 1 := by
              rw [UInt64.toNat_add]
              exact Nat.mod_eq_of_lt room
            rw [ih]
            · simp only [next, Nat.add_assoc, Nat.add_comm 1]
            · simp only [next, List.length_cons] at few ⊢
              omega
      rw [answers, answer_eq, behind, List.mapIdx_cons, List.map_cons]
      rfl

theorem nodup_trimmed_texts (stem : String) (requests : List Request) :
    ((texts stem requests).map Text.trim).Nodup := by
  rw [List.nodup_iff_injective_getElem]
  intro one other same
  simp only [texts, List.getElem_map, List.getElem_mapIdx, trim_shown] at same
  have numbers := number_of_trim_eq same
  exact Fin.ext (by omega)

/-- As long as the numbers last, every request to a new sequence is granted, in order from number one on, and no two
answers become equal even when they are trimmed, whatever kinds they are for. -/
theorem fresh_texts_differ (stem : String) (requests : List Request) (few : requests.length < UInt64.size) :
    (startingWith stem).answers requests = (texts stem requests).map .ok ∧
      ((texts stem requests).map Text.trim).Nodup := by
  refine ⟨?_, nodup_trimmed_texts stem requests⟩
  have room : (1 : UInt64).toNat + requests.length ≤ UInt64.size := by
    have first : (1 : UInt64).toNat = 1 := rfl
    omega
  rw [texts, answers_eq requests (startingWith stem) room]
  simp only [Nat.add_comm _ 1]
  rfl

section

/-- The stem is blank, and one kind looks like the text of another request. -/
def mixedRequests : List Request := [.text "edge-2", .ident .edge, .text "", .ident .edge]

theorem mixed_texts_differ :
    (startingWith "\t").answers mixedRequests =
        [.ok "\t-edge-2-1", .ok "-edge-2", .ok "\t--3", .ok "-edge-4"] ∧
      ((texts "\t" mixedRequests).map Text.trim).Nodup := by
  obtain ⟨granted, differ⟩ := fresh_texts_differ "\t" mixedRequests (by decide)
  have shown : texts "\t" mixedRequests = ["\t-edge-2-1", "-edge-2", "\t--3", "-edge-4"] := by decide +kernel
  rw [shown] at granted
  exact ⟨granted, differ⟩

end

end IdSequence
end FlowGraph

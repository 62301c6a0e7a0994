/-! Blank characters, in the sense of the Unicode property White_Space, and trimming them off a text. -/

namespace FlowGraph.Text

def blankRanges : List (Nat × Nat) :=
  [(0x09, 0x0D), (0x20, 0x20), (0x85, 0x85), (0xA0, 0xA0), (0x1680, 0x1680), (0x2000, 0x200A),
   (0x2028, 0x2029), (0x202F, 0x202F), (0x205F, 0x205F), (0x3000, 0x3000)]

def inRanges (ranges : List (Nat × Nat)) (code : Nat) : Bool :=
  ranges.any fun range => range.1 ≤ code && code ≤ range.2

def isBlank (c : Char) : Bool := inRanges blankRanges c.toNat

def trimStartChars (text : List Char) : List Char := text.dropWhile isBlank

def trimChars (text : List Char) : List Char :=
  (trimStartChars (trimStartChars text).reverse).reverse

def trim (text : String) : String := String.ofList (trimChars text.toList)

def allBlank (text : String) : Bool := text.toList.all isBlank

theorem allBlank_append (first second : String) :
    allBlank (first ++ second) = (allBlank first && allBlank second) := by
  simp [allBlank]

theorem dropWhile_eq_self_of_prefix {p : Char → Bool} {whole part rest : List Char}
    (split : whole = part ++ rest) (kept : whole.dropWhile p = whole) : part.dropWhile p = part := by
  cases part with
  | nil => rfl
  | cons first part =>
    subst split
    rw [List.cons_append, List.dropWhile_cons] at kept
    split at kept
    · have shorter := (List.dropWhile_suffix p (l := part ++ rest)).length_le
      rw [kept, List.length_cons] at shorter
      omega
    · rename_i stays
      rw [List.dropWhile_cons, if_neg stays]

theorem dropWhile_dropWhile (p : Char → Bool) (text : List Char) :
    (text.dropWhile p).dropWhile p = text.dropWhile p := by
  induction text with
  | nil => rfl
  | cons first rest ih =>
    rw [List.dropWhile_cons]
    split
    · exact ih
    · rename_i stays
      rw [List.dropWhile_cons, if_neg stays]

theorem trimChars_trimChars (text : List Char) : trimChars (trimChars text) = trimChars text := by
  have start : trimStartChars (trimChars text) = trimChars text := by
    obtain ⟨dropped, split⟩ := List.dropWhile_suffix isBlank (l := (trimStartChars text).reverse)
    have whole : trimStartChars text = trimChars text ++ dropped.reverse := by
      rw [trimChars, ← List.reverse_append]
      exact (List.reverse_eq_iff.mpr split.symm.symm).symm.trans (by simp [trimStartChars])
    exact dropWhile_eq_self_of_prefix whole (dropWhile_dropWhile isBlank text)
  rw [trimChars, start, trimChars, List.reverse_reverse]
  exact congrArg List.reverse (dropWhile_dropWhile isBlank _)

theorem trim_trim (text : String) : trim (trim text) = trim text := by
  simp [trim, trimChars_trimChars]

end FlowGraph.Text

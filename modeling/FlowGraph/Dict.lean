/-!
Finite tables kept in ascending order of their keys' texts. Each key occurs once, so two tables with
the same entries are equal, and listing a table always gives the same order.
-/

namespace FlowGraph

/-- A key is ordered by a text that determines it. Texts compare by code point. -/
class Key (κ : Type) where
  text : κ → String
  text_injective : ∀ {a b : κ}, text a = text b → a = b

instance : Key String := ⟨id, id⟩

structure Dict (κ α : Type) [Key κ] where
  entries : List (κ × α)
  ascending : entries.Pairwise fun a b => Key.text a.1 < Key.text b.1

namespace Dict
variable {κ α : Type} [Key κ]

theorem ext_entries {a b : Dict κ α} (same : a.entries = b.entries) : a = b := by
  cases a; cases b; cases same; rfl

instance [DecidableEq κ] [DecidableEq α] : DecidableEq (Dict κ α) := fun a b =>
  if same : a.entries = b.entries then .isTrue (ext_entries same)
  else .isFalse fun equal => same (congrArg entries equal)

def empty : Dict κ α := ⟨[], .nil⟩

instance : EmptyCollection (Dict κ α) := ⟨empty⟩
instance : Inhabited (Dict κ α) := ⟨empty⟩

def insertEntry (key : κ) (value : α) : List (κ × α) → List (κ × α)
  | [] => [(key, value)]
  | entry :: rest =>
    if Key.text key < Key.text entry.1 then (key, value) :: entry :: rest
    else if Key.text key = Key.text entry.1 then (key, value) :: rest
    else entry :: insertEntry key value rest

theorem fst_mem_insertEntry {key : κ} {value : α} {entries : List (κ × α)} {entry : κ × α}
    (member : entry ∈ insertEntry key value entries) : entry.1 = key ∨ entry ∈ entries := by
  induction entries with
  | nil => simp_all [insertEntry]
  | cons first rest ih =>
    unfold insertEntry at member
    split at member
    · simp only [List.mem_cons] at member ⊢
      rcases member with rfl | member
      · exact .inl rfl
      · exact .inr member
    split at member
    · simp only [List.mem_cons] at member ⊢
      rcases member with rfl | member
      · exact .inl rfl
      · exact .inr (.inr member)
    · simp only [List.mem_cons] at member ⊢
      rcases member with rfl | member
      · exact .inr (.inl rfl)
      · exact (ih member).imp id .inr

theorem ascending_insertEntry {key : κ} {value : α} {entries : List (κ × α)}
    (ascending : entries.Pairwise fun a b => Key.text a.1 < Key.text b.1) :
    (insertEntry key value entries).Pairwise fun a b => Key.text a.1 < Key.text b.1 := by
  induction entries with
  | nil => simp [insertEntry]
  | cons first rest ih =>
    have below : ∀ entry ∈ rest, Key.text first.1 < Key.text entry.1 :=
      fun _ member => List.rel_of_pairwise_cons ascending member
    unfold insertEntry
    split
    · rename_i less
      refine .cons ?_ ascending
      intro entry member
      rcases List.mem_cons.mp member with rfl | member
      · exact less
      · exact String.lt_trans less (below _ member)
    split
    · rename_i same
      refine .cons ?_ ascending.of_cons
      intro entry member
      simp only [same]
      exact below _ member
    · rename_i notLess notSame
      refine .cons ?_ (ih ascending.of_cons)
      intro entry member
      rcases fst_mem_insertEntry member with same | member
      · rw [same]
        have atMost := String.not_lt.mp notLess
        exact String.not_le.mp fun back => notSame (String.le_antisymm back atMost)
      · exact below _ member

def insert (table : Dict κ α) (key : κ) (value : α) : Dict κ α :=
  ⟨insertEntry key value table.entries, ascending_insertEntry table.ascending⟩

def erase (table : Dict κ α) (key : κ) : Dict κ α :=
  ⟨table.entries.filter fun entry => Key.text entry.1 != Key.text key, table.ascending.filter _⟩

def get? (table : Dict κ α) (key : κ) : Option α :=
  (table.entries.find? fun entry => Key.text entry.1 == Key.text key).map Prod.snd

def contains (table : Dict κ α) (key : κ) : Bool := (table.get? key).isSome

def keys (table : Dict κ α) : List κ := table.entries.map Prod.fst

def size (table : Dict κ α) : Nat := table.entries.length

def isEmpty (table : Dict κ α) : Bool := table.entries.isEmpty

def insertAll (table : Dict κ α) (entries : List (κ × α)) : Dict κ α :=
  entries.foldl (fun table entry => table.insert entry.1 entry.2) table

def ofList (entries : List (κ × α)) : Dict κ α := empty.insertAll entries

def union (first second : Dict κ α) : Dict κ α := first.insertAll second.entries

end Dict

end FlowGraph

import Mathlib.Data.List.Forall2
import Mathlib.Data.List.Sort
import FlowGraph.Dict

/-! Lookup laws of tables: what a key finds after insertions and in the union of two tables. -/

namespace FlowGraph.Dict
variable {κ α : Type} [Key κ]

def find (key : κ) (entries : List (κ × α)) : Option α :=
  (entries.find? fun entry => Key.text entry.1 == Key.text key).map Prod.snd

theorem find_cons_same {key : κ} {entry : κ × α} {rest : List (κ × α)}
    (same : Key.text entry.1 = Key.text key) : find key (entry :: rest) = some entry.2 := by
  simp [find, same]

theorem find_cons_other {key : κ} {entry : κ × α} {rest : List (κ × α)}
    (other : Key.text entry.1 ≠ Key.text key) : find key (entry :: rest) = find key rest := by
  simp [find, other]

theorem find_insertEntry_same (key : κ) (value : α) (entries : List (κ × α)) :
    find key (insertEntry key value entries) = some value := by
  induction entries with
  | nil => exact find_cons_same rfl
  | cons first rest ih =>
      simp only [insertEntry]
      split
      · exact find_cons_same rfl
      split
      · exact find_cons_same rfl
      · rename_i notSame
        rw [find_cons_other (Ne.symm notSame)]
        exact ih

theorem find_insertEntry_other {key other : κ} (different : Key.text key ≠ Key.text other)
    (value : α) (entries : List (κ × α)) :
    find other (insertEntry key value entries) = find other entries := by
  induction entries with
  | nil => exact find_cons_other different
  | cons first rest ih =>
      simp only [insertEntry]
      split
      · exact find_cons_other different
      split
      · rename_i same
        rw [find_cons_other different, find_cons_other (by rwa [← same])]
      · by_cases found : Key.text first.1 = Key.text other
        · rw [find_cons_same found, find_cons_same found]
        · rw [find_cons_other found, find_cons_other found, ih]

theorem get?_insert (table : Dict κ α) (key other : κ) (value : α) :
    (table.insert key value).get? other =
      if Key.text key = Key.text other then some value else table.get? other := by
  split
  · rename_i same
    rw [Key.text_injective same]
    exact find_insertEntry_same other value table.entries
  · rename_i different
    exact find_insertEntry_other different value table.entries

theorem find_filter (key erased : κ) (entries : List (κ × α)) :
    find key (entries.filter fun entry => Key.text entry.1 != Key.text erased) =
      if Key.text erased = Key.text key then none else find key entries := by
  induction entries with
  | nil => simp [find]
  | cons entry rest ih =>
      by_cases gone : Key.text entry.1 = Key.text erased
      · rw [List.filter_cons_of_neg (by simp [gone]), ih]
        split
        · rfl
        · rename_i other
          rw [find_cons_other (gone ▸ other)]
      · rw [List.filter_cons_of_pos (by simp [gone])]
        by_cases found : Key.text entry.1 = Key.text key
        · rw [find_cons_same found, find_cons_same found, if_neg fun same => gone (found.trans same.symm)]
        · rw [find_cons_other found, find_cons_other found, ih]

theorem get?_erase (table : Dict κ α) (erased key : κ) :
    (table.erase erased).get? key = if Key.text erased = Key.text key then none else table.get? key :=
  find_filter key erased table.entries

theorem find_rest_none {key : κ} {entry : κ × α} {rest : List (κ × α)}
    (ascending : (entry :: rest).Pairwise fun a b => Key.text a.1 < Key.text b.1)
    (same : Key.text entry.1 = Key.text key) : find key rest = none := by
  simp only [find, Option.map_eq_none_iff, List.find?_eq_none, beq_iff_eq]
  intro later member equal
  have above := List.rel_of_pairwise_cons ascending member
  rw [same, equal] at above
  exact String.lt_irrefl _ above

theorem get?_insertAll (entries : List (κ × α)) :
    ∀ table : Dict κ α, entries.Pairwise (fun a b => Key.text a.1 < Key.text b.1) →
      ∀ key, (table.insertAll entries).get? key = (find key entries <|> table.get? key) := by
  induction entries with
  | nil =>
      intro table _ key
      rfl
  | cons entry rest ih =>
      intro table ascending key
      have step := ih (table.insert entry.1 entry.2) ascending.of_cons key
      have unfolded : table.insertAll (entry :: rest) =
          (table.insert entry.1 entry.2).insertAll rest := rfl
      rw [unfolded, step, get?_insert]
      by_cases same : Key.text entry.1 = Key.text key
      · rw [find_rest_none ascending same, find_cons_same same, if_pos same]
        rfl
      · rw [find_cons_other same, if_neg same]

theorem mem_iff_find {key : κ} {value : α} {entries : List (κ × α)}
    (ascending : entries.Pairwise fun a b => Key.text a.1 < Key.text b.1) :
    (key, value) ∈ entries ↔ find key entries = some value := by
  induction entries with
  | nil => simp [find]
  | cons first rest ih =>
      have behind := ih ascending.of_cons
      by_cases same : Key.text first.1 = Key.text key
      · have absent : (key, value) ∉ rest := by
          rw [behind, find_rest_none ascending same]
          simp
        obtain ⟨known, held⟩ := first
        cases Key.text_injective same
        rw [find_cons_same rfl, List.mem_cons, or_iff_left absent, Prod.mk.injEq, Option.some.injEq]
        simp only [true_and, eq_comm]
      · have apart : (key, value) ≠ first := fun equal => same (equal ▸ rfl)
        rw [find_cons_other same, ← behind, List.mem_cons, or_iff_right apart]

theorem ext_get? {first second : Dict κ α} (same : ∀ key, first.get? key = second.get? key) :
    first = second := by
  have irreflexive : Std.Irrefl fun a b : κ × α => Key.text a.1 < Key.text b.1 := ⟨fun _ => String.lt_irrefl _⟩
  have antisymmetric : Std.Antisymm fun a b : κ × α => Key.text a.1 < Key.text b.1 :=
    ⟨fun _ _ less more => absurd more (String.lt_asymm less)⟩
  refine ext_entries (List.Pairwise.eq_of_mem_iff first.ascending second.ascending ?_)
  rintro ⟨key, value⟩
  rw [mem_iff_find first.ascending, mem_iff_find second.ascending]
  exact iff_of_eq (congrArg (· = some value) (same key))

theorem get?_union (first second : Dict κ α) (key : κ) :
    (first.union second).get? key = (second.get? key <|> first.get? key) :=
  get?_insertAll second.entries first second.ascending key

theorem find_append (key : κ) (first second : List (κ × α)) :
    find key (first ++ second) = (find key first <|> find key second) := by
  simp only [find, List.find?_append]
  cases first.find? fun entry => Key.text entry.1 == Key.text key <;> rfl

theorem get?_insertAll_reverse (entries : List (κ × α)) : ∀ (table : Dict κ α) (key : κ),
    (table.insertAll entries).get? key = (find key entries.reverse <|> table.get? key) := by
  induction entries with
  | nil => exact fun _ _ => rfl
  | cons entry rest ih =>
      intro table key
      have unfolded : table.insertAll (entry :: rest) =
          (table.insert entry.1 entry.2).insertAll rest := rfl
      rw [unfolded, ih, get?_insert, List.reverse_cons, find_append]
      by_cases same : Key.text entry.1 = Key.text key
      · rw [find_cons_same same, if_pos same]
        cases find key rest.reverse <;> rfl
      · rw [find_cons_other same, if_neg same]
        cases find key rest.reverse <;> rfl

theorem fst_mem_insertAll (entries : List (κ × α)) : ∀ {table : Dict κ α} {entry : κ × α},
    entry ∈ (table.insertAll entries).entries → entry.1 ∈ entries.map Prod.fst ∨ entry ∈ table.entries := by
  induction entries with
  | nil => exact fun member => .inr member
  | cons first rest ih =>
      intro table entry member
      have later : entry ∈ ((table.insert first.1 first.2).insertAll rest).entries := member
      rcases ih later with among | before
      · exact .inl (List.mem_cons_of_mem _ among)
      · rcases fst_mem_insertEntry before with same | old
        · exact .inl (same ▸ List.mem_cons_self)
        · exact .inr old

theorem insertEntry_above {key : κ} {entries : List (κ × α)} (value : α)
    (above : ∀ entry ∈ entries, Key.text entry.1 < Key.text key) :
    insertEntry key value entries = entries ++ [(key, value)] := by
  induction entries with
  | nil => rfl
  | cons first rest ih =>
      have below := above first List.mem_cons_self
      have apart : Key.text key ≠ Key.text first.1 := fun same => String.lt_irrefl _ (same ▸ below)
      rw [insertEntry, if_neg (String.lt_asymm below), if_neg apart,
        ih fun entry member => above entry (List.mem_cons_of_mem _ member), List.cons_append]

theorem entries_insertAll (entries : List (κ × α)) : ∀ table : Dict κ α,
    (table.entries ++ entries).Pairwise (fun a b => Key.text a.1 < Key.text b.1) →
      (table.insertAll entries).entries = table.entries ++ entries := by
  induction entries with
  | nil => exact fun table _ => (List.append_nil _).symm
  | cons entry rest ih =>
      intro table ascending
      have unfolded : table.insertAll (entry :: rest) =
          (table.insert entry.1 entry.2).insertAll rest := rfl
      have last : (table.insert entry.1 entry.2).entries = table.entries ++ [entry] :=
        insertEntry_above entry.2 fun before member =>
          (List.pairwise_append.mp ascending).2.2 before member entry List.mem_cons_self
      rw [List.append_cons] at ascending ⊢
      rw [unfolded, ih _ (last ▸ ascending), last]

theorem ofList_concat (entries : List (κ × α)) (key : κ) (value : α) :
    ofList (entries ++ [(key, value)]) = (ofList entries).insert key value := by
  simp [ofList, insertAll, List.foldl_append]

theorem ofList_entries (table : Dict κ α) : ofList table.entries = table :=
  ext_entries (entries_insertAll table.entries empty table.ascending)

theorem ofList_eq_iff {table : Dict κ α} {entries : List (κ × α)}
    (keys : entries.map Prod.fst = table.entries.map Prod.fst) :
    ofList entries = table ↔ entries = table.entries := by
  have ascending : entries.Pairwise fun a b => Key.text a.1 < Key.text b.1 := by
    have known := table.ascending
    rw [← List.pairwise_map (f := Prod.fst) (R := fun a b => Key.text a < Key.text b), ← keys,
      List.pairwise_map] at known
    exact known
  have kept : (ofList entries).entries = entries := entries_insertAll entries empty ascending
  constructor
  · intro same
    rw [← kept, same]
  · intro same
    rw [same, ofList_entries]

theorem insertEntry_of_find {key : κ} {value : α} {entries : List (κ × α)}
    (ascending : entries.Pairwise fun a b => Key.text a.1 < Key.text b.1)
    (found : find key entries = some value) : insertEntry key value entries = entries := by
  induction entries with
  | nil => cases found
  | cons first rest ih =>
      by_cases same : Key.text first.1 = Key.text key
      · rw [find_cons_same same] at found
        rw [insertEntry, if_neg (same ▸ String.lt_irrefl _), if_pos same.symm, ← Key.text_injective same,
          ← Option.some.inj found]
      · rw [find_cons_other same] at found
        have behind : ¬Key.text key < Key.text first.1 := by
          intro ahead
          obtain ⟨entry, first_, _⟩ := Option.map_eq_some_iff.mp found
          have here : Key.text entry.1 = Key.text key := by simpa using List.find?_some first_
          have above := List.rel_of_pairwise_cons ascending (List.mem_of_find?_eq_some first_)
          exact String.lt_irrefl _ (here ▸ String.lt_trans ahead above)
        rw [insertEntry, if_neg behind, if_neg (Ne.symm same), ih ascending.of_cons found]

theorem insert_of_get? {table : Dict κ α} {key : κ} {value : α} (found : table.get? key = some value) :
    table.insert key value = table :=
  ext_entries (insertEntry_of_find table.ascending found)

section
variable {β : Type} {rel : α → β → Prop}

def Alike (rel : α → β → Prop) (first : Dict κ α) (second : Dict κ β) : Prop :=
  List.Forall₂ (fun one other => one.1 = other.1 ∧ rel one.2 other.2) first.entries second.entries

theorem Alike.refl {rel : α → α → Prop} (reflexive : ∀ value, rel value value) (table : Dict κ α) :
    Alike rel table table :=
  List.forall₂_same.mpr fun entry _ => ⟨rfl, reflexive entry.2⟩

theorem forall₂_insertEntry {entries : List (κ × α)} {others : List (κ × β)}
    (alike : List.Forall₂ (fun one other => one.1 = other.1 ∧ rel one.2 other.2) entries others) (key : κ)
    {value : α} {other : β} (related : rel value other) :
    List.Forall₂ (fun one other => one.1 = other.1 ∧ rel one.2 other.2) (insertEntry key value entries)
      (insertEntry key other others) := by
  induction alike with
  | nil => exact .cons ⟨rfl, related⟩ .nil
  | cons first rest ih =>
      simp only [insertEntry, ← first.1]
      split
      · exact .cons ⟨rfl, related⟩ (.cons first rest)
      split
      · exact .cons ⟨rfl, related⟩ rest
      · exact .cons first ih

theorem Alike.insert {first : Dict κ α} {second : Dict κ β} (alike : Alike rel first second) (key : κ)
    {value : α} {other : β} (related : rel value other) :
    Alike rel (first.insert key value) (second.insert key other) :=
  forall₂_insertEntry alike key related

theorem find_alike {entries : List (κ × α)} {others : List (κ × β)}
    (alike : List.Forall₂ (fun one other => one.1 = other.1 ∧ rel one.2 other.2) entries others) (key : κ) :
    Option.Rel rel (find key entries) (find key others) := by
  induction alike with
  | nil => exact .none
  | @cons entry _ _ _ first _ ih =>
      by_cases same : Key.text entry.1 = Key.text key
      · rw [find_cons_same same, find_cons_same (first.1 ▸ same)]
        exact .some first.2
      · rw [find_cons_other same, find_cons_other (first.1 ▸ same)]
        exact ih

theorem Alike.get? {first : Dict κ α} {second : Dict κ β} (alike : Alike rel first second) (key : κ) :
    Option.Rel rel (first.get? key) (second.get? key) :=
  find_alike alike key

theorem not_lt_of_known (key : κ) {first : κ} {value : α} {rest : List (κ × α)}
    (ascending : ((first, value) :: rest).Pairwise fun a b => Key.text a.1 < Key.text b.1)
    (known : find key ((first, value) :: rest) ≠ none) : ¬Key.text key < Key.text first := by
  intro ahead
  by_cases same : Key.text first = Key.text key
  · exact String.lt_irrefl _ (same ▸ ahead)
  · rw [find_cons_other same, find, Ne, Option.map_eq_none_iff, List.find?_eq_none] at known
    refine known fun entry member => ?_
    have above := String.lt_trans ahead (List.rel_of_pairwise_cons ascending member)
    exact fun found => String.lt_irrefl _ (beq_iff_eq.mp found ▸ above)

theorem forall₂_of_find {entries : List (κ × α)} : ∀ {others : List (κ × β)},
    entries.Pairwise (fun a b => Key.text a.1 < Key.text b.1) →
      others.Pairwise (fun a b => Key.text a.1 < Key.text b.1) →
        (∀ key, Option.Rel rel (find key entries) (find key others)) →
          List.Forall₂ (fun one other => one.1 = other.1 ∧ rel one.2 other.2) entries others := by
  induction entries with
  | nil =>
      intro others _ _ related
      cases others with
      | nil => exact .nil
      | cons other _ =>
          have here := related other.1
          rw [find_cons_same rfl] at here
          cases here
  | cons entry rest ih =>
      intro others ascending ascending' related
      cases others with
      | nil =>
          have here := related entry.1
          rw [find_cons_same rfl] at here
          cases here
      | cons other others =>
          have here := related entry.1
          have there := related other.1
          rw [find_cons_same rfl] at here there
          have notLess := not_lt_of_known entry.1 ascending' fun absent => by rw [absent] at here; cases here
          have notMore := not_lt_of_known other.1 ascending fun absent => by rw [absent] at there; cases there
          have same : Key.text entry.1 = Key.text other.1 :=
            String.le_antisymm (String.not_lt.mp notMore) (String.not_lt.mp notLess)
          rw [find_cons_same same.symm] at here
          cases here with
          | some values =>
              refine .cons ⟨Key.text_injective same, values⟩ (ih ascending.of_cons ascending'.of_cons fun key => ?_)
              by_cases found : Key.text entry.1 = Key.text key
              · rw [find_rest_none ascending found, find_rest_none ascending' (same ▸ found)]
                exact .none
              · have behind := related key
                rwa [find_cons_other found, find_cons_other (same ▸ found)] at behind

theorem alike_iff_get? {first : Dict κ α} {second : Dict κ β} :
    Alike rel first second ↔ ∀ key, Option.Rel rel (first.get? key) (second.get? key) :=
  ⟨Alike.get?, forall₂_of_find first.ascending second.ascending⟩
end

end FlowGraph.Dict

import FlowGraph.Json.Record
import FlowGraph.Proofs.Dict

/-!
When a value loads. A record loads from the parts that its fields take from one of its two layouts; lists, tables
and optional values load from what is written for them if their items do.
-/

namespace FlowGraph.Json
variable {α β : Type}

def Layout.part? (name : String) (place : Nat) : Layout → Option Json
  | .named fields => lookup name fields
  | .listed items => items[place]?

def layout? : Json → Option Layout
  | .object fields => some (.named fields)
  | .array items => some (.listed items)
  | _ => none

def part? (name : String) (place : Nat) (json : Json) : Option Json := json.layout?.bind (·.part? name place)

theorem part?_of_layout {json : Json} {layout : Layout} (found : json.layout? = some layout) (name : String)
    (place : Nat) : json.part? name place = layout.part? name place := by
  rw [part?, found, Option.bind_some]

theorem lookup_eq_find (name : String) (fields : List (String × Json)) :
    lookup name fields = Dict.find name fields := by
  induction fields with
  | nil => rfl
  | cons field rest ih =>
      unfold lookup
      split
      · rename_i same
        exact (Dict.find_cons_same same).symm
      · rename_i other
        rw [Dict.find_cons_other other, ih]

theorem lookup_ofList (name : String) (fields : List (String × Json)) :
    lookup name (Dict.ofList fields).entries = lookup name fields.reverse := by
  rw [lookup_eq_find, lookup_eq_find]
  refine (Dict.get?_insertAll_reverse fields .empty name).trans ?_
  cases Dict.find name fields.reverse <;> rfl

theorem Layout.part?_ofList (name : String) (place : Nat) (parts : List (String × Json)) :
    (Layout.named (Dict.ofList parts).entries).part? name place = lookup name parts.reverse :=
  lookup_ofList name parts

theorem part?_ofFields (name : String) (place : Nat) (parts : List (String × Json)) :
    (ofFields parts).part? name place = lookup name parts.reverse :=
  Layout.part?_ofList name place parts

namespace Fields
variable {f : Fields (α → β)} {x : Fields α} {start : Nat} {layout : Layout}

@[simp] theorem count_map (g : α → β) (x : Fields α) : (g <$> x).count = x.count := rfl

@[simp] theorem count_seq (f : Fields (α → β)) (x : Fields α) : (f <*> x).count = f.count + x.count := rfl

@[simp] theorem count_field (name : String) (absence : Absence α) (load : Load α) :
    (field name absence load).count = 1 := rfl

theorem read_map {g : α → β} {value : β} :
    (g <$> x).read start layout = .ok value ↔ ∃ part, x.read start layout = .ok part ∧ g part = value := by
  show (x.read start layout).map g = .ok value ↔ _
  cases x.read start layout with
  | error fault => simp [Except.map]
  | ok part => simp [Except.map]

theorem read_seq {value : β} :
    (f <*> x).read start layout = .ok value ↔
      ∃ make part, f.read start layout = .ok make ∧ x.read (start + f.count) layout = .ok part ∧
        make part = value := by
  show (f.apply x).read start layout = .ok value ↔ _
  simp only [apply]
  cases f.read start layout with
  | error fault => cases x.read (start + f.count) layout <;> simp
  | ok make => cases x.read (start + f.count) layout <;> simp

theorem placed_eq_ok {place : Nat} {loaded : Except String α} {value : α} :
    placed place loaded = .ok value ↔ loaded = .ok value := by
  cases loaded <;> simp [placed]

theorem read_required {name : String} {load : Load α} {value : α} :
    (required name load).read start layout = .ok value ↔
      ∃ json, layout.part? name start = some json ∧ load json = .ok value := by
  cases layout with
  | named fields =>
      simp only [required, field, Layout.part?]
      cases lookup name fields with
      | none => simp [missing]
      | some json => simp [placed_eq_ok]
  | listed items =>
      simp only [required, field, Layout.part?]
      cases items[start]? with
      | none => simp
      | some json => simp [placed_eq_ok]

theorem read_defaulted {name : String} {load : Load α} {otherwise value : α} :
    (defaulted name otherwise load).read start layout = .ok value ↔
      (∃ json, layout.part? name start = some json ∧ load json = .ok value) ∨
        (layout.part? name start = none ∧ otherwise = value) := by
  cases layout with
  | named fields =>
      simp only [defaulted, field, Layout.part?]
      cases lookup name fields with
      | none => simp [missing]
      | some json => simp [placed_eq_ok]
  | listed items =>
      simp only [defaulted, field, Layout.part?]
      cases items[start]? with
      | none => simp
      | some json => simp [placed_eq_ok]

theorem read_of_part {name : String} {absence : Absence α} {load : Load α} {value : α} {json : Json}
    (found : layout.part? name start = some json) (loads : load json = .ok value) :
    (field name absence load).read start layout = .ok value := by
  cases layout with
  | named fields =>
      simp only [Layout.part?] at found
      simp only [field, found, placed_eq_ok, loads]
  | listed items =>
      simp only [Layout.part?] at found
      simp only [field, found, placed_eq_ok, loads]

end Fields

theorem mapError_eq_ok {ε δ : Type} {f : ε → δ} {loaded : Except ε α} {value : α} :
    loaded.mapError f = .ok value ↔ loaded = .ok value := by
  cases loaded <;> simp [Except.mapError]

theorem loadRecord_ofFields {exact : Bool} {fields : Fields α} {parts : List (String × Json)} {value : α}
    (loads : fields.read 0 (.named (Dict.ofList parts).entries) = .ok value) :
    loadRecord exact fields (ofFields parts) = .ok value := by
  simp only [loadRecord, ofFields, loads, Except.mapError]

theorem layout_of_loadRecord {exact : Bool} {fields : Fields α} {json : Json} {value : α}
    (loads : loadRecord exact fields json = .ok value) :
    ∃ layout, json.layout? = some layout ∧ fields.read 0 layout = .ok value := by
  unfold loadRecord at loads
  split at loads
  · rename_i entries
    exact ⟨.named entries, rfl, mapError_eq_ok.mp loads⟩
  · rename_i items
    refine ⟨.listed items, rfl, ?_⟩
    cases read : fields.read 0 (.listed items) with
    | error fault =>
        rw [read] at loads
        cases loads
    | ok part =>
        simp only [read, Except.mapError, bind, Except.bind, pure, Except.pure] at loads
        split at loads
        · cases loads
        · cases loads
          rfl
  · cases loads

theorem loadNat_ofNat {n : Nat} (small : n < wordLimit) : loadNat (ofNat n) = .ok n := by
  have fits : (0 : Int) ≤ n ∧ (n : Int) ≤ wordLimit - 1 := by omega
  simp [loadNat, loadInt, ofNat, fits, Except.map]

theorem loadOption_ofOption {load : Load α} {write : α → Json} {value : Option α}
    (reads : ∀ part, value = some part → write part ≠ .null ∧ load (write part) = .ok part) :
    loadOption load (ofOption write value) = .ok value := by
  cases value with
  | none => rfl
  | some part =>
      obtain ⟨present, loads⟩ := reads part rfl
      simp only [ofOption]
      unfold loadOption
      split
      · contradiction
      · rw [loads]
        rfl

theorem mapM_map_ok {ε : Type} {load : β → Except ε α} {write : α → β} {items : List α}
    (loads : ∀ item ∈ items, load (write item) = .ok item) : (items.map write).mapM load = .ok items := by
  induction items with
  | nil => rfl
  | cons item rest ih =>
      have first := loads item List.mem_cons_self
      have others := ih fun other member => loads other (List.mem_cons_of_mem _ member)
      simp only [List.map_cons, List.mapM_cons, first, others, bind, Except.bind, pure, Except.pure]

theorem loadList_map {load : Load α} {write : α → Json} {items : List α}
    (reads : ∀ item ∈ items, load (write item) = .ok item) :
    loadList load (.array (items.map write)) = .ok items :=
  mapM_map_ok reads

theorem loadDict_entries {κ : Type} [Key κ] {key : String → Except String κ} {load : Load α}
    (name : κ → String) (write : α → Json) {table : Dict κ α}
    (reads : ∀ entry ∈ table.entries, key (name entry.1) = .ok entry.1 ∧ load (write entry.2) = .ok entry.2) :
    loadDict key load (.object (table.entries.map fun entry => (name entry.1, write entry.2))) = .ok table := by
  simp only [loadDict]
  rw [mapM_map_ok]
  · exact congrArg Except.ok table.ofList_entries
  · intro entry member
    obtain ⟨known, loads⟩ := reads entry member
    simp only [known, loads, bind, Except.bind, pure, Except.pure]

end FlowGraph.Json

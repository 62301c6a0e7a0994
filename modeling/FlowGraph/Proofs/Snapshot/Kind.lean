import FlowGraph.Proofs.Json.Items
import FlowGraph.Proofs.Number.Binary32
import FlowGraph.Snapshot.Kind

/-!
Kinds have tags of their own, and a value of a kind has a form that may or may not be read as that value again. What
is lost is lost through `null`: it is the form of all numbers that are not finite, and of an optional value that is
absent. So a value lasts if its numbers are finite and nothing in it is there only to look absent.
-/

namespace FlowGraph

theorem IntKind.tag_injective {a b : IntKind} (same : a.tag = b.tag) : a = b := by
  cases a <;> cases b <;> first | rfl | exact absurd same (by decide)

theorem take_append (count : Nat) {first behind : String} (long : count ≤ first.toList.length) :
    (first ++ behind).toList.take count = first.toList.take count := by
  rw [String.toList_append, List.take_append_of_le_length long]

namespace NameKind

theorem read_text {kind : NameKind} (name : kind.Value) : kind.read (Key.text name) = some name := by
  cases kind with
  | string => rfl
  | bool => cases name <;> decide
  | int width =>
      have known : Bounded.number (Key.text name) = name.value := Bounded.number_toString name.value
      have canonical : toString name.value = Key.text name := rfl
      rw [read, known, if_pos (.inl canonical), Bounded.ofInt?, dif_pos ⟨name.low_le, name.le_high⟩]
  | char =>
      have letters : (Key.text name).toList = [name] := String.toList_singleton name
      rw [read, letters]

def ofOpening : List Char → NameKind
  | ['b', 'o', 'o'] => bool
  | ['c', 'h', 'a'] => char
  | ['i', '8', ','] => int .i8
  | ['i', '1', '6'] => int .i16
  | ['i', '3', '2'] => int .i32
  | ['i', '6', '4'] => int .i64
  | ['i', '1', '2'] => int .i128
  | ['i', 's', 'i'] => int .isize
  | ['u', '8', ','] => int .u8
  | ['u', '1', '6'] => int .u16
  | ['u', '3', '2'] => int .u32
  | ['u', '6', '4'] => int .u64
  | ['u', '1', '2'] => int .u128
  | ['u', 's', 'i'] => int .usize
  | _ => string

theorem ofOpening_tag (kind : NameKind) : ofOpening ((kind.tag ++ ", ").toList.take 3) = kind := by
  cases kind with
  | int width => cases width <;> decide +kernel
  | _ => decide +kernel

theorem take_tag_append (kind : NameKind) (behind : String) :
    (kind.tag ++ ", " ++ behind).toList.take 3 = (kind.tag ++ ", ").toList.take 3 := by
  apply take_append
  cases kind with
  | int width => cases width <;> decide +kernel
  | _ => decide +kernel

theorem take_tag_ne_pair (kind : NameKind) : (kind.tag ++ ", ").toList.take 3 ≠ ['(', 'i', '6'] := by
  intro bracket
  have kept := kind.ofOpening_tag
  rw [bracket] at kept
  subst kept
  exact absurd bracket (by decide +kernel)

end NameKind

namespace Kind

inductive Shape where
  | text
  | flag
  | integer
  | number
  | single
  | letter
  | sequence
  | optional
  | table
  | data

def shape : Kind → Shape
  | string => .text
  | bool => .flag
  | int _ => .integer
  | float => .number
  | single => .single
  | char => .letter
  | list _ => .sequence
  | option _ => .optional
  | map _ _ | pairMap => .table
  | json => .data

def opening : Kind → String
  | string => "alloc::st"
  | bool => "bool"
  | int width => width.tag
  | float => "f64"
  | single => "f32"
  | char => "char"
  | list _ => "alloc::ve"
  | option _ => "core::opt"
  | map _ _ | pairMap => "alloc::co"
  | json => "serde_jso"

def Shape.ofOpening : String → Shape
  | "alloc::st" => .text
  | "bool" => .flag
  | "f64" => .number
  | "f32" => .single
  | "char" => .letter
  | "alloc::ve" => .sequence
  | "core::opt" => .optional
  | "alloc::co" => .table
  | "serde_jso" => .data
  | _ => .integer

theorem ofOpening_opening (kind : Kind) : Shape.ofOpening kind.opening = kind.shape := by
  cases kind with
  | int width => cases width <;> rfl
  | _ => rfl

theorem tag_list (item : Kind) : (list item).tag = "alloc::vec::Vec<" ++ (item.tag ++ ">") :=
  String.append_assoc

theorem tag_option (item : Kind) : (option item).tag = "core::option::Option<" ++ (item.tag ++ ">") :=
  String.append_assoc

theorem tag_map (name : NameKind) (item : Kind) : (map name item).tag =
    "alloc::collections::btree::map::BTreeMap<" ++ (name.tag ++ ", " ++ (item.tag ++ ">")) := by
  show "alloc::collections::btree::map::BTreeMap<" ++ name.tag ++ ", " ++ item.tag ++ ">" = _
  simp only [String.append_assoc]

theorem tag_pairMap : pairMap.tag = "alloc::collections::btree::map::BTreeMap<" ++ "(i64, i64), i64>" := by
  show "alloc::collections::btree::map::BTreeMap<(i64, i64), i64>" = _
  decide +kernel

theorem take_tag (kind : Kind) : kind.tag.toList.take 9 = kind.opening.toList := by
  cases kind with
  | int width => cases width <;> decide +kernel
  | list item =>
      rw [tag_list, take_append 9 (by decide +kernel)]
      show _ = "alloc::ve".toList
      decide +kernel
  | option item =>
      rw [tag_option, take_append 9 (by decide +kernel)]
      show _ = "core::opt".toList
      decide +kernel
  | map name item =>
      rw [tag_map, take_append 9 (by decide +kernel)]
      show _ = "alloc::co".toList
      decide +kernel
  | _ => decide +kernel

theorem shape_of_tag {a b : Kind} (same : a.tag = b.tag) : a.shape = b.shape := by
  have openings : a.opening = b.opening := by
    rw [← String.toList_inj, ← take_tag, ← take_tag, same]
  rw [← ofOpening_opening, openings, ofOpening_opening]

theorem tag_map_ne_pairMap (name : NameKind) (item : Kind) : (map name item).tag ≠ pairMap.tag := by
  intro same
  rw [tag_map, tag_pairMap, String.append_right_inj] at same
  apply name.take_tag_ne_pair
  rw [← name.take_tag_append (item.tag ++ ">"), same]
  decide +kernel

theorem name_of_tag_map {name other : NameKind} {item part : Kind}
    (same : (map name item).tag = (map other part).tag) :
    name = other := by
  rw [tag_map, tag_map, String.append_right_inj] at same
  have letters : (name.tag ++ ", ").toList.take 3 = (other.tag ++ ", ").toList.take 3 := by
    rw [← name.take_tag_append (item.tag ++ ">"), same, other.take_tag_append]
  rw [← name.ofOpening_tag, letters, other.ofOpening_tag]

theorem tag_injective {a b : Kind} (same : a.tag = b.tag) : a = b := by
  have shapes := shape_of_tag same
  induction a generalizing b with
  | list item ih =>
      cases b with
      | list other =>
          rw [tag_list, tag_list, String.append_right_inj, String.append_left_inj] at same
          rw [ih same (shape_of_tag same)]
      | _ => cases shapes
  | option item ih =>
      cases b with
      | option other =>
          rw [tag_option, tag_option, String.append_right_inj, String.append_left_inj] at same
          rw [ih same (shape_of_tag same)]
      | _ => cases shapes
  | map name item ih =>
      cases b with
      | map other part =>
          obtain rfl := name_of_tag_map same
          rw [tag_map, tag_map, String.append_right_inj, String.append_right_inj, String.append_left_inj] at same
          rw [ih same (shape_of_tag same)]
      | pairMap => exact absurd same (tag_map_ne_pairMap name item)
      | _ => cases shapes
  | pairMap =>
      cases b with
      | map other part => exact absurd same.symm (tag_map_ne_pairMap other part)
      | pairMap => rfl
      | _ => cases shapes
  | int width =>
      cases b with
      | int other => rw [IntKind.tag_injective same]
      | _ => cases shapes
  | _ =>
      cases b with
      | _ => first | rfl | cases shapes

/-- Whether a value has a form at all: its integers have at most 64 bits, and its tables of pairs are empty. -/
def isWritable : (kind : Kind) → kind.Value → Bool
  | int _, value => IntKind.i64.low ≤ value.value && value.value ≤ IntKind.u64.high
  | list item, values => values.all item.isWritable
  | option item, some value => item.isWritable value
  | map _ item, table => table.entries.all fun entry => item.isWritable entry.2
  | pairMap, table => table.entries.isEmpty
  | _, _ => true

def isBlank : (kind : Kind) → kind.Value → Bool
  | float, x => !x.isFinite
  | single, x => !x.isFinite
  | option _, none => true
  | option item, some value => item.isBlank value
  | json, .null => true
  | _, _ => false

/-- Whether all numbers of a value are finite, and no optional part of it is present with the form of an absent
one. -/
def lasts : (kind : Kind) → kind.Value → Bool
  | float, x => x.isFinite
  | single, x => x.isFinite
  | list item, values => values.all item.lasts
  | option item, some value => item.lasts value && !item.isBlank value
  | map _ item, table => table.entries.all fun entry => item.lasts entry.2
  | _, _ => true

theorem encode_succeeds_iff (kind : Kind) (value : kind.Value) :
    (∃ form, kind.encode value = .ok form) ↔ kind.isWritable value = true := by
  induction kind with
  | int width =>
      simp only [encode, isWritable, Bool.and_eq_true, decide_eq_true_eq]
      split
      · rename_i fits
        exact ⟨fun _ => fits, fun _ => ⟨_, rfl⟩⟩
      · rename_i large
        simp [large]
  | list item ih =>
      simp only [encode, isWritable, Json.map_succeeds_iff, Json.mapM_succeeds_iff, ih, List.all_eq_true]
  | option item ih =>
      cases value with
      | none => simp [encode, isWritable]
      | some value => exact ih value
  | map name item ih =>
      simp only [encode, isWritable, Json.map_succeeds_iff, Json.mapM_succeeds_iff, ih, List.all_eq_true]
  | pairMap => cases empty : value.entries.isEmpty <;> simp [encode, isWritable, empty]
  | _ => simp [encode, isWritable]

theorem error_of_encode {kind : Kind} {value : kind.Value} {fault : Error}
    (fails : kind.encode value = .error fault) :
    ∃ text, fault = .json text := by
  induction kind with
  | int width =>
      simp only [encode] at fails
      split at fails <;> cases fails
      exact ⟨_, rfl⟩
  | list item ih =>
      obtain ⟨part, _, same⟩ := Json.error_of_mapM (Json.map_eq_error_iff.mp fails)
      exact ih same
  | option item ih =>
      cases value with
      | none => cases fails
      | some value => exact ih fails
  | map name item ih =>
      obtain ⟨part, _, same⟩ := Json.error_of_mapM (Json.map_eq_error_iff.mp fails)
      exact ih (Json.map_eq_error_iff.mp same)
  | pairMap =>
      simp only [encode] at fails
      split at fails <;> cases fails
      exact ⟨_, rfl⟩
  | _ => cases fails

theorem form_eq_null_iff {kind : Kind} {value : kind.Value} {form : Json} (written : kind.encode value = .ok form) :
    form = .null ↔ kind.isBlank value = true := by
  induction kind with
  | int width =>
      simp only [encode] at written
      split at written <;> cases written
      simp [isBlank]
  | float =>
      cases written
      cases finite : value.isFinite <;> simp [Json.ofFloat, isBlank, finite]
  | single =>
      cases written
      have wide : value.widen.isFinite = value.isFinite := rfl
      cases finite : value.isFinite <;> simp [Json.ofFloat, isBlank, wide, finite]
  | list item ih =>
      obtain ⟨forms, _, rfl⟩ := Json.map_eq_ok_iff.mp written
      simp [isBlank]
  | option item ih =>
      cases value with
      | none =>
          cases written
          simp [isBlank]
      | some value => exact ih written
  | map name item ih =>
      obtain ⟨fields, _, rfl⟩ := Json.map_eq_ok_iff.mp written
      simp [isBlank]
  | pairMap =>
      simp only [encode] at written
      split at written <;> cases written
      simp [isBlank]
  | json =>
      cases written
      cases form <;> simp [isBlank]
  | _ =>
      cases written
      simp [isBlank]

theorem decode_option {item : Kind} {form : Json} (present : form ≠ .null) :
    (option item).decode form = (item.decode form).map some := by
  cases form <;> first | contradiction | rfl

/-- The form of a value is read as that value just if the value lasts. -/
theorem decode_iff_lasts {kind : Kind} {value : kind.Value} {form : Json} (written : kind.encode value = .ok form) :
    kind.decode form = some value ↔ kind.lasts value = true := by
  induction kind generalizing form with
  | int width =>
      simp only [encode] at written
      split at written <;> cases written
      simp [decode, lasts, Bounded.ofInt?, value.low_le, value.le_high]
  | float =>
      cases written
      cases finite : value.isFinite <;> simp [Json.ofFloat, decode, lasts, finite, Json.toFloat?]
  | single =>
      cases written
      have wide : value.widen.isFinite = value.isFinite := rfl
      cases finite : value.isFinite with
      | false => simp [Json.ofFloat, wide, finite, decode, lasts]
      | true => simp [Json.ofFloat, wide, finite, decode, lasts, Binary32.narrow_widen finite]
  | char =>
      cases written
      simp [decode, lasts]
  | list item ih =>
      obtain ⟨forms, each, rfl⟩ := Json.map_eq_ok_iff.mp written
      exact Json.mapM_reads_back_iff each fun part form same => ih same
  | option item ih =>
      cases value with
      | none =>
          cases written
          simp [decode, lasts]
      | some value =>
          have blank : form = .null ↔ item.isBlank value = true := form_eq_null_iff written
          by_cases absent : form = .null
          · simp [lasts, absent, decode, blank.mp absent]
          · have present : item.isBlank value = false := by simpa [absent] using blank
            rw [decode_option absent, Option.map_eq_some_iff]
            simp [lasts, present, ← ih written]
  | map name item ih =>
      obtain ⟨fields, each, rfl⟩ := Json.map_eq_ok_iff.mp written
      exact Json.fields_read_back_iff NameKind.read_text each fun part form same => ih same
  | pairMap =>
      simp only [encode] at written
      split at written <;> cases written
      rename_i empty
      cases value
      simp_all [decode, lasts]
  | _ =>
      cases written
      simp [decode, lasts]

end Kind

end FlowGraph

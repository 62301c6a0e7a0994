import FlowGraph.Error
import FlowGraph.Number.DecimalText
import FlowGraph.Number.Integer
import FlowGraph.Text.Quoted

/-!
The kinds of values a context holds. A kind has a tag, a form as JSON, a reader for that form, an
equality and a description.
-/

namespace FlowGraph

instance : Key Bool where
  text := toString
  text_injective := by decide

instance : Key Char where
  text := String.singleton
  text_injective same := by simpa using congrArg String.toList same

/-- The kinds of names that the entries of a table have. In the form of a table a name is its text. -/
inductive NameKind where
  | string
  | bool
  | int (width : IntKind)
  | char
  deriving DecidableEq

namespace NameKind

@[reducible]
def Value : NameKind → Type
  | string => String
  | bool => Bool
  | int width => Bounded width
  | char => Char

instance key : (kind : NameKind) → Key kind.Value
  | string => inferInstanceAs (Key String)
  | bool => inferInstanceAs (Key Bool)
  | int width => inferInstanceAs (Key (Bounded width))
  | char => inferInstanceAs (Key Char)

def tag : NameKind → String
  | string => "alloc::string::String"
  | bool => "bool"
  | int width => width.tag
  | char => "char"

/-- The name that a text stands for. An integer has one text only, but a minus may stand before the zero of the
widest signed ones. -/
def read : (kind : NameKind) → String → Option kind.Value
  | string, text => some text
  | bool, text => if text = "true" then some true else if text = "false" then some false else none
  | int width, text =>
    if toString (Bounded.number text) = text ∨ width = .i128 ∧ text = "-0" then Bounded.ofInt? (Bounded.number text)
    else none
  | char, text =>
    match text.toList with
    | [value] => some value
    | _ => none

def describe : (kind : NameKind) → kind.Value → String
  | string, value => Text.quoted value
  | bool, value => toString value
  | int _, value => toString value.value
  | char, value => Text.quotedLetter value

/-- The entries in the order of their names. Only that of integers is another one than that of their texts. -/
def sorted {α : Type} : (kind : NameKind) → List (kind.Value × α) → List (kind.Value × α)
  | int _, entries => entries.mergeSort fun a b => decide (a.1.value ≤ b.1.value)
  | _, entries => entries

end NameKind

structure PairMap where
  entries : List ((Int × Int) × Int)
  deriving DecidableEq

namespace PairMap

def below (a b : Int × Int) : Bool := a.1 < b.1 || (a.1 == b.1 && a.2 < b.2)

def insertEntry (key : Int × Int) (value : Int) :
    List ((Int × Int) × Int) → List ((Int × Int) × Int)
  | [] => [(key, value)]
  | entry :: rest =>
    if below key entry.1 then (key, value) :: entry :: rest
    else if key = entry.1 then (key, value) :: rest
    else entry :: insertEntry key value rest

def ofList (entries : List ((Int × Int) × Int)) : PairMap :=
  ⟨entries.foldl (fun table entry => insertEntry entry.1 entry.2 table) []⟩

end PairMap

inductive Kind where
  | string
  | bool
  | int (width : IntKind)
  | float
  | single
  | char
  | list (item : Kind)
  | option (item : Kind)
  | map (name : NameKind) (item : Kind)
  | pairMap
  | json

namespace Kind

@[reducible]
def Value : Kind → Type
  | string => String
  | bool => Bool
  | int width => Bounded width
  | float => Binary64
  | single => Binary32
  | char => Char
  | list item => List item.Value
  | option item => Option item.Value
  | map name item => Dict name.Value item.Value
  | pairMap => PairMap
  | json => Json

def tag : Kind → String
  | string => "alloc::string::String"
  | bool => "bool"
  | int width => width.tag
  | float => "f64"
  | single => "f32"
  | char => "char"
  | list item => "alloc::vec::Vec<" ++ item.tag ++ ">"
  | option item => "core::option::Option<" ++ item.tag ++ ">"
  | map name item =>
    "alloc::collections::btree::map::BTreeMap<" ++ name.tag ++ ", " ++ item.tag ++ ">"
  | pairMap => "alloc::collections::btree::map::BTreeMap<(i64, i64), i64>"
  | json => "serde_json::value::Value"

/-- The form of a value as JSON. The fields of an object have texts for names, so a table of pairs has
no form unless it is empty; nor has an integer beyond 64 bits. Numbers that are not finite have no form of
their own. -/
def encode : (kind : Kind) → kind.Value → Except Error Json
  | string, value => .ok (.string value)
  | bool, value => .ok (.bool value)
  | int _, value =>
    if IntKind.i64.low ≤ value.value ∧ value.value ≤ IntKind.u64.high then .ok (.int value.value)
    else .error (.json "number out of range")
  | float, value => .ok (.ofFloat value)
  | single, value => .ok (.ofFloat value.widen)
  | char, value => .ok (.string (String.singleton value))
  | list item, values => (values.mapM item.encode).map .array
  | option _, none => .ok .null
  | option item, some value => item.encode value
  | map _ item, table =>
    (table.entries.mapM fun entry => (item.encode entry.2).map fun form => (Key.text entry.1, form)).map
      .object
  | pairMap, table => if table.entries.isEmpty then .ok (.object []) else .error (.json "key must be a string")
  | json, value => .ok value

def decode : (kind : Kind) → Json → Option kind.Value
  | string, .string value => some value
  | bool, .bool value => some value
  | int _, .int value => Bounded.ofInt? value
  | float, form => form.toFloat?
  | single, .int value => some (.ofInt value)
  | single, .float value => some (.narrow value)
  | char, .string text =>
    match text.toList with
    | [value] => some value
    | _ => none
  | list item, .array forms => forms.mapM item.decode
  | option _, .null => some none
  | option item, form => (item.decode form).map some
  | map name item, .object fields =>
    (fields.mapM fun field =>
      (name.read field.1).bind fun key => (item.decode field.2).map fun value => (key, value)).map
      Dict.ofList
  | pairMap, .object [] => some ⟨[]⟩
  | json, form => some form
  | _, _ => none

def sameList {α : Type} (same : α → α → Bool) : List α → List α → Bool
  | [], [] => true
  | a :: as, b :: bs => same a b && sameList same as bs
  | _, _ => false

def same : (kind : Kind) → kind.Value → kind.Value → Bool
  | string, a, b => a == b
  | bool, a, b => a == b
  | int _, a, b => a == b
  | float, a, b => a.same b
  | single, a, b => a.same b
  | char, a, b => a == b
  | list item, a, b => sameList item.same a b
  | option _, none, none => true
  | option item, some a, some b => item.same a b
  | option _, _, _ => false
  | map _ item, a, b =>
    sameList (fun a b => Key.text a.1 == Key.text b.1 && item.same a.2 b.2) a.entries b.entries
  | pairMap, a, b => a == b
  | json, a, b => a.same b

def listed (texts : List String) : String := ", ".intercalate texts

def bracketed (texts : List String) : String := "[" ++ listed texts ++ "]"

def braced (texts : List String) : String := "\x7b" ++ listed texts ++ "\x7d"

mutual

def describeJson : Json → String
  | .null => "Null"
  | .bool value => "Bool(" ++ toString value ++ ")"
  | .int value => "Number(" ++ toString value ++ ")"
  | .float value => "Number(" ++ DecimalStyle.data.text value ++ ")"
  | .string value => "String(" ++ Text.quoted value ++ ")"
  | .array items => "Array " ++ bracketed (describeItems items)
  | .object fields => "Object " ++ braced (describeFields fields)

def describeItems : List Json → List String
  | [] => []
  | item :: rest => describeJson item :: describeItems rest

def describeFields : List (String × Json) → List String
  | [] => []
  | (name, value) :: rest => (Text.quoted name ++ ": " ++ describeJson value) :: describeFields rest

end

def describe : (kind : Kind) → kind.Value → String
  | string, value => Text.quoted value
  | bool, value => toString value
  | int _, value => toString value.value
  | float, value => DecimalStyle.described.text value
  | single, value => DecimalStyle.described.text32 value
  | char, value => Text.quotedLetter value
  | list item, values => bracketed (values.map item.describe)
  | option _, none => "None"
  | option item, some value => "Some(" ++ item.describe value ++ ")"
  | map name item, table =>
    braced ((name.sorted table.entries).map fun entry => name.describe entry.1 ++ ": " ++ item.describe entry.2)
  | pairMap, table =>
    braced (table.entries.map fun entry =>
      "(" ++ toString entry.1.1 ++ ", " ++ toString entry.1.2 ++ "): " ++ toString entry.2)
  | json, value => describeJson value

end Kind

end FlowGraph

import FlowGraph.Toml.Text

/-!
The tables of a TOML document while it is read. A table may be declared once. Until then headers below it
may bring it about and add tables to it; a table that a dotted key brings about takes more entries by
dotted keys only.
-/

namespace FlowGraph.Toml

inductive Origin where
  | declared
  | implied
  | dotted
  deriving DecidableEq

inductive Item where
  | value (value : Json)
  | table (origin : Origin) (entries : List (String × Item))
  | series (earlier : List (List (String × Item))) (latest : List (String × Item))

abbrev Entries := List (String × Item)

mutual

def Item.toJson : Item → Json
  | .value value => value
  | .table _ entries => .ofFields (fieldsOf entries)
  | .series earlier latest => .array (tablesOf earlier ++ [.ofFields (fieldsOf latest)])

def fieldsOf : List (String × Item) → List (String × Json)
  | [] => []
  | (name, item) :: rest => (name, item.toJson) :: fieldsOf rest

def tablesOf : List (List (String × Item)) → List Json
  | [] => []
  | entries :: rest => .ofFields (fieldsOf entries) :: tablesOf rest

end

namespace Entries

def alter (name : String) (change : Option Item → Option Item) : Entries → Option Entries
  | [] => (change none).map fun item => [(name, item)]
  | (other, item) :: rest =>
    if other = name then (change (some item)).map fun item => (name, item) :: rest
    else (alter name change rest).map ((other, item) :: ·)

/-- Changes the entries of the table at the end of a path and brings about the tables on the way. A path
within a dotted key must not lead into declared tables. -/
def within (dotted : Bool) (change : Origin → Entries → Option Entries) :
    (path : List String) → Origin → Entries → Option Entries
  | [], origin, entries => change origin entries
  | name :: path, _, entries =>
    entries.alter name fun
      | none =>
        let origin := if dotted then .dotted else .implied
        (within dotted change path origin []).map (.table origin)
      | some (.table origin entries) =>
        if dotted && origin = .declared then none
        else (within dotted change path origin entries).map (.table origin)
      | some (.series earlier latest) =>
        (within dotted change path .declared latest).map (.series earlier)
      | some (.value _) => none

/-- Enters a value under a key that is not taken. Tables that a dotted key leads to must have come about
by dotted keys. -/
def assign (key : KeyPath) (value : Json) (entries : Entries) : Option Entries :=
  entries.within true
    (fun origin entries =>
      if key.tables.isEmpty || origin = .dotted then
        entries.alter key.name fun
          | none => some (.value value)
          | some _ => none
      else none)
    key.tables .declared

def declare (header : KeyPath) (entries : Entries) : Option Entries :=
  entries.within false
    (fun _ entries => entries.alter header.name fun
      | none => some (.table .declared [])
      | some (.table .implied entries) => some (.table .declared entries)
      | some _ => none)
    header.tables .declared

/-- Declares one more table of a series. -/
def extend (header : KeyPath) (entries : Entries) : Option Entries :=
  entries.within false
    (fun _ entries => entries.alter header.name fun
      | none => some (.series [] [])
      | some (.series earlier latest) => some (.series (earlier ++ [latest]) [])
      | some _ => none)
    header.tables .declared

end Entries

end FlowGraph.Toml

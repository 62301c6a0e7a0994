import FlowGraph.Toml.Number
import FlowGraph.Toml.Table

/-! Reading TOML documents as JSON objects. -/

namespace FlowGraph.Toml

abbrev ReadValue := List Char → Option (Json × List Char)

def readItems (value : ReadValue) : (budget : Nat) → List Char → Option (List Json × List Char)
  | 0, _ => none
  | budget + 1, text =>
    match skipGap false text with
    | ']' :: rest => some ([], rest)
    | text => do
      let (item, text) ← value text
      match skipGap false text with
      | ',' :: rest =>
        let (items, rest) ← readItems value budget rest
        some (item :: items, rest)
      | ']' :: rest => some ([item], rest)
      | _ => none

def readAssignment (value : ReadValue) (text : List Char) :
    Option (KeyPath × Json × List Char) := do
  let (key, text) ← readKey (depthLimit - 1) text
  match text with
  | '=' :: rest =>
    let (item, rest) ← value (skipBlanks rest)
    some (key, item, rest)
  | _ => none

def readAssignments (value : ReadValue) :
    (budget : Nat) → Entries → List Char → Option (Entries × List Char)
  | 0, _, _ => none
  | budget + 1, entries, text => do
    let (key, item, text) ← readAssignment value text
    let entries ← entries.assign key item
    match skipBlanks text with
    | ',' :: rest => readAssignments value budget entries rest
    | '\x7d' :: rest => some (entries, rest)
    | _ => none

def readValue (nesting : Nat) (text : List Char) : Option (Json × List Char) :=
  match text with
  | '"' :: rest => (readString '"' rest).map fun (value, rest) => (.string value, rest)
  | '\'' :: rest => (readString '\'' rest).map fun (value, rest) => (.string value, rest)
  | '[' :: rest =>
    match nesting with
    | 0 => none
    | nesting + 1 =>
      (readItems (readValue nesting) (rest.length + 1) rest).map fun (items, rest) =>
        (.array items, rest)
  | '\x7b' :: rest =>
    match nesting with
    | 0 => none
    | nesting + 1 =>
      match skipBlanks rest with
      | '\x7d' :: rest => some (.object [], rest)
      | _ =>
        (readAssignments (readValue nesting) (rest.length + 1) [] rest).map
          fun (entries, rest) => (.ofFields (fieldsOf entries), rest)
  | 't' :: 'r' :: 'u' :: 'e' :: rest => some (.bool true, rest)
  | 'f' :: 'a' :: 'l' :: 's' :: 'e' :: rest => some (.bool false, rest)
  | _ => readNumber text

/-- A document as far as it is read: its entries, and the table that assignments go to. -/
structure Document where
  entries : Entries
  current : List String

def Document.assign (document : Document) (key : KeyPath) (value : Json) : Option Document :=
  (document.entries.within false (fun _ entries => entries.assign key value) document.current
    .declared).map fun entries => { document with entries }

def Document.readHeader (document : Document) : List Char → Option (Document × List Char)
  | '[' :: '[' :: text => do
    let (header, text) ← readKey (depthLimit - 1) text
    match text with
    | ']' :: ']' :: rest =>
      let entries ← document.entries.extend header
      some (⟨entries, header.tables ++ [header.name]⟩, rest)
    | _ => none
  | '[' :: text => do
    let (header, text) ← readKey (depthLimit - 1) text
    match text with
    | ']' :: rest =>
      let entries ← document.entries.declare header
      some (⟨entries, header.tables ++ [header.name]⟩, rest)
    | _ => none
  | _ => none

def Document.readStatement (document : Document) (text : List Char) :
    Option (Document × List Char) :=
  match text with
  | '#' :: _ | '\n' :: _ | '\r' :: _ => some (document, text)
  | '[' :: _ => document.readHeader text
  | _ => do
    let (key, value, text) ← readAssignment (readValue (depthLimit - 1)) text
    some (← document.assign key value, text)

def Document.readAll (document : Document) : (budget : Nat) → List Char → Option Document
  | 0, _ => none
  | budget + 1, text =>
    match skipBlanks text with
    | [] => some document
    | text => do
      let (document, text) ← document.readStatement text
      document.readAll budget (← endLine text)

/-- The object that a whole text stands for. A byte order mark at its beginning does not count. -/
def read (text : String) : Option Json :=
  let text :=
    match text.toList with
    | '\ufeff' :: rest => rest
    | text => text
  ((Document.mk [] []).readAll (text.length + 1) text).map fun document =>
    .ofFields (fieldsOf document.entries)

end FlowGraph.Toml

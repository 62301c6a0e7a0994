import FlowGraph.Snapshot.Kind

/-!
The context of a workflow: named values next to its payload. A value is kept as JSON with the tag of
its kind, so a key of another kind does not find it. Every change gives a new context.
-/

namespace FlowGraph

/-- A key fixes the kind of the value that may stand under its name. -/
structure ContextKey (kind : Kind) where
  name : String

def ContextKey.describe {kind : Kind} (key : ContextKey kind) : String :=
  "ContextKey \x7b name: " ++ Text.quoted key.name ++ ", type: " ++ Text.quoted kind.tag ++ " \x7d"

namespace Context

structure Entry where
  tag : String
  value : Json

def Entry.same (a b : Entry) : Bool := a.tag == b.tag && a.value.same b.value

def Entry.toJson (entry : Entry) : Json :=
  .ofFields [("type", .string entry.tag), ("value", entry.value)]

def Entry.load : Json.Load Entry :=
  Json.loadRecord true <|
    Entry.mk <$> Json.required "type" Json.loadString <*> Json.required "value" Json.loadJson

end Context

structure Context where
  entries : Dict String Context.Entry

namespace Context

def empty : Context := ⟨.empty⟩

instance : EmptyCollection Context := ⟨empty⟩
instance : Inhabited Context := ⟨empty⟩

/-- The value under a key, if it was written by a key of the same kind and is still of that kind. -/
def get {kind : Kind} (context : Context) (key : ContextKey kind) : Option kind.Value := do
  let entry ← context.entries.get? key.name
  if entry.tag = kind.tag then kind.decode entry.value else none

def getRaw (context : Context) (name : String) : Option Json :=
  (context.entries.get? name).map Entry.value

def put {kind : Kind} (context : Context) (key : ContextKey kind) (value : kind.Value) :
    Except Error Context := do
  let form ← kind.encode value
  pure ⟨context.entries.insert key.name ⟨kind.tag, form⟩⟩

def remove (context : Context) (name : String) : Context := ⟨context.entries.erase name⟩

def merge (context updates : Context) : Context := ⟨context.entries.union updates.entries⟩

def contains (context : Context) (name : String) : Bool := context.entries.contains name

def keys (context : Context) : List String := context.entries.keys

def size (context : Context) : Nat := context.entries.size

def isEmpty (context : Context) : Bool := context.entries.isEmpty

def same (a b : Context) : Bool :=
  Kind.sameList (fun a b => a.1 == b.1 && a.2.same b.2) a.entries.entries b.entries.entries

def entriesJson (context : Context) : Json :=
  .object (context.entries.entries.map fun entry => (entry.1, entry.2.toJson))

def toJson (context : Context) : Json := .ofFields [("entries", context.entriesJson)]

def load : Json.Load Context :=
  Json.loadRecord true (mk <$> Json.required "entries" (Json.loadDict .ok Entry.load))

end Context

end FlowGraph

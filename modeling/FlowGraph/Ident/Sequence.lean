import FlowGraph.Error

/-!
Fresh identifiers: a stem, the kind of thing that is named, and a running number. The number has 64 bits and
begins again at zero behind the last one.
-/

namespace FlowGraph

structure IdSequence where
  stem : String
  next : UInt64

namespace IdSequence

def startingWith (stem : String) : IdSequence := ⟨stem, 1⟩

instance : Inhabited IdSequence := ⟨startingWith "skein"⟩

def draw (kind : String) (ids : IdSequence) : String × IdSequence :=
  (ids.stem ++ "-" ++ kind ++ "-" ++ toString ids.next, ⟨ids.stem, ids.next + 1⟩)

def generate (kind : IdentKind) (ids : IdSequence) : Except Error (Ident kind) × IdSequence :=
  let (text, rest) := ids.draw kind.name
  (Ident.ofText text, rest)

end IdSequence

end FlowGraph

import FlowGraph.Proofs.Snapshot.Persistence

/-!
Suspended runs survive being stored. The only thing taken for granted is that the stamps of the instants can be
read again.
-/

namespace FlowGraph

section
def draftNode : NodeId := ⟨"draft", by decide +kernel, by decide⟩
def finalNode : NodeId := ⟨"final", by decide +kernel, by decide⟩

def morning : Instant := ⟨1577934245, 500000000⟩
def evening : Instant := ⟨1577970000, 0⟩

/-- A run that has gone from a draft to its final form and waits there for a day. -/
def stored : Suspension Json where
  id := "approval"
  reason := "somebody has to look at this"
  timeout := some ⟨86400, 5, by decide⟩
  snapshot :=
    { workflow := ⟨"writing", by decide +kernel, by decide⟩
      data := .array [.null, .float ⟨0x3FF0000000000000⟩]
      context := ⟨.ofList [("asked", ⟨"bool", .bool true⟩)]⟩
      position := some ((Position.start draftNode).traverse ⟨"to final", by decide +kernel, by decide⟩ finalNode
        morning)
      revision := (Revision.first morning).advance evening }

end

end FlowGraph

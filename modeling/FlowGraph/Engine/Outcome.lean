import FlowGraph.Graph.Node.Command

/-! How runs and branches end. -/

namespace FlowGraph

/-- A paused run. Its snapshot can be kept and resumed later. -/
structure Suspension (S : Type) where
  id : String
  reason : String
  timeout : Option Span
  snapshot : Snapshot S

/-- The end of one loop. Only a branch ends by joining. -/
inductive Outcome (S : Type) where
  | completed (snapshot : Snapshot S)
  | suspended (suspension : Suspension S)
  | failed (error : Error) (snapshot : Option (Snapshot S))
  | joined (node : NodeId) (policy : WaitPolicy) (timeout : Option Span) (snapshot : Snapshot S)

inductive Result (S O : Type) where
  | success (output : O) (snapshot : Snapshot S)
  | suspended (suspension : Suspension S)
  | failure (error : Error) (snapshot : Option (Snapshot S))

def Result.snapshot? {S O : Type} : Result S O → Option (Snapshot S)
  | .success _ snapshot => some snapshot
  | .suspended suspension => some suspension.snapshot
  | .failure _ snapshot => snapshot

namespace Span

def toJson (span : Span) : Json :=
  .ofFields [("secs", .ofNat span.seconds), ("nanos", .ofNat span.nanos)]

def loadNanos (json : Json) : Except String Nat :=
  (Json.loadInt 0 (0xFFFFFFFF) json).map Int.toNat

def loadParts : Json.Load (Nat × Nat) :=
  Json.loadRecord true <|
    Prod.mk <$> Json.required "secs" Json.loadNat <*> Json.required "nanos" loadNanos

def load (json : Json) : Except String Span := do
  if let .object fields := json then
    if fields.any fun field => field.1 != "secs" && field.1 != "nanos" then Json.mismatch
  let (seconds, nanos) ← loadParts json
  match ofParts? seconds nanos with
  | some span => .ok span
  | none => Json.mismatch

end Span

namespace Suspension
variable {S : Type}

def toJson (stamp : Instant → String) (data : S → Json) (suspension : Suspension S) : Json :=
  .ofFields
    [("suspension_id", .string suspension.id), ("reason", .string suspension.reason),
     ("timeout", Json.ofOption Span.toJson suspension.timeout),
     ("state", suspension.snapshot.toJson stamp data)]

def load (data : Json.Load S) : Json.Load (Suspension S) :=
  Json.loadRecord true <|
    mk <$> Json.required "suspension_id" Json.loadString
      <*> Json.required "reason" Json.loadString
      <*> Json.defaulted "timeout" none (Json.loadOption Span.load)
      <*> Json.required "state" (Snapshot.load data)

end Suspension

end FlowGraph

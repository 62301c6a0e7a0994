import FlowGraph.Config.Source
import FlowGraph.Json.Writer
import FlowGraph.Script.Reader.Graph
import FlowGraph.Proofs.Abandoned
import FlowGraph.Proofs.Adjacency
import FlowGraph.Proofs.Assembly
import FlowGraph.Proofs.Bookkeeping
import FlowGraph.Proofs.Brackets
import FlowGraph.Proofs.CommandEffects
import FlowGraph.Proofs.ConditionalFork
import FlowGraph.Proofs.Containment
import FlowGraph.Proofs.ContextConditions
import FlowGraph.Proofs.EdgeMetadata
import FlowGraph.Proofs.Expansion
import FlowGraph.Proofs.ForkStrategies
import FlowGraph.Proofs.FreshIdentifiers
import FlowGraph.Proofs.Guards
import FlowGraph.Proofs.History
import FlowGraph.Proofs.InsideGraph
import FlowGraph.Proofs.JoinDeadline
import FlowGraph.Proofs.JoinOrder
import FlowGraph.Proofs.LastWriter
import FlowGraph.Proofs.Lifecycle
import FlowGraph.Proofs.MergingContexts
import FlowGraph.Proofs.Mishaps
import FlowGraph.Proofs.Modifiers
import FlowGraph.Proofs.Monitors
import FlowGraph.Proofs.Persistence
import FlowGraph.Proofs.Provenance
import FlowGraph.Proofs.Resume
import FlowGraph.Proofs.Resumption
import FlowGraph.Proofs.Revisions
import FlowGraph.Proofs.Termination
import FlowGraph.Proofs.Traversal
import FlowGraph.Proofs.TypedKeys
import FlowGraph.Proofs.Unreachable

import TypedWorkflow.CommandLine.Run
import TypedWorkflow.Main
import TypedWorkflow.Proofs.Graph.PredecessorTypes
import TypedWorkflow.Proofs.Schema.Position
import TypedWorkflow.Proofs.Schema.Construction
import TypedWorkflow.Proofs.Node.InputForms
import TypedWorkflow.Proofs.Node.Invocation
import TypedWorkflow.Proofs.Node.Memory
import TypedWorkflow.Proofs.Workflow.RepeatedIds
import TypedWorkflow.Proofs.Workflow.Report
import TypedWorkflow.Proofs.Workflow.Levels
import TypedWorkflow.Proofs.Catalog.Consistency
import TypedWorkflow.Proofs.Workflow.Deprecation
import TypedWorkflow.Proofs.Workflow.Definition
import TypedWorkflow.Proofs.Graph.TopologicalOrder
import TypedWorkflow.Proofs.Schema.Grammar
import TypedWorkflow.Proofs.Json.Document
import TypedWorkflow.Proofs.Schema.RoundTrip
import TypedWorkflow.Proofs.Decoding
import TypedWorkflow.Proofs.Workflow.RoundTrip
import TypedWorkflow.Proofs.Schema.FaultPaths
import TypedWorkflow.Proofs.Node.Primitive
import TypedWorkflow.Proofs.Workflow.NestedLevels
import TypedWorkflow.Proofs.Graph.Construction
import TypedWorkflow.Proofs.CommandLine.Report
import TypedWorkflow.Proofs.Workflow.Sources
import TypedWorkflow.Proofs.Workflow.AcceptedLevels
import TypedWorkflow.Proofs.Workflow.Reordering
import TypedWorkflow.Proofs.Graph.Instantiation
import TypedWorkflow.Proofs.Json.Reading
import TypedWorkflow.Proofs.Schema.Readers
import TypedWorkflow.Proofs.Schema.Widening
import TypedWorkflow.Proofs.Schema.Spelling
import TypedWorkflow.Proofs.Schema.Fields
import TypedWorkflow.Proofs.Workflow.Parents
import TypedWorkflow.Proofs.Schema.Undeclared
import TypedWorkflow.Proofs.Catalog.Loaders
import TypedWorkflow.Proofs.Catalog.Requests
import TypedWorkflow.Proofs.Schema.RootPath
import TypedWorkflow.Proofs.Catalog.Exactness
import TypedWorkflow.Proofs.Graph.Neighbors
import TypedWorkflow.Proofs.Node.Variant
import TypedWorkflow.Proofs.Node.PrimitiveConfig

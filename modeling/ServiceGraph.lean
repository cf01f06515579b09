import ServiceGraph.Capability.Basic
import ServiceGraph.Capability.Manifest
import ServiceGraph.CommandLine.Arguments
import ServiceGraph.CommandLine.Outcome
import ServiceGraph.CommandLine.Request
import ServiceGraph.CommandLine.Run
import ServiceGraph.CommandLine.Screen
import ServiceGraph.Compiler
import ServiceGraph.Definition
import ServiceGraph.Disk.Basic
import ServiceGraph.Disk.FileTree
import ServiceGraph.Document.Basic
import ServiceGraph.Document.Part
import ServiceGraph.Entry.Basic
import ServiceGraph.Entry.Fault
import ServiceGraph.Extension
import ServiceGraph.Failure
import ServiceGraph.Graph.Basic
import ServiceGraph.Graph.Export
import ServiceGraph.Graph.Inheritance
import ServiceGraph.Json.Basic
import ServiceGraph.Json.Number
import ServiceGraph.Json.Printer
import ServiceGraph.Json.Reader
import ServiceGraph.Json.Token
import ServiceGraph.Loader
import ServiceGraph.Locator.Basic
import ServiceGraph.Locator.InMemory
import ServiceGraph.Locator.OnDisk
import ServiceGraph.Main
import ServiceGraph.Number.Binary64
import ServiceGraph.Number.Digits
import ServiceGraph.Number.Extended
import ServiceGraph.Number.Integer64
import ServiceGraph.Number.Shortest
import ServiceGraph.OrderedMap
import ServiceGraph.Path
import ServiceGraph.Placeholder
import ServiceGraph.Proofs.Aliases
import ServiceGraph.Proofs.Building
import ServiceGraph.Proofs.Callables
import ServiceGraph.Proofs.Capabilities
import ServiceGraph.Proofs.CompilationFailures
import ServiceGraph.Proofs.Construction
import ServiceGraph.Proofs.DepthFirst
import ServiceGraph.Proofs.EntryGrammar
import ServiceGraph.Proofs.EntryOrder
import ServiceGraph.Proofs.Export
import ServiceGraph.Proofs.ExtensionStage
import ServiceGraph.Proofs.FailureKinds
import ServiceGraph.Proofs.Inheritance
import ServiceGraph.Proofs.JsonEquality
import ServiceGraph.Proofs.Layering
import ServiceGraph.Proofs.Loading.Additions
import ServiceGraph.Proofs.Loading.AppendOnly
import ServiceGraph.Proofs.Loading.Balance
import ServiceGraph.Proofs.Loading.Bookkeeping
import ServiceGraph.Proofs.Loading.Completeness
import ServiceGraph.Proofs.Loading.Cycles
import ServiceGraph.Proofs.Loading.DepthFirstMerge
import ServiceGraph.Proofs.Loading.EntriesSet
import ServiceGraph.Proofs.Loading.Equation
import ServiceGraph.Proofs.Loading.Files
import ServiceGraph.Proofs.Loading.IgnoredImports
import ServiceGraph.Proofs.Loading.ImportOrder
import ServiceGraph.Proofs.Loading.Invariants
import ServiceGraph.Proofs.Loading.Loadable
import ServiceGraph.Proofs.Loading.Machine
import ServiceGraph.Proofs.Loading.Run
import ServiceGraph.Proofs.MemoryLookup
import ServiceGraph.Proofs.OrderedMap
import ServiceGraph.Proofs.Placeholder.Expansion
import ServiceGraph.Proofs.References
import ServiceGraph.Proofs.UnusableManifests
import ServiceGraph.Proofs.Wiring.Bindings
import ServiceGraph.Proofs.Wiring.Effect
import ServiceGraph.Proofs.Wiring.Lookups
import ServiceGraph.Proofs.Wiring.Refusals
import ServiceGraph.Reference
import ServiceGraph.Settings.Basic
import ServiceGraph.Settings.KeyPath
import ServiceGraph.Settings.Layer
import ServiceGraph.Settings.Setting
import ServiceGraph.Settings.Sources
import ServiceGraph.Settings.Typed
import ServiceGraph.Text.Blank
import ServiceGraph.Text.Case
import ServiceGraph.Text.Hidden
import ServiceGraph.Text.Quoted
import ServiceGraph.Text.Utf8
import ServiceGraph.Toml.Basic
import ServiceGraph.Toml.Draft
import ServiceGraph.Toml.Moment
import ServiceGraph.Toml.Printer
import ServiceGraph.Toml.Reader
import ServiceGraph.Toml.Scalar
import ServiceGraph.Toml.Token
import ServiceGraph.Value
import ServiceGraph.Wiring

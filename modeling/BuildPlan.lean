import BuildPlan.AlsoMake
import BuildPlan.Command.Invocation
import BuildPlan.Command.Options
import BuildPlan.Command.Run
import BuildPlan.Command.Terminal
import BuildPlan.Coordinate
import BuildPlan.Decimal.Floating
import BuildPlan.Decimal.Shortest
import BuildPlan.Digraph.Basic
import BuildPlan.Digraph.Cycle
import BuildPlan.Digraph.Order
import BuildPlan.Digraph.Reach
import BuildPlan.Distinct
import BuildPlan.Fault
import BuildPlan.Main
import BuildPlan.Plan
import BuildPlan.Planning.Build
import BuildPlan.Planning.Journal
import BuildPlan.Planning.Selection
import BuildPlan.Position
import BuildPlan.Precedence
import BuildPlan.Project
import BuildPlan.Proofs.Digraph.BuildOrder
import BuildPlan.Proofs.Digraph.FirstCycle
import BuildPlan.Proofs.Digraph.Path
import BuildPlan.Proofs.Digraph.Reachability
import BuildPlan.Proofs.Digraph.Walk
import BuildPlan.Proofs.Planning.Companions
import BuildPlan.Proofs.Planning.Contents
import BuildPlan.Proofs.Planning.Course
import BuildPlan.Proofs.Planning.Resumption
import BuildPlan.Proofs.Planning.Stages
import BuildPlan.Proofs.Planning.Verdict
import BuildPlan.Proofs.Planning.Wanted
import BuildPlan.Proofs.Precedence
import BuildPlan.Proofs.Reactor.Gathering
import BuildPlan.Proofs.Reactor.Narrowing
import BuildPlan.Proofs.Reactor.Resolution
import BuildPlan.Proofs.Standing
import BuildPlan.Reactor.Basic
import BuildPlan.Reactor.Narrow
import BuildPlan.Reactor.Resolve
import BuildPlan.Request
import BuildPlan.Selector
import BuildPlan.Settings.Descriptor
import BuildPlan.Settings.Document
import BuildPlan.Settings.Lexeme
import BuildPlan.Settings.Moment
import BuildPlan.Settings.Outline
import BuildPlan.Settings.Pieces
import BuildPlan.Settings.Record
import BuildPlan.Settings.Scalar
import BuildPlan.Settings.Value
import BuildPlan.Text.Blank
import BuildPlan.Text.ControlSequence
import BuildPlan.Text.Hex
import BuildPlan.Text.JsonString
import BuildPlan.Text.Printable
import BuildPlan.Text.Quoted
import BuildPlan.Workspace.FileTree
import BuildPlan.Workspace.Load
import BuildPlan.Workspace.Path
import BuildPlan.Proofs.Planning.Discovery
import BuildPlan.Proofs.Planning.Spelling
import BuildPlan.Proofs.Planning.Queries
import BuildPlan.Proofs.Workspace.Modules
import BuildPlan.Proofs.Workspace.Directories
import BuildPlan.Proofs.Workspace.Identity
import BuildPlan.Proofs.Workspace.Report
import BuildPlan.Proofs.Digraph.TieBreak
import BuildPlan.Proofs.Digraph.Entries
import BuildPlan.Proofs.Digraph.Leaf
import BuildPlan.Proofs.Growth
import BuildPlan.Proofs.Links
import BuildPlan.Proofs.Planning.Answers
import BuildPlan.Proofs.Reactor.Preorder
import BuildPlan.Proofs.Reactor.Renarrowing
import BuildPlan.Proofs.Reactor.Fitting
import BuildPlan.Proofs.Reactor.PathKey
import BuildPlan.Proofs.Workspace.Addresses
import BuildPlan.Proofs.Text
import BuildPlan.Proofs.Options
import BuildPlan.Proofs.Workspace.Listing
import BuildPlan.Proofs.Rounds
import BuildPlan.Proofs.Digraph.Spread
import BuildPlan.Proofs.Digraph.Colours

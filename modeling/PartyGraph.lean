import PartyGraph.Agent.Basic
import PartyGraph.Agent.Error
import PartyGraph.Driver.Basic
import PartyGraph.Driver.Binding
import PartyGraph.Driver.Registry
import PartyGraph.Error
import PartyGraph.Feature.Attached
import PartyGraph.Feature.NameSet
import PartyGraph.Feature.Policy
import PartyGraph.Graph.Basic
import PartyGraph.Graph.Change
import PartyGraph.Graph.Channel
import PartyGraph.Graph.Draft
import PartyGraph.Identity.Configuration
import PartyGraph.Identity.Error
import PartyGraph.Name.Domain
import PartyGraph.Name.Error
import PartyGraph.Name.FullName
import PartyGraph.Name.Segment
import PartyGraph.Proofs.Agent.Heartbeats
import PartyGraph.Proofs.Agent.LastCall
import PartyGraph.Proofs.Agent.Mailbox
import PartyGraph.Proofs.Feature.Chain
import PartyGraph.Proofs.Graph.Changes
import PartyGraph.Proofs.Graph.Declarations
import PartyGraph.Proofs.Graph.Drafts
import PartyGraph.Proofs.Graph.Membership
import PartyGraph.Proofs.Graph.Permanence
import PartyGraph.Proofs.Name.Format
import PartyGraph.Proofs.Name.Identity
import PartyGraph.Proofs.Section.Agreement
import PartyGraph.Proofs.Section.Distinct
import PartyGraph.Proofs.Section.Inheritance
import PartyGraph.Proofs.Section.Mentions
import PartyGraph.Proofs.Section.Mirror
import PartyGraph.Proofs.Section.OneText
import PartyGraph.Proofs.Section.Relocation
import PartyGraph.Proofs.Service.Additions
import PartyGraph.Proofs.Service.AllOrNothing
import PartyGraph.Proofs.Service.Asking
import PartyGraph.Proofs.Service.Batches
import PartyGraph.Proofs.Service.CallOrder
import PartyGraph.Proofs.Service.Coherence
import PartyGraph.Proofs.Service.Coverage
import PartyGraph.Proofs.Service.CoveredOnce
import PartyGraph.Proofs.Service.Departures
import PartyGraph.Proofs.Service.Destruction
import PartyGraph.Proofs.Service.DyingOwners
import PartyGraph.Proofs.Service.EventOrder
import PartyGraph.Proofs.Service.EventReplay
import PartyGraph.Proofs.Service.Initialization
import PartyGraph.Proofs.Service.Mentions
import PartyGraph.Proofs.Service.Moves
import PartyGraph.Proofs.Service.Orders
import PartyGraph.Proofs.Service.Passes
import PartyGraph.Proofs.Service.Permanence
import PartyGraph.Proofs.Service.Publication
import PartyGraph.Proofs.Service.RefusedDestruction
import PartyGraph.Proofs.Service.RefusedStart
import PartyGraph.Proofs.Service.Registration
import PartyGraph.Proofs.Service.Replies
import PartyGraph.Proofs.Service.Shutdown
import PartyGraph.Proofs.Service.Steady
import PartyGraph.Proofs.Service.Underway
import PartyGraph.Proofs.Service.UniqueNames
import PartyGraph.Proofs.Store.Apart
import PartyGraph.Proofs.Text.Case
import PartyGraph.Proofs.Trampoline.Accounting
import PartyGraph.Proofs.Trampoline.Alone
import PartyGraph.Proofs.Trampoline.Conservation
import PartyGraph.Proofs.Trampoline.Course
import PartyGraph.Proofs.Trampoline.FirstFailure
import PartyGraph.Proofs.Trampoline.Forest
import PartyGraph.Proofs.Trampoline.Histories
import PartyGraph.Proofs.Trampoline.OnceUnlessLate
import PartyGraph.Proofs.Trampoline.Requests
import PartyGraph.Proofs.Trampoline.Rounds
import PartyGraph.Proofs.Trampoline.Strides
import PartyGraph.Proofs.Trampoline.Worklist
import PartyGraph.Scenario.AgentScenario
import PartyGraph.Scenario.DriverPlan
import PartyGraph.Scenario.Job
import PartyGraph.Scenario.ServiceScenario
import PartyGraph.Scenario.WorkshopScenario
import PartyGraph.Section.Basic
import PartyGraph.Section.Configuration
import PartyGraph.Section.Error
import PartyGraph.Section.Names
import PartyGraph.Section.Reading
import PartyGraph.Section.Resolution
import PartyGraph.Section.Setting
import PartyGraph.Service.Basic
import PartyGraph.Service.Handling
import PartyGraph.Service.Pass
import PartyGraph.Service.Request
import PartyGraph.Store.Folder
import PartyGraph.Store.Path
import PartyGraph.Text.Blank
import PartyGraph.Text.Cased
import PartyGraph.Text.Double
import PartyGraph.Text.Lowercase
import PartyGraph.Text.Notation
import PartyGraph.Text.Pieces
import PartyGraph.Text.Printable
import PartyGraph.Text.Quoted
import PartyGraph.Text.Ranges
import PartyGraph.Text.Span
import PartyGraph.Toml.Blank
import PartyGraph.Toml.Calendar
import PartyGraph.Toml.Document
import PartyGraph.Toml.Moment
import PartyGraph.Toml.Number
import PartyGraph.Toml.Quotation
import PartyGraph.Toml.Tree
import PartyGraph.Toml.Value
import PartyGraph.Trampoline.Basic
import PartyGraph.Trampoline.Deed
import PartyGraph.Trampoline.Error
import PartyGraph.Trampoline.Memory
import PartyGraph.Trampoline.Phase
import PartyGraph.Trampoline.Run
import PartyGraph.Trampoline.Script
import PartyGraph.Trampoline.Stride
import PartyGraph.Trampoline.Workshop

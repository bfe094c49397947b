import LiveMarkup.Patch.Compiler
import LiveMarkup.Patch.Recorder
import LiveMarkup.Patch.Transcript
import LiveMarkup.Dom.Patcher
import LiveMarkup.View.Basic
import LiveMarkup.Sample
import LiveMarkup.Html.Parser
import LiveMarkup.Markup.Fragment
import LiveMarkup.Template.Description
import LiveMarkup.Template.Settings
import LiveMarkup.Json.Reader
import LiveMarkup.Value.Json
import LiveMarkup.Proofs.Dom.Slots
import LiveMarkup.Proofs.Dom.WellFormed
import LiveMarkup.Proofs.Dom.Links
import LiveMarkup.Proofs.Dom.Release
import LiveMarkup.Proofs.Dom.Growth
import LiveMarkup.Proofs.Dom.Trees
import LiveMarkup.Proofs.Dom.Placement
import LiveMarkup.Proofs.Patch.Stream
import LiveMarkup.Proofs.Dom.PatchRun
import LiveMarkup.Proofs.Dom.Reachable
import LiveMarkup.Proofs.Dom.Generations
import LiveMarkup.Proofs.Dom.Lifetimes
import LiveMarkup.Proofs.Dom.Handles
import LiveMarkup.Proofs.Dom.Chains
import LiveMarkup.Proofs.Dom.Inheritance
import LiveMarkup.Proofs.Dom.Waiting
import LiveMarkup.Proofs.Dom.Heirs
import LiveMarkup.Proofs.Patch.Drafts
import LiveMarkup.Proofs.Patch.Identity
import LiveMarkup.Proofs.Patch.Denotation
import LiveMarkup.Proofs.Patch.Coherence
import LiveMarkup.Proofs.Patch.Linearization
import LiveMarkup.Proofs.Patch.Calls
import LiveMarkup.Proofs.Patch.KeyChains
import LiveMarkup.Proofs.Patch.Survival
import LiveMarkup.Proofs.Patch.Refusals
import LiveMarkup.Proofs.Patch.Blocks
import LiveMarkup.Proofs.Patch.Erasure
import LiveMarkup.Proofs.View.History
import LiveMarkup.Proofs.Dom.Outside
import LiveMarkup.Proofs.Dom.Import
import LiveMarkup.Proofs.Dom.GivenIds
import LiveMarkup.Proofs.View.Display
import LiveMarkup.Proofs.View.Sharing
import LiveMarkup.Proofs.Dom.Tags
import LiveMarkup.Proofs.View.Failure
import LiveMarkup.Proofs.View.FirstRender
import LiveMarkup.Proofs.Template.Spelling
import LiveMarkup.Proofs.Template.Sources
import LiveMarkup.Proofs.Template.Offsets
import LiveMarkup.Proofs.Template.Writing
import LiveMarkup.Proofs.Template.Grammar
import LiveMarkup.Proofs.Template.Derivation
import LiveMarkup.Proofs.Template.Leading
import LiveMarkup.Proofs.Template.Faults
import LiveMarkup.Proofs.Template.Compilation
import LiveMarkup.Proofs.Template.Names
import LiveMarkup.Proofs.Template.Rounds
import LiveMarkup.Proofs.Template.Escaping
import LiveMarkup.Proofs.Template.Invocation
import LiveMarkup.Proofs.Dom.Faults
import LiveMarkup.Proofs.Dom.Containment
import LiveMarkup.Proofs.Dom.Repetition
import LiveMarkup.Proofs.Dom.Frontier
import LiveMarkup.Proofs.Dom.Openings
import LiveMarkup.Proofs.Dom.Dealing
import LiveMarkup.Proofs.Dom.Leaves
import LiveMarkup.Proofs.Dom.Placements
import LiveMarkup.Proofs.Dom.Freed
import LiveMarkup.Proofs.Dom.Accounts
import LiveMarkup.Proofs.Patch.Capacities
import LiveMarkup.Proofs.Patch.Recency
import LiveMarkup.Proofs.Patch.CacheRuns
import LiveMarkup.Proofs.View.Merging
import LiveMarkup.Proofs.View.Creation
import LiveMarkup.Proofs.Html.Copying
import LiveMarkup.Proofs.Dom.Edits
import LiveMarkup.Proofs.Dom.Copies
import LiveMarkup.Proofs.Html.Reading
import LiveMarkup.Proofs.Text.Quoted
import LiveMarkup.Proofs.Value.Literals
import LiveMarkup.Proofs.Markup.Links
import LiveMarkup.Proofs.Dom.Walks

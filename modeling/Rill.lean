import Rill.Main
import Rill.Number.Reading
import Rill.Syntax.Mentions
import Rill.Proofs.Syntax.Soundness
import Rill.Proofs.Syntax.Completeness
import Rill.Proofs.Syntax.Recognition
import Rill.Proofs.Scope.Findings
import Rill.Proofs.Syntax.Numbering
import Rill.Proofs.Scope.Acceptance
import Rill.Proofs.Syntax.Naming
import Rill.Proofs.Compilation
import Rill.Proofs.Lexical.Evaluation
import Rill.Proofs.Lexical.Alongside
import Rill.Proofs.Machine.Lockstep
import Rill.Proofs.Machine.Variables
import Rill.Proofs.Lexical.Declarations
import Rill.Proofs.Lexical.Calls
import Rill.Proofs.Lexical.Simulation
import Rill.Proofs.Lexical.Sessions
import Rill.Proofs.Syntax.Recast
import Rill.Proofs.Syntax.Transport
import Rill.Proofs.Scope.Recast
import Rill.Proofs.Joining.Compilation
import Rill.Proofs.Joining.Pairing
import Rill.Proofs.Joining.Execution
import Rill.Proofs.Joining.Sessions
import Rill.Proofs.Syntax.Inheritance
import Rill.Proofs.Machine.Continuity
import Rill.Proofs.Scope.Sites
import Rill.Proofs.Scope.Rules
import Rill.Proofs.Phases
import Rill.Proofs.Sessions.Restoring
import Rill.Proofs.Sessions.Numbering
import Rill.Proofs.Machine.Invariant
import Rill.Proofs.Store.Cells
import Rill.Proofs.Store.Territory
import Rill.Proofs.Store.Privacy
import Rill.Proofs.Store.Links
import Rill.Proofs.Store.Searching
import Rill.Proofs.Syntax.Atoms
import Rill.Proofs.Outline.Forms
import Rill.Proofs.Outline.Trees
import Rill.Proofs.Outline.Words
import Rill.Proofs.Outline.Reading
import Rill.Proofs.Globals.Keeping
import Rill.Proofs.Globals.Watching
import Rill.Proofs.Machine.Declarations
import Rill.Proofs.Globals.Changes
import Rill.Proofs.Counterpart.Execution
import Rill.Proofs.Machine.Appearance
import Rill.Proofs.Syntax.Renumbering
import Rill.Proofs.Counterpart.Compilation
import Rill.Proofs.Counterpart.Sessions
import Rill.Proofs.Sessions.Independence
import Rill.Proofs.Renaming.Trees
import Rill.Proofs.Renaming.Scopes
import Rill.Proofs.Renaming.Counterparts
import Rill.Proofs.Renaming.Respelling
import Rill.Proofs.Renaming.Renamed
import Rill.Proofs.Renaming.Sessions
import Rill.Proofs.Token.Lexemes
import Rill.Proofs.Token.Segments
import Rill.Proofs.Output.Cutting
import Rill.Proofs.Output.Limit
import Rill.Proofs.Command.Agreement
import Rill.Proofs.Relabelling.Definitions
import Rill.Proofs.Relabelling.Order
import Rill.Proofs.Token.Lines
import Rill.Proofs.Token.Spacing
import Rill.Proofs.Recovery.Locality
import Rill.Proofs.Inspection.Code
import Rill.Proofs.Receiver.Frames
import Rill.Proofs.Property.Declarations
import Rill.Proofs.Receiver.Rosters
import Rill.Proofs.Receiver.Following
import Rill.Proofs.Receiver.Execution
import Rill.Proofs.Receiver.Sessions
import Rill.Proofs.Property.Names
import Rill.Proofs.Property.Reading
import Rill.Proofs.Property.Sessions
import Rill.Proofs.Number.Rounding
import Rill.Proofs.Number.Decimals
import Rill.Proofs.Number.Texts
import Rill.Proofs.Token.Listing
import Rill.Proofs.Outline.Breaks
import Rill.Proofs.Command.Lines

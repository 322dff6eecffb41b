import ScriptBreakpoints.Compiler.Listing
import ScriptBreakpoints.Compiler.Tokens
import ScriptBreakpoints.Config
import ScriptBreakpoints.Session
import ScriptBreakpoints.Proofs.Actions
import ScriptBreakpoints.Proofs.Storage
import ScriptBreakpoints.Proofs.Tracking
import ScriptBreakpoints.Proofs.Saving
import ScriptBreakpoints.Proofs.AllOrNothing
import ScriptBreakpoints.Proofs.Requests
import ScriptBreakpoints.Proofs.Coupling
import ScriptBreakpoints.Proofs.Chronicle
import ScriptBreakpoints.Proofs.Sessions
import ScriptBreakpoints.Proofs.LatestViews
import ScriptBreakpoints.Proofs.Posting
import ScriptBreakpoints.Proofs.Responses
import ScriptBreakpoints.Proofs.Promotion
import ScriptBreakpoints.Proofs.Desks
import ScriptBreakpoints.Proofs.Aspects
import ScriptBreakpoints.Proofs.Frames
import ScriptBreakpoints.Proofs.Scenes
import ScriptBreakpoints.Proofs.Moves
import ScriptBreakpoints.Proofs.Markers
import ScriptBreakpoints.Proofs.Refusals
import ScriptBreakpoints.Proofs.Replay
import ScriptBreakpoints.Proofs.Convergence
import ScriptBreakpoints.Proofs.Awaiting
import ScriptBreakpoints.Proofs.Working
import ScriptBreakpoints.Proofs.Keeping
import ScriptBreakpoints.Proofs.Changing
import ScriptBreakpoints.Proofs.Withstanding
import ScriptBreakpoints.Proofs.Passing
import ScriptBreakpoints.Proofs.Disabling
import ScriptBreakpoints.Proofs.UnknownBinaries
import ScriptBreakpoints.Proofs.Enduring
import ScriptBreakpoints.Proofs.Attending
import ScriptBreakpoints.Proofs.Rebuilding
import ScriptBreakpoints.Proofs.Mirroring
import ScriptBreakpoints.Proofs.Generating
import ScriptBreakpoints.Proofs.Overwriting
import ScriptBreakpoints.Proofs.Delivering
import ScriptBreakpoints.Proofs.Expecting
import ScriptBreakpoints.Proofs.Commands
import ScriptBreakpoints.Proofs.Parallels
import ScriptBreakpoints.Proofs.Parts
import ScriptBreakpoints.Proofs.Independence
import ScriptBreakpoints.Proofs.Visiting
import ScriptBreakpoints.Proofs.Flagging
import ScriptBreakpoints.Proofs.Queueing
import ScriptBreakpoints.Proofs.Activating
import ScriptBreakpoints.Proofs.Trailing
import ScriptBreakpoints.Proofs.Leftovers
import ScriptBreakpoints.Proofs.Revising
import ScriptBreakpoints.Proofs.Spelling
import ScriptBreakpoints.Proofs.Lexing
import ScriptBreakpoints.Proofs.Reading
import ScriptBreakpoints.Proofs.Documents
import ScriptBreakpoints.Proofs.Walking
import ScriptBreakpoints.Proofs.Durability
import ScriptBreakpoints.Proofs.Confinement
import ScriptBreakpoints.Proofs.Normalizing
import ScriptBreakpoints.Proofs.Regenerating
import ScriptBreakpoints.Proofs.Numbering
import ScriptBreakpoints.Proofs.Pinning
import ScriptBreakpoints.Proofs.Clicking
import ScriptBreakpoints.Proofs.Collapsing
import ScriptBreakpoints.Proofs.Deleting
import ScriptBreakpoints.Proofs.Indexing
import ScriptBreakpoints.Proofs.Translating
import ScriptBreakpoints.Proofs.Reordering
import ScriptBreakpoints.Proofs.Shifting
import ScriptBreakpoints.Proofs.Aligning
import ScriptBreakpoints.Proofs.Yielding
import ScriptBreakpoints.Proofs.Landing
import ScriptBreakpoints.Proofs.Reporting

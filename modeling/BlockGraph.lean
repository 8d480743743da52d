import BlockGraph.CommandLine.Commands
import BlockGraph.Main
import BlockGraph.Service.Requests
import BlockGraph.Value.Coerce
import BlockGraph.Proofs.Deed
import BlockGraph.Proofs.Kept
import BlockGraph.Proofs.Moves
import BlockGraph.Proofs.Stage
import BlockGraph.Proofs.Course
import BlockGraph.Proofs.Tasks
import BlockGraph.Proofs.Shown
import BlockGraph.Proofs.Walks
import BlockGraph.Proofs.Executions
import BlockGraph.Proofs.Rounds
import BlockGraph.Proofs.Lifecycle
import BlockGraph.Proofs.Budget
import BlockGraph.Proofs.Reach
import BlockGraph.Proofs.Recursion
import BlockGraph.Proofs.Intact
import BlockGraph.Proofs.Unrolling
import BlockGraph.Proofs.Arrival
import BlockGraph.Proofs.Alone
import BlockGraph.Proofs.Supply
import BlockGraph.Proofs.Weight
import BlockGraph.Proofs.Lighter
import BlockGraph.Proofs.Termination
import BlockGraph.Proofs.Beats
import BlockGraph.Proofs.Lulls
import BlockGraph.Proofs.Endings
import BlockGraph.Proofs.View
import BlockGraph.Proofs.ViewLogic
import BlockGraph.Proofs.ViewMoves
import BlockGraph.Proofs.ViewStages
import BlockGraph.Proofs.ViewWorld
import BlockGraph.Proofs.Order
import BlockGraph.Proofs.Calls
import BlockGraph.Proofs.Halts
import BlockGraph.Proofs.ViewSteps
import BlockGraph.Proofs.Spared
import BlockGraph.Proofs.Calm
import BlockGraph.Proofs.Drains
import BlockGraph.Proofs.Stops
import BlockGraph.Proofs.Gate
import BlockGraph.Proofs.Checked
import BlockGraph.Proofs.Queue
import BlockGraph.Proofs.Acts
import BlockGraph.Proofs.Turns
import BlockGraph.Proofs.Patience
import BlockGraph.Proofs.Stores
import BlockGraph.Proofs.Lone
import BlockGraph.Proofs.Gated
import BlockGraph.Proofs.Failures
import BlockGraph.Proofs.Deadlines
import BlockGraph.Proofs.Impatience
import BlockGraph.Proofs.Blames
import BlockGraph.Proofs.Wakes
import BlockGraph.Proofs.Alike
import BlockGraph.Proofs.Lens
import BlockGraph.Proofs.AlikeWorld
import BlockGraph.Proofs.Lockstep
import BlockGraph.Proofs.Extends
import BlockGraph.Proofs.Inputs
import BlockGraph.Proofs.Starts
import BlockGraph.Proofs.Footprints
import BlockGraph.Proofs.Handing
import BlockGraph.Proofs.Habits
import BlockGraph.Proofs.HabitTurns
import BlockGraph.Proofs.Edits
import BlockGraph.Proofs.Admission
import BlockGraph.Proofs.Staff
import BlockGraph.Proofs.Ownership
import BlockGraph.Proofs.Resets
import BlockGraph.Proofs.Ledger
import BlockGraph.Proofs.Verdicts
import BlockGraph.Proofs.Acceptance
import BlockGraph.Proofs.LikeMoves
import BlockGraph.Proofs.LikeWorlds
import BlockGraph.Proofs.Observers
import BlockGraph.Proofs.Interchange
import BlockGraph.Proofs.Coverage
import BlockGraph.Proofs.Cycles
import BlockGraph.Proofs.Registrations
import BlockGraph.Proofs.Freezing
import BlockGraph.Proofs.Naming
import BlockGraph.Proofs.Renewals
import BlockGraph.Proofs.Documents
import BlockGraph.Proofs.Endless
import BlockGraph.Proofs.Civil
import BlockGraph.Proofs.Naps
import BlockGraph.Proofs.Notices
import BlockGraph.Proofs.Resumptions
import BlockGraph.Proofs.Saving
import BlockGraph.Proofs.Construction
import BlockGraph.Proofs.PlainData
import BlockGraph.Proofs.Remainders
import BlockGraph.Proofs.Overdue
import BlockGraph.Proofs.Containers
import BlockGraph.Proofs.Iterations
import BlockGraph.Proofs.Magnitudes
import BlockGraph.Proofs.Oversleeping
import BlockGraph.Proofs.Rereading
import BlockGraph.Proofs.Writing
import BlockGraph.Proofs.Fallbacks
import BlockGraph.Proofs.Overwriting

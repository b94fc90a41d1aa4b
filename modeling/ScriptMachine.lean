import ScriptMachine.Image.Agreement
import ScriptMachine.Main
import ScriptMachine.Proofs.Image.Form
import ScriptMachine.Proofs.Image.Reading
import ScriptMachine.Proofs.Image.RoundTrip
import ScriptMachine.Proofs.Image.Truncation
import ScriptMachine.Proofs.Image.Overlong
import ScriptMachine.Proofs.Machine.Move
import ScriptMachine.Proofs.Machine.Runs
import ScriptMachine.Proofs.Machine.References
import ScriptMachine.Proofs.Machine.Lockstep
import ScriptMachine.Proofs.Machine.Accord
import ScriptMachine.Proofs.Machine.Overlay
import ScriptMachine.Proofs.Machine.Past
import ScriptMachine.Proofs.Machine.Executes
import ScriptMachine.Proofs.Machine.Hoarding
import ScriptMachine.Proofs.Machine.SaveRestore
import ScriptMachine.Proofs.Machine.Extent
import ScriptMachine.Proofs.Machine.Course
import ScriptMachine.Proofs.Machine.Fate
import ScriptMachine.Proofs.Machine.Lifecycle
import ScriptMachine.Proofs.Machine.Waiting
import ScriptMachine.Proofs.Machine.Calls
import ScriptMachine.Proofs.Machine.Isolation
import ScriptMachine.Proofs.Machine.Passes
import ScriptMachine.Proofs.Machine.Loading
import ScriptMachine.Proofs.Machine.Null
import ScriptMachine.Proofs.Viewer.Stepping
import ScriptMachine.Proofs.Machine.Host
import ScriptMachine.Proofs.Machine.Settled
import ScriptMachine.Proofs.Machine.Titles
import ScriptMachine.Proofs.Machine.Restorable
import ScriptMachine.Proofs.Viewer.Refusal
import ScriptMachine.Proofs.Machine.Instructions
import ScriptMachine.Proofs.Machine.Displacement
import ScriptMachine.Proofs.Machine.Detour
import ScriptMachine.Proofs.Machine.HandlerWalk
import ScriptMachine.Proofs.Machine.Termination
import ScriptMachine.Proofs.Machine.NextHandler
import ScriptMachine.Proofs.Machine.Parameters
import ScriptMachine.Proofs.Machine.Origins
import ScriptMachine.Proofs.Machine.Naming
import ScriptMachine.Proofs.Image.Overwriting
import ScriptMachine.Proofs.Image.Tables
import ScriptMachine.Proofs.Machine.Operators
import ScriptMachine.Proofs.Machine.Comparisons
import ScriptMachine.Proofs.Machine.Vectors
import ScriptMachine.Proofs.Machine.Division
import ScriptMachine.Proofs.Dump.Pool
import ScriptMachine.Proofs.Listing.Labels
import ScriptMachine.Proofs.Listing.Ranges
import ScriptMachine.Proofs.Viewer.Selection
import ScriptMachine.Proofs.Machine.Stacks
import ScriptMachine.Proofs.Machine.Stops
import ScriptMachine.Proofs.History

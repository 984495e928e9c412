import Membrane.Session.Executors
import Membrane.Session.Registry
import Membrane.Session.Step
import Membrane.Session.Tables
import Membrane.Proofs.Table.DenseSlots
import Membrane.Proofs.Table.Slots
import Membrane.Proofs.Table.RefTable
import Membrane.Proofs.Table.Accounts
import Membrane.Proofs.Table.Shift
import Membrane.Proofs.Table.Lent
import Membrane.Proofs.Table.Layouts
import Membrane.Proofs.Ownership.Balance
import Membrane.Proofs.Ownership.Run
import Membrane.Proofs.Transfer.Account
import Membrane.Proofs.Transfer.Handover
import Membrane.Proofs.Strings.NextCall
import Membrane.Proofs.Strings.Nesting
import Membrane.Proofs.Strings.Reading
import Membrane.Proofs.Strings.Settlement
import Membrane.Proofs.Table.Twins
import Membrane.Proofs.Ownership.HostCall
import Membrane.Proofs.Calls.Throws
import Membrane.Proofs.Loop.JobOrder
import Membrane.Proofs.Loop.Guards
import Membrane.Proofs.Tasks.Jobs
import Membrane.Proofs.Awaits.Outcome
import Membrane.Proofs.Closures.Brings
import Membrane.Proofs.Closures.Existence
import Membrane.Proofs.Closures.Quiet
import Membrane.Proofs.Closures.Sealed
import Membrane.Proofs.Closures.Calls
import Membrane.Proofs.Closures.Changes
import Membrane.Proofs.Closures.Deeds
import Membrane.Proofs.Closures.Lifetime
import Membrane.Proofs.Crossing.Arguments
import Membrane.Proofs.Crossing.ForeignRealm
import Membrane.Proofs.Crossing.Passing
import Membrane.Proofs.Crossing.Transparency
import Membrane.Proofs.Promises.Course
import Membrane.Proofs.Promises.Reactions
import Membrane.Proofs.Threads.Current
import Membrane.World.Process
import Membrane.Proofs.Threads.Seats
import Membrane.Proofs.Crossing.Operations
import Membrane.Proofs.Transfer.Balance
import Membrane.Proofs.Transfer.Posted
import Membrane.Proofs.Transfer.Settlement
import Membrane.Proofs.Table.Placement
import Membrane.Proofs.Table.Rounds
import Membrane.Proofs.Table.Overflow
import Membrane.Proofs.Tasks.Join
import Membrane.Proofs.Strings.Boundary
import Membrane.Proofs.Threads.Refusals
import Membrane.Proofs.Threads.Staffing
import Membrane.Proofs.Closures.Numbers
import Membrane.Proofs.Documents.Placement
import Membrane.Proofs.Loop.Delays
import Membrane.Proofs.Loop.Shutdown
import Membrane.Proofs.Table.Identity
import Membrane.Proofs.Documents.Unfolding
import Membrane.Proofs.Settings.Layers
import Membrane.Proofs.Ownership.Collection
import Membrane.Proofs.Sleepers.Jobs

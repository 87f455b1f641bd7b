import MemberAccess.Accessor.Cache
import MemberAccess.Accessor.Printing
import MemberAccess.Settings.Document
import MemberAccess.Proofs.Plan.Arguments
import MemberAccess.Proofs.Accessor.Request
import MemberAccess.Proofs.Member.Described
import MemberAccess.Proofs.World.Growth
import MemberAccess.Proofs.Accessor.Built
import MemberAccess.Proofs.Accessor.BuiltTyped
import MemberAccess.Proofs.Member.Runs
import MemberAccess.Proofs.Thunk.Prepared
import MemberAccess.Proofs.Call.Surfaces
import MemberAccess.Proofs.Call.Atomicity
import MemberAccess.Proofs.Call.Reference
import MemberAccess.Proofs.Call.Meaning
import MemberAccess.Proofs.Call.Phases
import MemberAccess.Proofs.Call.Served
import MemberAccess.Proofs.Member.History
import MemberAccess.Proofs.Call.Fitting
import MemberAccess.Proofs.World.Footprint
import MemberAccess.Proofs.Member.Writes
import MemberAccess.Proofs.Call.Writes
import MemberAccess.Proofs.Call.Confinement
import MemberAccess.Proofs.Call.Sessions
import MemberAccess.Proofs.Call.RoundTrip
import MemberAccess.Proofs.Permission.Rule
import MemberAccess.Proofs.Accessor.Allocation
import MemberAccess.Proofs.Call.Abstractness
import MemberAccess.Proofs.Accessor.Obstacles
import MemberAccess.Proofs.Accessor.StaticTypes
import MemberAccess.Proofs.Accessor.Sharing
import MemberAccess.Proofs.Settings.Meaning
import MemberAccess.Proofs.Call.Handover
import MemberAccess.Proofs.Call.Locks
import MemberAccess.Proofs.Call.CastPolicy
import MemberAccess.Proofs.Call.Reconstruction
import MemberAccess.Proofs.Call.Frame
import MemberAccess.Proofs.Call.StaticMembers
import MemberAccess.Proofs.Plan.WellFormed
import MemberAccess.Proofs.Permission.Segments
import MemberAccess.Proofs.Settings.Patterns
import MemberAccess.Proofs.Permission.Combined
import MemberAccess.Proofs.Member.Names
import MemberAccess.Proofs.Plan.Unpacking
import MemberAccess.Proofs.Text.TypeName
import MemberAccess.Proofs.Member.Uses
import MemberAccess.Proofs.Call.Metadata

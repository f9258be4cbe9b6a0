import Signals2.CombinerIsolation
import Signals2.TrackedObjects
import Signals2.CallSequence
import Signals2.Destruction
import Signals2.GroupComparison
import Signals2.SlotGroupsElements
import Signals2.Sweeps
import Signals2.ScopedConnections
import Signals2.BlockedConnections
import Signals2.ConnectionComparisons
import Signals2.CombinerFolds
import Signals2.BoundedLists
import Signals2.LastReleases
import Signals2.SlotTracking
import Signals2.PostconstructorInvoker
import Signals2.AutoBufferErasure
import Signals2.AutoBufferGuarantees
import Signals2.ConnectGuarantee
import Signals2.ConnectedAnswers
import Signals2.Quiescence
import Signals2.CallingOrder
import Signals2.NetworkQuiescence

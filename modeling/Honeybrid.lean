import Honeybrid.OptionLists
import Honeybrid.Vlans
import Honeybrid.SourceAddress
import Honeybrid.RateLimit
import Honeybrid.Novelty
import Honeybrid.PayloadBuffer
import Honeybrid.Layout
import Honeybrid.Decoding
import Honeybrid.LihReset
import Honeybrid.ReplayOffsets
import Honeybrid.ControlRules
import Honeybrid.Meetings
import Honeybrid.Conjunctions
import Honeybrid.Selection
import Honeybrid.IntraTables
import Honeybrid.Ownership
import Honeybrid.Rpc
import Honeybrid.Integrity
import Honeybrid.BackendIds
import Honeybrid.Serving
import Honeybrid.Denial
import Honeybrid.Steering
import Honeybrid.Configuration
import Honeybrid.Refusals
import Honeybrid.Containment
import Honeybrid.ReplayOrder
import Honeybrid.Visibility
import Honeybrid.Proxying
import Honeybrid.ReplayCursor
import Honeybrid.Delivery
import Honeybrid.Coherence
import Honeybrid.Reversibility
import Honeybrid.ReplyKeys
import Honeybrid.Pins
import Honeybrid.Backends
import Honeybrid.Rules
import Honeybrid.RuleTrees
import Honeybrid.PacketCount
import Honeybrid.FragNeeded
import Honeybrid.EquationText
import Honeybrid.Effects
import Honeybrid.IntraHosts
import Honeybrid.Impersonation
import Honeybrid.Sweeps
import Honeybrid.Deregistration
import Honeybrid.Queues
import Honeybrid.Locking
import Honeybrid.ConnLog
import Honeybrid.PacketMemory
import Honeybrid.Visits
import Honeybrid.Shutdown
import Honeybrid.Writeback
import Honeybrid.ConfigText
import Honeybrid.LogText
import Honeybrid.Rotation
import Honeybrid.Answers
import Honeybrid.SentFrames

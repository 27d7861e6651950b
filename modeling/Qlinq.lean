import Qlinq.AckSoundness
import Qlinq.Backpressure
import Qlinq.Emission
import Qlinq.Geometry
import Qlinq.HelloGate
import Qlinq.Integrity
import Qlinq.NackAdmission
import Qlinq.PublishResults
import Qlinq.Suppression
import Qlinq.TableMirror
import Qlinq.TrackOrder
import Qlinq.UdsDelivery
import Qlinq.Completion
import Qlinq.InterfaceChurn
import Qlinq.GroupRetry
import Qlinq.CacheAdmission
import Qlinq.RecoveryAcks
import Qlinq.RepairCursor
import Qlinq.Announcing
import Qlinq.EgressTotals
import Qlinq.SubscriptionSlots
import Qlinq.GapMask
import Qlinq.ReceptionRuns
import Qlinq.ReliableBroadcast
import Qlinq.Pacing
import Qlinq.UdsOutput
import Qlinq.PeerEvents
import Qlinq.ConnectionCache
import Qlinq.OneWayDelay
import Qlinq.PathEstimates
import Qlinq.InterfaceDiff
import Qlinq.PathArrays
import Qlinq.WindowRoom
import Qlinq.Readiness
import Qlinq.SharedPaths
import Qlinq.Dialogue
import Qlinq.AppStream
import Qlinq.SweepRetry
import Qlinq.SweepRequests
import Qlinq.ReceiveTurns
import Qlinq.Reconnect
import Qlinq.Writability
import Qlinq.ServiceWork
import Qlinq.TunInbound
import Qlinq.DirectReceive
import Qlinq.DirectSend

import Sems.Rel100Runs
import Sems.DialogInvites
import Sems.FramerAgrees
import Sems.TcpTrsp
import Sems.TransCancel
import Sems.TransFinals
import Sems.TransHeldRuns
import Sems.TransMatch
import Sems.B2BRelays
import Sems.CallLegForks
import Sems.Rel100Uac
import Sems.RtpMuxRuns
import Sems.TransPaceRuns
import Sems.SubscriptionDialog
import Sems.SubscriptionRuns
import Sems.RegisterPromises
import Sems.AppTimerRuns
import Sems.EventDispatcher
import Sems.EventQueueRuns
import Sems.LegHoldRuns
import Sems.SessionUpdateRuns
import Sems.DsmRuns
import Sems.JsonRpcRuns
import Sems.MixerRuns
import Sems.SdpAnswers
import Sems.SessionTimerRuns
import Sems.UacAuthNonce
import Sems.UacAuthRuns
import Sems.Blacklist
import Sems.ParseNames
import Sems.ParseTags
import Sems.UrlText
import Sems.RtpPacket
import Sems.FifoBuffer
import Sems.HeaderParams
import Sems.TransTag
import Sems.WheelAccess

import Wmediumd.Ports.SchedNext
import Wmediumd.Ports.SchedRequest
import Wmediumd.Ports.ConfigReload
import Wmediumd.Ports.Acknowledge
import Wmediumd.Ports.Airtime
import Wmediumd.Ports.SchedOrder
import Wmediumd.Ports.SchedCtrl
import Wmediumd.Ports.ApiStream
import Wmediumd.Ports.WallclockSync
import Wmediumd.Ports.Responses
import Wmediumd.Ports.ClientSweep
import Wmediumd.Ports.LoadErrors
import Wmediumd.Ports.VhostRead
import Wmediumd.Ports.VhostIndex
import Wmediumd.Ports.VhostUninit
import Wmediumd.Ports.VhostFds
import Wmediumd.Ports.VhostReady
import Wmediumd.Ports.VhostRings
import Wmediumd.Ports.FrameSenders
import Wmediumd.Ports.FrameReports
import Wmediumd.Ports.LinkMatrix
import Wmediumd.Ports.PerMatrix
import Wmediumd.Ports.RateReport
import Wmediumd.Ports.HeaderReads
import Wmediumd.Ports.ApiPayload
import Wmediumd.Ports.WriteOutcomes
import Wmediumd.Ports.SendTime
import Wmediumd.Ports.FarAhead
import Wmediumd.Ports.LinkReload
import Wmediumd.Ports.SetSnr
import Wmediumd.Ports.StationAddrs
import Wmediumd.Ports.Attribution
import Wmediumd.Ports.IntfTable
import Wmediumd.Ports.Interference
import Wmediumd.Ports.Pcap
import Wmediumd.Ports.TickTime
import Wmediumd.Ports.VhostFill
import Wmediumd.Ports.Per
import Wmediumd.Ports.SchedBlock
import Wmediumd.Ports.ZeroRates
import Wmediumd.Ports.ConfigIds
import Wmediumd.Ports.CookieFlow
import Wmediumd.Ports.MacStrings
import Wmediumd.Ports.GenOptions
import Wmediumd.Ports.GenConfig
import Wmediumd.Ports.VhostFetch
import Wmediumd.Ports.VhostCopy
import Wmediumd.Ports.VhostReply
import Wmediumd.Ports.ClientWrites
import Wmediumd.Ports.FrameContents
import Wmediumd.Ports.FrameAudience
import Wmediumd.Ports.LoopRuns
import Wmediumd.Ports.FrameEnds
import Wmediumd.Ports.RadioTables
import Wmediumd.Ports.SettledCtx
import Wmediumd.Ports.FramePlaces
import Wmediumd.Ports.MemorySafety
import Wmediumd.Ports.Arrivals

import KaiT2en.Dma.Submission
import KaiT2en.Dma.CommandReply
import KaiT2en.Bce.Mailbox
import KaiT2en.Vhci.Credit
import KaiT2en.Vhci.Pairing
import KaiT2en.Vhci.ControlConfluence
import KaiT2en.Vhci.Stall
import KaiT2en.Vhci.EventQueues
import KaiT2en.Audio.Pcm
import KaiT2en.Audio.Reply
import KaiT2en.Sidecar.Capture
import KaiT2en.Sidecar.Waiters
import KaiT2en.Ave.FrameData
import KaiT2en.Ave.OutputBuffers
import KaiT2en.Xpc.Discovery
import KaiT2en.Airshare.L2cap
import KaiT2en.Airshare.Consent
import KaiT2en.Airshare.Leftovers
import KaiT2en.Airshare.Directory
import KaiT2en.Airshare.PriorChannel
import KaiT2en.Airshare.EndToEnd
import KaiT2en.Fan.Control
import KaiT2en.Smc.KeyCache
import KaiT2en.Smc.Sensors
import KaiT2en.Smc.ManualFans
import KaiT2en.Smc.RawAccess
import KaiT2en.Drop.Serve
import KaiT2en.Audio.Timing
import KaiT2en.Sidecar.Layout
import KaiT2en.Bce.StateBuffer
import KaiT2en.Airshare.Advertising
import KaiT2en.Ave.AnnexB
import KaiT2en.Debug.Dtx
import KaiT2en.Sidecar.Receive
import KaiT2en.Drop.Awdl
import KaiT2en.Brightness.Curve
import KaiT2en.Journal.Historical
import KaiT2en.Smc.Gauging

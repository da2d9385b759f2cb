import Kmsrdp.Guarantees.AccountChecks
import Kmsrdp.Guarantees.AudioHold
import Kmsrdp.Guarantees.AudioWindow
import Kmsrdp.Guarantees.AuthLockout
import Kmsrdp.Guarantees.BitmapViews
import Kmsrdp.Guarantees.CapturePace
import Kmsrdp.Guarantees.ChannelJoins
import Kmsrdp.Guarantees.ChannelPayloads
import Kmsrdp.Guarantees.ChannelReassembly
import Kmsrdp.Guarantees.ClientInfoRoundTrip
import Kmsrdp.Guarantees.ClipboardDirections
import Kmsrdp.Guarantees.ClipboardText
import Kmsrdp.Guarantees.ConfirmActiveSegments
import Kmsrdp.Guarantees.DirtyTiles
import Kmsrdp.Guarantees.DriveCompletions
import Kmsrdp.Guarantees.DriveRemoval
import Kmsrdp.Guarantees.DriveTraffic
import Kmsrdp.Guarantees.DynamicDelivery
import Kmsrdp.Guarantees.FailedChecks
import Kmsrdp.Guarantees.FrameDelivery
import Kmsrdp.Guarantees.GfxAcknowledgements
import Kmsrdp.Guarantees.GfxAgreement
import Kmsrdp.Guarantees.GfxFallback
import Kmsrdp.Guarantees.GfxPduBounds
import Kmsrdp.Guarantees.GfxSurfaces
import Kmsrdp.Guarantees.HandlerLifeCycle
import Kmsrdp.Guarantees.HandshakeVerdicts
import Kmsrdp.Guarantees.InputHolds
import Kmsrdp.Guarantees.InputInjection
import Kmsrdp.Guarantees.InputPaths
import Kmsrdp.Guarantees.InputUnits
import Kmsrdp.Guarantees.McsCodec
import Kmsrdp.Guarantees.MountMembers
import Kmsrdp.Guarantees.MountNumbers
import Kmsrdp.Guarantees.MountOwners
import Kmsrdp.Guarantees.NsCodecPlanes
import Kmsrdp.Guarantees.PackedRequests
import Kmsrdp.Guarantees.PlanarFormat
import Kmsrdp.Guarantees.RetainedMemory
import Kmsrdp.Guarantees.RoundRobin
import Kmsrdp.Guarantees.SizeAnnouncement
import Kmsrdp.Guarantees.SkippedPixels
import Kmsrdp.Guarantees.SoundChunks
import Kmsrdp.Guarantees.StaticDelivery
import Kmsrdp.Guarantees.SyncCalls
import Kmsrdp.Guarantees.UnconfirmedBlocks
import Kmsrdp.Guarantees.UpdateSize
import Kmsrdp.Guarantees.WireLengths
import Kmsrdp.Guarantees.WriterBacklog
import Kmsrdp.Guarantees.WriterDelivery
import Kmsrdp.Guarantees.YuvPlanes

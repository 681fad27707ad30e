import Macrdp.OutboundRotation
import Macrdp.OutboundHandoff
import Macrdp.SynReplacement
import Macrdp.RdpeudpRoundTrip
import Macrdp.AuditAttribution
import Macrdp.BruteForceAccounting
import Macrdp.RetirementFinality
import Macrdp.WireIntegrity
import Macrdp.RoutingDiscipline
import Macrdp.CleanStart
import Macrdp.EventSurvival
import Macrdp.EventIsolation
import Macrdp.PduSurvival
import Macrdp.KeyframeRequests
import Macrdp.CaptureThrottle
import Macrdp.ShipRouting
import Macrdp.EncoderCoupling
import Macrdp.FeedbackDirection
import Macrdp.BlankStorm
import Macrdp.StuckKeys
import Macrdp.ClipboardEcho
import Macrdp.AdvertiseWaves
import Macrdp.PasteSupersession
import Macrdp.FileDownload
import Macrdp.DownloadRouter
import Macrdp.IoCompletions
import Macrdp.CameraPull
import Macrdp.UsbTransfers
import Macrdp.UsbPresentation
import Macrdp.HandleSafety
import Macrdp.SmartcardLockstep
import Macrdp.SurfaceRename
import Macrdp.AuthGuardBound
import Macrdp.RdpeudpProgress
import Macrdp.SizeEcho
import Macrdp.LiveResize
import Macrdp.ShieldLifetime
import Macrdp.ConfigReaders
import Macrdp.LegacyConvergence
import Macrdp.EncoderMirror
import Macrdp.TunnelFraming
import Macrdp.BatchDispatch
import Macrdp.AuditRedaction
import Macrdp.PastePublication
import Macrdp.ClipboardImage
import Macrdp.PointerMotion
import Macrdp.ScrollMotion
import Macrdp.DirectoryScan
import Macrdp.CacheTree
import Macrdp.SmartcardSession
import Macrdp.UsbConfiguration
import Macrdp.DecodeSession
import Macrdp.KeyboardEcho
import Macrdp.NsCodec
import Macrdp.LogRotation
import Macrdp.AudioCapture
import Macrdp.OverlayTeardown
import Macrdp.ServerUpdate
import Macrdp.AudioQueue
import Macrdp.RunloopThread
import Macrdp.FastPathFragments
import Macrdp.Avc444
import Macrdp.LossyAudio
import Macrdp.ConfigArguments
import Macrdp.RepreemptThrottle
import Macrdp.HeadlessInstall
import Macrdp.DynamicChannels

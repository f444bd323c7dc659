import Chromeless.SignalingRegistry
import Chromeless.SignalingFirstFrame
import Chromeless.SignalingTenants
import Chromeless.SignalingSuccessor
import Chromeless.SignalingByes
import Chromeless.SignalingOffers
import Chromeless.CaptureTerminal
import Chromeless.CaptureRearm
import Chromeless.CapturePairing
import Chromeless.CaptureDisconnect
import Chromeless.CaptureTransport
import Chromeless.SignalingGauges
import Chromeless.SignalingVerifiers
import Chromeless.CaptureBackoff
import Chromeless.CaptureAcceptance
import Chromeless.ControllerAssignment
import Chromeless.ControllerRecycling
import Chromeless.ControllerIdle
import Chromeless.ControllerAging
import Chromeless.ControllerCapacity
import Chromeless.ControllerReuse
import Chromeless.ControllerAdmission
import Chromeless.GatewayLogin
import Chromeless.FileBridgeIntegrity
import Chromeless.PassthroughStream
import Chromeless.MainPartsOnce
import Chromeless.MainPartsRecovery
import Chromeless.UploadReceiverChooser
import Chromeless.UploadReceiverQuota
import Chromeless.UploadReceiverIsolation
import Chromeless.ClientUploadCancel
import Chromeless.UploadEndToEnd
import Chromeless.CursorSeq
import Chromeless.ClientCursor
import Chromeless.ClipboardPaste
import Chromeless.ClientClipboard
import Chromeless.Viewport
import Chromeless.BeginFrameDriver
import Chromeless.InputModifiers
import Chromeless.TouchPoints
import Chromeless.TokenRefresher
import Chromeless.ReconnectingWebSocket
import Chromeless.ClientSession
import Chromeless.InputChannel
import Chromeless.CameraPassthrough
import Chromeless.SimulcastEncoder
import Chromeless.Vp9Encoder
import Chromeless.FrameSinkCapturer
import Chromeless.DownloadTargets
import Chromeless.DragTargets
import Chromeless.MouseWheel
import Chromeless.SessionTelemetry
import Chromeless.EncodedFrames
import Chromeless.DialUrl
import Chromeless.InputLatency
import Chromeless.CdpClient

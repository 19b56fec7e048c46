import AllRelay.Library.LabelledSystem
import AllRelay.Library.LockedThreads
import AllRelay.Library.Wire
import AllRelay.Library.Utf
import AllRelay.Library.ChunkedReader
import AllRelay.Library.EventHandler
import AllRelay.Library.Bracketed
import AllRelay.Library.DelayedWrite
import AllRelay.Library.TwoPaths
import AllRelay.Library.SyncSkeleton
import AllRelay.Library.DropOldest
import AllRelay.Library.CallLog
import AllRelay.Library.LinkedMap
import AllRelay.Library.Lines
import AllRelay.Library.CharReader
import AllRelay.Library.NalUnit
import AllRelay.Library.IpNet
import AllRelay.Library.Url
import AllRelay.Library.Lacing
import AllRelay.Library.Regex
import AllRelay.Library.MultiTouch
import AllRelay.Library.Utf8Boundary
import AllRelay.Library.StreamDecoder
import AllRelay.Library.RingBuffer
import AllRelay.Library.Lockstep
import AllRelay.Hub.State
import AllRelay.Hub.Lifecycle
import AllRelay.Hub.DisplayDebt
import AllRelay.Hub.Threads
import AllRelay.Hub.GenerationScoping
import AllRelay.Hub.ReplayCache
import AllRelay.Hub.ClientSet
import AllRelay.Control.Message
import AllRelay.Control.Encoders
import AllRelay.Control.RoundTrip
import AllRelay.Control.Framing
import AllRelay.Control.ClientSerializer
import AllRelay.Control.ClientController
import AllRelay.Control.DeviceMessages
import AllRelay.Control.ClipboardAck
import AllRelay.Phone.DisplayPower
import AllRelay.Phone.FoldManager
import AllRelay.Phone.AdbLease
import AllRelay.Phone.SpeakerReceiver
import AllRelay.Phone.SpeakerPlayback
import AllRelay.Phone.PcmWriter
import AllRelay.Phone.Kotlin
import AllRelay.Phone.AdbKeys
import AllRelay.Phone.HttpRequest
import AllRelay.Phone.FoldStateParser
import AllRelay.Phone.PointersState
import AllRelay.Phone.TouchInjection
import AllRelay.Phone.VideoSize
import AllRelay.Phone.SurfaceEncoder
import AllRelay.Phone.SurfaceRetries
import AllRelay.Controller.State
import AllRelay.Controller.Frame
import AllRelay.Controller.Transport
import AllRelay.Controller.Connecting
import AllRelay.Controller.Lane
import AllRelay.Controller.Session
import AllRelay.Controller.SessionLanes
import AllRelay.Controller.Toggle
import AllRelay.Controller.ScreenControl
import AllRelay.Controller.ControlFrame
import AllRelay.Controller.ControlOwner
import AllRelay.Controller.ControlSocket
import AllRelay.Controller.ControlOwnership
import AllRelay.Controller.ActiveStreams
import AllRelay.Controller.Dialing
import AllRelay.Controller.BasePort
import AllRelay.Web.Publication
import AllRelay.Web.Adb
import AllRelay.Web.AdbMonitor
import AllRelay.Media.Packet
import AllRelay.Media.Streamer
import AllRelay.Media.RoundTrip
import AllRelay.Media.ScreenCapture
import AllRelay.Media.AudioEncoder
import AllRelay.Media.Dispatch
import AllRelay.Media.SpeakerSender
import AllRelay.Media.DemuxerStop
import AllRelay.Media.MicCapture
import AllRelay.Media.AnnexB
import AllRelay.Media.OggDemuxer
import AllRelay.Browser.Keyboard
import AllRelay.Browser.Touch
import AllRelay.Browser.ScreenViewer
import AllRelay.Browser.AnnexB
import AllRelay.Browser.DecoderProtocol
import AllRelay.Web.FrameDelivery
import AllRelay.Web.LateJoin
import AllRelay.Web.LockOrder
import AllRelay.Web.PhoneRegistry
import AllRelay.Web.SameOrigin
import AllRelay.Discovery.Scanner
import AllRelay.Logging.SlidingFile
import AllRelay.Media.SpeakerPath
import AllRelay.Media.ScreenPath
import AllRelay.Media.ScreenReplay
import AllRelay.Control.TouchPath
import AllRelay.Client.VecDeque
import AllRelay.Client.ControllerQueue
import AllRelay.Client.AudioBuf
import AllRelay.Client.AudioRegulator
import AllRelay.Client.AudioPlayback

import SentrySystem.AlarmDecode
import SentrySystem.AlarmStatus
import SentrySystem.BigDataOwner
import SentrySystem.CameraFrames
import SentrySystem.CameraPriority
import SentrySystem.CmdDeliver
import SentrySystem.CmdFlow
import SentrySystem.CommandMailbox
import SentrySystem.FileList
import SentrySystem.FrameBuffer
import SentrySystem.FrameFits
import SentrySystem.HeaderErrors
import SentrySystem.HostCommand
import SentrySystem.HostJson
import SentrySystem.HostSession
import SentrySystem.LogRetention
import SentrySystem.LogText
import SentrySystem.MoveDetect
import SentrySystem.PartialIo
import SentrySystem.PriorityQueue
import SentrySystem.PyCommand
import SentrySystem.PyUdpViewer
import SentrySystem.PyUpload
import SentrySystem.ResyncPairs
import SentrySystem.SendLengths
import SentrySystem.SharedLink
import SentrySystem.StartOrder
import SentrySystem.StorageShutdown
import SentrySystem.TcpControlWorker
import SentrySystem.TcpUpload
import SentrySystem.UdpRestart
import SentrySystem.UdpSendThread

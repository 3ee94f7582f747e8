import PadSvr.Scripted.Wp
import PadSvr.CString.Stdio
import PadSvr.Cfgfile
import PadSvr.Session.Terminal
import PadSvr.Session.Qbyte
import PadSvr.Session.Reload
import PadSvr.Session.Adaptive
import PadSvr.Session.Threshold
import PadSvr.Session.Leaving
import PadSvr.Session.Hangup
import PadSvr.Session.Wakeup
import PadSvr.Session.Delivery
import PadSvr.Session.Signalled
import PadSvr.Linked.Path
import PadSvr.Monitor.Table
import PadSvr.Monitor.PtsList
import PadSvr.Monitor.Message
import PadSvr.Monitor.DoMonitor
import PadSvr.Monitor.Reflect
import PadSvr.Monitor.RoundTrip
import PadSvr.X29.Profile
import PadSvr.X29.SetDefault
import PadSvr.X29.Echo
import PadSvr.Writecfg
import PadSvr.X29.Control
import PadSvr.Session.Shutdown
import PadSvr.Scripted.Zoom
import PadSvr.Process.Signals
import PadSvr.Process.State
import PadSvr.Process.Serve
import PadSvr.Process.NoLostSignal
import PadSvr.Process.Accept
import PadSvr.Process.AcceptSignals
import PadSvr.Process.Daemon
import PadSvr.Process.Registration
import PadSvr.Process.Path
import PadSvr.Process.Reread
import PadSvr.Process.PidFile
import PadSvr.Process.OneDaemon
import PadSvr.Monitor.Supervise
import PadSvr.Scripted.Loop
import PadSvr.Scripted.Total
import PadSvr.Scripted.Longer
import PadSvr.Scripted.Observe
import PadSvr.Loops
import PadSvr.Keyed.Updates
import PadSvr.CString.Lines
import PadSvr.CString.Hex
import PadSvr.CString.Memory
import PadSvr.Terminators
import PadSvr.X25trace
import PadSvr.Issue
import PadSvr.Config.NullPointer
import PadSvr.Config.Setting
import PadSvr.Config.Usable
import PadSvr.Config.Local
import PadSvr.Config.LongLines
import PadSvr.Config.PacketSize
import PadSvr.Socket.Surroundings
import PadSvr.Socket.Fragments
import PadSvr.Socket.Handlers
import PadSvr.Session.Oblivious
import PadSvr.Session.Observed
import PadSvr.Socket.TerminalWrite
import PadSvr.Socket.RetryLoop
import PadSvr.Socket.ReadResult
import PadSvr.Session.NetTimeout
import PadSvr.Session.OwnTimer
import PadSvr.Scripted.Protocol
import PadSvr.Session.Line
import PadSvr.Session.Reason
import PadSvr.Session.RoundOrder
import PadSvr.Session.Heed
import PadSvr.Session.Wire
import PadSvr.Process.Phases
import PadSvr.Process.Line
import PadSvr.Process.Stop
import PadSvr.Process.Delivered
import PadSvr.Session.Settings
import PadSvr.Config.Unedited
import PadSvr.Process.Settings
import PadSvr.Session.Timed
import PadSvr.Process.Timed
import PadSvr.Process.Clearing
import PadSvr.Monitor.Report
import PadSvr.Session.LastWait
import PadSvr.Process.LastWait

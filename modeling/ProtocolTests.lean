import ProtocolTests.ByteBalance
import ProtocolTests.Campaign
import ProtocolTests.Client
import ProtocolTests.ClientFailures
import ProtocolTests.ClientLoad
import ProtocolTests.ConnectionProgress
import ProtocolTests.ConnectionTotals
import ProtocolTests.Connections
import ProtocolTests.Console
import ProtocolTests.CutTranscript
import ProtocolTests.Datagrams
import ProtocolTests.EndToEnd
import ProtocolTests.FrameFilter
import ProtocolTests.FrameIsolation
import ProtocolTests.FrameReadings
import ProtocolTests.GraphColumns
import ProtocolTests.GraphWindow
import ProtocolTests.Library.ByteMemory
import ProtocolTests.Library.CString
import ProtocolTests.Library.CallTrace
import ProtocolTests.Library.Columns
import ProtocolTests.Library.Dialogue
import ProtocolTests.Library.Endings
import ProtocolTests.Library.Extremes
import ProtocolTests.Library.FdSet
import ProtocolTests.Library.Fields
import ProtocolTests.Library.FileStore
import ProtocolTests.Library.Getopt
import ProtocolTests.Library.Mailboxes
import ProtocolTests.Library.Marks
import ProtocolTests.Library.Media
import ProtocolTests.Library.Permits
import ProtocolTests.Library.Pipe
import ProtocolTests.Library.Printf
import ProtocolTests.Library.Programs
import ProtocolTests.Library.Progress
import ProtocolTests.Library.RoundRobin
import ProtocolTests.Library.Run
import ProtocolTests.Library.SlotTable
import ProtocolTests.LineLocality
import ProtocolTests.LineLoop
import ProtocolTests.Pacing
import ProtocolTests.PacketCalls
import ProtocolTests.Parser
import ProtocolTests.PlotCommands
import ProtocolTests.PlotMenu
import ProtocolTests.SameLoad
import ProtocolTests.SctpStreams
import ProtocolTests.Sender
import ProtocolTests.SenderCalls
import ProtocolTests.Server
import ProtocolTests.ServerErrors
import ProtocolTests.ServerLimit
import ProtocolTests.ServerLog
import ProtocolTests.ServerTable
import ProtocolTests.ServerTotals
import ProtocolTests.Sessions
import ProtocolTests.Simulator
import ProtocolTests.Summary
import ProtocolTests.SummaryColumns
import ProtocolTests.Transcript
import ProtocolTests.TranscriptFrames
import ProtocolTests.TranscriptTotals
import ProtocolTests.Transports

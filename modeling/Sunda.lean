import Sunda.Base.Guarded
import Sunda.Base.WordMem
import Sunda.Base.Sharded
import Sunda.Base.Sweep
import Sunda.Base.SysV
import Sunda.Base.Noted
import Sunda.Base.Permits
import Sunda.Base.SlotMap
import Sunda.Base.FirstMatch
import Sunda.Base.Bytes
import Sunda.Base.Decimal
import Sunda.Base.Lines
import Sunda.Base.Arrivals
import Sunda.Base.Pieces
import Sunda.Base.Gregorian
import Sunda.Base.Getopt
import Sunda.Base.Hexadecimal
import Sunda.Base.Bisect
import Sunda.Base.Blocks
import Sunda.Common.Funstr
import Sunda.Common.Funfile
import Sunda.Common.Funtime
import Sunda.Common.CheckDate
import Sunda.Common.CountDate
import Sunda.Common.Funmem
import Sunda.Common.Funsock
import Sunda.Common.Framing
import Sunda.Tux.Types
import Sunda.Tux.Buffers
import Sunda.Common.Funmsq
import Sunda.Tux.Tuxmgr
import Sunda.Tux.Tuxcall
import Sunda.Tux.CallErrors
import Sunda.Tux.MsgBounds
import Sunda.Tux.Forward
import Sunda.Tux.CarrayLen
import Sunda.Tux.QueuePurge
import Sunda.Tux.IpcConnect
import Sunda.Tux.SysStart
import Sunda.Tux.LifeCycle
import Sunda.Tux.NotedQueues
import Sunda.Tux.Lock
import Sunda.Comm.Commserver.Table
import Sunda.Comm.Commserver.TableRep
import Sunda.Comm.Commserver.StartUp
import Sunda.Comm.Commserver.TableHolds
import Sunda.Comm.Commserver.TableInvariant
import Sunda.Comm.Commserver.TimeOuts
import Sunda.Comm.Commserver.WaitTime
import Sunda.Comm.Commserver.ReadTask
import Sunda.Tux.ServiceReply
import Sunda.Comm.Commserver.WriteTask
import Sunda.Comm.Commserver.RoundTrip
import Sunda.Comm.Commserver.Sections
import Sunda.Comm.Commserver.ReplyRouting
import Sunda.Comm.Commserver.EventCount
import Sunda.Comm.Commserver.SplitFrame
import Sunda.Comm.Commserver.EdgeTriggered
import Sunda.Comm.Commserver.WireFrames
import Sunda.Comm.SyncCalls
import Sunda.Comm.OwnReply
import Sunda.Comm.Orphans
import Sunda.Comm.FrontEnds
import Sunda.Comm.Requests
import Sunda.Comm.FrameCopies
import Sunda.Comm.Responses
import Sunda.Comm.ChildAnswers
import Sunda.Comm.ChildRegistry
import Sunda.Comm.RemotePeer
import Sunda.Xml.Mxml
import Sunda.Xml.MxmlEntity
import Sunda.Xml.MxmlLoad
import Sunda.Xml.MxmlRoundTrip
import Sunda.Xml.MxmlSave
import Sunda.Xml.Xml
import Sunda.Xml.XmlInt
import Sunda.Xml.XmlCompare
import Sunda.Xml.XmlHandle
import Sunda.Base.Slots
import Sunda.Base.Words
import Sunda.Main.Governor.Config
import Sunda.Main.Governor.ServerRecord
import Sunda.Main.Governor.CommandLine
import Sunda.Main.Governor.Tables
import Sunda.Main.Governor.Commands
import Sunda.Main.Governor.Effects
import Sunda.Main.Governor.Starts
import Sunda.Main.Governor.Exits
import Sunda.Main.Governor.Isolation
import Sunda.Main.Governor.Children
import Sunda.Main.Governor.Shutdown
import Sunda.Main.Governor.Capacity
import Sunda.Main.Governor.Registration
import Sunda.Main.Governor.RequestTypes
import Sunda.Main.Governor.Agreement
import Sunda.Main.Governor.Processes
import Sunda.Main.Governor.Counts
import Sunda.Main.Governor.Kills
import Sunda.Main.Governor.LastExits
import Sunda.Main.Governor.CrashRestarts
import Sunda.Main.Governor.StartLines
import Sunda.Main.Governor.Dispatch
import Sunda.Main.Governor.CommandRuns
import Sunda.Tux.ServiceTable
import Sunda.Xml.MxmlCut
import Sunda.Xml.XmlText
import Sunda.Base.Threads
import Sunda.Base.Forest
import Sunda.Xml.MxmlPointers
import Sunda.Xml.MxmlNodeRuns
import Sunda.Xml.MxmlNodeSearch
import Sunda.Base.Ledger
import Sunda.Tux.BusOrder
import Sunda.Xml.XmlNodes
import Sunda.Xml.XmlPointers

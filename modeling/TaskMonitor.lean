import TaskMonitor.Lib.Transition
import TaskMonitor.Lib.History
import TaskMonitor.Lib.Settling
import TaskMonitor.Lib.Keyed
import TaskMonitor.Lib.Grouping
import TaskMonitor.Lib.Register
import TaskMonitor.Lib.DeferredList
import TaskMonitor.Lib.Lines
import TaskMonitor.Lib.Roster
import TaskMonitor.Lib.Text
import TaskMonitor.Lib.Words
import TaskMonitor.Options.Basic
import TaskMonitor.Options.Intervals
import TaskMonitor.Registry.Taskstats
import TaskMonitor.Registry.Entry
import TaskMonitor.Registry.CPUPercent
import TaskMonitor.Registry.StatLine
import TaskMonitor.Registry.Basic
import TaskMonitor.Registry.Delay
import TaskMonitor.Registry.Cells
import TaskMonitor.Registry.Slots
import TaskMonitor.Registry.ProcName
import TaskMonitor.Registry.Calls
import TaskMonitor.Registry.Sound
import TaskMonitor.Registry.Exchange
import TaskMonitor.Registry.LastRequest
import TaskMonitor.Registry.Context
import TaskMonitor.Registry.ContextNames
import TaskMonitor.Registry.ContextTotals
import TaskMonitor.Registry.MemLines
import TaskMonitor.Registry.Requests
import TaskMonitor.Event.World
import TaskMonitor.Event.System
import TaskMonitor.Event.Tracking
import TaskMonitor.Event.Invariants
import TaskMonitor.Event.Agreement
import TaskMonitor.Event.Retention
import TaskMonitor.Event.Recovery
import TaskMonitor.Event.Report
import TaskMonitor.Event.ContextReport
import TaskMonitor.Event.Counts
import TaskMonitor.Event.Calls
import TaskMonitor.Event.Scan
import TaskMonitor.Collector.Basic
import TaskMonitor.Collector.FrontEnds
import TaskMonitor.Collector.Sessions
import TaskMonitor.Connection.System
import TaskMonitor.Connection.Bookkeeping
import TaskMonitor.Connection.Accounting
import TaskMonitor.Connection.Descriptors
import TaskMonitor.Connection.Numbers
import TaskMonitor.Connection.Inactivity
import TaskMonitor.Connection.Delivery
import TaskMonitor.Stat.Parsing
import TaskMonitor.Stat.Source
import TaskMonitor.Stat.Answers
import TaskMonitor.Stat.CPUStat
import TaskMonitor.Stat.CPUIntervals
import TaskMonitor.Stat.SysProcStat
import TaskMonitor.Stat.DiskStats
import TaskMonitor.Stat.Wireless
import TaskMonitor.Stat.MemInfo
import TaskMonitor.Stat.VMStat
import TaskMonitor.Stat.Counters
import TaskMonitor.Stat.OwnLines
import TaskMonitor.Stat.MemPercent
import TaskMonitor.Stat.BuddyInfo
import TaskMonitor.Stat.BuddyLines
import TaskMonitor.Stat.Pressure
import TaskMonitor.Stat.PressureLines
import TaskMonitor.Stat.Devices
import TaskMonitor.Stat.Stores
import TaskMonitor.Stat.Handlers
import TaskMonitor.Monitor.Basic
import TaskMonitor.Monitor.Lanes
import TaskMonitor.Monitor.Startup
import TaskMonitor.Monitor.Daemon
import TaskMonitor.Monitor.Application
import TaskMonitor.Monitor.Whole
import TaskMonitor.Monitor.Answers
import TaskMonitor.Monitor.Delivery
import TaskMonitor.Monitor.Rest

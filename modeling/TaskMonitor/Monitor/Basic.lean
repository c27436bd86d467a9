import TaskMonitor.Collector.Basic
import TaskMonitor.Stat.Answers
import TaskMonitor.Stat.BuddyInfo
import TaskMonitor.Stat.DiskStats
import TaskMonitor.Stat.Pressure
import TaskMonitor.Stat.SysProcStat
import TaskMonitor.Stat.VMStat
import TaskMonitor.Stat.Wireless

/-! The data sources of the application and its start-up data (`Application.cpp`,
`StartupData.cpp`).

The timer of a lane updates the sources of the lane; collectors ask sources; every
source handles its own queue. What CPUs, memory and pressure publish until the
start-up data expires is kept, and a collector that asks for it gets all of it. -/
namespace TaskMonitor
open Lines

/-- The sources of the application with a queue of their own. -/
inductive SysProc where
  | stat | memInfo | pressure | diskStats | buddyInfo | wireless | vmStat
deriving Repr, DecidableEq

namespace SysProc

/-- What an update reads. -/
abbrev Reads : SysProc → Type
  | pressure => String → Option (List (List Char))
  | stat | memInfo | diskStats | buddyInfo | wireless | vmStat => Option (List (List Char))

abbrev Data (F : Type) [Zero F] : SysProc → Type
  | stat => List CPUStat
  | memInfo => SysProcMemInfo
  | pressure => SysProcPressure F
  | diskStats => List DiskStat
  | buddyInfo => List BuddyInfo
  | wireless => List WlanInterface
  | vmStat => SysProcVMStat

abbrev Message (F : Type) [Zero F] : SysProc → Type
  | stat => StatEvent
  | memInfo => SysProcMemInfo
  | pressure => PressureData F
  | diskStats => List DiskStat
  | buddyInfo => List BuddyInfo
  | wireless => List WlanInterface
  | vmStat => SysProcVMStat

/-- The library functions that sources call: `std::stof`, whose float has no model here, and `tkm::jnkHsh`. -/
structure Calls (F : Type) where
  stof : List Char → Option F
  jnkHsh : List Char → UInt64

def kind {F : Type} [Zero F] (calls : Calls F) : (m : SysProc) → SourceKind m.Reads (m.Data F) (m.Message F)
  | stat => SysProcStat.kind
  | memInfo => SysProcMemInfo.kind
  | pressure => SysProcPressure.kind calls.stof
  | diskStats => SysProcDiskStats.kind
  | buddyInfo => SysProcBuddyInfo.kind calls.jnkHsh
  | wireless => SysProcWireless.kind
  | vmStat => SysProcVMStat.kind

/-- The lane that the application sets. -/
def updateLane : SysProc → UpdateLane
  | stat | memInfo => .fast
  | pressure | diskStats => .pace
  | buddyInfo | wireless | vmStat => .slow

/-- Whether the application has made the source. -/
def present (app : App) : SysProc → Bool
  | stat => app.sysProcStat
  | memInfo => app.sysProcMemInfo
  | pressure => app.sysProcPressure
  | diskStats => app.sysProcDiskStats
  | buddyInfo => app.sysProcBuddyInfo
  | wireless => app.sysProcWireless
  | vmStat => app.withVMStat && app.sysProcVMStat

end SysProc

/-! ### Start-up data -/

/-- The seconds of the two clocks. -/
structure Clock where
  realtime : Int
  monotonic : Int
deriving Repr, DecidableEq

/-- `CPUStartupData`, `MEMStartupData` and `PSIStartupData`: a message, and when it was kept. -/
structure StartupSample (M : Type) where
  data : M
  monotonicTime : Int
  systemTime : Int
deriving Repr, DecidableEq

/-- The payload and what it is. -/
inductive StartupPayload (F : Type) [Zero F] where
  | sysProcStat (data : StatEvent)
  | sysProcMemInfo (data : SysProcMemInfo)
  | sysProcPressure (data : PressureData F)
deriving Repr, DecidableEq

/-- A message that is sent of the start-up data. -/
structure StartupMessage (F : Type) [Zero F] where
  systemTimeSec : UInt64
  monotonicTimeSec : UInt64
  payload : StartupPayload F
deriving Repr, DecidableEq

structure StartupData (F : Type) [Zero F] where
  cpuList : List (StartupSample StatEvent) := []
  memList : List (StartupSample SysProcMemInfo) := []
  psiList : List (StartupSample (PressureData F)) := []
  expired : Bool := false
deriving Repr, DecidableEq

variable {F C : Type} [Zero F]

/-- The sample that is made of a message. -/
def StartupSample.make {M : Type} (data : M) (now : Clock) : StartupSample M := ⟨data, now.monotonic, now.realtime⟩

/-- The times are sent as unsigned numbers. -/
def StartupMessage.ofSample {M : Type} (payload : M → StartupPayload F) (sample : StartupSample M) : StartupMessage F :=
  ⟨UInt64.ofInt sample.systemTime, UInt64.ofInt sample.monotonicTime, payload sample.data⟩

namespace StartupData

def dropData (s : StartupData F) : StartupData F :=
  if !s.expired then {cpuList := [], memList := [], psiList := [], expired := true} else s

def addCpuData (data : StatEvent) (now : Clock) (s : StartupData F) : StartupData F :=
  if !s.expired then {s with cpuList := s.cpuList ++ [.make data now]} else s

def addMemData (data : SysProcMemInfo) (now : Clock) (s : StartupData F) : StartupData F :=
  if !s.expired then {s with memList := s.memList ++ [.make data now]} else s

def addPsiData (data : PressureData F) (now : Clock) (s : StartupData F) : StartupData F :=
  if !s.expired then {s with psiList := s.psiList ++ [.make data now]} else s

/-- What is sent to a collector that asks: CPUs, then memory, then pressure. -/
def doCollectAndSend (s : StartupData F) : List (StartupMessage F) :=
  if s.expired then []
  else s.cpuList.map (.ofSample .sysProcStat) ++ s.memList.map (.ofSample .sysProcMemInfo) ++
    s.psiList.map (.ofSample .sysProcPressure)

/-- What a source that has published a message adds; only three of the sources add theirs. -/
def add (now : Clock) (s : StartupData F) : (m : SysProc) → m.Message F → StartupData F
  | .stat, data => if !s.expired then s.addCpuData data now else s
  | .memInfo, data => if !s.expired then s.addMemData data now else s
  | .pressure, data => if !s.expired then s.addPsiData data now else s
  | .diskStats, _ | .buddyInfo, _ | .wireless, _ | .vmStat, _ => s

end StartupData

/-! ### The sources together -/

structure Monitor (F C : Type) [Zero F] where
  source : (m : SysProc) → Source (m.Data F) C (m.Message F)
  /-- There is none where it is not built in, not enabled or not in profiling mode. -/
  startupData : Option (StartupData F) := none
  /-- The collectors whose requests are in the queue of the start-up data. -/
  startupQueue : List C := []
  startupSent : List (C × StartupMessage F) := []

namespace Monitor

inductive Label (C : Type) where
  /-- The timer of a lane; `pushed` is whether the push to a source is successful. -/
  | tick (lane : UpdateLane) (pushed : SysProc → Bool)
  /-- A collector asks a source. -/
  | ask (m : SysProc) (collector : C) (pushed : Bool)
  | dispatch (m : SysProc) (reads : m.Reads) (now : Clock)
  /-- A collector asks for the start-up data. -/
  | askStartup (collector : C) (pushed : Bool)
  | dispatchStartup
  /-- The start-up data is dropped by its timer. -/
  | expire

/-- The message of the source after the update that it handles, if it handles one with success. -/
def published (calls : SysProc.Calls F) (s : Monitor F C) (m : SysProc) (reads : m.Reads) : Option (m.Message F) :=
  match (s.source m).queue with
  | .updateStats :: _ => ((m.kind calls).updated (s.source m).data reads).map (m.kind calls).collect
  | _ => none

/-- The start-up data takes what was published, where there is any of either. -/
def keep (now : Clock) (m : SysProc) (message : Option (m.Message F)) (s : Option (StartupData F)) :
    Option (StartupData F) :=
  match s, message with
  | some s, some message => some (s.add now m message)
  | s, _ => s

def tick (app : App) (lane : UpdateLane) (pushed : SysProc → Bool) (s : Monitor F C) : Monitor F C :=
  {s with source := fun m =>
    if m.present app && decide (m.updateLane = lane) then ((s.source m).update (pushed m)).1 else s.source m}

def step (app : App) (calls : SysProc.Calls F) (s : Monitor F C) : Label C → Option (Monitor F C)
  | .tick lane pushed => some (s.tick app lane pushed)
  | .ask m collector pushed =>
    if m.present app then
      some {s with
        source := Function.update s.source m ((s.source m).pushRequest (.collectAndSend collector) pushed).1}
    else some s
  | .dispatch m reads now =>
    (Source.step (m.kind calls) (s.source m) (.dispatch reads)).map fun src =>
      {s with
        source := Function.update s.source m src
        startupData := keep now m (s.published calls m reads) s.startupData}
  | .askStartup collector pushed =>
    some (if s.startupData.isSome && pushed then {s with startupQueue := s.startupQueue ++ [collector]} else s)
  | .dispatchStartup =>
    match s.startupQueue with
    | [] => none
    | collector :: rest =>
      some {s with
        startupQueue := rest
        startupSent := s.startupSent ++
          ((s.startupData.map StartupData.doCollectAndSend).getD []).map fun message => (collector, message)}
  | .expire => some {s with startupData := s.startupData.map StartupData.dropData}

/-- The sources as constructed; of pressure there is a record for each file. -/
def initialData (pressureFile : String → Bool) : (m : SysProc) → m.Data F
  | .stat => []
  | .memInfo => {}
  | .pressure => {entries := (["cpu", "memory", "io"].filter pressureFile).map fun name => {name := name}}
  | .diskStats => []
  | .buddyInfo => []
  | .wireless => []
  | .vmStat => {}

def start (app : App) (pressureFile : String → Bool) : Monitor F C where
  source := fun m => {data := initialData pressureFile m}
  startupData := if app.withStartupData && app.startupData then some {} else none

end Monitor
end TaskMonitor

import TaskMonitor.Registry.Basic

/-! Collector connections and their requests (`ICollector.h`, `TCPCollector.cpp`,
`UDSCollector.cpp`).

A connection reads envelopes until one cannot be answered. Each front end has its
own dispatcher; the handlers behind the two read the same. A request carries what
the code gets from elsewhere while it handles it: the new descriptor id that the
hash yields, and whether the push or the write succeeds. -/
namespace TaskMonitor

abbrev Id := List Char

inductive DataSource where
  | procInfo | contextInfo | procEvent | procAcct | sysProcStat | sysProcMemInfo | sysProcPressure
  | sysProcDiskStats | sysProcBuddyInfo | sysProcWireless | sysProcVMStat
deriving Repr, DecidableEq

structure SessionInfo where
  libtkmVersion : List Char := []
  hash : Id := []
  coreCount : UInt32 := 0
  keepAliveInterval : UInt64 := 0
  fastLaneInterval : UInt64 := 0
  paceLaneInterval : UInt64 := 0
  slowLaneInterval : UInt64 := 0
  fastLaneSources : List DataSource := []
  paceLaneSources : List DataSource := []
  slowLaneSources : List DataSource := []
deriving Repr, DecidableEq

/-- What the handlers read of the application: build switches, which modules exist, intervals. -/
structure App where
  withStartupData : Bool
  withProcEvent : Bool
  withProcAcct : Bool
  withVMStat : Bool
  startupData : Bool
  procEvent : Bool
  procAcct : Bool
  sysProcStat : Bool
  sysProcMemInfo : Bool
  sysProcPressure : Bool
  sysProcDiskStats : Bool
  sysProcBuddyInfo : Bool
  sysProcWireless : Bool
  sysProcVMStat : Bool
  fastLaneInterval : UInt64
  paceLaneInterval : UInt64
  slowLaneInterval : UInt64
  collectorInactiveTimeout : UInt64
  coreCount : UInt32
  libtkmVersion : List Char

namespace Collector

inductive CollectorType where
  | TCP | UDS
deriving Repr, DecidableEq

inductive RequestType where
  | createSession | getStartupData | getProcAcct | getProcInfo | getContextInfo | getProcEventStats
  | getSysProcMemInfo | getSysProcDiskStats | getSysProcStat | getSysProcPressure
  | getSysProcBuddyInfo | getSysProcWireless | getSysProcVMStat | keepAlive
  | unknown (type : Nat)
deriving Repr, DecidableEq

structure Request where
  type : RequestType
  /-- The descriptor id that the hash of the old one and of random data yields. -/
  newId : Id → Id
  /-- Whether the push or the write that it leads to succeeds. -/
  ok : Bool

/-- A request to a module's queue, to answer this collector. -/
inductive ModuleRequest where
  | startupData
  | procRegistry (action : Registry.Action)
  | procEvent | sysProcMemInfo | sysProcDiskStats | sysProcStat | sysProcPressure
  | sysProcBuddyInfo | sysProcWireless | sysProcVMStat
deriving Repr, DecidableEq

/-- What a request leads to. -/
inductive Reaction where
  | none
  | push (rq : ModuleRequest)
  | setSession (info : SessionInfo)
deriving Repr, DecidableEq

/-- What the module's queue takes, if the push succeeds. -/
def Reaction.queued : Reaction → List ModuleRequest
  | .push rq => [rq]
  | .none | .setSession _ => []

end Collector

structure Collector where
  descriptorId : Id := []
  sessionInfo : SessionInfo := {}
deriving Repr, DecidableEq

namespace Collector

/-! ### Handlers -/

def addIf (present : Bool) (d : DataSource) (sources : List DataSource) : List DataSource :=
  if present then sources ++ [d] else sources

/-- The sources are appended to those the record has. -/
def addSources (app : App) (info : SessionInfo) : SessionInfo :=
  {info with
    fastLaneSources :=
      addIf app.sysProcMemInfo .sysProcMemInfo <|
      addIf app.sysProcStat .sysProcStat info.fastLaneSources
    paceLaneSources :=
      addIf app.sysProcDiskStats .sysProcDiskStats <|
      addIf app.sysProcPressure .sysProcPressure <|
      addIf (app.withProcEvent && app.procEvent) .procEvent <|
      addIf true .contextInfo <|
      addIf true .procInfo info.paceLaneSources
    slowLaneSources :=
      addIf (app.withVMStat && app.sysProcVMStat) .sysProcVMStat <|
      addIf app.sysProcWireless .sysProcWireless <|
      addIf app.sysProcBuddyInfo .sysProcBuddyInfo <|
      addIf (app.withProcAcct && app.procAcct) .procAcct info.slowLaneSources}

def doCreateSession (app : App) (rq : Request) (c : Collector) : Collector × Reaction × Bool :=
  let id := rq.newId c.descriptorId
  let info := addSources app
    {c.sessionInfo with
      libtkmVersion := app.libtkmVersion
      hash := id
      coreCount := app.coreCount
      keepAliveInterval := app.collectorInactiveTimeout
      fastLaneInterval := app.fastLaneInterval
      paceLaneInterval := app.paceLaneInterval
      slowLaneInterval := app.slowLaneInterval}
  ({descriptorId := id, sessionInfo := info}, .setSession info, rq.ok)

/-- A request is pushed where its module exists; one for a module that does not is ignored. -/
def pushTo (present : Bool) (mrq : ModuleRequest) (rq : Request) : Reaction × Bool :=
  if present then (.push mrq, rq.ok) else (.none, true)

def doGetStartupData (app : App) : Request → Reaction × Bool :=
  pushTo (app.withStartupData && app.startupData) .startupData
def doGetProcAcct (app : App) : Request → Reaction × Bool :=
  pushTo (app.withProcAcct && app.procAcct) (.procRegistry .collectAndSendProcAcct)
def doGetProcInfo (_ : App) : Request → Reaction × Bool :=
  pushTo true (.procRegistry .collectAndSendProcInfo)
def doGetContextInfo (_ : App) : Request → Reaction × Bool :=
  pushTo true (.procRegistry .collectAndSendContextInfo)
def doGetProcEventStats (app : App) : Request → Reaction × Bool :=
  pushTo (app.withProcEvent && app.procEvent) .procEvent
def doGetSysProcMemInfo (app : App) : Request → Reaction × Bool :=
  pushTo app.sysProcMemInfo .sysProcMemInfo
def doGetSysProcDiskStats (app : App) : Request → Reaction × Bool :=
  pushTo app.sysProcDiskStats .sysProcDiskStats
def doGetSysProcStat (app : App) : Request → Reaction × Bool := pushTo app.sysProcStat .sysProcStat
def doGetSysProcPressure (app : App) : Request → Reaction × Bool :=
  pushTo app.sysProcPressure .sysProcPressure
def doGetSysProcBuddyInfo (app : App) : Request → Reaction × Bool :=
  pushTo app.sysProcBuddyInfo .sysProcBuddyInfo
def doGetSysProcWireless (app : App) : Request → Reaction × Bool :=
  pushTo app.sysProcWireless .sysProcWireless
def doGetSysProcVMStat (app : App) : Request → Reaction × Bool :=
  pushTo app.sysProcVMStat .sysProcVMStat

/-! ### Dispatchers -/

def dispatchTCP (app : App) (rq : Request) (c : Collector) : Collector × Reaction × Bool :=
  match rq.type with
  | .createSession => doCreateSession app rq c
  | .getStartupData => (c, doGetStartupData app rq)
  | .getProcAcct => (c, doGetProcAcct app rq)
  | .getProcInfo => (c, doGetProcInfo app rq)
  | .getContextInfo => (c, doGetContextInfo app rq)
  | .getProcEventStats => (c, doGetProcEventStats app rq)
  | .getSysProcMemInfo => (c, doGetSysProcMemInfo app rq)
  | .getSysProcDiskStats => (c, doGetSysProcDiskStats app rq)
  | .getSysProcStat => (c, doGetSysProcStat app rq)
  | .getSysProcPressure => (c, doGetSysProcPressure app rq)
  | .getSysProcBuddyInfo => (c, doGetSysProcBuddyInfo app rq)
  | .getSysProcWireless => (c, doGetSysProcWireless app rq)
  | .getSysProcVMStat => (c, if app.withVMStat then doGetSysProcVMStat app rq else (.none, true))
  | .keepAlive => (c, .none, true)
  | .unknown _ => (c, .none, false)

/-- There is no case for `getStartupData`, which ends as an unknown type does. -/
def dispatchUDS (app : App) (rq : Request) (c : Collector) : Collector × Reaction × Bool :=
  match rq.type with
  | .createSession => doCreateSession app rq c
  | .getProcAcct => (c, doGetProcAcct app rq)
  | .getProcInfo => (c, doGetProcInfo app rq)
  | .getContextInfo => (c, doGetContextInfo app rq)
  | .getProcEventStats => (c, doGetProcEventStats app rq)
  | .getSysProcMemInfo => (c, doGetSysProcMemInfo app rq)
  | .getSysProcDiskStats => (c, doGetSysProcDiskStats app rq)
  | .getSysProcStat => (c, doGetSysProcStat app rq)
  | .getSysProcPressure => (c, doGetSysProcPressure app rq)
  | .getSysProcBuddyInfo => (c, doGetSysProcBuddyInfo app rq)
  | .getSysProcWireless => (c, doGetSysProcWireless app rq)
  | .getSysProcVMStat => (c, if app.withVMStat then doGetSysProcVMStat app rq else (.none, true))
  | .keepAlive => (c, .none, true)
  | .getStartupData | .unknown _ => (c, .none, false)

def dispatch : CollectorType → App → Request → Collector → Collector × Reaction × Bool
  | .TCP => dispatchTCP
  | .UDS => dispatchUDS

/-! ### The read callback -/

/-- What the reader yields before it has nothing more. -/
inductive Received where
  | error
  | endOfFile
  /-- An envelope, and whether its origin is a collector. -/
  | envelope (fromCollector : Bool) (rq : Request)

/-- What one run of the callback leaves: the collector, what its requests led to, those that the
modules have queued, whether one was answered, whether the callback closed the descriptor itself,
and whether the event source stays. -/
structure Outcome where
  collector : Collector
  reactions : List Reaction := []
  queued : List ModuleRequest := []
  answered : Bool := false
  closed : Bool := false
  stays : Bool

def callback (type : CollectorType) (app : App) (c : Collector) : List Received → Outcome
  | [] => {collector := c, stays := true}
  | .error :: _ | .endOfFile :: _ => {collector := c, stays := false}
  | .envelope false _ :: _ => {collector := c, closed := true, stays := false}
  | .envelope true rq :: rest =>
    let (c', reaction, status) := dispatch type app rq c
    if status then
      let out := callback type app c' rest
      {out with
        reactions := reaction :: out.reactions
        queued := reaction.queued ++ out.queued
        answered := true}
    else {collector := c', reactions := [reaction], stays := false}

/-- The reactions to the requests of a connection, each with whether the connection is kept. -/
def serve (type : CollectorType) (app : App) (c : Collector) : List Request → List (Reaction × Bool)
  | [] => []
  | rq :: rest =>
    let out := dispatch type app rq c
    out.2 :: if out.2.2 then serve type app out.1 rest else []

/-- Every module exists. -/
def fullApp : App where
  withStartupData := true
  withProcEvent := true
  withProcAcct := true
  withVMStat := true
  startupData := true
  procEvent := true
  procAcct := true
  sysProcStat := true
  sysProcMemInfo := true
  sysProcPressure := true
  sysProcDiskStats := true
  sysProcBuddyInfo := true
  sysProcWireless := true
  sysProcVMStat := true
  fastLaneInterval := 1000000
  paceLaneInterval := 5000000
  slowLaneInterval := 10000000
  collectorInactiveTimeout := 10000000
  coreCount := 4
  libtkmVersion := ['2']

/-- A request that succeeds, its session hash a constant. -/
def request (type : RequestType) : Request := ⟨type, fun _ => ['h'], true⟩

end Collector
end TaskMonitor

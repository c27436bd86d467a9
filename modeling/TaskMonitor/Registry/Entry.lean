import TaskMonitor.Registry.Taskstats
import Mathlib.Logic.Function.Basic

/-! The entries of the registry and what procfs says of a process.

`Env` is one reading of the outside: for every pid what an attempt on each of
its files yields (`none` is a failed one), the container runtime, the clock, and
whether a taskstats request to it can be sent. A file is given by what the code
takes from it: the name `getProcNameForPID` returns, the parsed fields of the
stat line, the parsed lines of `smaps_rollup`, the number of descriptors. -/
namespace TaskMonitor

abbrev Pid := Nat
abbrev Name := List Char

/-- The fields of `/proc/<pid>/stat` that are read. -/
structure Stat where
  pid : UInt32
  ppid : UInt32
  utime : UInt64
  stime : UInt64
deriving Repr, DecidableEq

/-- What the lines of `/proc/<pid>/smaps_rollup` set, and whether all could be parsed. -/
structure Smaps where
  rss : Option UInt64
  pss : Option UInt64
  parsed : Bool
deriving Repr, DecidableEq

/-- What an attempt on each file of a process yields. -/
structure Files where
  status : Option Name
  stat : Option Stat
  smapsRollup : Option Smaps
  fd : Option Nat

/-- An active container, as the container library lists it. -/
structure Container where
  name : Option Name
  running : Bool
  initPid : Pid

structure Env where
  /-- The pid directories of `/proc`, as listed. -/
  pids : List Pid
  files : Pid → Files
  /-- Whether a taskstats request for the pid can be sent. -/
  taskstats : Pid → Bool
  contextId : Pid → UInt64
  containers : List Container
  /-- Nanoseconds of the steady clock. -/
  now : Int
  /-- Collectors that asked for accounting. -/
  procAcctCollectorCounter : UInt16

/-- Build switches and options that the registry reads. -/
structure Config where
  /-- The keys of the `blacklist` section; none without a configuration file. -/
  blacklist : List Name
  withProcEvent : Bool
  withProcAcct : Bool
  withLXC : Bool
  /-- Whether the ProcEvent and ProcAcct modules exist. -/
  procEvent : Bool
  procAcct : Bool
  updateOnProcEvent : Bool
  enableProcFDCount : Bool
  /-- Whether the daemon runs as root. -/
  root : Bool

/-- A build with nothing switched on, and no blacklist. -/
def plainConfig (root : Bool) : Config where
  blacklist := []
  withProcEvent := false
  withProcAcct := false
  withLXC := false
  procEvent := false
  procAcct := false
  updateOnProcEvent := false
  enableProcFDCount := false
  root := root

def unknownName : Name := ['u', 'n', 'k', 'n', 'o', 'w', 'n']
def rootName : Name := ['r', 'o', 'o', 't']
def genericName : Name := ['g', 'e', 'n', 'e', 'r', 'i', 'c']

/-! ### Context names (`Helpers.cpp`) -/

def getContainerNameForContext (env : Env) (ctxId : UInt64) : Name :=
  let holds (c : Container) : Option Name :=
    c.name.filter fun _ => c.running && env.contextId c.initPid == ctxId
  (env.containers.findSome? holds).getD unknownName

def getContextName (cfg : Config) (env : Env) (ctxId : UInt64) : Name :=
  if ctxId == env.contextId 1 then rootName
  else if cfg.withLXC then getContainerNameForContext env ctxId
  else unknownName

/-! ### Process entries (`ProcEntry.cpp`) -/

structure ProcInfoEntry where
  pid : UInt32 := 0
  ppid : UInt32 := 0
  ctxId : UInt64 := 0
  ctxName : Name := []
  comm : Name := []
  cpuTime : UInt64 := 0
  cpuPercent : UInt32 := 0
  memRss : UInt64 := 0
  memPss : UInt64 := 0
  fdCount : UInt32 := 0
deriving Repr, DecidableEq

structure ProcEntry where
  pid : Pid
  info : ProcInfoEntry
  acct : ProcAcct := {}
  /-- Nanoseconds; 0 before the first update. -/
  lastUpdateTime : Int := 0
  updatePending : Bool := false
  updateProcAcctPending : Bool := false
  contextNameResolveCount : UInt64 := 0
deriving Repr, DecidableEq

def contextNameMaxRetry : UInt64 := 10

namespace ProcEntry

def getName (e : ProcEntry) : Name := e.info.comm
def getContextId (e : ProcEntry) : UInt64 := e.info.ctxId
def setName (e : ProcEntry) (name : Name) : ProcEntry := {e with info := {e.info with comm := name}}
def setAcct (e : ProcEntry) (acct : ProcAcct) : ProcEntry := {e with acct := acct}
def setUpdateProcAcctPending (e : ProcEntry) (state : Bool) : ProcEntry := {e with updateProcAcctPending := state}

/-- The context of a process is looked up by root only. -/
def initContext (cfg : Config) (env : Env) (pid : Pid) (info : ProcInfoEntry) : ProcInfoEntry :=
  if cfg.root then
    {info with ctxId := env.contextId pid, ctxName := getContextName cfg env (env.contextId pid)}
  else {info with ctxId := 0, ctxName := genericName}

/-- `none` where the stat file cannot be opened, read or parsed, which throws. -/
def initInfoData (cfg : Config) (env : Env) (pid : Pid) (info : ProcInfoEntry) : Option ProcInfoEntry :=
  (env.files pid).stat.map fun st =>
    initContext cfg env pid {info with pid := st.pid, ppid := st.ppid, cpuTime := st.utime + st.stime}

/-- The constructor. -/
def make (cfg : Config) (env : Env) (pid : Pid) (name : Name) : Option ProcEntry :=
  (initInfoData cfg env pid {comm := name}).map fun info => {pid := pid, info := info}

def readProcStat (env : Env) (e : ProcEntry) : ProcEntry × Bool :=
  match (env.files e.pid).stat with
  | none => (e, false)
  | some st =>
    let newCPUTime := st.utime + st.stime
    if e.lastUpdateTime == 0 then
      ({e with lastUpdateTime := env.now, info := {e.info with cpuTime := newCPUTime, cpuPercent := 0}},
        true)
    else
      let durationUs := UInt64.ofInt ((env.now - e.lastUpdateTime).tdiv 1000)
      let percent := ((newCPUTime - e.info.cpuTime) * 1000000 / durationUs).toUInt32
      ({e with
        lastUpdateTime := env.now
        info := {e.info with cpuTime := newCPUTime, cpuPercent := percent}}, true)

def readProcSmapsRollup (env : Env) (e : ProcEntry) : ProcEntry × Bool :=
  match (env.files e.pid).smapsRollup with
  | none => (e, false)
  | some m =>
    ({e with info := {e.info with memRss := m.rss.getD e.info.memRss, memPss := m.pss.getD e.info.memPss}},
      m.parsed)

def countFileDescriptors (env : Env) (e : ProcEntry) : ProcEntry × Bool :=
  match (env.files e.pid).fd with
  | none => (e, false)
  | some n => ({e with info := {e.info with fdCount := UInt32.ofNat n}}, true)

/-- A read that throws ends the update as one that fails does. -/
def updateInfoData (cfg : Config) (env : Env) (e : ProcEntry) : ProcEntry × Bool :=
  let (e, status) := e.readProcStat env
  if !status then (e, false) else
    let (e, status) := e.readProcSmapsRollup env
    if !status then (e, false) else
      if cfg.enableProcFDCount then e.countFileDescriptors env else (e, true)

/-- With containers, an unresolved context is looked up again a bounded number of times. -/
def resolveContext (cfg : Config) (env : Env) (e : ProcEntry) : ProcEntry :=
  if cfg.withLXC then
    let retry := e.contextNameResolveCount < contextNameMaxRetry
    let e := {e with contextNameResolveCount := e.contextNameResolveCount + 1}
    if retry ∧ e.info.ctxName = unknownName then
      let id := env.contextId e.pid
      {e with info := {e.info with ctxId := id, ctxName := getContextName cfg env id}}
    else e
  else e

/-- The entry after `updateProcInfo` and its status; a failing entry is removed by the caller. -/
def updateProcInfo (cfg : Config) (env : Env) (e : ProcEntry) : ProcEntry × Bool :=
  if e.updatePending then (e, true) else
    let (e, status) := ({e with updatePending := true}.resolveContext cfg env).updateInfoData cfg env
    ({e with updatePending := false}, status)

/-- The entry after `updateProcAcct`, whether a request was issued for it, and the status. -/
def updateProcAcct (env : Env) (e : ProcEntry) : ProcEntry × Bool × Bool :=
  if env.procAcctCollectorCounter == 0 then (e, false, true)
  else if e.updateProcAcctPending then (e, false, true)
  else ({e with updateProcAcctPending := true}, true, env.taskstats e.pid)

end ProcEntry

/-! ### Context entries (`ContextEntry.cpp`) -/

structure ContextInfoEntry where
  ctxId : UInt64 := 0
  ctxName : Name := []
  totalCpuTime : UInt64 := 0
  totalCpuPercent : UInt32 := 0
  totalMemRss : UInt64 := 0
  totalMemPss : UInt64 := 0
deriving Repr, DecidableEq

namespace ContextInfoEntry

def make (id : UInt64) (name : Name) : ContextInfoEntry := {ctxId := id, ctxName := name}

def resetData (c : ContextInfoEntry) : ContextInfoEntry :=
  {c with totalCpuTime := 0, totalCpuPercent := 0, totalMemRss := 0, totalMemPss := 0}

/-- The totals with one more process. -/
def add (c : ContextInfoEntry) (p : ProcInfoEntry) : ContextInfoEntry :=
  {c with
    totalCpuTime := c.totalCpuTime + p.cpuTime
    totalCpuPercent := c.totalCpuPercent + p.cpuPercent
    totalMemRss := c.totalMemRss + p.memRss
    totalMemPss := c.totalMemPss + p.memPss}

end ContextInfoEntry

end TaskMonitor

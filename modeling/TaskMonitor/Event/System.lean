import TaskMonitor.Lib.Transition
import TaskMonitor.Event.World

/-! The daemon among the processes it tracks (`ProcEvent.cpp`).

Processes fork, exec and exit on their own. The kernel queues an event of each on
the netlink socket, or loses it for want of buffers, and then the next receive
fails with ENOBUFS. The daemon handles one event, one request or one lane at a
time, and what it reads of procfs is the world at that moment. -/
namespace TaskMonitor

/-- The events of the process connector, with the fields that are read. -/
inductive ProcEvent where
  | none
  | fork (parentPid parentTgid childPid childTgid : Pid)
  | exec (processPid processTgid : Pid)
  | uid (processPid processTgid : Pid)
  | gid (processPid processTgid : Pid)
  | exit (processPid processTgid : Pid)
  | other
deriving Repr, DecidableEq

/-- What `recv` on the netlink socket yields. -/
inductive Recv where
  | closed
  | message (ev : ProcEvent)
  | noBuffers
  | error

/-- How many events of each kind were received. The message comes with the client library; its counters are taken to
be of 64 bits, behind which they wrap. -/
structure EventData where
  forkCount : UInt64 := 0
  execCount : UInt64 := 0
  uidCount : UInt64 := 0
  gidCount : UInt64 := 0
  exitCount : UInt64 := 0
deriving Repr, DecidableEq

def EventData.count (ev : ProcEvent) (d : EventData) : EventData :=
  match ev with
  | .fork .. => {d with forkCount := d.forkCount + 1}
  | .exec .. => {d with execCount := d.execCount + 1}
  | .uid .. => {d with uidCount := d.uidCount + 1}
  | .gid .. => {d with gidCount := d.gidCount + 1}
  | .exit .. => {d with exitCount := d.exitCount + 1}
  | .none | .other => d

structure System (L : Type → Type) where
  world : World
  /-- Events delivered and not yet received. -/
  socket : List ProcEvent := []
  /-- An event was lost, and no receive has reported it yet. -/
  overflow : Bool := false
  /-- `UpdateProcessList` requests in the queue of the state manager. -/
  rescans : Nat := 0
  registry : Registry L
  eventData : EventData := {}

namespace System

variable {L : Type → Type} [DeferredList L]

/-! ### The daemon -/

/-- What an event does to the registry; thread events are passed over. -/
def handleEvent (cfg : Config) (env : Env) (ev : ProcEvent) (r : Registry L) : Registry L :=
  match ev with
  | .fork _ _ childPid childTgid =>
    if childPid == childTgid && cfg.updateOnProcEvent then r.addProcEntry cfg env childTgid else r
  | .exec processPid _ => if cfg.updateOnProcEvent then r.updProcEntry cfg env processPid else r
  | .exit processPid processTgid =>
    if processPid == processTgid && cfg.updateOnProcEvent then r.remProcEntry processPid true else r
  | .none | .uid .. | .gid .. | .other => r

/-- The callback of the event source, and whether the source stays. -/
def callback (cfg : Config) (env : Env) (rv : Recv) (s : System L) : System L × Bool :=
  match rv with
  | .closed => (s, true)
  | .error => (s, false)
  | .noBuffers => ({s with rescans := s.rescans + 1}, true)
  | .message ev =>
    ({s with registry := handleEvent cfg env ev s.registry, eventData := s.eventData.count ev}, true)

/-! ### Steps -/

inductive Label where
  /-- What processes do; `lost` where the event finds no buffer. -/
  | fork (parent child : Pid) (ctx : UInt64) (lost : Bool)
  | exec (pid : Pid) (name : Name) (lost : Bool)
  | exit (pid reaper : Pid) (lost : Bool)
  /-- Any event that starts, renames or ends no process. -/
  | other (ev : ProcEvent) (lost : Bool)
  | recv (x : Readings)
  | noBuffers (x : Readings)
  /-- The state manager handles `UpdateProcessList`. -/
  | updateProcessList (x : Readings)
  | lane (lane : UpdateLane) (x : Readings)
  /-- A taskstats reply. -/
  | reply (record : Taskstats)
  | collect (rq : Registry.Request)
  | dispatch

/-- What starts, changes or ends a process, and not a thread. An exit is taken to end the process when its pid is the
thread group's: the kernel also sends that of a first thread which its process outlives. -/
def isProcessEvent : ProcEvent → Bool
  | .fork _ _ childPid childTgid => childPid == childTgid
  | .exec .. => true
  | .exit processPid processTgid => processPid == processTgid
  | .none | .uid .. | .gid .. | .other => false

def isCommit : Registry.Action → Bool
  | .commitProcList | .commitContextList => true
  | _ => false

/-- The kernel queues an event or loses it. -/
def deliver (ev : ProcEvent) (lost : Bool) (s : System L) : System L :=
  if lost then {s with overflow := true} else {s with socket := s.socket ++ [ev]}

def step (cfg : Config) (s : System L) : Label → Option (System L)
  | .fork parent child ctx lost =>
    (s.world.fork parent child ctx).map fun w =>
      deliver (.fork parent parent child child) lost {s with world := w}
  | .exec pid name lost =>
    (s.world.exec pid name).map fun w => deliver (.exec pid pid) lost {s with world := w}
  | .exit pid reaper lost =>
    (s.world.exit pid reaper).map fun w => deliver (.exit pid pid) lost {s with world := w}
  | .other ev lost => if isProcessEvent ev then none else some (deliver ev lost s)
  | .recv x =>
    match s.socket with
    | [] => none
    | ev :: rest => some (callback cfg (s.world.env x) (.message ev) {s with socket := rest}).1
  | .noBuffers x =>
    if s.overflow then some (callback cfg (s.world.env x) .noBuffers {s with overflow := false}).1 else none
  | .updateProcessList x =>
    match s.rescans with
    | 0 => none
    | n + 1 => some {s with rescans := n, registry := s.registry.updateProcessList cfg (s.world.env x)}
  | .lane lane x => some {s with registry := s.registry.update cfg (s.world.env x) lane}
  | .reply record => some {s with registry := s.registry.processDelayAcct record}
  | .collect rq => if isCommit rq.action then none else some {s with registry := s.registry.pushRequest rq}
  | .dispatch => (s.registry.dispatch cfg).map fun out => {s with registry := out.1}

/-- The daemon has started and read procfs. -/
def start (cfg : Config) (w : World) (x : Readings) : System L :=
  {world := w, registry := Registry.initFromProc cfg (w.env x) Registry.empty}

/-- What a step reads of procfs. -/
def Label.reads : Label → Option Readings
  | .recv x | .updateProcessList x | .lane _ x => some x
  | _ => none

/-- The events a step loses. -/
def Label.lost : Label → Bool
  | .fork _ _ _ lost | .exec _ _ lost | .exit _ _ lost | .other _ lost => lost
  | _ => false

/-- Every read of the step about the pid succeeds. -/
def Label.ReliableFor (l : Label) (pid : Pid) : Prop := ∀ x, l.reads = some x → x.ReliableFor pid

/-- Every read of the step about a live process succeeds. -/
def Reliable (s : System L) (l : Label) : Prop := ∀ pid, (s.world.find pid).isSome → l.ReliableFor pid

/-- All events were received, and no scan is due. -/
def Drained (s : System L) : Prop := s.socket = [] ∧ s.overflow = false ∧ s.rescans = 0

end System
end TaskMonitor

import TaskMonitor.Collector.Basic
import TaskMonitor.Lib.DeferredList
import TaskMonitor.Lib.Transition

/-! Connections, from accept to destruction (`TCPServer.cpp`, `UDSServer.cpp`,
`ICollector.h`, `StateManager.cpp`).

A server accepts a descriptor, reads who connects and adds a collector to the
event loop. A collector that leaves the loop is finalized: the state manager is
asked to drop it from its list. When the loop, the list and every queue have
dropped it, the destructor disconnects. Any number that is closed may be what
the next accept returns. -/
namespace TaskMonitor

/-- The fixed part of a collector object, by which references to it compare. -/
structure ICollector where
  /-- How many accepts came before its own. -/
  number : Nat
  type : Collector.CollectorType
  fd : Nat
deriving Repr, DecidableEq

namespace StateManager

inductive Action where
  | monitorCollector | removeCollector | updateWakeLock | updateProcessList
deriving Repr, DecidableEq

structure Request where
  action : Action
  collector : Option ICollector := none
  /-- The `WithEventSource` argument. -/
  withEventSource : Bool := false
deriving Repr, DecidableEq

end StateManager

/-- A call of `close`: for the descriptor of which accept, on which number, and the live collector
whose descriptor had that number. -/
structure Close where
  number : Nat
  fd : Nat
  owner : Option ICollector
deriving Repr, DecidableEq

/-- Build switches, options and files that connections depend on. -/
structure ServiceConfig where
  app : App
  withWakeLock : Bool
  tcpActiveWakeLock : Bool
  udsMonitorCollectorInactivity : Bool
  /-- Whether the files of the wake lock exist under `/sys/power`. -/
  wakeLockFile : Bool
  wakeUnlockFile : Bool

/-- The inactivity of the collector is watched. -/
def ServiceConfig.monitors (cfg : ServiceConfig) (c : ICollector) : Bool :=
  match c.type with
  | .TCP => true
  | .UDS => cfg.udsMonitorCollectorInactivity

structure Service (L : Type → Type) where
  accepts : Nat := 0
  /-- The collectors that are not destroyed. -/
  live : List ICollector := []
  record : ICollector → Collector := fun _ => {}
  lastUpdateTime : ICollector → UInt64 := fun _ => 0
  /-- The open descriptors, and for which collector each was accepted. -/
  owner : Nat → Option ICollector := fun _ => none
  closes : List Close := []
  /-- The collectors registered with the event loop. -/
  loop : List ICollector := []
  activeCollectorList : L ICollector
  queue : List StateManager.Request := []
  /-- The requests at the modules, each for the collector that it answers. -/
  modules : List (ICollector × Collector.ModuleRequest) := []
  activeWakeLock : Bool := false
  /-- The kernel holds the wake lock. -/
  wakeLock : Bool
  procAcctCollectorCounter : UInt16 := 0

namespace Service
open Collector DeferredList

variable {L : Type → Type} [DeferredList L]

/-! ### Descriptors -/

def close (number fd : Nat) (s : Service L) : Service L :=
  {s with
    owner := Function.update s.owner fd none
    closes := s.closes ++ [⟨number, fd, (s.owner fd).filter fun d => decide (d ∈ s.live)⟩]}

def disconnect (c : ICollector) (s : Service L) : Service L :=
  if c.fd > 0 then s.close c.number c.fd else s

/-! ### The event loop -/

def pushRequest (rq : StateManager.Request) (s : Service L) : Service L := {s with queue := s.queue ++ [rq]}

def removal (c : ICollector) (withEventSource : Bool) : StateManager.Request :=
  ⟨.removeCollector, some c, withEventSource⟩

/-- The finalize callback; only that of a `TCPCollector` counts accounting down. -/
def finalize (c : ICollector) (s : Service L) : Service L :=
  let s := s.pushRequest (removal c false)
  match c.type with
  | .TCP => {s with procAcctCollectorCounter := s.procAcctCollectorCounter - 1}
  | .UDS => s

/-- How much a collector of the type counts for accounting. -/
def accounting : CollectorType → UInt16
  | .TCP => 1
  | .UDS => 0

omit [DeferredList L] in
theorem finalize_eq (c : ICollector) (s : Service L) :
    s.finalize c = {s with
      queue := s.queue ++ [removal c false]
      procAcctCollectorCounter := s.procAcctCollectorCounter - accounting c.type} := by
  unfold finalize
  cases c.type with
  | TCP => rfl
  | UDS => simp [pushRequest, accounting]

/-- A source that leaves the loop is finalized. -/
def remEventSource (c : ICollector) (s : Service L) : Service L :=
  if c ∈ s.loop then finalize c {s with loop := s.loop.erase c} else s

/-! ### The servers -/

/-- The constructor, of either type. -/
def construct (c : ICollector) (id : Id) (now : UInt64) (s : Service L) : Service L :=
  let s := {s with
    live := s.live ++ [c]
    record := Function.update s.record c {descriptorId := id}
    lastUpdateTime := Function.update s.lastUpdateTime c now
    owner := Function.update s.owner c.fd (some c)}
  match c.type with
  | .TCP => {s with procAcctCollectorCounter := s.procAcctCollectorCounter + 1}
  | .UDS => s

omit [DeferredList L] in
theorem construct_eq (c : ICollector) (id : Id) (now : UInt64) (s : Service L) :
    s.construct c id now = {s with
      live := s.live ++ [c]
      record := Function.update s.record c {descriptorId := id}
      lastUpdateTime := Function.update s.lastUpdateTime c now
      owner := Function.update s.owner c.fd (some c)
      procAcctCollectorCounter := s.procAcctCollectorCounter + accounting c.type} := by
  unfold construct
  cases c.type with
  | TCP => rfl
  | UDS => simp [accounting]

/-- The callback of a server. Without a descriptor message no collector is made. -/
def accept (cfg : ServiceConfig) (type : CollectorType) (fd : Nat) (descriptor : Option Id) (now : UInt64)
    (s : Service L) : Service L :=
  let c : ICollector := ⟨s.accepts, type, fd⟩
  let s := {s with accepts := s.accepts + 1}
  match descriptor with
  | none => s.close c.number fd
  | some id =>
    let s := s.construct c id now
    let s := {s with loop := s.loop ++ [c]}
    if cfg.monitors c then s.pushRequest {action := .monitorCollector, collector := some c} else s

/-- The callback of a collector's source; one that does not stay is taken off the loop. -/
def readable (cfg : ServiceConfig) (c : ICollector) (received : List Received) (now : UInt64)
    (s : Service L) : Service L :=
  let out := callback c.type cfg.app (s.record c) received
  let s := {s with
    record := Function.update s.record c out.collector
    lastUpdateTime :=
      if out.answered then Function.update s.lastUpdateTime c now else s.lastUpdateTime
    modules := s.modules ++ out.queued.map fun rq => (c, rq)}
  let s := if out.closed then s.close c.number c.fd else s
  if out.stays then s else s.remEventSource c

/-! ### The state manager -/

/-- The duration is compared as an unsigned number. -/
def inactive (cfg : ServiceConfig) (now : UInt64) (s : Service L) (c : ICollector) : Bool :=
  now - s.lastUpdateTime c > cfg.app.collectorInactiveTimeout

def collectorsTimer (cfg : ServiceConfig) (now : UInt64) (s : Service L) : Service L :=
  foreach s.activeCollectorList
    (fun t c =>
      if inactive cfg now t c then t.pushRequest (removal c true) else t) s

/-- The timer asks for the removal of each inactive collector, in the order of the list. -/
theorem collectorsTimer_eq (cfg : ServiceConfig) (now : UInt64) (s : Service L) :
    s.collectorsTimer cfg now = {s with
      queue := s.queue ++
        ((items s.activeCollectorList).filter (inactive cfg now s)).map (removal · true)} := by
  -- The requests pushed on the way do not change what is inactive.
  have hfold (cs : List ICollector) (q : List StateManager.Request) :
      cs.foldl (fun t c => if inactive cfg now t c then t.pushRequest (removal c true) else t)
        {s with queue := q} =
      {s with queue := q ++ (cs.filter (inactive cfg now s)).map (removal · true)} := by
    induction cs generalizing q with
    | nil => simp
    | cons c rest ih =>
      have hc : inactive cfg now {s with queue := q} c = inactive cfg now s c := rfl
      rw [List.foldl_cons, hc]
      cases h : inactive cfg now s c with
      | true =>
        rw [if_pos rfl, pushRequest, ih, List.filter_cons_of_pos h, List.map_cons]
        simp
      | false =>
        rw [if_neg Bool.false_ne_true, ih, List.filter_cons_of_neg (by simp [h])]
  exact hfold (items s.activeCollectorList) s.queue

/-- The update of the wake lock that a change of the list asks for. -/
def wakeLockRequests (c : ICollector) : List StateManager.Request :=
  match c.type with
  | .TCP => [{action := .updateWakeLock, collector := some c}]
  | .UDS => []

def pushWakeLock (c : ICollector) (s : Service L) : Service L :=
  match c.type with
  | .TCP => s.pushRequest {action := .updateWakeLock, collector := some c}
  | .UDS => s

omit [DeferredList L] in
theorem pushWakeLock_eq (c : ICollector) (s : Service L) :
    s.pushWakeLock c = {s with queue := s.queue ++ wakeLockRequests c} := by
  unfold pushWakeLock wakeLockRequests
  cases c.type with
  | TCP => rfl
  | UDS => simp

def doMonitorCollector (c : ICollector) (s : Service L) : Service L :=
  pushWakeLock c {s with activeCollectorList := append s.activeCollectorList c}

def doRemoveCollector (c : ICollector) (withEventSource : Bool) (s : Service L) : Service L :=
  let s := if withEventSource then s.remEventSource c else s
  pushWakeLock c {s with activeCollectorList := removeNow s.activeCollectorList c}

/-- The flag and the lock after an update, where some TCP collector is listed or none is. -/
def switchWakeLock (cfg : ServiceConfig) (haveTcpCollector : Bool) (lock : Bool × Bool) : Bool × Bool :=
  let lock := if haveTcpCollector && !lock.1 && cfg.wakeLockFile then (true, true) else lock
  if !haveTcpCollector && lock.1 && cfg.wakeUnlockFile then (false, false) else lock

def doUpdateWakeLock (cfg : ServiceConfig) (s : Service L) : Service L :=
  if cfg.withWakeLock && cfg.tcpActiveWakeLock then
    let haveTcpCollector :=
      foreach s.activeCollectorList (fun found c => if c.type = .TCP then true else found) false
    let lock := switchWakeLock cfg haveTcpCollector (s.activeWakeLock, s.wakeLock)
    {s with activeWakeLock := lock.1, wakeLock := lock.2}
  else s

/-- The scan of procfs for `UpdateProcessList` leaves connections alone. -/
def requestHandler (cfg : ServiceConfig) (rq : StateManager.Request) (s : Service L) : Service L :=
  match rq.action, rq.collector with
  | .monitorCollector, some c => s.doMonitorCollector c
  | .removeCollector, some c => s.doRemoveCollector c rq.withEventSource
  | .updateWakeLock, _ => s.doUpdateWakeLock cfg
  | .updateProcessList, _ | .monitorCollector, none | .removeCollector, none => s

/-! ### Steps -/

inductive Label where
  /-- The accept of a server, what it reads of the descriptor message, and the time. -/
  | accept (type : CollectorType) (fd : Nat) (descriptor : Option Id) (now : UInt64)
  | readable (c : ICollector) (received : List Received) (now : UInt64)
  | collectorsTimer (now : UInt64)
  /-- The process events ask for a scan. -/
  | updateProcessList
  | handle
  /-- A module is done with a request. -/
  | served (rq : ICollector × ModuleRequest)
  | destroy (c : ICollector)

/-- No reference to the collector is left. -/
structure Dropped (c : ICollector) (s : Service L) : Prop where
  loop : c ∉ s.loop
  active : c ∉ items s.activeCollectorList
  queue : ∀ rq ∈ s.queue, rq.collector ≠ some c
  modules : ∀ rq ∈ s.modules, rq.1 ≠ c

instance (c : ICollector) (s : Service L) : Decidable (Dropped c s) :=
  decidable_of_iff (c ∉ s.loop ∧ c ∉ items s.activeCollectorList ∧ (∀ rq ∈ s.queue, rq.collector ≠ some c) ∧
      ∀ rq ∈ s.modules, rq.1 ≠ c)
    ⟨fun ⟨hl, ha, hq, hm⟩ => ⟨hl, ha, hq, hm⟩, fun h => ⟨h.loop, h.active, h.queue, h.modules⟩⟩

def step (cfg : ServiceConfig) (s : Service L) : Label → Option (Service L)
  | .accept type fd descriptor now =>
    if s.owner fd = none then some (s.accept cfg type fd descriptor now) else none
  | .readable c received now => if c ∈ s.loop then some (s.readable cfg c received now) else none
  | .collectorsTimer now => some (s.collectorsTimer cfg now)
  | .updateProcessList => some (s.pushRequest {action := .updateProcessList})
  | .handle =>
    match s.queue with
    | [] => none
    | rq :: rest => some (requestHandler cfg rq {s with queue := rest})
  | .served rq => if rq ∈ s.modules then some {s with modules := s.modules.erase rq} else none
  | .destroy c =>
    if c ∈ s.live ∧ Dropped c s then some {s.disconnect c with live := s.live.erase c} else none

/-- What a step can do. -/
inductive Stepped (cfg : ServiceConfig) (s : Service L) : Label → Service L → Prop where
  | accept {type : CollectorType} {fd : Nat} {descriptor : Option Id} {now : UInt64} (hfd : s.owner fd = none) :
      Stepped cfg s (.accept type fd descriptor now) (s.accept cfg type fd descriptor now)
  | readable {c : ICollector} {received : List Received} {now : UInt64} (hc : c ∈ s.loop) :
      Stepped cfg s (.readable c received now) (s.readable cfg c received now)
  | collectorsTimer {now : UInt64} : Stepped cfg s (.collectorsTimer now) (s.collectorsTimer cfg now)
  | updateProcessList : Stepped cfg s .updateProcessList (s.pushRequest {action := .updateProcessList})
  | handle {rq : StateManager.Request} {rest : List StateManager.Request} (hq : s.queue = rq :: rest) :
      Stepped cfg s .handle (requestHandler cfg rq {s with queue := rest})
  | served {rq : ICollector × ModuleRequest} (hrq : rq ∈ s.modules) :
      Stepped cfg s (.served rq) {s with modules := s.modules.erase rq}
  | destroy {c : ICollector} (hc : c ∈ s.live) (hd : Dropped c s) :
      Stepped cfg s (.destroy c) {s.disconnect c with live := s.live.erase c}

theorem stepped {cfg : ServiceConfig} {s t : Service L} {l : Label} (h : step cfg s l = some t) :
    Stepped cfg s l t := by
  cases l with
  | accept type fd descriptor now =>
    obtain ⟨hfd, ht⟩ := Option.ite_none_right_eq_some.mp h
    obtain rfl := Option.some.inj ht
    exact .accept hfd
  | readable c received now =>
    obtain ⟨hc, ht⟩ := Option.ite_none_right_eq_some.mp h
    obtain rfl := Option.some.inj ht
    exact .readable hc
  | collectorsTimer now =>
    obtain rfl := Option.some.inj h
    exact .collectorsTimer
  | updateProcessList =>
    obtain rfl := Option.some.inj h
    exact .updateProcessList
  | handle =>
    simp only [step] at h
    split at h
    · cases h
    · obtain rfl := Option.some.inj h
      exact .handle ‹_›
  | served rq =>
    obtain ⟨hrq, ht⟩ := Option.ite_none_right_eq_some.mp h
    obtain rfl := Option.some.inj ht
    exact .served hrq
  | destroy c =>
    obtain ⟨⟨hc, hd⟩, ht⟩ := Option.ite_none_right_eq_some.mp h
    obtain rfl := Option.some.inj ht
    exact .destroy hc hd

/-- The state manager is constructed, and has removed a lock left by an earlier run. -/
def start (cfg : ServiceConfig) (held : Bool) : Service L :=
  {activeCollectorList := empty
   wakeLock := if cfg.withWakeLock && cfg.wakeUnlockFile then false else held}

/-- Everything is built in, switched on and there. -/
def fullService : ServiceConfig where
  app := fullApp
  withWakeLock := true
  tcpActiveWakeLock := true
  udsMonitorCollectorInactivity := true
  wakeLockFile := true
  wakeUnlockFile := true

end Service
end TaskMonitor

import TaskMonitor.Lib.Settling
import TaskMonitor.Monitor.Answers
import TaskMonitor.Monitor.Application

/-! The daemon at rest.

A handler may push requests of its own: a collector that is listed or dropped asks for an update of the wake lock, one
that is dropped as inactive is finalized, and an answer about contexts asks for a commit. None asks for what led to it,
so left alone the daemon comes to rest, and then every request has been answered (`comes_to_rest`). -/
namespace TaskMonitor
open Collector Transition

namespace Service
open DeferredList

variable {L : Type → Type} [DeferredList L] {cfg : ServiceConfig} {s t : Service L} {c : ICollector}

/-- How many requests one can lead to, itself among them. -/
def requestWork (rq : StateManager.Request) : Nat :=
  match rq.action with
  | .monitorCollector => 2
  | .removeCollector => if rq.withEventSource then 4 else 2
  | .updateWakeLock | .updateProcessList => 1

def work (s : Service L) : Nat := (s.queue.map requestWork).sum

end Service

namespace Registry
open DeferredList

variable {L : Type → Type} [DeferredList L] {cfg : Config}

def requestWork (rq : Request) : Nat :=
  match rq.action with
  | .collectAndSendContextInfo => 2
  | _ => 1

def work (r : Registry L) : Nat := (r.queue.map requestWork).sum

end Registry

namespace Monitor
open Application (sysProcs)

variable {F C : Type} [Zero F] {app : App} {calls : SysProc.Calls F} {s t : Monitor F C} {m : SysProc}

def work (s : Monitor F C) : Nat := (sysProcs.map fun m => (s.source m).queue.length).sum + s.startupQueue.length

end Monitor

namespace Whole
open Daemon (asking)

variable {F : Type} [Zero F] {L : Type → Type} [DeferredList L] {scfg : ServiceConfig} {cfg : Config}
  {calls : SysProc.Calls F} {held readProcAtInit : Bool} {pressureFile : String → Bool} {w : World} {x₀ : Readings}
  {s t : Whole F L} {l : Label} {labels : List Label}

/-! ### What is left to do -/

/-- The steps of the daemon itself: it handles what is in a queue. -/
def Label.own : Label → Bool
  | .connection .handle | .dispatch .. | .dispatchStartup | .updateProcessList _ | .dispatchRegistry _
  | .dispatchStats _ => true
  | .connection _ | .tick .. | .expire | .process _ | .noBuffers _ => false

/-- How many requests there are, and those they can lead to. -/
def work (s : Whole F L) : Nat :=
  s.daemon.service.work + s.daemon.monitor.work + s.stats.system.registry.work + s.stats.queue.length

/-- Nothing waits, and no request of a connection is left at a module. -/
structure AtRest (s : Whole F L) : Prop where
  manager : s.daemon.service.queue = []
  sources : ∀ m, (s.daemon.monitor.source m).queue = []
  startup : s.daemon.monitor.startupQueue = []
  registry : s.stats.system.registry.queue = []
  stats : s.stats.queue = []
  modules : s.daemon.service.modules = []

end Whole
end TaskMonitor

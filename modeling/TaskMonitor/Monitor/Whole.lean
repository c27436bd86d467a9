import TaskMonitor.Connection.Numbers
import TaskMonitor.Event.Counts
import TaskMonitor.Event.Scan
import TaskMonitor.Monitor.Daemon
import TaskMonitor.Registry.CPUPercent

/-! All of the daemon.

The connections with the sources, and the process events with the registry, step next to one another. What they share is
linked (`Linked`): a request of a connection goes to the queue of its module, the timer of a lane updates sources and
registry, an overflow of events asks the state manager for a scan, and the registry asks for accounting as long as a
connection counts for it. Where an update of a source or of a process divides by zero, or reads behind what there is, the
run ends. -/
namespace TaskMonitor
open Collector Transition

/-! ### The parts and their steps -/

structure Whole (F : Type) [Zero F] (L : Type → Type) where
  daemon : Daemon F L
  /-- The processes, their events and the registry. -/
  stats : EventStats L

namespace Whole

variable {F : Type} [Zero F] {L : Type → Type} [DeferredList L] {scfg : ServiceConfig} {cfg : Config}
  {calls : SysProc.Calls F} {held readProcAtInit : Bool} {pressureFile : String → Bool} {w : World} {x₀ : Readings}

/-- The registry of the application that is built. -/
def built (scfg : ServiceConfig) (cfg : Config) : Config :=
  {cfg with
    withProcEvent := scfg.app.withProcEvent
    withProcAcct := scfg.app.withProcAcct
    procEvent := scfg.app.procEvent
    procAcct := scfg.app.procAcct}

inductive Label where
  /-- What happens to connections, but for what modules and process events do to them. -/
  | connection (l : Service.Label)
  | tick (lane : UpdateLane) (pushed : SysProc → Bool) (x : Readings)
  | dispatch (m : SysProc) (reads : m.Reads) (now : Clock)
  | dispatchStartup
  | expire
  /-- What processes do, and what the kernel tells of them. -/
  | process (l : System.Label)
  | noBuffers (x : Readings)
  /-- The state manager handles `UpdateProcessList`. -/
  | updateProcessList (x : Readings)
  /-- The registry handles a request, which may be of a collector. -/
  | dispatchRegistry (collector : Option ICollector)
  | dispatchStats (collector : ICollector)

/-- What a step reads of procfs. -/
def Label.reads : Label → Option Readings
  | .tick _ _ x | .updateProcessList x => some x
  | .process l => l.reads
  | _ => none

/-- The requests that a step handles. -/
def handled (s : Whole F L) : Label → List (ICollector × ModuleRequest)
  | .dispatch m reads now => s.daemon.handled (.dispatch m reads now)
  | .dispatchStartup => s.daemon.handled .dispatchStartup
  | .dispatchRegistry collector =>
    (s.stats.system.registry.queue.head?.bind Registry.Request.sends).toList.flatMap fun rq =>
      collector.toList.map fun c => (c, .procRegistry rq.1)
  | .dispatchStats c => [(c, .procEvent)]
  | _ => []

/-- The requests that a step makes. -/
def requested (scfg : ServiceConfig) (s : Whole F L) : Label → List (ICollector × ModuleRequest)
  | .connection l => Service.asked scfg s.daemon.service l
  | _ => []

/-- What a request is to the registry and the process events. -/
def put (rq : ICollector × ModuleRequest) : List EventStats.Label :=
  match rq.2 with
  | .procRegistry action => [.system (.collect {action := action, collector := some rq.1.number})]
  | .procEvent => [.ask rq.1.number true]
  | _ => []

/-- What a step is to the connections and the sources. -/
def daemonLabels (s : Whole F L) : Label → List Daemon.Label
  | .connection l => [.connection l]
  | .tick lane pushed _ => [.tick lane pushed]
  | .dispatch m reads now => [.dispatch m reads now]
  | .dispatchStartup => [.dispatchStartup]
  | .expire => [.expire]
  | .process _ => []
  | .noBuffers _ => [.connection .updateProcessList]
  | .updateProcessList _ => [.connection .handle]
  | .dispatchRegistry collector => (s.handled (.dispatchRegistry collector)).map fun rq => .connection (.served rq)
  | .dispatchStats collector => [.connection (.served (collector, .procEvent))]

/-- What a step is to the processes, their events and the registry. -/
def statsLabels (scfg : ServiceConfig) (s : Whole F L) : Label → List EventStats.Label
  | .connection l => (Service.asked scfg s.daemon.service l).flatMap put
  | .tick lane _ x => [.system (.lane lane x)]
  | .dispatch _ _ _ | .dispatchStartup | .expire => []
  | .process l => [.system l]
  | .noBuffers x => [.system (.noBuffers x)]
  | .updateProcessList x => [.system (.updateProcessList x)]
  | .dispatchRegistry _ => [.system .dispatch]
  | .dispatchStats _ => [.dispatch]

/-- Connections do not speak for modules, nor processes for the daemon. -/
def allowed (s : Whole F L) : Label → Bool
  | .connection (.served _) | .connection .updateProcessList => false
  | .connection .handle => !s.daemon.service.queue.head?.any Service.isScan
  | .process (.fork ..) | .process (.exec ..) | .process (.exit ..) | .process (.other ..) | .process (.recv _)
  | .process (.reply _) => true
  | .process _ => false
  | .updateProcessList _ => s.daemon.service.queue.head?.any Service.isScan
  | .dispatchRegistry collector =>
    -- the collector that the request points to
    s.stats.system.registry.queue.head?.all fun rq =>
      match rq.sends with
      | none => collector.isNone
      | some asked => asked.2 == collector.map ICollector.number
  | .dispatchStats collector => s.stats.queue.head? == some collector.number
  | _ => true

/-- No process is updated that divides by zero: the daemon does not survive that. -/
def survives (s : Whole F L) : Label → Bool
  | .tick .pace _ x =>
    let r := s.stats.system.registry
    (DeferredList.items r.procList).all fun p => ((r.procs p).trapProcStat (s.stats.system.world.env x)).isSome
  | _ => true

/-- What is read of the daemon itself is what it is: the collectors that count for accounting. -/
def current (s : Whole F L) (l : Label) : Bool :=
  l.reads.all fun x => x.procAcctCollectorCounter == s.daemon.service.procAcctCollectorCounter

def step (scfg : ServiceConfig) (cfg : Config) (calls : SysProc.Calls F) (s : Whole F L) (l : Label) :
    Option (Whole F L) :=
  if s.allowed l && s.survives l && s.current l then
    (run (Daemon.step scfg calls) s.daemon (s.daemonLabels l)).bind fun daemon =>
      (run (EventStats.step (built scfg cfg)) s.stats (statsLabels scfg s l)).map fun stats => ⟨daemon, stats⟩
  else none

def start (scfg : ServiceConfig) (cfg : Config) (held : Bool) (pressureFile : String → Bool) (readProcAtInit : Bool)
    (w : World) (x₀ : Readings) : Whole F L :=
  ⟨Daemon.start scfg held pressureFile, {system := System.launch (built scfg cfg) readProcAtInit w x₀}⟩

variable {s t : Whole F L} {l : Label} {labels : List Label} {mrq : ModuleRequest} {c : ICollector}

theorem step_parts (h : step scfg cfg calls s l = some t) :
    s.allowed l = true ∧ s.current l = true ∧
      run (Daemon.step scfg calls) s.daemon (s.daemonLabels l) = some t.daemon ∧
      run (EventStats.step (built scfg cfg)) s.stats (statsLabels scfg s l) = some t.stats := by
  obtain ⟨hboth, h⟩ := Option.ite_none_right_eq_some.mp h
  obtain ⟨hallowed, hcurrent⟩ := Bool.and_eq_true_iff.mp hboth
  obtain ⟨hallowed, _⟩ := Bool.and_eq_true_iff.mp hallowed
  obtain ⟨daemon, hdaemon, h⟩ := Option.bind_eq_some_iff.mp h
  obtain ⟨stats, hstats, rfl⟩ := Option.map_eq_some_iff.mp h
  exact ⟨hallowed, hcurrent, hdaemon, hstats⟩

/-- **The parts run as they do alone**, so what holds of the runs of each holds in the whole. -/
theorem parts_run (h : run (step scfg cfg calls) s labels = some t) :
    run (Daemon.step scfg calls) s.daemon (trace (step scfg cfg calls) daemonLabels s labels) = some t.daemon ∧
      run (EventStats.step (built scfg cfg)) s.stats (trace (step scfg cfg calls) (statsLabels scfg) s labels) =
        some t.stats :=
  ⟨run_simulate (fun _ _ _ hl => (step_parts hl).2.2.1) h, run_simulate (fun _ _ _ hl => (step_parts hl).2.2.2) h⟩

/-! ### Queues and modules -/

/-- Two requests that go to the same queue. -/
def Together (a b : ModuleRequest) : Prop := a = b ∨ ∃ x y, a = .procRegistry x ∧ b = .procRegistry y

/-- No request for its queue came before the request. -/
def First (rq : ICollector × ModuleRequest) (modules : List (ICollector × ModuleRequest)) : Prop :=
  ∃ before after, modules = before ++ rq :: after ∧ ∀ rq' ∈ before, ¬Together rq'.2 rq.2

variable {rq : ICollector × ModuleRequest} {modules : List (ICollector × ModuleRequest)}

theorem First.mem (h : First rq modules) : rq ∈ modules := by
  obtain ⟨before, after, rfl, _⟩ := h
  exact List.mem_append_right _ (List.mem_cons_self ..)

/-- Letting go of the first takes it from the front of its queue, and nothing from another. -/
theorem First.filterMap_erase {B : Type} (h : First rq modules) {f : ICollector × ModuleRequest → Option B}
    (hf : ∀ rq' b b', f rq' = some b → f rq = some b' → Together rq'.2 rq.2) :
    modules.filterMap f = [rq].filterMap f ++ (modules.erase rq).filterMap f := by
  obtain ⟨before, after, rfl, hbefore⟩ := h
  have hnot : rq ∉ before := fun hm => hbefore rq hm (.inl rfl)
  rw [List.erase_append_right _ hnot, List.erase_cons_head, List.filterMap_append, List.filterMap_append]
  cases hrq : f rq with
  | none => simp [hrq]
  | some b =>
    have hnone : before.filterMap f = [] := by
      refine List.filterMap_eq_nil_iff.mpr fun rq' hrq' => ?_
      by_contra hsome
      obtain ⟨b', hb'⟩ := Option.ne_none_iff_exists'.mp hsome
      exact hbefore rq' hrq' (hf rq' b' b hb' hrq)
    simp [hrq, hnone]

/-- What the registry is asked to send, and by which collector. -/
def ofRegistry (rq : ICollector × ModuleRequest) : Option (Registry.Action × Option Nat) :=
  match rq.2 with
  | .procRegistry action => some (action, some rq.1.number)
  | _ => none

/-- Which collector asks for the statistics of events. -/
def ofStats (rq : ICollector × ModuleRequest) : Option Nat :=
  match rq.2 with
  | .procEvent => some rq.1.number
  | _ => none

theorem ofRegistry_some {asked : Registry.Action × Option Nat} (h : ofRegistry rq = some asked) :
    rq.2 = .procRegistry asked.1 ∧ asked.2 = some rq.1.number := by
  unfold ofRegistry at h
  split at h
  · rename_i action ha
    obtain rfl := Option.some.inj h
    exact ⟨ha, rfl⟩
  · cases h

theorem ofStats_some {number : Nat} (h : ofStats rq = some number) : rq.2 = .procEvent ∧ number = rq.1.number := by
  unfold ofStats at h
  split at h
  · rename_i ha
    exact ⟨ha, (Option.some.inj h).symm⟩
  · cases h

/-- What waits in every queue is what the connections have at its module, and every module knows the collectors. -/
structure Linked (scfg : ServiceConfig) (s : Whole F L) : Prop where
  daemon : Daemon.Linked scfg s.daemon
  registry : s.stats.system.registry.sends = s.daemon.service.modules.filterMap ofRegistry
  stats : s.stats.queue = s.daemon.service.modules.filterMap ofStats
  scans : s.stats.system.rescans = s.daemon.service.queue.countP Service.isScan
  addressed : Service.Addressed s.daemon.service
  numbered : Service.Numbered s.daemon.service

/-! ### What a step does to connections -/

/-- What a step is to the connections, but for what it serves. -/
def serviceLabel : Label → Option Service.Label
  | .connection l => some l
  | .noBuffers _ => some .updateProcessList
  | .updateProcessList _ => some .handle
  | .tick .. | .dispatch .. | .dispatchStartup | .expire | .process _ | .dispatchRegistry _ | .dispatchStats _ => none

/-- A step of the connections, a request that is served, or neither. -/
inductive Moved (scfg : ServiceConfig) (s : Whole F L) (l : Label) (service : Service L) : Prop where
  | connection {k : Service.Label} (hk : serviceLabel l = some k) (hh : s.handled l = [])
      (h : Service.step scfg s.daemon.service k = some service) : Moved scfg s l service
  | served {rq : ICollector × ModuleRequest} (hk : serviceLabel l = none) (hh : s.handled l = [rq])
      (hf : First rq s.daemon.service.modules)
      (h : service = {s.daemon.service with modules := s.daemon.service.modules.erase rq}) : Moved scfg s l service
  | still (hk : serviceLabel l = none) (hh : s.handled l = []) (h : service = s.daemon.service) :
      Moved scfg s l service

theorem connection_service {s t : Daemon F L} {l : Service.Label}
    (h : run (Daemon.step scfg calls) s [.connection l] = some t) : Service.step scfg s.service l = some t.service :=
  run_single (Daemon.step_parts (run_single h)).2.1

omit [DeferredList L] in
/-- The first of its kind at a source is the first in the queue. -/
theorem first_ours {s : Daemon F L} (hk : Daemon.Linked scfg s) {l : Daemon.Label} (h : rq ∈ s.handled l) :
    s.handled l = [rq] ∧ First rq s.service.modules := by
  obtain ⟨ho, hone, rest, hwait⟩ := Daemon.handled_waits h
  rw [hk.queues rq.2 ho] at hwait
  obtain ⟨before, first, after, hmodules, hbefore, hfirst, _⟩ := List.filterMap_eq_cons_iff.mp hwait
  have hkind : first.2 = rq.2 ∧ first.1 = rq.1 := by
    split at hfirst
    · rename_i he
      exact ⟨he, Option.some.inj hfirst⟩
    · cases hfirst
  obtain rfl : first = rq := Prod.ext hkind.2 hkind.1
  refine ⟨hone, before, after, hmodules, fun rq' hrq' ht => ?_⟩
  have hne : rq'.2 ≠ first.2 := by simpa using hbefore rq' hrq'
  rcases ht with he | ⟨x, y, _, hy⟩
  · exact hne he
  · exact Daemon.not_ours (.inl ⟨y, hy⟩) ho

/-- What a source handles is served. -/
theorem moved_source {s : Whole F L} {l : Label} {d : Daemon.Label} {daemon : Daemon F L}
    (hk : Linked scfg s) (hl : serviceLabel l = none) (hh : s.handled l = s.daemon.handled d)
    (hd : Daemon.serviceLabels s.daemon d = (s.daemon.handled d).map .served)
    (h : run (Daemon.step scfg calls) s.daemon [d] = some daemon) : Moved scfg s l daemon.service := by
  have hservice := (Daemon.step_parts (run_single h)).2.1
  rw [hd] at hservice
  cases hrqs : s.daemon.handled d with
  | nil =>
    rw [hrqs] at hservice
    exact .still hl (hh.trans hrqs) (Option.some.inj hservice).symm
  | cons rq rest =>
    have hmem : rq ∈ s.daemon.handled d := hrqs ▸ List.mem_cons_self ..
    obtain ⟨hone, hfirst⟩ := first_ours hk.daemon hmem
    rw [hone, List.map_singleton, run, (hk.daemon.handled hmem).2] at hservice
    exact .served hl (hh.trans hone) hfirst (Option.some.inj hservice).symm

omit [DeferredList L] in
/-- A collector is known by its number. -/
theorem Linked.same {s : Whole F L} (hk : Linked scfg s) {rq rq' : ICollector × ModuleRequest}
    (h : rq ∈ s.daemon.service.modules) (h' : rq' ∈ s.daemon.service.modules) (hn : rq.1.number = rq'.1.number) :
    rq.1 = rq'.1 :=
  List.inj_on_of_nodup_map hk.numbered.nodup (hk.addressed.modules rq h) (hk.addressed.modules rq' h') hn

omit [DeferredList L] in
/-- The first for the registry or the statistics is the first in the queue. -/
theorem Linked.first {s : Whole F L} (hk : Linked scfg s) {B : Type} {f : ICollector × ModuleRequest → Option B}
    {b : B} {rest : List B} (h : s.daemon.service.modules.filterMap f = b :: rest)
    (hrq : rq ∈ s.daemon.service.modules) (hb : f rq = some b)
    (hf : ∀ rq', f rq' = some b → rq'.2 = rq.2 ∧ rq'.1.number = rq.1.number)
    (ht : ∀ rq', Together rq'.2 rq.2 → (f rq').isSome = true) : First rq s.daemon.service.modules := by
  obtain ⟨before, first, after, hmodules, hbefore, hfirst, _⟩ := List.filterMap_eq_cons_iff.mp h
  have hmem : first ∈ s.daemon.service.modules := by
    rw [hmodules]
    exact List.mem_append_right _ (List.mem_cons_self ..)
  obtain ⟨hkind, hnumber⟩ := hf first hfirst
  obtain rfl : first = rq := Prod.ext (hk.same hmem hrq hnumber) hkind
  refine ⟨before, after, hmodules, fun rq' hrq' htogether => ?_⟩
  have hsome := ht rq' htogether
  rw [hbefore rq' hrq'] at hsome
  cases hsome

theorem moved_served {s : Whole F L} {l : Label} {daemon : Daemon F L} (hl : serviceLabel l = none)
    (hh : s.handled l = [rq]) (hf : rq ∈ s.daemon.service.modules → First rq s.daemon.service.modules)
    (h : run (Daemon.step scfg calls) s.daemon [.connection (.served rq)] = some daemon) :
    Moved scfg s l daemon.service := by
  obtain ⟨hmem, ht⟩ := Option.ite_none_right_eq_some.mp (connection_service h)
  exact .served hl hh (hf hmem) (Option.some.inj ht).symm

omit [DeferredList L] in
/-- The registry handles a request of its own, or the first that a collector has there. -/
theorem handled_registry {s : Whole F L} {collector : Option ICollector} (hk : Linked scfg s)
    (ha : s.allowed (.dispatchRegistry collector) = true) :
    (s.stats.system.registry.queue.head?.bind Registry.Request.sends = none ∧
        s.handled (.dispatchRegistry collector) = []) ∨
      ∃ c action rest, s.stats.system.registry.queue.head?.bind Registry.Request.sends = some (action, some c.number) ∧
        s.handled (.dispatchRegistry collector) = [(c, .procRegistry action)] ∧
        s.daemon.service.modules.filterMap ofRegistry = (action, some c.number) :: rest := by
  cases hb : s.stats.system.registry.queue.head?.bind Registry.Request.sends with
  | none => exact .inl ⟨rfl, by simp [handled, hb]⟩
  | some asked =>
    obtain ⟨rest, hsends⟩ := Registry.sends_head hb
    rw [hk.registry] at hsends
    obtain ⟨_, first, _, _, _, hfirst, _⟩ := List.filterMap_eq_cons_iff.mp hsends
    obtain ⟨rq, hrq, hasked⟩ := Option.bind_eq_some_iff.mp hb
    -- The queue points to the collector by its number.
    have hnumber : asked.2 = collector.map ICollector.number := by simpa [allowed, hrq, hasked] using ha
    rw [(ofRegistry_some hfirst).2] at hnumber
    obtain ⟨c, rfl, hc⟩ := Option.map_eq_some_iff.mp hnumber.symm
    have hasked : asked = (asked.1, some c.number) := by rw [hc, ← (ofRegistry_some hfirst).2]
    exact .inr ⟨c, asked.1, rest, congrArg some hasked, by simp [handled, hb], hasked ▸ hsends⟩

theorem moved (hk : Linked scfg s) (h : step scfg cfg calls s l = some t) : Moved scfg s l t.daemon.service := by
  obtain ⟨hallowed, _, hdaemon, _⟩ := step_parts h
  cases l with
  | connection l => exact .connection rfl rfl (connection_service hdaemon)
  | tick lane pushed x => exact moved_source (d := .tick lane pushed) hk rfl rfl rfl hdaemon
  | dispatch m reads now => exact moved_source (d := .dispatch m reads now) hk rfl rfl rfl hdaemon
  | dispatchStartup => exact moved_source (d := .dispatchStartup) hk rfl rfl rfl hdaemon
  | expire => exact moved_source (d := .expire) hk rfl rfl rfl hdaemon
  | process l => exact .still rfl rfl (congrArg Daemon.service (Option.some.inj hdaemon)).symm
  | noBuffers x => exact .connection rfl rfl (connection_service hdaemon)
  | updateProcessList x => exact .connection rfl rfl (connection_service hdaemon)
  | dispatchRegistry collector =>
    rcases handled_registry hk hallowed with ⟨_, hnone⟩ | ⟨c, action, rest, _, hone, hqueue⟩
    · simp only [daemonLabels, hnone, List.map_nil] at hdaemon
      exact .still rfl hnone (congrArg Daemon.service (Option.some.inj hdaemon)).symm
    · simp only [daemonLabels, hone, List.map_singleton] at hdaemon
      refine moved_served rfl hone (fun hmem => hk.first hqueue hmem rfl (fun rq' hrq' => ?_) fun rq' ht => ?_) hdaemon
      · obtain ⟨hkind, hnumber⟩ := ofRegistry_some hrq'
        exact ⟨hkind, (Option.some.inj hnumber).symm⟩
      · obtain he | ⟨x, y, hx, _⟩ := ht
        · have he : rq'.2 = .procRegistry action := he
          simp [ofRegistry, he]
        · simp [ofRegistry, hx]
  | dispatchStats c =>
    have hhead : s.stats.queue.head? = some c.number := by simpa [allowed] using hallowed
    obtain ⟨rest, hqueue⟩ := List.head?_eq_some_iff.mp hhead
    rw [hk.stats] at hqueue
    refine moved_served rfl rfl (fun hmem => hk.first hqueue hmem rfl (fun rq' hrq' => ?_) fun rq' ht => ?_) hdaemon
    · obtain ⟨hkind, hnumber⟩ := ofStats_some hrq'
      exact ⟨hkind, hnumber.symm⟩
    · obtain he | ⟨x, y, _, hy⟩ := ht
      · have he : rq'.2 = .procEvent := he
        simp [ofStats, he]
      · cases hy

/-! ### What a step does to the queues -/

/-- What was put at a module is served from the front of its queue, or is there. -/
theorem modules_fifo (hk : Linked scfg s) (h : step scfg cfg calls s l = some t) {B : Type}
    {f : ICollector × ModuleRequest → Option B}
    (hf : ∀ rq rq' b b', f rq' = some b → f rq = some b' → Together rq'.2 rq.2) :
    s.daemon.service.modules.filterMap f ++ (requested scfg s l).filterMap f =
      (s.handled l).filterMap f ++ t.daemon.service.modules.filterMap f := by
  have hallowed := (step_parts h).1
  cases moved hk h with
  | @connection k hl hh hstep =>
    have hserve : k.serve s.daemon.service.modules = s.daemon.service.modules ∧
        Service.asked scfg s.daemon.service k = requested scfg s l := by
      cases l with
      | connection l =>
        obtain rfl := Option.some.inj hl
        cases l with
        | served rq => cases hallowed
        | _ => exact ⟨rfl, rfl⟩
      | noBuffers x =>
        obtain rfl := Option.some.inj hl
        exact ⟨rfl, rfl⟩
      | updateProcessList x =>
        obtain rfl := Option.some.inj hl
        exact ⟨rfl, rfl⟩
      | _ => cases hl
    rw [Service.step_modules hstep, hserve.1, hserve.2, hh, List.filterMap_append]
    rfl
  | @served rq hl hh hfirst ht =>
    have hnone : requested scfg s l = [] := by
      cases l with
      | connection l => cases hl
      | _ => rfl
    rw [ht, hh, hnone, hfirst.filterMap_erase (hf rq)]
    exact List.append_nil _
  | still hl hh ht =>
    have hnone : requested scfg s l = [] := by
      cases l with
      | connection l => cases hl
      | _ => rfl
    rw [ht, hh, hnone]
    exact List.append_nil _

/-- What a callback asks goes to the queue of the registry, or to that of the statistics. -/
structure Put (rqs : List (ICollector × ModuleRequest)) (s t : EventStats L) : Prop where
  registry : t.system.registry.sends = s.system.registry.sends ++ rqs.filterMap ofRegistry
  queue : t.queue = s.queue ++ rqs.filterMap ofStats
  sent : t.sent = s.sent
  rescans : t.system.rescans = s.system.rescans

/-- A callback asks the registry for no commit. -/
def Asks (rqs : List (ICollector × ModuleRequest)) : Prop :=
  ∀ rq ∈ rqs, ∀ action, rq.2 = .procRegistry action → System.isCommit action = false

theorem put_run (cfg : Config) (s : EventStats L) (ha : ∀ action, rq.2 = .procRegistry action → System.isCommit action = false) :
    ∃ t, run (EventStats.step cfg) s (put rq) = some t ∧ Put [rq] s t := by
  obtain ⟨c, mrq⟩ := rq
  cases mrq with
  | procRegistry action =>
    have hcommit := ha action rfl
    let request : Registry.Request := {action := action, collector := some c.number}
    refine ⟨{s with system := {s.system with registry := s.system.registry.pushRequest request}},
      by simp [put, run, EventStats.step, System.step, hcommit, request], ?_, (List.append_nil _).symm, rfl, rfl⟩
    have hsends : request.sends = some (action, some c.number) := if_neg (by simp [request, hcommit])
    refine (Registry.sends_pushRequest request s.system.registry).trans ?_
    rw [hsends]
    rfl
  | procEvent => exact ⟨_, rfl, (List.append_nil _).symm, rfl, rfl, rfl⟩
  | _ => exact ⟨s, rfl, (List.append_nil _).symm, (List.append_nil _).symm, rfl, rfl⟩

theorem puts_run (cfg : Config) (s : EventStats L) {rqs : List (ICollector × ModuleRequest)} (ha : Asks rqs) :
    ∃ t, run (EventStats.step cfg) s (rqs.flatMap put) = some t ∧ Put rqs s t := by
  induction rqs generalizing s with
  | nil => exact ⟨s, rfl, (List.append_nil _).symm, (List.append_nil _).symm, rfl, rfl⟩
  | cons rq rest ih =>
    obtain ⟨u, hu, hput⟩ := put_run cfg s (ha rq (List.mem_cons_self ..))
    obtain ⟨t, ht, hputs⟩ := ih u fun rq' hrq' => ha rq' (List.mem_cons_of_mem _ hrq')
    refine ⟨t, by rw [List.flatMap_cons, run_append hu, ht], ?_, ?_, hputs.sent.trans hput.sent,
      hputs.rescans.trans hput.rescans⟩
    · rw [hputs.registry, hput.registry, List.append_assoc, ← List.filterMap_append, List.singleton_append]
    · rw [hputs.queue, hput.queue, List.append_assoc, ← List.filterMap_append, List.singleton_append]

omit [DeferredList L] in
theorem asks_asked (scfg : ServiceConfig) (s : Service L) (l : Service.Label) : Asks (Service.asked scfg s l) := by
  intro rq hrq action ha
  cases l with
  | readable c received now =>
    obtain ⟨mrq, hm, rfl⟩ := List.mem_map.mp hrq
    obtain ⟨rt, hrt⟩ := Daemon.queued_target c.type scfg.app received (s.record c) mrq hm
    obtain rfl : mrq = .procRegistry action := ha
    cases rt with
    | createSession => cases hrt
    | keepAlive => cases hrt
    | unknown n => cases hrt
    | getProcInfo =>
      cases hrt
      rfl
    | getContextInfo =>
      cases hrt
      rfl
    | _ =>
      obtain ⟨_, hmrq⟩ := Option.ite_none_right_eq_some.mp hrt
      cases hmrq
      try rfl
  | _ => cases hrq

theorem system_stats {s t : EventStats L} {k : System.Label} (h : run (EventStats.step cfg) s [.system k] = some t) :
    System.step cfg s.system k = some t.system ∧ t.queue = s.queue ∧ t.sent = s.sent := by
  obtain ⟨system, hsystem, rfl⟩ := Option.map_eq_some_iff.mp (run_single h)
  exact ⟨hsystem, rfl, rfl⟩

/-- What the requests that a step handles are due of the process events: the counts. -/
def statsDue (s : Whole F L) (l : Label) : List (Nat × EventData) :=
  ((s.handled l).filterMap ofStats).map fun number => (number, s.stats.system.eventData)

/-- What the queues of the registry and the statistics take in and give out. -/
structure Queues (scfg : ServiceConfig) (s : Whole F L) (l : Label) (t : EventStats L) : Prop where
  registry : s.stats.system.registry.sends ++ (requested scfg s l).filterMap ofRegistry =
    (s.handled l).filterMap ofRegistry ++ t.system.registry.sends
  queue : s.stats.queue ++ (requested scfg s l).filterMap ofStats = (s.handled l).filterMap ofStats ++ t.queue
  sent : t.sent = s.stats.sent ++ statsDue s l

omit [DeferredList L] in
/-- A step that neither asks nor sends leaves the queues alone. -/
theorem queues_still {s : Whole F L} {l : Label} {t : EventStats L} (hr : requested scfg s l = [])
    (ho : (s.handled l).filterMap ofRegistry = []) (hs : (s.handled l).filterMap ofStats = [])
    (hsends : s.stats.system.registry.sends = t.system.registry.sends) (hq : t.queue = s.stats.queue)
    (hsent : t.sent = s.stats.sent) : Queues scfg s l t :=
  ⟨by simp [hr, ho, hsends], by simp [hr, hs, hq], by simp [statsDue, hs, hsent]⟩

theorem queues_system {s : Whole F L} {l : Label} {k : System.Label} {t : EventStats L} (hr : requested scfg s l = [])
    (hh : s.handled l = []) (ha : k.sends = []) (hs : System.handles s.stats.system k = [])
    (h : run (EventStats.step cfg) s.stats [.system k] = some t) : Queues scfg s l t := by
  obtain ⟨hsystem, hqueue, hsent⟩ := system_stats h
  have hsends := System.step_sends hsystem
  rw [ha, hs, List.append_nil, List.nil_append] at hsends
  exact queues_still hr (by rw [hh]; rfl) (by rw [hh]; rfl) hsends hqueue hsent

omit [DeferredList L] in
/-- What a source handles is for neither queue. -/
theorem handled_ours (s : Daemon F L) (l : Daemon.Label) :
    (s.handled l).filterMap ofRegistry = [] ∧ (s.handled l).filterMap ofStats = [] := by
  have hours (rq : ICollector × ModuleRequest) (h : rq ∈ s.handled l) : ofRegistry rq = none ∧ ofStats rq = none := by
    have ho := (Daemon.handled_waits h).1
    exact ⟨Option.eq_none_iff_forall_ne_some.mpr fun _ hs => Daemon.not_ours (.inl ⟨_, (ofRegistry_some hs).1⟩) ho,
      Option.eq_none_iff_forall_ne_some.mpr fun _ hs => Daemon.not_ours (.inr (ofStats_some hs).1) ho⟩
  exact ⟨List.filterMap_eq_nil_iff.mpr fun rq h => (hours rq h).1,
    List.filterMap_eq_nil_iff.mpr fun rq h => (hours rq h).2⟩

theorem queues (hk : Linked scfg s) (h : step scfg cfg calls s l = some t) : Queues scfg s l t.stats := by
  obtain ⟨hallowed, _, _, hstats⟩ := step_parts h
  cases l with
  | connection l =>
    obtain ⟨u, hu, hput⟩ := puts_run (built scfg cfg) s.stats (asks_asked scfg s.daemon.service l)
    obtain rfl := Option.some.inj (hu.symm.trans hstats)
    exact ⟨hput.registry.symm, hput.queue.symm, by rw [hput.sent]; exact (List.append_nil _).symm⟩
  | tick lane pushed x => exact queues_system rfl rfl rfl rfl hstats
  | dispatch m reads now =>
    obtain ⟨hregistry, hqueue⟩ := handled_ours s.daemon (.dispatch m reads now)
    rw [← Option.some.inj hstats]
    exact queues_still rfl hregistry hqueue rfl rfl rfl
  | dispatchStartup =>
    obtain ⟨hregistry, hqueue⟩ := handled_ours s.daemon .dispatchStartup
    rw [← Option.some.inj hstats]
    exact queues_still rfl hregistry hqueue rfl rfl rfl
  | expire =>
    rw [← Option.some.inj hstats]
    exact queues_still rfl rfl rfl rfl rfl rfl
  | process l =>
    cases l with
    | collect rq => cases hallowed
    | dispatch => cases hallowed
    | _ => exact queues_system rfl rfl rfl rfl hstats
  | noBuffers x => exact queues_system rfl rfl rfl rfl hstats
  | updateProcessList x => exact queues_system rfl rfl rfl rfl hstats
  | dispatchRegistry collector =>
    obtain ⟨hsystem, hqueue, hsent⟩ := system_stats hstats
    have hsends : s.stats.system.registry.sends ++ [] =
        (s.stats.system.registry.queue.head?.bind Registry.Request.sends).toList ++ t.stats.system.registry.sends :=
      System.step_sends hsystem
    rcases handled_registry hk hallowed with ⟨hnone, hh⟩ | ⟨c, action, rest, hsome, hh, _⟩
    · rw [hnone, List.append_nil] at hsends
      exact queues_still rfl (by rw [hh]; rfl) (by rw [hh]; rfl) hsends hqueue hsent
    · rw [hsome] at hsends
      exact ⟨hh ▸ hsends, by simp [hh, requested, ofStats, hqueue], by simp [statsDue, hh, ofStats, hsent]⟩
  | dispatchStats c =>
    have hdispatch := run_single hstats
    obtain ⟨hsent, hfifo⟩ := EventStats.step_answers _ hdispatch
    have hhead : s.stats.queue.head? = some c.number := by simpa [allowed] using hallowed
    obtain ⟨rest, hqueue⟩ := List.head?_eq_some_iff.mp hhead
    have hsystem : t.stats.system = s.stats.system := EventStats.system_carries _ _ _ hdispatch
    refine ⟨by rw [hsystem]; exact List.append_nil _, ?_, ?_⟩
    · simpa [EventStats.answers, EventStats.Label.asked, hqueue, handled, requested, ofStats] using hfifo
    · rw [hsent]
      simp [EventStats.answers, hqueue, statsDue, handled, ofStats]

/-! ### Scans -/

/-- The scans that a step asks for, and those that it does. -/
def Label.scans : Label → Nat × Nat
  | .noBuffers _ => (1, 0)
  | .updateProcessList _ => (0, 1)
  | _ => (0, 0)

omit [DeferredList L] in
theorem scans_allowed {s : Whole F L} {l : Label} {k : Service.Label} (h : s.allowed l = true)
    (hk : serviceLabel l = some k) : k.scans s.daemon.service = l.scans := by
  cases l with
  | connection l =>
    obtain rfl := Option.some.inj hk
    cases l with
    | updateProcessList => cases h
    | handle =>
      have hnot : (s.daemon.service.queue.head?.any Service.isScan) = false := by simpa [allowed] using h
      simp [Service.Label.scans, Label.scans, hnot]
    | _ => rfl
  | noBuffers x =>
    obtain rfl := Option.some.inj hk
    rfl
  | updateProcessList x =>
    obtain rfl := Option.some.inj hk
    have hscan : (s.daemon.service.queue.head?.any Service.isScan) = true := h
    simp [Service.Label.scans, Label.scans, hscan]
  | _ => cases hk

theorem service_scans (hk : Linked scfg s) (h : step scfg cfg calls s l = some t) :
    s.daemon.service.queue.countP Service.isScan + l.scans.1 =
      l.scans.2 + t.daemon.service.queue.countP Service.isScan := by
  have hnone (hl : serviceLabel l = none) : l.scans = (0, 0) := by
    cases l <;> first | rfl | cases hl
  cases moved hk h with
  | connection hl _ hstep =>
    rw [← scans_allowed (step_parts h).1 hl]
    exact Service.step_scans hstep
  | served hl _ _ ht => simp [hnone hl, ht]
  | still hl _ ht => simp [hnone hl, ht]

theorem stats_scans (h : step scfg cfg calls s l = some t) :
    s.stats.system.rescans + l.scans.1 = l.scans.2 + t.stats.system.rescans := by
  obtain ⟨hallowed, _, _, hstats⟩ := step_parts h
  have hsystem {k : System.Label} (h : run (EventStats.step (built scfg cfg)) s.stats [.system k] = some t.stats) :
      s.stats.system.rescans + k.scans.1 = k.scans.2 + t.stats.system.rescans :=
    System.step_rescans (system_stats h).1
  cases l with
  | connection l =>
    obtain ⟨u, hu, hput⟩ := puts_run (built scfg cfg) s.stats (asks_asked scfg s.daemon.service l)
    obtain rfl := Option.some.inj (hu.symm.trans hstats)
    exact (Nat.zero_add _).trans hput.rescans |>.symm
  | tick lane pushed x => exact hsystem hstats
  | process l =>
    have hnone : l.scans = (0, 0) := by
      cases l with
      | noBuffers x => cases hallowed
      | updateProcessList x => cases hallowed
      | _ => rfl
    have hsame := hsystem hstats
    rw [hnone] at hsame
    exact hsame
  | noBuffers x => exact hsystem hstats
  | updateProcessList x => exact hsystem hstats
  | dispatchRegistry collector => exact hsystem hstats
  | dispatchStats c =>
    have hsame : t.stats.system = s.stats.system := EventStats.system_carries _ _ _ (run_single hstats)
    rw [hsame]
    exact (Nat.zero_add _).symm
  | _ =>
    rw [← Option.some.inj hstats]
    exact (Nat.zero_add _).symm

/-! ### Runs -/

/-- No connection reads an envelope of another origin. -/
def Native (scfg : ServiceConfig) (s : Whole F L) : Label → Prop
  | .connection l => Service.Native scfg s.daemon.service l
  | .tick .. | .dispatch .. | .dispatchStartup | .expire | .process _ | .noBuffers _ | .updateProcessList _
  | .dispatchRegistry _ | .dispatchStats _ => True

instance (scfg : ServiceConfig) (s : Whole F L) : (l : Label) → Decidable (Native scfg s l)
  | .connection l => inferInstanceAs (Decidable (Service.Native scfg s.daemon.service l))
  | .tick .. | .dispatch .. | .dispatchStartup | .expire | .process _ | .noBuffers _ | .updateProcessList _
  | .dispatchRegistry _ | .dispatchStats _ => .isTrue trivial

theorem linked_step (s : Whole F L) (l : Label) (t : Whole F L) (hk : Linked scfg s) (hn : Native scfg s l)
    (h : step scfg cfg calls s l = some t) : Linked scfg t where
  daemon :=
    (Steps.of_run (meets_true _ _ _) (step_parts h).2.2.1).invariant (fun _ _ _ hk _ hl => Daemon.linked_step hk hl)
      hk.daemon
  registry := by
    have hqueue := (queues hk h).registry
    rw [hk.registry, modules_fifo hk h fun rq rq' b b' hb hb' => ?_] at hqueue
    · exact (List.append_cancel_left hqueue).symm
    · exact .inr ⟨_, _, (ofRegistry_some hb).1, (ofRegistry_some hb').1⟩
  stats := by
    have hqueue := (queues hk h).queue
    rw [hk.stats, modules_fifo hk h fun rq rq' b b' hb hb' => ?_] at hqueue
    · exact (List.append_cancel_left hqueue).symm
    · exact .inl ((ofStats_some hb).1.trans (ofStats_some hb').1.symm)
  scans := by
    have hservice := service_scans hk h
    have hstats := stats_scans h
    rw [hk.scans] at hstats
    omega
  addressed := by
    cases moved hk h with
    | @connection k hl _ hstep =>
      have hnative : Service.Native scfg s.daemon.service k := by
        cases l with
        | connection l =>
          obtain rfl := Option.some.inj hl
          exact hn
        | noBuffers x =>
          obtain rfl := Option.some.inj hl
          trivial
        | updateProcessList x =>
          obtain rfl := Option.some.inj hl
          trivial
        | _ => cases hl
      exact Service.addressed_step hstep hnative hk.addressed
    | @served rq _ _ hfirst ht =>
      have hstep : Service.step scfg s.daemon.service (.served rq) = some t.daemon.service := by
        rw [ht]
        exact if_pos hfirst.mem
      exact Service.addressed_step hstep trivial hk.addressed
    | still _ _ ht => exact ht ▸ hk.addressed
  numbered := by
    cases moved hk h with
    | connection _ _ hstep => exact Service.numbered_step hstep hk.numbered
    | served _ _ hfirst ht =>
      rw [ht]
      exact ⟨hk.numbered.nodup, hk.numbered.below⟩
    | still _ _ ht => exact ht ▸ hk.numbered

theorem linked_start : Linked scfg (start scfg cfg held pressureFile readProcAtInit w x₀ : Whole F L) where
  daemon := Daemon.linked_start
  registry := by
    cases readProcAtInit with
    | true => exact Registry.sends_initFromProc _
    | false => rfl
  stats := rfl
  scans := by cases readProcAtInit <;> rfl
  addressed := Service.addressed_start
  numbered := ⟨List.nodup_nil, fun c hc => by cases hc⟩

theorem linked_run (hn : Meets (step scfg cfg calls) (Native scfg) s labels) (hk : Linked scfg s)
    (h : run (step scfg cfg calls) s labels = some t) : Linked scfg t :=
  (Steps.of_run hn h).invariant linked_step hk

end Whole
end TaskMonitor

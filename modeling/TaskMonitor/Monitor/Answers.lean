import TaskMonitor.Event.ContextReport
import TaskMonitor.Monitor.Whole

/-! What all of the daemon answers.

Every queue is what the connections have at its module, so what it handles is let go of, is sent what it is due on the
descriptor of a live collector, and is not held up by another part (`all_answered`). -/
namespace TaskMonitor.Whole
open Collector Transition
open Daemon (asking)

variable {F : Type} [Zero F] {L : Type → Type} [DeferredList L] {scfg : ServiceConfig} {cfg : Config}
  {calls : SysProc.Calls F} {held readProcAtInit : Bool} {pressureFile : String → Bool} {w : World} {x₀ : Readings}
  {s t : Whole F L} {l : Label} {labels : List Label} {rq : ICollector × ModuleRequest}

/-- What a step writes: the request that it answers, and whose descriptor it writes to. -/
def written (s : Whole F L) (l : Label) : List ((ICollector × ModuleRequest) × Option ICollector) :=
  (s.handled l).map fun rq => (rq, s.daemon.service.owner rq.1.fd)

/-- What a step handles is of a live collector, whose descriptor is its own. -/
theorem written_own (hk : Linked scfg s) (h : step scfg cfg calls s l = some t)
    {w : (ICollector × ModuleRequest) × Option ICollector} (hw : w ∈ written s l) : w.2 = some w.1.1 := by
  obtain ⟨rq, hrq, rfl⟩ := List.mem_map.mp hw
  cases moved hk h with
  | connection _ hh _ =>
    rw [hh] at hrq
    cases hrq
  | served _ hh hfirst _ =>
    rw [hh] at hrq
    obtain rfl := List.mem_singleton.mp hrq
    exact hk.addressed.own _ (hk.addressed.modules _ hfirst.mem)
  | still _ hh _ =>
    rw [hh] at hrq
    cases hrq

/-! ### Nothing is held up -/

/-- A step is enabled where it is in each of the parts. -/
theorem step_isSome (ha : s.allowed l = true) (hv : s.survives l = true) (hc : s.current l = true)
    (hd : (run (Daemon.step scfg calls) s.daemon (s.daemonLabels l)).isSome = true)
    (hs : (run (EventStats.step (built scfg cfg)) s.stats (statsLabels scfg s l)).isSome = true) :
    (step scfg cfg calls s l).isSome = true := by
  obtain ⟨daemon, hdaemon⟩ := Option.isSome_iff_exists.mp hd
  obtain ⟨stats, hstats⟩ := Option.isSome_iff_exists.mp hs
  simp [step, ha, hv, hc, hdaemon, hstats]

/-- What happens to connections is not held up by the rest. -/
theorem connection_isSome {k : Service.Label} (hk : Linked scfg s) (ha : s.allowed (.connection k) = true)
    (h : (Service.step scfg s.daemon.service k).isSome = true) :
    (step scfg cfg calls s (.connection k)).isSome = true := by
  have hallowed : Daemon.allowed (.connection k) = true := by
    cases k with
    | served rq => cases ha
    | _ => rfl
  obtain ⟨stats, hstats, _⟩ := puts_run (built scfg cfg) s.stats (asks_asked scfg s.daemon.service k)
  refine step_isSome ha rfl rfl (run_single_isSome (Daemon.connection_isSome hk.daemon hallowed h)) ?_
  exact Option.isSome_iff_exists.mpr ⟨stats, hstats⟩

/-- The state manager handles what is in its queue, a scan with the registry. -/
theorem manager_isSome (hk : Linked scfg s) (hq : s.daemon.service.queue ≠ []) :
    ∃ l, serviceLabel l = some .handle ∧ (step scfg cfg calls s l).isSome = true := by
  obtain ⟨rq, rest, hqueue⟩ := List.exists_cons_of_ne_nil hq
  have hstep : (Service.step scfg s.daemon.service .handle).isSome = true := by simp [Service.step, hqueue]
  cases hscan : Service.isScan rq with
  | false => exact ⟨.connection .handle, rfl, connection_isSome hk (by simp [allowed, hqueue, hscan]) hstep⟩
  | true =>
    let x : Readings := {Readings.quiet with procAcctCollectorCounter := s.daemon.service.procAcctCollectorCounter}
    have hrescans : s.stats.system.rescans = rest.countP Service.isScan + 1 := by
      rw [hk.scans, hqueue, List.countP_cons_of_pos hscan]
    refine ⟨.updateProcessList x, rfl, step_isSome (by simp [allowed, hqueue, hscan]) rfl ?_ ?_ (run_single_isSome ?_)⟩
    · simp [current, Label.reads, x]
    · exact run_single_isSome (Daemon.connection_isSome hk.daemon rfl hstep)
    · simp [EventStats.step, System.step, hrescans]

theorem served_isSome (hk : Linked scfg s) (hrq : rq ∈ s.daemon.service.modules)
    (ha : Daemon.allowed (.connection (.served rq)) = true) :
    (run (Daemon.step scfg calls) s.daemon [.connection (.served rq)]).isSome = true := by
  refine run_single_isSome (Daemon.connection_isSome hk.daemon ha ?_)
  simp [Service.step, hrq]

theorem registry_isSome (hk : Linked scfg s) (hq : s.stats.system.registry.queue ≠ []) :
    ∃ collector, (step scfg cfg calls s (.dispatchRegistry collector)).isSome = true := by
  obtain ⟨request, rest, hqueue⟩ := List.exists_cons_of_ne_nil hq
  have hstats : (run (EventStats.step (built scfg cfg)) s.stats [.system .dispatch]).isSome = true :=
    run_single_isSome (by simp [EventStats.step, System.step, Registry.dispatch, hqueue])
  cases hasked : request.sends with
  | none =>
    refine ⟨none, step_isSome (by simp [allowed, hqueue, hasked]) rfl rfl ?_ hstats⟩
    simp [daemonLabels, handled, hqueue, hasked, run]
  | some asked =>
    obtain ⟨more, hsends⟩ := Registry.sends_head (by simp [hqueue, hasked] :
      s.stats.system.registry.queue.head?.bind Registry.Request.sends = some asked)
    rw [hk.registry] at hsends
    obtain ⟨before, ⟨c, mrq⟩, after, hmodules, _, hfirst, _⟩ := List.filterMap_eq_cons_iff.mp hsends
    obtain ⟨hkind, hnumber⟩ := ofRegistry_some hfirst
    obtain rfl : mrq = .procRegistry asked.1 := hkind
    have hmem : (c, ModuleRequest.procRegistry asked.1) ∈ s.daemon.service.modules := by simp [hmodules]
    refine ⟨some c, step_isSome (by simp [allowed, hqueue, hasked, hnumber]) rfl rfl ?_ hstats⟩
    simpa [daemonLabels, handled, hqueue, hasked] using served_isSome hk hmem rfl

theorem stats_isSome (hk : Linked scfg s) (hq : s.stats.queue ≠ []) :
    ∃ c, (step scfg cfg calls s (.dispatchStats c)).isSome = true := by
  obtain ⟨number, rest, hqueue⟩ := List.exists_cons_of_ne_nil hq
  have hasked := hk.stats.symm.trans hqueue
  obtain ⟨before, ⟨c, mrq⟩, after, hmodules, _, hfirst, _⟩ := List.filterMap_eq_cons_iff.mp hasked
  obtain ⟨hkind, rfl⟩ := ofStats_some hfirst
  obtain rfl : mrq = .procEvent := hkind
  have hmem : (c, ModuleRequest.procEvent) ∈ s.daemon.service.modules := by simp [hmodules]
  refine ⟨c, step_isSome (by simp [allowed, hqueue]) rfl rfl (served_isSome hk hmem rfl) (run_single_isSome ?_)⟩
  simp [EventStats.step, hqueue]

/-- A source that has something in its queue can handle it, unless it is an update that ends the process. -/
theorem source_isSome_iff {m : SysProc} {reads : m.Reads} {now : Clock} (hk : Linked scfg s)
    (hq : (s.daemon.monitor.source m).queue ≠ []) :
    (step scfg cfg calls s (.dispatch m reads now)).isSome = true ↔
      Source.Survives (m.kind calls) reads (s.daemon.monitor.source m) := by
  rw [← Daemon.dispatch_isSome_iff hk.daemon hq]
  constructor
  · intro h
    obtain ⟨t, ht⟩ := Option.isSome_iff_exists.mp h
    exact Option.isSome_iff_exists.mpr ⟨t.daemon, run_single (step_parts ht).2.2.1⟩
  · intro h
    exact step_isSome rfl rfl rfl (run_single_isSome h) rfl

/-- Whatever has something in its queue can handle it, but for an update that ends the process. -/
structure Unblocked (scfg : ServiceConfig) (cfg : Config) (calls : SysProc.Calls F) (s : Whole F L) : Prop where
  manager : s.daemon.service.queue ≠ [] → ∃ l, serviceLabel l = some .handle ∧ (step scfg cfg calls s l).isSome = true
  sources : ∀ m reads now, (s.daemon.monitor.source m).queue ≠ [] →
    ((step scfg cfg calls s (.dispatch m reads now)).isSome = true ↔
      Source.Survives (m.kind calls) reads (s.daemon.monitor.source m))
  startup : s.daemon.monitor.startupQueue ≠ [] → (step scfg cfg calls s .dispatchStartup).isSome = true
  registry : s.stats.system.registry.queue ≠ [] →
    ∃ collector, (step scfg cfg calls s (.dispatchRegistry collector)).isSome = true
  stats : s.stats.queue ≠ [] → ∃ c, (step scfg cfg calls s (.dispatchStats c)).isSome = true

theorem Linked.unblocked (hk : Linked scfg s) : Unblocked scfg cfg calls s where
  manager := manager_isSome hk
  sources := fun _ _ _ hq => source_isSome_iff hk hq
  startup := fun hq => step_isSome rfl rfl rfl (run_single_isSome (Daemon.dispatchStartup_isSome hk.daemon hq)) rfl
  registry := registry_isSome hk
  stats := stats_isSome hk

/-! ### Answers -/

theorem asking_fifo (hk : Linked scfg s) (h : step scfg cfg calls s l = some t) (mrq : ModuleRequest) :
    asking mrq s.daemon.service.modules ++ asking mrq (requested scfg s l) =
      asking mrq (s.handled l) ++ asking mrq t.daemon.service.modules := by
  have hkind {rq : ICollector × ModuleRequest} {c : ICollector} (h : (if rq.2 = mrq then some rq.1 else none) = some c) :
      rq.2 = mrq := (Option.ite_none_right_eq_some.mp h).1
  exact modules_fifo hk h fun rq rq' c c' hc hc' => .inl ((hkind hc).trans (hkind hc').symm)

/-- What connections have asked was handled, or is at its module. -/
theorem asking_run (hn : Meets (step scfg cfg calls) (Native scfg) s labels) (hk : Linked scfg s)
    (h : run (step scfg cfg calls) s labels = some t) (mrq : ModuleRequest) :
    asking mrq s.daemon.service.modules ++ asking mrq (trace (step scfg cfg calls) (requested scfg) s labels) =
      asking mrq (trace (step scfg cfg calls) handled s labels) ++ asking mrq t.daemon.service.modules := by
  have hfifo : asking mrq s.daemon.service.modules ++
        trace (step scfg cfg calls) (fun s l => asking mrq (requested scfg s l)) s labels =
      trace (step scfg cfg calls) (fun s l => asking mrq (s.handled l)) s labels ++ asking mrq t.daemon.service.modules :=
    run_fifo_meets linked_step (fun _ _ _ hk _ hl => asking_fifo hk hl mrq) hk hn h
  simpa only [asking, trace_filterMap] using hfifo

/-- The sources send to those whose requests are handled. -/
theorem sources_sent (hk : Linked scfg s) (h : step scfg cfg calls s l = some t) (m : SysProc) :
    (t.daemon.monitor.source m).sent.map Prod.fst =
      (s.daemon.monitor.source m).sent.map Prod.fst ++ asking m.moduleRequest (s.handled l) := by
  obtain ⟨hallowed, _, hdaemon, _⟩ := step_parts h
  have hsource {d : Daemon.Label} (h : run (Daemon.step scfg calls) s.daemon [d] = some t.daemon) :
      (t.daemon.monitor.source m).sent.map Prod.fst =
        (s.daemon.monitor.source m).sent.map Prod.fst ++ asking m.moduleRequest (s.daemon.handled d) :=
    (Daemon.waiting_fifo hk.daemon (run_single h) (.inl rfl)).2.2 m
  have hnone (k : ModuleRequest) (c : ICollector) (hk : m.moduleRequest ≠ k) : asking m.moduleRequest [(c, k)] = [] := by
    rw [Daemon.asking_pair, if_neg hk.symm]
  cases l with
  | process l =>
    rw [← Option.some.inj hdaemon]
    exact (List.append_nil _).symm
  | dispatchRegistry collector =>
    rcases handled_registry hk hallowed with ⟨_, hh⟩ | ⟨c, action, _, _, hh, _⟩
    · simp only [daemonLabels, hh, List.map_nil] at hdaemon
      rw [← Option.some.inj hdaemon, hh]
      exact (List.append_nil _).symm
    · simp only [daemonLabels, hh, List.map_singleton] at hdaemon
      rw [hh, hnone _ c (by cases m <;> simp [SysProc.moduleRequest])]
      exact hsource hdaemon
  | dispatchStats c =>
    have hh : s.handled (.dispatchStats c) = [(c, .procEvent)] := rfl
    rw [hh, hnone _ c (by cases m <;> simp [SysProc.moduleRequest])]
    exact hsource hdaemon
  | _ => exact hsource hdaemon

/-! ### What is sent -/

/-- What a step is to the sources. -/
def monitorLabels (scfg : ServiceConfig) (s : Whole F L) (l : Label) : List (Monitor.Label ICollector) :=
  (s.daemonLabels l).flatMap (Daemon.monitorLabels scfg s.daemon)

omit [DeferredList L] in
/-- A step is at most one of the connections and the sources, and asks what that asks. -/
theorem daemonLabels_cases (scfg : ServiceConfig) (s : Whole F L) (l : Label) :
    (s.daemonLabels l = [] ∧ requested scfg s l = []) ∨
      ∃ d, s.daemonLabels l = [d] ∧ Daemon.requested scfg s.daemon d = requested scfg s l := by
  cases l with
  | process l => exact .inl ⟨rfl, rfl⟩
  | dispatchRegistry collector =>
    simp only [daemonLabels, handled]
    cases s.stats.system.registry.queue.head?.bind Registry.Request.sends with
    | none => exact .inl ⟨rfl, rfl⟩
    | some asked =>
      cases collector with
      | none => exact .inl ⟨rfl, rfl⟩
      | some c => exact .inr ⟨_, rfl, rfl⟩
  | _ => exact .inr ⟨_, rfl, rfl⟩

theorem monitor_step (h : step scfg cfg calls s l = some t) :
    run (Monitor.step scfg.app calls) s.daemon.monitor (monitorLabels scfg s l) = some t.daemon.monitor := by
  have hdaemon := (step_parts h).2.2.1
  rcases daemonLabels_cases scfg s l with ⟨hl, _⟩ | ⟨d, hl, _⟩
  · rw [hl] at hdaemon
    rw [monitorLabels, hl, ← Option.some.inj hdaemon]
    rfl
  · rw [hl] at hdaemon
    rw [monitorLabels, hl, List.flatMap_singleton]
    exact (Daemon.step_parts (run_single hdaemon)).2.2

omit [DeferredList L] in
/-- What connections ask of the start-up data is asked of it. -/
theorem startupAsked_labels (s : Whole F L) (l : Label) :
    (monitorLabels scfg s l).filterMap (Monitor.startupAsked scfg.app) = asking .startupData (requested scfg s l) := by
  rcases daemonLabels_cases scfg s l with ⟨hl, hnone⟩ | ⟨d, hl, hasked⟩
  · rw [monitorLabels, hl, hnone]
    rfl
  · rw [monitorLabels, hl, List.flatMap_singleton, Daemon.startupAsked_labels, hasked]

/-- What is retained at each answer of the start-up data. -/
def startupAnswers (scfg : ServiceConfig) (cfg : Config) (calls : SysProc.Calls F) (pressureFile : String → Bool)
    (s : Whole F L) (labels : List Label) : List (List (StartupMessage F)) :=
  Monitor.snapshots scfg.app calls pressureFile [] (trace (step scfg cfg calls) (monitorLabels scfg) s labels)

/-- What the registry sends in a step, and to whom. -/
def registrySent (scfg : ServiceConfig) (cfg : Config) (s : Whole F L) : Label → List (ICollector × Registry.Data)
  | .dispatchRegistry (some c) =>
    (((s.stats.system.registry.dispatch (built scfg cfg)).map Prod.snd).getD []).map fun data => (c, data)
  | _ => []

/-- What the requests that a step handles are due of the registry. -/
def registryDue (scfg : ServiceConfig) (cfg : Config) (s : Whole F L) (l : Label) : List (ICollector × Registry.Data) :=
  (s.handled l).flatMap fun rq =>
    match rq.2 with
    | .procRegistry action =>
      (Registry.replies (built scfg cfg) s.stats.system.registry action).map fun data => (rq.1, data)
    | _ => []

/-- No context is ever listed twice. -/
theorem ordered_step (ho : Registry.Ordered s.stats.system.registry) (h : step scfg cfg calls s l = some t) :
    Registry.Ordered t.stats.system.registry := by
  have hsteps : Reaches (System.step (built scfg cfg)) s.stats.system t.stats.system :=
    EventStats.system_steps (.of_run (.of_forall (fun _ _ _ _ _ => trivial) _) (step_parts h).2.2.2)
  exact hsteps.invariant (P := fun u => Registry.Ordered u.registry) (fun _ _ _ ho _ hl => System.ordered_step hl ho) ho

theorem ours_due {d : Daemon.Label} (hh : s.handled l = s.daemon.handled d) : registryDue scfg cfg s l = [] := by
  refine List.flatMap_eq_nil_iff.mpr fun rq hrq => ?_
  have hours := (Daemon.handled_waits (hh ▸ hrq)).1
  split
  · rename_i action ha
    exact absurd hours (Daemon.not_ours (.inl ⟨action, ha⟩))
  · rfl

/-- The registry sends what its requests are due. -/
theorem registry_sent (hk : Linked scfg s) (ho : Registry.Ordered s.stats.system.registry)
    (h : step scfg cfg calls s l = some t) : registrySent scfg cfg s l = registryDue scfg cfg s l := by
  obtain ⟨hallowed, _, _, hstats⟩ := step_parts h
  cases l with
  | dispatchRegistry collector =>
    obtain ⟨out, hout, _⟩ := Option.map_eq_some_iff.mp (system_stats hstats).1
    obtain ⟨request, rest, hq, _⟩ := Registry.dispatch_eq_some hout
    have hhead : s.stats.system.registry.queue.head? = some request := by rw [hq]; rfl
    rcases handled_registry hk hallowed with ⟨hnone, hh⟩ | ⟨c, action, _, hsome, hh, _⟩
    · -- It is a commit, which no collector asks for.
      have hsends : request.sends = none := by simpa [hhead] using hnone
      have hcollector : collector = none := by simpa [allowed, hhead, hsends] using hallowed
      rw [registryDue, hh, hcollector]
      rfl
    · have hsends : request.sends = some (action, some c.number) := by simpa [hhead] using hsome
      have haction : request.action = action := by
        obtain ⟨_, hasked⟩ := Option.ite_none_left_eq_some.mp hsends
        exact congrArg Prod.fst (Option.some.inj hasked)
      have hcollector : collector = some c := by
        simp only [handled, hsome, Option.toList_some, List.flatMap_singleton] at hh
        cases collector with
        | none => cases hh
        | some c' => exact congrArg some (Prod.mk.inj (List.singleton_inj.mp hh)).1
      rw [registryDue, hh, hcollector, registrySent, Registry.dispatch_replies ho.nodup hhead, haction]
      simp
  | connection l => rfl
  | tick lane pushed x => rfl
  | dispatch m reads now => exact (ours_due (d := .dispatch m reads now) rfl).symm
  | dispatchStartup => exact (ours_due (d := .dispatchStartup) rfl).symm
  | expire => rfl
  | process l => rfl
  | noBuffers x => rfl
  | updateProcessList x => rfl
  | dispatchStats c => rfl

/-- What was handled has been answered: by a source with its message, by the start-up data with what it then retains, by
the registry with what is due, by the process events with their counts, and on the descriptor of who asked. -/
structure Answered (scfg : ServiceConfig) (cfg : Config) (calls : SysProc.Calls F) (pressureFile : String → Bool)
    (s : Whole F L) (labels : List Label) (t : Whole F L) : Prop where
  sources : ∀ m, (t.daemon.monitor.source m).sent.map Prod.fst =
    asking m.moduleRequest (trace (step scfg cfg calls) handled s labels)
  startup : t.daemon.monitor.startupSent =
    Monitor.addressed (asking .startupData (trace (step scfg cfg calls) handled s labels))
      (startupAnswers scfg cfg calls pressureFile s labels)
  each : (asking .startupData (trace (step scfg cfg calls) handled s labels)).length ≤
    (startupAnswers scfg cfg calls pressureFile s labels).length
  registry : trace (step scfg cfg calls) (registrySent scfg cfg) s labels =
    trace (step scfg cfg calls) (registryDue scfg cfg) s labels
  stats : t.stats.sent = trace (step scfg cfg calls) statsDue s labels
  own : ∀ w ∈ trace (step scfg cfg calls) written s labels, w.2 = some w.1.1

theorem ordered_start :
    Registry.Ordered (start scfg cfg held pressureFile readProcAtInit w x₀ : Whole F L).stats.system.registry := by
  cases readProcAtInit with
  | true => exact System.ordered_start ..
  | false => exact Registry.covered_empty.toOrdered

theorem answered_run
    (hn : Meets (step scfg cfg calls) (Native scfg)
      (start scfg cfg held pressureFile readProcAtInit w x₀ : Whole F L) labels)
    (h : run (step scfg cfg calls) (start scfg cfg held pressureFile readProcAtInit w x₀ : Whole F L) labels = some t) :
    Answered scfg cfg calls pressureFile (start scfg cfg held pressureFile readProcAtInit w x₀ : Whole F L) labels t := by
  have hstart : Linked scfg (start scfg cfg held pressureFile readProcAtInit w x₀ : Whole F L) := linked_start
  have hwait : asking .startupData t.daemon.service.modules = t.daemon.monitor.startupQueue :=
    ((linked_run hn hstart h).daemon.queues .startupData (.inl rfl)).symm
  have hasked := asking_run hn hstart h .startupData
  rw [hwait] at hasked
  have hstartup := Monitor.startupSent_run (fun _ _ _ hl => monitor_step hl) startupAsked_labels rfl h
    ((trace_filterMap _ _ _ _).symm.trans hasked)
  refine ⟨fun m => ?_, hstartup.1, hstartup.2, ?_, ?_, fun w hw => ?_⟩
  · have hlog : (t.daemon.monitor.source m).sent.map Prod.fst = [] ++
          trace (step scfg cfg calls) (fun s l => asking m.moduleRequest (s.handled l)) _ labels :=
      run_log_meets linked_step (fun _ _ _ hk _ hl => sources_sent hk hl m) hstart hn h
    rw [hlog, List.nil_append, asking, trace_filterMap]
    rfl
  · exact trace_congr (I := fun s => Linked scfg s ∧ Registry.Ordered s.stats.system.registry)
      (fun s l t hi hc hl => ⟨linked_step s l t hi.1 hc hl, ordered_step hi.2 hl⟩)
      (fun _ _ _ hi _ hl => registry_sent hi.1 hi.2 hl) ⟨hstart, ordered_start⟩ hn h
  · exact run_log_meets linked_step (fun _ _ _ hk _ hl => (queues hk hl).sent) hstart hn h
  · obtain ⟨before, l, after, s, rfl, hs, hw⟩ := mem_trace hw
    rw [run_append hs] at h
    obtain ⟨_, hl, _⟩ := Option.bind_eq_some_iff.mp h
    exact written_own (linked_run hn.of_append hstart hs) hl hw

/-- **Every request of every connection is answered once, in order, and on its own descriptor**, by whatever module it is
for, while processes come and go and events are lost, as long as no envelope of another origin is read. What is not yet
answered is at its module, and whatever has something in its queue can handle it, but for an update that ends the
process. -/
theorem all_answered
    (hn : Meets (step scfg cfg calls) (Native scfg)
      (start scfg cfg held pressureFile readProcAtInit w x₀ : Whole F L) labels)
    (h : run (step scfg cfg calls) (start scfg cfg held pressureFile readProcAtInit w x₀ : Whole F L) labels = some t) :
    let s₀ : Whole F L := start scfg cfg held pressureFile readProcAtInit w x₀
    (∀ mrq, asking mrq (trace (step scfg cfg calls) (requested scfg) s₀ labels) =
      asking mrq (trace (step scfg cfg calls) handled s₀ labels) ++ asking mrq t.daemon.service.modules) ∧
      Answered scfg cfg calls pressureFile s₀ labels t ∧ Unblocked scfg cfg calls t :=
  ⟨asking_run hn linked_start h, answered_run hn h, (linked_run hn linked_start h).unblocked⟩

/-- A client asks for the processes and for the statistics, hangs up while an event is lost, and is answered by the
registry before the scan and by the statistics behind it. -/
def askedTwice : List Label :=
  [.connection (.accept .TCP 5 (some []) 0),
    .connection (.readable ⟨0, .TCP, 5⟩
      [.envelope true (request .getProcInfo), .envelope true (request .getProcEventStats), .endOfFile] 1),
    .process (.fork 1 5 7 true), .noBuffers .quiet, .dispatchRegistry (some ⟨0, .TCP, 5⟩), .connection .handle,
    .connection .handle, .updateProcessList .quiet, .dispatchStats ⟨0, .TCP, 5⟩]

/-- The daemon with everything built in, as it is started. -/
def started : Whole Nat Recorded :=
  start Service.fullService System.trackingConfig false (fun _ => true) true System.bootWorld .quiet

abbrev fullStep : Whole Nat Recorded → Label → Option (Whole Nat Recorded) :=
  step Service.fullService System.trackingConfig Monitor.noCalls

theorem all_answered_lost :
    ∃ t, run fullStep started askedTwice = some t ∧
      (∀ mrq, asking mrq (trace fullStep (requested Service.fullService) started askedTwice) =
        asking mrq (trace fullStep handled started askedTwice) ++ asking mrq t.daemon.service.modules) ∧
      Answered Service.fullService System.trackingConfig Monitor.noCalls (fun _ => true) started askedTwice t ∧
      Unblocked Service.fullService System.trackingConfig Monitor.noCalls t := by
  obtain ⟨t, ht⟩ := Option.isSome_iff_exists.mp
    (by decide +kernel : (run fullStep started askedTwice).isSome = true)
  have hnative : Meets fullStep (Native Service.fullService) started askedTwice := by decide +kernel
  exact ⟨t, ht, all_answered hnative ht⟩

end TaskMonitor.Whole

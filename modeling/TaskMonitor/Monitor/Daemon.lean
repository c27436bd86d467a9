import TaskMonitor.Connection.Delivery
import TaskMonitor.Collector.FrontEnds
import TaskMonitor.Monitor.Startup

/-! Connections and sources together.

What a callback pushes goes to the queue of a source, and the request that a
source handles lets go of its collector. So the queues of the sources are what
the connections see of the modules (`Linked`), and with what holds of each of the
two alone every request is answered once, in order, on the descriptor of the
connection that made it (`requests_answered`). The registry and the process events
have queues of their own and answer as before. -/
namespace TaskMonitor
open Collector Transition

/-- The request for what a source sends. -/
def SysProc.moduleRequest : SysProc → ModuleRequest
  | .stat => .sysProcStat
  | .memInfo => .sysProcMemInfo
  | .pressure => .sysProcPressure
  | .diskStats => .sysProcDiskStats
  | .buddyInfo => .sysProcBuddyInfo
  | .wireless => .sysProcWireless
  | .vmStat => .sysProcVMStat

structure Daemon (F : Type) [Zero F] (L : Type → Type) where
  service : Service L
  monitor : Monitor F ICollector

namespace Daemon

variable {F : Type} [Zero F] {L : Type → Type} [DeferredList L] {cfg : ServiceConfig} {calls : SysProc.Calls F}
  {held : Bool} {pressureFile : String → Bool}

inductive Label where
  /-- What happens to connections; of `served` only what the registry and the process events do. -/
  | connection (l : Service.Label)
  | tick (lane : UpdateLane) (pushed : SysProc → Bool)
  | dispatch (m : SysProc) (reads : m.Reads) (now : Clock)
  | dispatchStartup
  | expire

/-- What a request is to the sources. -/
def put (rq : ICollector × ModuleRequest) : List (Monitor.Label ICollector) :=
  match rq.2 with
  | .startupData => [.askStartup rq.1 true]
  | .sysProcStat => [.ask .stat rq.1 true]
  | .sysProcMemInfo => [.ask .memInfo rq.1 true]
  | .sysProcPressure => [.ask .pressure rq.1 true]
  | .sysProcDiskStats => [.ask .diskStats rq.1 true]
  | .sysProcBuddyInfo => [.ask .buddyInfo rq.1 true]
  | .sysProcWireless => [.ask .wireless rq.1 true]
  | .sysProcVMStat => [.ask .vmStat rq.1 true]
  | .procRegistry _ | .procEvent => []

/-- The collectors in the queue that a request of the kind goes to. -/
def waiting (mrq : ModuleRequest) (s : Monitor F ICollector) : List ICollector :=
  let askers (m : SysProc) := (s.source m).queue.filterMap Request.asker
  match mrq with
  | .startupData => s.startupQueue
  | .sysProcStat => askers .stat
  | .sysProcMemInfo => askers .memInfo
  | .sysProcPressure => askers .pressure
  | .sysProcDiskStats => askers .diskStats
  | .sysProcBuddyInfo => askers .buddyInfo
  | .sysProcWireless => askers .wireless
  | .sysProcVMStat => askers .vmStat
  | .procRegistry _ | .procEvent => []

/-- The request is for the start-up data or a source. -/
def Ours (mrq : ModuleRequest) : Prop := mrq = .startupData ∨ ∃ m : SysProc, mrq = m.moduleRequest

/-- The requests that a step handles at the sources. -/
def handled (s : Daemon F L) : Label → List (ICollector × ModuleRequest)
  | .dispatch m _ _ =>
    ((s.monitor.source m).queue.head?.bind Request.asker).toList.map fun c => (c, m.moduleRequest)
  | .dispatchStartup => s.monitor.startupQueue.head?.toList.map fun c => (c, .startupData)
  | .connection _ | .tick _ _ | .expire => []

/-- The requests that a step makes. -/
def requested (cfg : ServiceConfig) (s : Daemon F L) : Label → List (ICollector × ModuleRequest)
  | .connection l => Service.asked cfg s.service l
  | .dispatch _ _ _ | .dispatchStartup | .tick _ _ | .expire => []

/-- What a step is to the connections: a request that is handled is let go of. -/
def serviceLabels (s : Daemon F L) : Label → List Service.Label
  | .connection l => [l]
  | l => (handled s l).map .served

/-- What a step is to the sources. -/
def monitorLabels (cfg : ServiceConfig) (s : Daemon F L) : Label → List (Monitor.Label ICollector)
  | .connection l => (Service.asked cfg s.service l).flatMap put
  | .tick lane pushed => [.tick lane pushed]
  | .dispatch m reads now => [.dispatch m reads now]
  | .dispatchStartup => [.dispatchStartup]
  | .expire => [.expire]

/-- A source answers only when it handles a request. -/
def allowed : Label → Bool
  | .connection (.served (_, .procRegistry _)) | .connection (.served (_, .procEvent)) => true
  | .connection (.served _) => false
  | _ => true

def step (cfg : ServiceConfig) (calls : SysProc.Calls F) (s : Daemon F L) (l : Label) : Option (Daemon F L) :=
  if allowed l then
    (run (Service.step cfg) s.service (serviceLabels s l)).bind fun service =>
      (run (Monitor.step cfg.app calls) s.monitor (monitorLabels cfg s l)).map fun monitor => ⟨service, monitor⟩
  else none

def start (cfg : ServiceConfig) (held : Bool) (pressureFile : String → Bool) : Daemon F L :=
  ⟨Service.start cfg held, Monitor.start cfg.app pressureFile⟩

variable {s t : Daemon F L} {l : Label} {labels : List Label} {mrq : ModuleRequest} {c : ICollector} {m : SysProc}

theorem step_parts (h : step cfg calls s l = some t) :
    allowed l = true ∧ run (Service.step cfg) s.service (serviceLabels s l) = some t.service ∧
      run (Monitor.step cfg.app calls) s.monitor (monitorLabels cfg s l) = some t.monitor := by
  obtain ⟨hallowed, h⟩ := Option.ite_none_right_eq_some.mp h
  obtain ⟨service, hservice, h⟩ := Option.bind_eq_some_iff.mp h
  obtain ⟨monitor, hmonitor, rfl⟩ := Option.map_eq_some_iff.mp h
  exact ⟨hallowed, hservice, hmonitor⟩

/-- **The two parts run as they do alone**, so what holds of the runs of each holds in the daemon. -/
theorem parts_run (h : run (step cfg calls) s labels = some t) :
    run (Service.step cfg) s.service (trace (step cfg calls) serviceLabels s labels) = some t.service ∧
      run (Monitor.step cfg.app calls) s.monitor (trace (step cfg calls) (monitorLabels cfg) s labels) =
        some t.monitor :=
  ⟨run_simulate (fun _ _ _ hl => (step_parts hl).2.1) h, run_simulate (fun _ _ _ hl => (step_parts hl).2.2) h⟩

/-! ### Requests at modules -/

/-- The collectors whose request is of the kind. -/
def asking (mrq : ModuleRequest) (rqs : List (ICollector × ModuleRequest)) : List ICollector :=
  rqs.filterMap fun rq => if rq.2 = mrq then some rq.1 else none

theorem asking_cons (rq : ICollector × ModuleRequest) (rest : List (ICollector × ModuleRequest)) :
    asking mrq (rq :: rest) = (if rq.2 = mrq then [rq.1] else []) ++ asking mrq rest := by
  by_cases h : rq.2 = mrq <;> simp [asking, h]

theorem asking_append (mrq : ModuleRequest) (rqs more : List (ICollector × ModuleRequest)) :
    asking mrq (rqs ++ more) = asking mrq rqs ++ asking mrq more :=
  List.filterMap_append

/-- Letting go of another kind of request. -/
theorem asking_erase_of_ne {rq : ICollector × ModuleRequest} (hne : rq.2 ≠ mrq) (rqs : List (ICollector × ModuleRequest)) :
    asking mrq (rqs.erase rq) = asking mrq rqs := by
  induction rqs with
  | nil => rfl
  | cons first rest ih =>
    by_cases he : first = rq
    · subst he
      rw [List.erase_cons_head, asking_cons, if_neg hne, List.nil_append]
    · rw [List.erase_cons_tail (by simpa using he), asking_cons, asking_cons, ih]

/-- Letting go of the request of the collector that asked first. -/
theorem asking_erase_head {rest : List ICollector} {rqs : List (ICollector × ModuleRequest)}
    (h : asking mrq rqs = c :: rest) : (c, mrq) ∈ rqs ∧ asking mrq (rqs.erase (c, mrq)) = rest := by
  induction rqs with
  | nil => cases h
  | cons first more ih =>
    rw [asking_cons] at h
    by_cases hk : first.2 = mrq
    · rw [if_pos hk] at h
      obtain ⟨hc, hrest⟩ := List.cons.inj h
      obtain rfl : first = (c, mrq) := Prod.ext hc hk
      refine ⟨List.mem_cons_self .., ?_⟩
      rw [List.erase_cons_head]
      exact hrest
    · rw [if_neg hk] at h
      obtain ⟨hmem, herase⟩ := ih h
      have hne : first ≠ (c, mrq) := fun he => hk (by rw [he])
      refine ⟨List.mem_cons_of_mem _ hmem, ?_⟩
      rw [List.erase_cons_tail (by simpa using hne), asking_cons, if_neg hk]
      exact herase

/-! ### Requests at sources -/

section Sources

variable {app : App} {s t : Monitor F ICollector} {l : Monitor.Label ICollector} {rq : ICollector × ModuleRequest}

theorem waiting_source (s : Monitor F ICollector) (m : SysProc) :
    waiting m.moduleRequest s = (s.source m).queue.filterMap Request.asker := by
  cases m <;> rfl

theorem put_source (c : ICollector) (m : SysProc) : put (c, m.moduleRequest) = [.ask m c true] := by
  cases m <;> rfl

/-- The collector that a source answers in a step. -/
def answered (s : Monitor F ICollector) (m : SysProc) : Monitor.Label ICollector → List ICollector
  | .dispatch m' _ _ => if m' = m then ((s.source m).queue.head?.bind Request.asker).toList else []
  | .tick _ _ | .ask _ _ _ | .askStartup _ _ | .dispatchStartup | .expire => []

theorem own_taken (s : Monitor F ICollector) (m : SysProc) (l : Monitor.Label ICollector) :
    ((Monitor.own app m l).elim [] fun k => ((s.source m).taken k).filterMap Request.asker) = answered s m l := by
  cases l with
  | tick lane pushed =>
    simp only [Monitor.own]
    split <;> rfl
  | ask m' collector pushed =>
    simp only [Monitor.own]
    split <;> rfl
  | dispatch m' reads now =>
    by_cases hm : m' = m
    · subst hm
      cases hq : (s.source m').queue with
      | nil => simp [Monitor.own, answered, Source.taken, hq]
      | cons request rest => cases request <;> simp [Monitor.own, answered, Source.taken, hq, Request.asker]
    · simp [Monitor.own, answered, hm]
  | askStartup collector pushed => rfl
  | dispatchStartup => rfl
  | expire => rfl

/-- The collectors that wait for a source come in at the back, and are answered from the front. -/
theorem source_fifo (h : Monitor.step app calls s l = some t) (m : SysProc) :
    (s.source m).queue.filterMap Request.asker ++ (Monitor.askedOf app m l).toList =
        answered s m l ++ (t.source m).queue.filterMap Request.asker ∧
      (t.source m).sent.map Prod.fst = (s.source m).sent.map Prod.fst ++ answered s m l := by
  have hcarries := Monitor.source_carries m s l t h
  rw [← Monitor.own_asked, ← own_taken s m l]
  cases ho : Monitor.own app m l with
  | none =>
    rw [ho] at hcarries
    simp [hcarries]
  | some k =>
    rw [ho] at hcarries
    have hfifo := congrArg (List.filterMap Request.asker) (Source.step_fifo hcarries)
    rw [List.filterMap_append, List.filterMap_append, Source.put_asker] at hfifo
    exact ⟨hfifo, Source.step_sent hcarries⟩

/-- A request is for the start-up data, for a source, or for neither. -/
theorem request_cases (mrq : ModuleRequest) :
    mrq = .startupData ∨ (∃ m : SysProc, mrq = m.moduleRequest) ∨
      ((∃ action, mrq = .procRegistry action) ∨ mrq = .procEvent) := by
  cases mrq with
  | startupData => exact .inl rfl
  | procRegistry action => exact .inr (.inr (.inl ⟨action, rfl⟩))
  | procEvent => exact .inr (.inr (.inr rfl))
  | sysProcStat => exact .inr (.inl ⟨.stat, rfl⟩)
  | sysProcMemInfo => exact .inr (.inl ⟨.memInfo, rfl⟩)
  | sysProcPressure => exact .inr (.inl ⟨.pressure, rfl⟩)
  | sysProcDiskStats => exact .inr (.inl ⟨.diskStats, rfl⟩)
  | sysProcBuddyInfo => exact .inr (.inl ⟨.buddyInfo, rfl⟩)
  | sysProcWireless => exact .inr (.inl ⟨.wireless, rfl⟩)
  | sysProcVMStat => exact .inr (.inl ⟨.vmStat, rfl⟩)

theorem not_ours (h : (∃ action, mrq = .procRegistry action) ∨ mrq = .procEvent) : ¬Ours mrq := by
  rintro (rfl | ⟨m, rfl⟩)
  · simp at h
  · cases m <;> simp [SysProc.moduleRequest] at h

theorem moduleRequest_inj {m m' : SysProc} (h : m.moduleRequest = m'.moduleRequest) : m = m' := by
  revert h
  cases m <;> cases m' <;> decide

theorem moduleRequest_ne (m : SysProc) : m.moduleRequest ≠ .startupData := by cases m <;> decide

/-- A request goes to the queue of its module. -/
theorem put_run (hm : ∀ m : SysProc, rq.2 = m.moduleRequest → m.present app = true)
    (hs : rq.2 = .startupData → s.startupData.isSome = true) (ho : Ours mrq) :
    ∃ t, run (Monitor.step app calls) s (put rq) = some t ∧ t.startupData = s.startupData ∧
      waiting mrq t = waiting mrq s ++ asking mrq [rq] ∧ ∀ m, (t.source m).sent = (s.source m).sent := by
  obtain ⟨c, k⟩ := rq
  rcases request_cases k with rfl | ⟨m, rfl⟩ | hother
  · refine ⟨{s with startupQueue := s.startupQueue ++ [c]}, by simp [put, run, Monitor.step, hs rfl], rfl, ?_, fun _ => rfl⟩
    rcases ho with rfl | ⟨m, rfl⟩
    · simp [waiting, asking]
    · simp [waiting_source, asking, (moduleRequest_ne m).symm]
  · have hpresent := hm m rfl
    refine ⟨{s with source := Function.update s.source m ((s.source m).pushRequest (.collectAndSend c) true).1},
      by simp [put_source, run, Monitor.step, hpresent], rfl, ?_, fun m' => ?_⟩
    · rcases ho with rfl | ⟨m', rfl⟩
      · simp [waiting, asking, moduleRequest_ne m]
      · rw [waiting_source, waiting_source]
        by_cases he : m' = m
        · subst he
          simp [asking, Source.pushRequest, Request.asker]
        · have hne : m.moduleRequest ≠ m'.moduleRequest := fun h => he (moduleRequest_inj h).symm
          simp [asking, he, hne]
    · by_cases he : m' = m
      · subst he
        simp [Source.pushRequest]
      · simp [he]
  · have hne : k ≠ mrq := fun he => not_ours hother (he ▸ ho)
    have hput : put (c, k) = [] := by
      rcases hother with ⟨action, rfl⟩ | rfl <;> rfl
    rw [hput]
    exact ⟨s, rfl, rfl, by simp [asking, hne], fun _ => rfl⟩

/-- The requests of a callback go to the queues of their modules. -/
theorem puts_run {rqs : List (ICollector × ModuleRequest)}
    (hm : ∀ rq ∈ rqs, ∀ m : SysProc, rq.2 = m.moduleRequest → m.present app = true)
    (hs : ∀ rq ∈ rqs, rq.2 = .startupData → s.startupData.isSome = true) (ho : Ours mrq) :
    ∃ t, run (Monitor.step app calls) s (rqs.flatMap put) = some t ∧ t.startupData = s.startupData ∧
      waiting mrq t = waiting mrq s ++ asking mrq rqs ∧ ∀ m, (t.source m).sent = (s.source m).sent := by
  induction rqs generalizing s with
  | nil => exact ⟨s, rfl, rfl, (List.append_nil _).symm, fun _ => rfl⟩
  | cons rq rest ih =>
    obtain ⟨u, hu, hdata, hwait, hsent⟩ :=
      put_run (hm rq (List.mem_cons_self ..)) (hs rq (List.mem_cons_self ..)) ho
    obtain ⟨t, ht, hdata', hwait', hsent'⟩ := ih (s := u) (fun rq' hrq' => hm rq' (List.mem_cons_of_mem _ hrq'))
      (fun rq' hrq' h => hdata ▸ hs rq' (List.mem_cons_of_mem _ hrq') h)
    refine ⟨t, ?_, hdata'.trans hdata, ?_, fun m => (hsent' m).trans (hsent m)⟩
    · rw [List.flatMap_cons, run_append hu, ht]
    · rw [hwait', hwait, List.append_assoc, ← asking_append, List.singleton_append]

/-- The collectors whose requests for the start-up data a step handles. -/
def startupAnswered (s : Monitor F ICollector) : Monitor.Label ICollector → List ICollector
  | .dispatchStartup => s.startupQueue.head?.toList
  | .tick _ _ | .ask _ _ _ | .dispatch _ _ _ | .askStartup _ _ | .expire => []

/-- A step that asks for nothing takes what it handles from the front. -/
theorem handle_fifo {rqs : List (ICollector × ModuleRequest)} (h : Monitor.step app calls s l = some t)
    (hasked : ∀ m, Monitor.askedOf app m l = none) (henqueued : Monitor.enqueued s l = [])
    (hsource : ∀ m, answered s m l = asking m.moduleRequest rqs)
    (hstartup : startupAnswered s l = asking .startupData rqs) (ho : Ours mrq) :
    waiting mrq s ++ [] = asking mrq rqs ++ waiting mrq t ∧ t.startupData.isSome = s.startupData.isSome ∧
      ∀ m, (t.source m).sent.map Prod.fst = (s.source m).sent.map Prod.fst ++ asking m.moduleRequest rqs := by
  refine ⟨?_, ?_, fun m => hsource m ▸ (source_fifo h m).2⟩
  · rw [List.append_nil]
    rcases ho with rfl | ⟨m, rfl⟩
    · rw [← hstartup]
      rcases Monitor.step_startupQueue h with ⟨c, rfl, hq, _⟩ | ⟨hne, hq, _⟩
      · show s.startupQueue = s.startupQueue.head?.toList ++ t.startupQueue
        rw [hq]
        rfl
      · have hnone : startupAnswered s l = [] := by
          cases l <;> first | rfl | exact absurd rfl hne
        rw [hnone, List.nil_append]
        show s.startupQueue = t.startupQueue
        rw [hq, henqueued, List.append_nil]
    · have hfifo := (source_fifo h m).1
      rw [hasked m] at hfifo
      rw [waiting_source, waiting_source, ← hsource m]
      simpa using hfifo
  · rw [Monitor.step_startupData h, Monitor.logged_isSome]

end Sources

/-! ### The queues are the modules -/

/-- What waits at the sources is what the connections have at them. -/
structure Linked (cfg : ServiceConfig) (s : Daemon F L) : Prop where
  queues : ∀ mrq, Ours mrq → waiting mrq s.monitor = asking mrq s.service.modules
  startup : s.monitor.startupData.isSome = (cfg.app.withStartupData && cfg.app.startupData)

/-- A request that is put at a module has a target. -/
theorem queued_target (type : CollectorType) (app : App) (received : List Received) (c : Collector) :
    ∀ mrq ∈ (callback type app c received).queued, ∃ rt, target app rt = some mrq := by
  induction received generalizing c with
  | nil => simp [callback]
  | cons first rest ih =>
    cases first with
    | error => simp [callback]
    | endOfFile => simp [callback]
    | envelope fromCollector rq =>
      cases fromCollector with
      | false => simp [callback]
      | true =>
        by_cases hcreate : rq.type = .createSession
        · rw [callback, dispatch_create type app c hcreate]
          cases hok : rq.ok with
          | true => simpa [doCreateSession, hok, Reaction.queued] using ih _
          | false => simp [doCreateSession, hok]
        · rw [callback, dispatch_other type app c hcreate, answer]
          cases hknows : knows type rq.type with
          | false => simp
          | true =>
            cases htarget : target app rq.type with
            | none => simpa [Reaction.queued] using ih c
            | some mrq =>
              cases hok : rq.ok with
              | true =>
                intro mrq' hm
                simp only [if_true, Reaction.queued, List.singleton_append, List.mem_cons] at hm
                rcases hm with rfl | hm
                · exact ⟨rq.type, htarget⟩
                · exact ih c mrq' hm
              | false => simp

/-- What is asked of a source is there. -/
theorem target_present {app : App} {rt : RequestType} (h : target app rt = some mrq) :
    (∀ m : SysProc, mrq = m.moduleRequest → m.present app = true) ∧
      (mrq = .startupData → (app.withStartupData && app.startupData) = true) := by
  have hif {b : Bool} {k : ModuleRequest} (h : (if b then some k else none) = some mrq) : b = true ∧ k = mrq := by
    cases b with
    | true => exact ⟨rfl, Option.some.inj h⟩
    | false => cases h
  cases rt with
  | createSession => cases h
  | keepAlive => cases h
  | unknown => cases h
  | getProcInfo =>
    obtain rfl := Option.some.inj h
    exact ⟨fun m he => (by cases m <;> cases he), fun he => (by cases he)⟩
  | getContextInfo =>
    obtain rfl := Option.some.inj h
    exact ⟨fun m he => (by cases m <;> cases he), fun he => (by cases he)⟩
  | _ =>
    obtain ⟨hb, rfl⟩ := hif h
    exact ⟨fun m he => (by cases m <;> first | exact hb | cases he), fun he => (by first | exact hb | cases he)⟩

omit [DeferredList L] in
/-- Only those that are there are asked. -/
theorem asked_present {s : Service L} {l : Service.Label} {rq : ICollector × ModuleRequest}
    (h : rq ∈ Service.asked cfg s l) :
    (∀ m : SysProc, rq.2 = m.moduleRequest → m.present cfg.app = true) ∧
      (rq.2 = .startupData → (cfg.app.withStartupData && cfg.app.startupData) = true) := by
  cases l with
  | readable c received now =>
    obtain ⟨mrq, hm, rfl⟩ := List.mem_map.mp h
    obtain ⟨rt, hrt⟩ := queued_target c.type cfg.app received (s.record c) mrq hm
    exact target_present hrt
  | _ => cases h

theorem asking_pair (c : ICollector) (k mrq : ModuleRequest) : asking mrq [(c, k)] = if k = mrq then [c] else [] := by
  by_cases h : k = mrq <;> simp [asking, h]

/-- What waits at the sources is a queue. -/
theorem waiting_fifo (hk : Linked cfg s) (h : step cfg calls s l = some t) (ho : Ours mrq) :
    waiting mrq s.monitor ++ asking mrq (requested cfg s l) = asking mrq (handled s l) ++ waiting mrq t.monitor ∧
      t.monitor.startupData.isSome = s.monitor.startupData.isSome ∧
      ∀ m, (t.monitor.source m).sent.map Prod.fst =
        (s.monitor.source m).sent.map Prod.fst ++ asking m.moduleRequest (handled s l) := by
  obtain ⟨_, _, hmonitor⟩ := step_parts h
  cases l with
  | connection l =>
    have hpresent (rq : ICollector × ModuleRequest) (hrq : rq ∈ Service.asked cfg s.service l) := asked_present hrq
    obtain ⟨u, hu, hdata, hwait, hsent⟩ := puts_run (fun rq hrq => (hpresent rq hrq).1)
      (fun rq hrq he => hk.startup.trans ((hpresent rq hrq).2 he)) ho
    obtain rfl := Option.some.inj (hu.symm.trans hmonitor)
    exact ⟨hwait.symm, by rw [hdata], fun m => by rw [hsent m]; exact (List.append_nil _).symm⟩
  | tick lane pushed =>
    have hl : Monitor.step cfg.app calls s.monitor (.tick lane pushed) = some t.monitor := run_single hmonitor
    exact handle_fifo hl (fun _ => rfl) rfl (fun _ => rfl) rfl ho
  | dispatch m reads now =>
    have hl : Monitor.step cfg.app calls s.monitor (.dispatch m reads now) = some t.monitor := run_single hmonitor
    have hrqs (k : ModuleRequest) : asking k (handled s (.dispatch m reads now)) =
        if m.moduleRequest = k then ((s.monitor.source m).queue.head?.bind Request.asker).toList else [] := by
      simp only [handled]
      cases (s.monitor.source m).queue.head?.bind Request.asker with
      | none => simp [asking]
      | some c => exact asking_pair c _ k
    have hsource (m' : SysProc) : answered s.monitor m' (.dispatch m reads now) =
        asking m'.moduleRequest (handled s (.dispatch m reads now)) := by
      rw [hrqs]
      by_cases he : m = m'
      · subst he
        simp [answered]
      · have hne : m.moduleRequest ≠ m'.moduleRequest := fun h => he (moduleRequest_inj h)
        simp [answered, he, hne]
    have hstartup : startupAnswered s.monitor (.dispatch m reads now) =
        asking .startupData (handled s (.dispatch m reads now)) := by
      rw [hrqs, if_neg (moduleRequest_ne m)]
      rfl
    exact handle_fifo hl (fun _ => rfl) rfl hsource hstartup ho
  | dispatchStartup =>
    have hl : Monitor.step cfg.app calls s.monitor .dispatchStartup = some t.monitor := run_single hmonitor
    have hrqs (k : ModuleRequest) : asking k (handled s .dispatchStartup) =
        if .startupData = k then s.monitor.startupQueue.head?.toList else [] := by
      simp only [handled]
      cases s.monitor.startupQueue.head? with
      | none => simp [asking]
      | some c => exact asking_pair c _ k
    have hsource (m : SysProc) : answered s.monitor m .dispatchStartup =
        asking m.moduleRequest (handled s .dispatchStartup) := by
      rw [hrqs, if_neg (moduleRequest_ne m).symm]
      rfl
    have hstartup : startupAnswered s.monitor .dispatchStartup = asking .startupData (handled s .dispatchStartup) := by
      rw [hrqs, if_pos rfl]
      rfl
    exact handle_fifo hl (fun _ => rfl) rfl hsource hstartup ho
  | expire =>
    have hl : Monitor.step cfg.app calls s.monitor .expire = some t.monitor := run_single hmonitor
    exact handle_fifo hl (fun _ => rfl) rfl (fun _ => rfl) rfl ho

omit [DeferredList L] in
/-- What a step handles is the first that waits. -/
theorem handled_waits {rq : ICollector × ModuleRequest} (h : rq ∈ handled s l) :
    Ours rq.2 ∧ handled s l = [rq] ∧ ∃ rest, waiting rq.2 s.monitor = rq.1 :: rest := by
  cases l with
  | dispatch m reads now =>
    cases hq : (s.monitor.source m).queue with
    | nil => simp [handled, hq] at h
    | cons request rest =>
      cases request with
      | updateStats => simp [handled, hq, Request.asker] at h
      | collectAndSend c =>
        obtain rfl : rq = (c, m.moduleRequest) := by simpa [handled, hq, Request.asker] using h
        refine ⟨.inr ⟨m, rfl⟩, by simp [handled, hq, Request.asker], rest.filterMap Request.asker, ?_⟩
        rw [waiting_source, hq]
        rfl
  | dispatchStartup =>
    cases hq : s.monitor.startupQueue with
    | nil => simp [handled, hq] at h
    | cons c rest =>
      obtain rfl : rq = (c, .startupData) := by simpa [handled, hq] using h
      exact ⟨.inl rfl, by simp [handled, hq], rest, hq⟩
  | connection l => cases h
  | tick lane pushed => cases h
  | expire => cases h

/-- A request that is handled is one that the connections have at a module. -/
theorem Linked.handled (hk : Linked cfg s) {rq : ICollector × ModuleRequest} (h : rq ∈ handled s l) :
    rq ∈ s.service.modules ∧ Service.step cfg s.service (.served rq) =
      some {s.service with modules := s.service.modules.erase rq} := by
  obtain ⟨ho, _, rest, hwait⟩ := handled_waits h
  rw [hk.queues rq.2 ho] at hwait
  have hmem : rq ∈ s.service.modules := (asking_erase_head hwait).1
  exact ⟨hmem, if_pos hmem⟩

/-- What the connections have at the sources is the same queue. -/
theorem modules_fifo (hk : Linked cfg s) (h : step cfg calls s l = some t) (ho : Ours mrq) :
    asking mrq s.service.modules ++ asking mrq (requested cfg s l) =
      asking mrq (handled s l) ++ asking mrq t.service.modules := by
  obtain ⟨hallowed, hservice, _⟩ := step_parts h
  by_cases hl : ∃ l', l = .connection l'
  · obtain ⟨l', rfl⟩ := hl
    have hl' : Service.step cfg s.service l' = some t.service := run_single hservice
    have hserve : asking mrq (l'.serve s.service.modules) = asking mrq s.service.modules := by
      cases l' with
      | served rq =>
        refine asking_erase_of_ne (fun he => ?_) _
        obtain ⟨c, k⟩ := rq
        rcases request_cases k with rfl | ⟨m, rfl⟩ | hother
        · cases hallowed
        · cases m <;> cases hallowed
        · have hk : k = mrq := he
          exact not_ours hother (hk ▸ ho)
      | _ => rfl
    show _ ++ asking mrq (Service.asked cfg s.service l') = _
    rw [Service.step_modules hl', asking_append, hserve]
    rfl
  · have hnone : requested cfg s l = [] := by
      cases l with
      | connection l' => exact absurd ⟨l', rfl⟩ hl
      | _ => rfl
    have hlabels : serviceLabels s l = (handled s l).map .served := by
      cases l with
      | connection l' => exact absurd ⟨l', rfl⟩ hl
      | _ => rfl
    rw [hlabels] at hservice
    rw [hnone]
    cases hh : handled s l with
    | nil =>
      rw [hh] at hservice
      rw [Option.some.inj hservice]
      simp [asking]
    | cons rq rest =>
      have hmem : rq ∈ handled s l := by simp [hh]
      obtain ⟨_, hone, more, hwait⟩ := handled_waits hmem
      obtain rfl : rest = [] := by simpa [hh] using hone
      rw [hh, List.map_singleton, run, (hk.handled hmem).2] at hservice
      obtain hservice := Option.some.inj hservice
      rw [← hservice]
      by_cases he : rq.2 = mrq
      · subst he
        rw [hk.queues rq.2 ho] at hwait
        obtain ⟨_, herase⟩ := asking_erase_head hwait
        show _ = _ ++ asking rq.2 (s.service.modules.erase rq)
        rw [herase, hwait, asking_cons, if_pos rfl]
        simp [asking]
      · show _ = _ ++ asking mrq (s.service.modules.erase rq)
        rw [asking_erase_of_ne he, asking_cons, if_neg he]
        simp [asking]

theorem linked_step (hk : Linked cfg s) (h : step cfg calls s l = some t) : Linked cfg t where
  queues := fun mrq ho => by
    have hwait := (waiting_fifo hk h ho).1
    rw [hk.queues mrq ho, modules_fifo hk h ho] at hwait
    exact (List.append_cancel_left hwait).symm
  startup := (waiting_fifo hk h (.inl rfl)).2.1.trans hk.startup

theorem linked_start : Linked cfg (start cfg held pressureFile : Daemon F L) where
  queues := fun mrq ho => by
    rcases ho with rfl | ⟨m, rfl⟩
    · rfl
    · rw [waiting_source]
      rfl
  startup := by
    simp only [start, Monitor.start]
    cases cfg.app.withStartupData && cfg.app.startupData <;> rfl

/-! ### Answers -/

/-- No connection reads an envelope of another origin. -/
def Native (cfg : ServiceConfig) (s : Daemon F L) : Label → Prop
  | .connection l => Service.Native cfg s.service l
  | .tick _ _ | .dispatch _ _ _ | .dispatchStartup | .expire => True

instance (cfg : ServiceConfig) (s : Daemon F L) : (l : Label) → Decidable (Native cfg s l)
  | .connection l => inferInstanceAs (Decidable (Service.Native cfg s.service l))
  | .tick _ _ | .dispatch _ _ _ | .dispatchStartup | .expire => .isTrue trivial

theorem addressed_step (hk : Linked cfg s) (h : step cfg calls s l = some t) (hn : Native cfg s l)
    (ha : Service.Addressed s.service) : Service.Addressed t.service := by
  obtain ⟨_, hservice, _⟩ := step_parts h
  have hhandled (hlabels : serviceLabels s l = (handled s l).map .served) : Service.Addressed t.service := by
    rw [hlabels] at hservice
    cases hh : handled s l with
    | nil =>
      rw [hh] at hservice
      exact Option.some.inj hservice ▸ ha
    | cons rq rest =>
      have hmem : rq ∈ handled s l := by simp [hh]
      have hone := (handled_waits hmem).2.1
      have hstep := (hk.handled hmem).2
      rw [hone, List.map_singleton, run, hstep] at hservice
      exact Option.some.inj hservice ▸ Service.addressed_step hstep trivial ha
  cases l with
  | connection l =>
    have hl : Service.step cfg s.service l = some t.service := run_single hservice
    exact Service.addressed_step hl hn ha
  | _ => exact hhandled rfl

/-- What a step writes: the request that it answers, and whose descriptor it writes to. -/
def written (s : Daemon F L) (l : Label) : List ((ICollector × ModuleRequest) × Option ICollector) :=
  (handled s l).map fun rq => (rq, s.service.owner rq.1.fd)

/-- The daemon as long as its connections are native. -/
theorem sound_run (hn : Meets (step cfg calls) (Native cfg) (start cfg held pressureFile : Daemon F L) labels)
    (h : run (step cfg calls) (start cfg held pressureFile : Daemon F L) labels = some t) :
    Linked cfg t ∧ Service.Addressed t.service :=
  (Steps.of_run hn h).invariant (P := fun s => Linked cfg s ∧ Service.Addressed s.service)
    (fun _ _ _ ⟨hk, ha⟩ hn hl => ⟨linked_step hk hl, addressed_step hk hl hn ha⟩)
    ⟨linked_start, Service.addressed_start⟩

/-- What the sources handle is there to be let go of. -/
theorem serve_isSome (hk : Linked cfg s) (hl : serviceLabels s l = (handled s l).map .served) :
    ∃ service, run (Service.step cfg) s.service (serviceLabels s l) = some service := by
  rw [hl]
  cases hh : handled s l with
  | nil => exact ⟨s.service, rfl⟩
  | cons rq rest =>
    have hmem : rq ∈ handled s l := by simp [hh]
    have hone := (handled_waits hmem).2.1
    rw [hh] at hone
    rw [hone, List.map_singleton, run, (hk.handled hmem).2]
    exact ⟨_, rfl⟩

/-- A source that has something in its queue can handle it, unless it is an update that ends the process. -/
theorem dispatch_isSome_iff {reads : m.Reads} {now : Clock} (hk : Linked cfg s) (hq : (s.monitor.source m).queue ≠ []) :
    (step cfg calls s (.dispatch m reads now)).isSome = true ↔
      Source.Survives (m.kind calls) reads (s.monitor.source m) := by
  obtain ⟨service, hservice⟩ := serve_isSome (l := .dispatch m reads now) hk rfl
  rw [← Source.dispatch_isSome_iff hq]
  simp [step, allowed, hservice, monitorLabels, run, Monitor.step]

theorem dispatchStartup_isSome (hk : Linked cfg s) (hq : s.monitor.startupQueue ≠ []) :
    (step cfg calls s .dispatchStartup).isSome = true := by
  obtain ⟨service, hservice⟩ := serve_isSome (l := .dispatchStartup) hk rfl
  obtain ⟨c, rest, hrest⟩ := List.exists_cons_of_ne_nil hq
  obtain ⟨monitor, hmonitor⟩ : ∃ monitor, run (Monitor.step cfg.app calls) s.monitor
      (monitorLabels cfg s .dispatchStartup) = some monitor := by
    simp [monitorLabels, run, Monitor.step, hrest]
  simp [step, allowed, hservice, hmonitor]

/-- What happens to connections is not held up by the sources. -/
theorem connection_isSome {k : Service.Label} (hk : Linked cfg s) (ha : allowed (.connection k) = true)
    (h : (Service.step cfg s.service k).isSome = true) : (step cfg calls s (.connection k)).isSome = true := by
  obtain ⟨service, hservice⟩ := Option.isSome_iff_exists.mp h
  have hpresent (rq : ICollector × ModuleRequest) (hrq : rq ∈ Service.asked cfg s.service k) := asked_present hrq
  obtain ⟨monitor, hmonitor, _⟩ : ∃ t, run (Monitor.step cfg.app calls) s.monitor
      ((Service.asked cfg s.service k).flatMap put) = some t ∧ _ :=
    puts_run (fun rq hrq => (hpresent rq hrq).1) (fun rq hrq he => hk.startup.trans ((hpresent rq hrq).2 he))
      (.inl rfl : Ours .startupData)
  simp [step, ha, serviceLabels, run, hservice, monitorLabels, hmonitor]

omit [DeferredList L] in
/-- What connections ask of the start-up data is asked of it. -/
theorem startupAsked_labels (s : Daemon F L) (l : Label) :
    (monitorLabels cfg s l).filterMap (Monitor.startupAsked cfg.app) = asking .startupData (requested cfg s l) := by
  cases l with
  | connection l =>
    simp only [monitorLabels, requested, asking, List.filterMap_eq_flatMap_toList, List.flatMap_assoc]
    refine List.flatMap_congr fun rq hrq => ?_
    obtain ⟨c, mrq⟩ := rq
    cases mrq with
    | startupData =>
      have hon := (asked_present hrq).2 rfl
      simp [put, Monitor.startupAsked, hon]
    | _ => rfl
  | _ => rfl

/-- What is retained at each answer of the start-up data. -/
def startupAnswers (cfg : ServiceConfig) (calls : SysProc.Calls F) (pressureFile : String → Bool) (s : Daemon F L)
    (labels : List Label) : List (List (StartupMessage F)) :=
  Monitor.snapshots cfg.app calls pressureFile [] (trace (step cfg calls) (monitorLabels cfg) s labels)

/-- **Every request that a connection makes of a source is answered once, in order, and on its own descriptor**,
whatever timers, updates and other connections do meanwhile, as long as no envelope of another origin is read: by a
source with its message, by the start-up data with what it then retains. And what waits can be handled, unless it is an
update that ends the process. -/
theorem requests_answered
    (hn : Meets (step cfg calls) (Native cfg) (start cfg held pressureFile : Daemon F L) labels)
    (h : run (step cfg calls) (start cfg held pressureFile : Daemon F L) labels = some t) :
    let s₀ : Daemon F L := start cfg held pressureFile
    (∀ mrq, Ours mrq →
      asking mrq (trace (step cfg calls) (requested cfg) s₀ labels) =
        asking mrq (trace (step cfg calls) handled s₀ labels) ++ waiting mrq t.monitor) ∧
      (∀ m, (t.monitor.source m).sent.map Prod.fst =
        asking m.moduleRequest (trace (step cfg calls) handled s₀ labels)) ∧
      (t.monitor.startupSent = Monitor.addressed (asking .startupData (trace (step cfg calls) handled s₀ labels))
          (startupAnswers cfg calls pressureFile s₀ labels) ∧
        (asking .startupData (trace (step cfg calls) handled s₀ labels)).length ≤
          (startupAnswers cfg calls pressureFile s₀ labels).length) ∧
      (∀ w ∈ trace (step cfg calls) written s₀ labels, w.2 = some w.1.1) ∧
      ∀ m reads now, (t.monitor.source m).queue ≠ [] →
        ((step cfg calls t (.dispatch m reads now)).isSome = true ↔
          Source.Survives (m.kind calls) reads (t.monitor.source m)) := by
  intro s₀
  have hkeep (s : Daemon F L) (l : Label) (t : Daemon F L) (hk : Linked cfg s) (hl : step cfg calls s l = some t) :
      Linked cfg t := linked_step hk hl
  have hasked (mrq : ModuleRequest) (ho : Ours mrq) :
      asking mrq (trace (step cfg calls) (requested cfg) s₀ labels) =
        asking mrq (trace (step cfg calls) handled s₀ labels) ++ waiting mrq t.monitor := by
    have hfifo : waiting mrq s₀.monitor ++
          trace (step cfg calls) (fun s l => asking mrq (requested cfg s l)) s₀ labels =
        trace (step cfg calls) (fun s l => asking mrq (handled s l)) s₀ labels ++ waiting mrq t.monitor :=
      run_fifo hkeep (fun _ _ _ hk hl => (waiting_fifo hk hl ho).1) linked_start h
    have hempty : waiting mrq s₀.monitor = [] := by
      rw [linked_start.queues mrq ho]
      rfl
    rw [hempty, List.nil_append] at hfifo
    simpa only [asking, trace_filterMap] using hfifo
  refine ⟨hasked, fun m => ?_, ?_, fun w hw => ?_, fun m reads now hq => ?_⟩
  · have hlog : (t.monitor.source m).sent.map Prod.fst = (s₀.monitor.source m).sent.map Prod.fst ++
          trace (step cfg calls) (fun s l => asking m.moduleRequest (handled s l)) s₀ labels :=
      run_log hkeep (fun _ _ _ hk hl => (waiting_fifo hk hl (.inl rfl)).2.2 m) linked_start h
    rw [hlog, asking, trace_filterMap]
    rfl
  · refine Monitor.startupSent_run (fun _ _ _ hl => (step_parts hl).2.2) startupAsked_labels rfl h ?_
    exact (trace_filterMap _ _ _ _).symm.trans (hasked .startupData (.inl rfl))
  · obtain ⟨before, l, after, s, rfl, hs, hw⟩ := mem_trace hw
    obtain ⟨hk, ha⟩ := sound_run hn.of_append hs
    obtain ⟨rq, hrq, rfl⟩ := List.mem_map.mp hw
    exact ha.own _ (ha.modules rq (hk.handled hrq).1)
  · exact dispatch_isSome_iff (sound_run hn h).1 hq

/-- A client asks for memory and the start-up data behind a tick, and hangs up before it is answered. -/
def askedMemory : List Label :=
  [.connection (.accept .TCP 5 (some []) 0), .tick .fast fun _ => true,
    .connection (.readable ⟨0, .TCP, 5⟩
      [.envelope true (request .getSysProcMemInfo), .envelope true (request .getStartupData), .endOfFile] 1),
    .dispatch .memInfo (some ["MemTotal: 5 kB".toList]) Monitor.stopped, .dispatchStartup,
    .dispatch .memInfo none Monitor.stopped]

/-- The daemon with everything built in, as it is started. -/
def started : Daemon Nat Recorded := start Service.fullService false fun _ => true

theorem requests_answered_late :
    ∃ t, run (step Service.fullService Monitor.noCalls) started askedMemory = some t ∧
      (∀ mrq, Ours mrq →
        asking mrq (trace (step Service.fullService Monitor.noCalls) (requested Service.fullService) started askedMemory) =
          asking mrq (trace (step Service.fullService Monitor.noCalls) handled started askedMemory) ++
            waiting mrq t.monitor) ∧
      (∀ m, (t.monitor.source m).sent.map Prod.fst =
        asking m.moduleRequest (trace (step Service.fullService Monitor.noCalls) handled started askedMemory)) ∧
      (t.monitor.startupSent =
          Monitor.addressed
            (asking .startupData (trace (step Service.fullService Monitor.noCalls) handled started askedMemory))
            (startupAnswers Service.fullService Monitor.noCalls (fun _ => true) started askedMemory) ∧
        (asking .startupData (trace (step Service.fullService Monitor.noCalls) handled started askedMemory)).length ≤
          (startupAnswers Service.fullService Monitor.noCalls (fun _ => true) started askedMemory).length) ∧
      (∀ w ∈ trace (step Service.fullService Monitor.noCalls) written started askedMemory, w.2 = some w.1.1) ∧
      ∀ m reads now, (t.monitor.source m).queue ≠ [] →
        ((step Service.fullService Monitor.noCalls t (.dispatch m reads now)).isSome = true ↔
          Source.Survives (m.kind Monitor.noCalls) reads (t.monitor.source m)) := by
  obtain ⟨t, ht⟩ := Option.isSome_iff_exists.mp
    (by decide +kernel : (run (step Service.fullService Monitor.noCalls) started askedMemory).isSome = true)
  have hnative : Meets (step Service.fullService Monitor.noCalls) (Native Service.fullService) started askedMemory := by
    decide +kernel
  exact ⟨t, ht, requests_answered hnative ht⟩

end Daemon
end TaskMonitor

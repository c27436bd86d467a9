import TaskMonitor.Event.Tracking
import TaskMonitor.Registry.Requests

/-! Steps of the daemon as calls of the registry.

Between a call and the next the registry stands still, so what holds of its calls holds of the daemon, whether events or
scans tell of processes. -/
namespace TaskMonitor.System
open Registry DeferredList

variable {L : Type → Type} [DeferredList L] {cfg : Config} {s t : System L} {l : Label} {c : Call}

/-- The call that an event leads to. -/
def eventCall (cfg : Config) (env : Env) : ProcEvent → Option Call
  | .fork _ _ childPid childTgid =>
    if childPid == childTgid && cfg.updateOnProcEvent then some (.addProcEntry env childTgid) else none
  | .exec processPid _ => if cfg.updateOnProcEvent then some (.updProcEntry env processPid) else none
  | .exit processPid processTgid =>
    if processPid == processTgid && cfg.updateOnProcEvent then some (.remProcEntry processPid true) else none
  | .none | .uid .. | .gid .. | .other => none

/-- The call of the registry that a step makes. -/
def Label.call (cfg : Config) (s : System L) : Label → Option Call
  | .recv x => s.socket.head?.bind (eventCall cfg (s.world.env x))
  | .updateProcessList x => some (.updateProcessList (s.world.env x))
  | .lane updated x => some (.update (s.world.env x) updated)
  | .collect rq => some (.pushRequest rq)
  | .dispatch => some .dispatch
  | .fork .. | .exec .. | .exit .. | .other .. | .noBuffers _ | .reply _ => none

theorem handleEvent_call (cfg : Config) (env : Env) (ev : ProcEvent) (r : Registry L) :
    (eventCall cfg env ev = none ∧ handleEvent cfg env ev r = r) ∨
      ∃ c, eventCall cfg env ev = some c ∧ Registry.call cfg r c = some (handleEvent cfg env ev r) := by
  cases ev with
  | fork parentPid parentTgid childPid childTgid =>
    by_cases hf : (childPid == childTgid && cfg.updateOnProcEvent) = true
    · exact .inr ⟨_, if_pos hf, congrArg some (if_pos hf).symm⟩
    · exact .inl ⟨if_neg hf, if_neg hf⟩
  | exec processPid processTgid =>
    by_cases hu : cfg.updateOnProcEvent = true
    · exact .inr ⟨_, if_pos hu, congrArg some (if_pos hu).symm⟩
    · exact .inl ⟨if_neg hu, if_neg hu⟩
  | exit processPid processTgid =>
    by_cases he : (processPid == processTgid && cfg.updateOnProcEvent) = true
    · exact .inr ⟨_, if_pos he, congrArg some (if_pos he).symm⟩
    · exact .inl ⟨if_neg he, if_neg he⟩
  | _ => exact .inl ⟨rfl, rfl⟩

/-- **A step calls the registry once**, unless it is a reply of taskstats, or leaves it alone. -/
theorem step_call (h : step cfg s l = some t) :
    (∃ c, l.call cfg s = some c ∧ Registry.call cfg s.registry c = some t.registry) ∨
      (∃ record, l = .reply record ∧ t.registry = s.registry.processDelayAcct record) ∨
      (l.call cfg s = none ∧ t.registry = s.registry) := by
  cases l with
  | fork parent child ctx lost =>
    obtain ⟨w, _, rfl⟩ := Option.map_eq_some_iff.mp h
    exact .inr (.inr ⟨rfl, deliver_registry _ _⟩)
  | exec pid name lost =>
    obtain ⟨w, _, rfl⟩ := Option.map_eq_some_iff.mp h
    exact .inr (.inr ⟨rfl, deliver_registry _ _⟩)
  | exit pid reaper lost =>
    obtain ⟨w, _, rfl⟩ := Option.map_eq_some_iff.mp h
    exact .inr (.inr ⟨rfl, deliver_registry _ _⟩)
  | other ev lost =>
    obtain ⟨_, ht⟩ := Option.ite_none_left_eq_some.mp h
    obtain rfl := Option.some.inj ht
    exact .inr (.inr ⟨rfl, deliver_registry _ _⟩)
  | recv x =>
    simp only [step] at h
    split at h
    · cases h
    · rename_i ev rest hs
      obtain rfl := Option.some.inj h
      have hcall : Label.call cfg s (.recv x) = eventCall cfg (s.world.env x) ev := by
        rw [Label.call, hs]
        rfl
      rcases handleEvent_call cfg (s.world.env x) ev s.registry with ⟨hnone, hsame⟩ | ⟨c, hc, hcalled⟩
      · exact .inr (.inr ⟨hcall.trans hnone, hsame⟩)
      · exact .inl ⟨c, hcall.trans hc, hcalled⟩
  | noBuffers x =>
    obtain ⟨_, ht⟩ := Option.ite_none_right_eq_some.mp h
    obtain rfl := Option.some.inj ht
    exact .inr (.inr ⟨rfl, rfl⟩)
  | updateProcessList x =>
    simp only [step] at h
    split at h
    · cases h
    · obtain rfl := Option.some.inj h
      exact .inl ⟨.updateProcessList (s.world.env x), rfl, rfl⟩
  | lane lane x =>
    obtain rfl := Option.some.inj h
    exact .inl ⟨.update (s.world.env x) lane, rfl, rfl⟩
  | reply record =>
    obtain rfl := Option.some.inj h
    exact .inr (.inl ⟨record, rfl, rfl⟩)
  | collect rq =>
    obtain ⟨_, ht⟩ := Option.ite_none_left_eq_some.mp h
    obtain rfl := Option.some.inj ht
    exact .inl ⟨.pushRequest rq, rfl, rfl⟩
  | dispatch =>
    obtain ⟨out, hd, rfl⟩ := Option.map_eq_some_iff.mp h
    refine .inl ⟨.dispatch, rfl, ?_⟩
    rw [Registry.call, hd]
    rfl

/-- Steps keep the registry regular, whatever tells of the processes. -/
theorem regular_next (h : step cfg s l = some t) (hr : Regular s) : Regular t := by
  rcases step_call h with ⟨c, _, hc⟩ | ⟨record, _, ht⟩ | ⟨_, ht⟩
  · exact ⟨wf_call hr.wf hc, requested_call hr.requested hc⟩
  · exact ⟨ht ▸ (processDelayAcct_cells hr.wf record).1, ht ▸ requested_processDelayAcct hr.requested record⟩
  · exact ⟨ht ▸ hr.wf, ht ▸ hr.requested⟩

/-! ### What collectors ask -/

/-- What a step asks to be sent. -/
def Label.sends : Label → List (Action × Option Nat)
  | .collect rq => rq.sends.toList
  | _ => []

/-- What a step sends. -/
def handles (s : System L) : Label → List (Action × Option Nat)
  | .dispatch => (s.registry.queue.head?.bind Request.sends).toList
  | _ => []

omit [DeferredList L] in
theorem eventCall_sends {env : Env} {ev : ProcEvent} {r : Registry L} (h : eventCall cfg env ev = some c) :
    c.sends = [] ∧ c.handles r = [] := by
  cases ev with
  | fork parentPid parentTgid childPid childTgid =>
    obtain ⟨_, hc⟩ := Option.ite_none_right_eq_some.mp h
    obtain rfl := Option.some.inj hc
    exact ⟨rfl, rfl⟩
  | exec processPid processTgid =>
    obtain ⟨_, hc⟩ := Option.ite_none_right_eq_some.mp h
    obtain rfl := Option.some.inj hc
    exact ⟨rfl, rfl⟩
  | exit processPid processTgid =>
    obtain ⟨_, hc⟩ := Option.ite_none_right_eq_some.mp h
    obtain rfl := Option.some.inj hc
    exact ⟨rfl, rfl⟩
  | _ => cases h

omit [DeferredList L] in
/-- A step asks and sends what its call does. -/
theorem call_sends (h : l.call cfg s = some c) : c.sends = l.sends ∧ c.handles s.registry = handles s l := by
  cases l with
  | recv x =>
    obtain ⟨ev, _, hev⟩ := Option.bind_eq_some_iff.mp h
    exact eventCall_sends hev
  | updateProcessList x =>
    obtain rfl := Option.some.inj h
    exact ⟨rfl, rfl⟩
  | lane lane x =>
    obtain rfl := Option.some.inj h
    exact ⟨rfl, rfl⟩
  | collect rq =>
    obtain rfl := Option.some.inj h
    exact ⟨rfl, rfl⟩
  | dispatch =>
    obtain rfl := Option.some.inj h
    exact ⟨rfl, rfl⟩
  | _ => cases h

omit [DeferredList L] in
theorem silent_sends (h : l.call cfg s = none) : l.sends = [] ∧ handles s l = [] := by
  cases l with
  | collect rq => cases h
  | dispatch => cases h
  | _ => exact ⟨rfl, rfl⟩

/-- The requests of collectors are a queue in every run. -/
theorem step_sends (h : step cfg s l = some t) : s.registry.sends ++ l.sends = handles s l ++ t.registry.sends := by
  rcases step_call h with ⟨c, hl, hc⟩ | ⟨record, rfl, ht⟩ | ⟨hl, ht⟩
  · obtain ⟨hsends, hhandles⟩ := call_sends hl
    rw [← hsends, ← hhandles]
    exact sends_call hc
  · rw [ht, sends_processDelayAcct]
    exact List.append_nil _
  · obtain ⟨hsends, hhandles⟩ := silent_sends hl
    rw [ht, hsends, hhandles]
    exact List.append_nil _

/-- The scans that a step asks for, and those that it does. -/
def Label.scans : Label → Nat × Nat
  | .noBuffers _ => (1, 0)
  | .updateProcessList _ => (0, 1)
  | _ => (0, 0)

omit [DeferredList L] in
theorem deliver_rescans (ev : ProcEvent) (lost : Bool) (s : System L) : (deliver ev lost s).rescans = s.rescans := by
  cases lost <;> rfl

theorem step_rescans (h : step cfg s l = some t) : s.rescans + l.scans.1 = l.scans.2 + t.rescans := by
  cases l with
  | fork parent child ctx lost =>
    obtain ⟨w, _, rfl⟩ := Option.map_eq_some_iff.mp h
    simp [Label.scans, deliver_rescans]
  | exec pid name lost =>
    obtain ⟨w, _, rfl⟩ := Option.map_eq_some_iff.mp h
    simp [Label.scans, deliver_rescans]
  | exit pid reaper lost =>
    obtain ⟨w, _, rfl⟩ := Option.map_eq_some_iff.mp h
    simp [Label.scans, deliver_rescans]
  | other ev lost =>
    obtain ⟨_, ht⟩ := Option.ite_none_left_eq_some.mp h
    obtain rfl := Option.some.inj ht
    simp [Label.scans, deliver_rescans]
  | recv x =>
    simp only [step] at h
    split at h
    · cases h
    · obtain rfl := Option.some.inj h
      exact (Nat.zero_add _).symm
  | noBuffers x =>
    obtain ⟨_, ht⟩ := Option.ite_none_right_eq_some.mp h
    obtain rfl := Option.some.inj ht
    exact (Nat.zero_add _).symm
  | updateProcessList x =>
    simp only [step] at h
    split at h
    · cases h
    · rename_i n hn
      obtain rfl := Option.some.inj h
      show s.rescans = 1 + n
      omega
  | lane lane x =>
    obtain rfl := Option.some.inj h
    exact (Nat.zero_add _).symm
  | reply record =>
    obtain rfl := Option.some.inj h
    exact (Nat.zero_add _).symm
  | collect rq =>
    obtain ⟨_, ht⟩ := Option.ite_none_left_eq_some.mp h
    obtain rfl := Option.some.inj ht
    exact (Nat.zero_add _).symm
  | dispatch =>
    obtain ⟨out, _, rfl⟩ := Option.map_eq_some_iff.mp h
    exact (Nat.zero_add _).symm

end TaskMonitor.System

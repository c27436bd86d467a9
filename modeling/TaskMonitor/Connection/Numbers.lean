import TaskMonitor.Connection.System

/-! Numbers and scans of connections.

A collector is known to the modules by its number, which no other live collector has (`numbered_step`). The requests of
the process events for a scan go through the queue of the state manager next to its own, and none but these adds one
(`step_scans`). -/
namespace TaskMonitor.Service
open Collector DeferredList Transition

variable {L : Type → Type} [DeferredList L] {cfg : ServiceConfig} {s t : Service L} {l : Label}

/-- No two live collectors share a number. -/
structure Numbered (s : Service L) : Prop where
  nodup : (s.live.map ICollector.number).Nodup
  below : ∀ c ∈ s.live, c.number < s.accepts

/-- The request is for a scan of procfs. -/
def isScan (rq : StateManager.Request) : Bool := decide (rq.action = .updateProcessList)

omit [DeferredList L] in
/-- Leaving the loop leaves the live collectors and asks for no scan. -/
theorem remEventSource_frame (c : ICollector) (s : Service L) :
    (s.remEventSource c).live = s.live ∧ (s.remEventSource c).accepts = s.accepts ∧
      (s.remEventSource c).queue.countP isScan = s.queue.countP isScan := by
  unfold remEventSource
  split
  · rw [finalize_eq]
    exact ⟨rfl, rfl, by simp [isScan, removal]⟩
  · exact ⟨rfl, rfl, rfl⟩

theorem countP_wakeLockRequests (c : ICollector) : (wakeLockRequests c).countP isScan = 0 := by
  unfold wakeLockRequests
  split <;> simp [isScan]

theorem requestHandler_frame (cfg : ServiceConfig) (rq : StateManager.Request) (s : Service L) :
    (requestHandler cfg rq s).live = s.live ∧ (requestHandler cfg rq s).accepts = s.accepts ∧
      (requestHandler cfg rq s).queue.countP isScan = s.queue.countP isScan := by
  unfold requestHandler
  split
  · rw [doMonitorCollector, pushWakeLock_eq]
    exact ⟨rfl, rfl, by simp [countP_wakeLockRequests]⟩
  · rename_i c _ _
    rw [doRemoveCollector, pushWakeLock_eq]
    split
    · obtain ⟨hlive, haccepts, hscans⟩ := remEventSource_frame c s
      exact ⟨hlive, haccepts, by simp [countP_wakeLockRequests, hscans]⟩
    · exact ⟨rfl, rfl, by simp [countP_wakeLockRequests]⟩
  · unfold doUpdateWakeLock
    split <;> exact ⟨rfl, rfl, rfl⟩
  all_goals exact ⟨rfl, rfl, rfl⟩

/-- What a step does to the scans in the queue. -/
def Label.scans (s : Service L) : Label → Nat × Nat
  | .updateProcessList => (1, 0)
  | .handle => (0, if s.queue.head?.any isScan then 1 else 0)
  | _ => (0, 0)

theorem step_scans (h : step cfg s l = some t) :
    s.queue.countP isScan + (l.scans s).1 = (l.scans s).2 + t.queue.countP isScan := by
  cases stepped h with
  | @accept type fd descriptor now =>
    cases descriptor with
    | none => simp [Label.scans, accept, close]
    | some id =>
      simp only [Label.scans, accept, construct_eq]
      split
      · simp [pushRequest, isScan]
      · simp
  | @readable c received now =>
    unfold readable
    extract_lets out s₁ s₂
    have hs : s₂.queue = s.queue := by
      show (if _ then _ else s₁).queue = _
      split <;> rfl
    split
    · simp [Label.scans, hs]
    · simp [Label.scans, (remEventSource_frame c s₂).2.2, hs]
  | collectorsTimer =>
    have hnone (cs : List ICollector) : (cs.map (removal · true)).countP isScan = 0 := by
      simp [List.countP_eq_zero, isScan, removal]
    rw [collectorsTimer_eq]
    simp [Label.scans, hnone]
  | updateProcessList => simp [Label.scans, pushRequest, isScan]
  | @handle rq rest hq =>
    rw [(requestHandler_frame cfg rq _).2.2, hq, List.countP_cons]
    simp [Label.scans, hq]
    omega
  | served => simp [Label.scans]
  | @destroy c =>
    have hqueue : (s.disconnect c).queue = s.queue := by
      unfold disconnect
      split <;> rfl
    simp [Label.scans, hqueue]

theorem numbered_step (h : step cfg s l = some t) (hn : Numbered s) : Numbered t := by
  have hkept {t : Service L} (hlive : t.live = s.live) (haccepts : t.accepts = s.accepts) : Numbered t :=
    ⟨hlive ▸ hn.nodup, fun c hc => haccepts ▸ hn.below c (hlive ▸ hc)⟩
  cases stepped h with
  | @accept type fd descriptor now =>
    have hbelow : ∀ c ∈ s.live, c.number < s.accepts + 1 := fun c hc => Nat.lt_succ_of_lt (hn.below c hc)
    cases descriptor with
    | none => exact ⟨hn.nodup, hbelow⟩
    | some id =>
      have hjoined {t : Service L} (hlive : t.live = s.live ++ [⟨s.accepts, type, fd⟩])
          (haccepts : t.accepts = s.accepts + 1) : Numbered t := by
        refine ⟨?_, fun c hc => ?_⟩
        · rw [hlive, List.map_append]
          refine List.nodup_append.mpr ⟨hn.nodup, List.nodup_singleton _, fun n hm n' hm' => ?_⟩
          obtain ⟨c, hc, rfl⟩ := List.mem_map.mp hm
          obtain rfl := List.mem_singleton.mp hm'
          exact Nat.ne_of_lt (hn.below c hc)
        · rw [hlive] at hc
          rw [haccepts]
          rcases List.mem_append.mp hc with hc | hc
          · exact hbelow c hc
          · obtain rfl := List.mem_singleton.mp hc
            exact Nat.lt_succ_self _
      simp only [accept, construct_eq]
      split
      · exact hjoined rfl rfl
      · exact hjoined rfl rfl
  | @readable c received now =>
    unfold readable
    extract_lets out s₁ s₂
    have hs : s₂.live = s.live ∧ s₂.accepts = s.accepts := by
      show (if _ then _ else s₁).live = _ ∧ (if _ then _ else s₁).accepts = _
      split <;> exact ⟨rfl, rfl⟩
    split
    · exact hkept hs.1 hs.2
    · obtain ⟨hlive, haccepts, _⟩ := remEventSource_frame c s₂
      exact hkept (hlive.trans hs.1) (haccepts.trans hs.2)
  | collectorsTimer =>
    rw [collectorsTimer_eq]
    exact hkept rfl rfl
  | updateProcessList => exact hkept rfl rfl
  | @handle rq rest =>
    obtain ⟨hlive, haccepts, _⟩ := requestHandler_frame cfg rq {s with queue := rest}
    exact hkept hlive haccepts
  | served => exact hkept rfl rfl
  | @destroy c =>
    have haccepts : (s.disconnect c).accepts = s.accepts := by
      unfold disconnect
      split <;> rfl
    refine ⟨hn.nodup.sublist ((List.erase_sublist ..).map _), fun d hd => ?_⟩
    show d.number < (s.disconnect c).accepts
    rw [haccepts]
    exact hn.below d (List.mem_of_mem_erase hd)

end TaskMonitor.Service

import TaskMonitor.Connection.System

/-! Where answers go.

A module keeps a collector alive until it has answered it, and answers on the
collector's descriptor. While no callback closes a descriptor on its own, which it
does for an envelope of another origin, the descriptor is open and the collector's
until the collector is destroyed: no answer goes to another connection. -/
namespace TaskMonitor.Service
open Collector DeferredList Transition

variable {L : Type → Type} [DeferredList L] {cfg : ServiceConfig} {held : Bool} {s t : Service L} {l : Label}
  {labels : List Label} {c d : ICollector}

/-- No envelope of another origin is read. -/
def Native (cfg : ServiceConfig) (s : Service L) : Label → Prop
  | .readable c received _ => (callback c.type cfg.app (s.record c) received).closed = false
  | .accept .. | .collectorsTimer _ | .updateProcessList | .handle | .served _ | .destroy _ => True

instance (cfg : ServiceConfig) (s : Service L) : (l : Label) → Decidable (Native cfg s l)
  | .readable c received _ => inferInstanceAs (Decidable ((callback c.type cfg.app (s.record c) received).closed = false))
  | .accept .. | .collectorsTimer _ | .updateProcessList | .handle | .served _ | .destroy _ => .isTrue trivial

/-- Every live collector has its descriptor, and loop and modules know live collectors only. -/
structure Addressed (s : Service L) : Prop where
  nodup : s.live.Nodup
  numbered : ∀ c ∈ s.live, c.number < s.accepts
  own : ∀ c ∈ s.live, s.owner c.fd = some c
  loop : ∀ c ∈ s.loop, c ∈ s.live
  modules : ∀ rq ∈ s.modules, rq.1 ∈ s.live

/-- The requests that a step puts at modules. -/
def asked (cfg : ServiceConfig) (s : Service L) : Label → List (ICollector × ModuleRequest)
  | .readable c received _ => (callback c.type cfg.app (s.record c) received).queued.map fun rq => (c, rq)
  | .accept .. | .collectorsTimer _ | .updateProcessList | .handle | .served _ | .destroy _ => []

/-! ### Steps -/

omit [DeferredList L] in
/-- Leaving the loop leaves the rest of the addresses alone. -/
theorem addressed_remEventSource (c : ICollector) (h : Addressed s) : Addressed (s.remEventSource c) := by
  unfold remEventSource
  split
  · rw [finalize_eq]
    exact ⟨h.nodup, h.numbered, h.own, fun d hd => h.loop d (List.mem_of_mem_erase hd), h.modules⟩
  · exact h

omit [DeferredList L] in
theorem modules_remEventSource (c : ICollector) (s : Service L) : (s.remEventSource c).modules = s.modules := by
  unfold remEventSource
  split
  · rw [finalize_eq]
  · rfl

theorem addressed_handler {rq : StateManager.Request} (h : Addressed s) : Addressed (requestHandler cfg rq s) := by
  unfold requestHandler
  split
  · rw [doMonitorCollector, pushWakeLock_eq]
    exact ⟨h.nodup, h.numbered, h.own, h.loop, h.modules⟩
  · rw [doRemoveCollector, pushWakeLock_eq]
    have hkeep (b : Bool) (c : ICollector) : Addressed (if b = true then s.remEventSource c else s) := by
      cases b with
      | true => exact addressed_remEventSource c h
      | false => exact h
    exact ⟨(hkeep _ _).nodup, (hkeep _ _).numbered, (hkeep _ _).own, (hkeep _ _).loop, (hkeep _ _).modules⟩
  · unfold doUpdateWakeLock
    split <;> exact ⟨h.nodup, h.numbered, h.own, h.loop, h.modules⟩
  all_goals exact h

theorem modules_handler (cfg : ServiceConfig) (rq : StateManager.Request) (s : Service L) :
    (requestHandler cfg rq s).modules = s.modules := by
  unfold requestHandler
  split
  · rw [doMonitorCollector, pushWakeLock_eq]
  · rw [doRemoveCollector, pushWakeLock_eq]
    split
    · exact modules_remEventSource ..
    · rfl
  · unfold doUpdateWakeLock
    split <;> rfl
  all_goals rfl

omit [DeferredList L] in
/-- A number that is given to no one is no live collector's. -/
theorem Addressed.free {fd : Nat} (h : Addressed s) (hfd : s.owner fd = none) (hc : c ∈ s.live) : c.fd ≠ fd := by
  rintro rfl
  rw [h.own c hc] at hfd
  cases hfd

theorem addressed_step (h : step cfg s l = some t) (hn : Native cfg s l) (ha : Addressed s) : Addressed t := by
  cases stepped h with
  | @accept type fd descriptor now hfd =>
    cases descriptor with
    | none =>
      refine ⟨ha.nodup, fun c hc => Nat.lt_succ_of_lt (ha.numbered c hc), fun c hc => ?_, ha.loop, ha.modules⟩
      show Function.update s.owner fd none c.fd = some c
      rw [Function.update_of_ne (ha.free hfd hc), ha.own c hc]
    | some id =>
      have hnew : (⟨s.accepts, type, fd⟩ : ICollector) ∉ s.live := fun hm => Nat.lt_irrefl _ (ha.numbered _ hm)
      have hjoined : Addressed {s with
          accepts := s.accepts + 1
          live := s.live ++ [⟨s.accepts, type, fd⟩]
          record := Function.update s.record ⟨s.accepts, type, fd⟩ {descriptorId := id}
          lastUpdateTime := Function.update s.lastUpdateTime ⟨s.accepts, type, fd⟩ now
          owner := Function.update s.owner fd (some ⟨s.accepts, type, fd⟩)
          procAcctCollectorCounter := s.procAcctCollectorCounter + accounting type
          loop := s.loop ++ [⟨s.accepts, type, fd⟩]} := by
        constructor
        case nodup =>
          refine List.nodup_append.mpr ⟨ha.nodup, List.nodup_singleton _, fun d hd d' hd' => ?_⟩
          obtain rfl := List.mem_singleton.mp hd'
          exact fun he => hnew (he ▸ hd)
        case numbered =>
          intro c hc
          rcases List.mem_append.mp hc with hc | hc
          · exact Nat.lt_succ_of_lt (ha.numbered c hc)
          · obtain rfl := List.mem_singleton.mp hc
            exact Nat.lt_succ_self _
        case own =>
          intro c hc
          rcases List.mem_append.mp hc with hc | hc
          · exact (Function.update_of_ne (ha.free hfd hc) ..).trans (ha.own c hc)
          · obtain rfl := List.mem_singleton.mp hc
            exact Function.update_self ..
        case loop =>
          intro c hc
          rcases List.mem_append.mp hc with hc | hc
          · exact List.mem_append_left _ (ha.loop c hc)
          · exact List.mem_append_right _ hc
        case modules => exact fun rq hrq => List.mem_append_left _ (ha.modules rq hrq)
      simp only [accept, construct_eq]
      split
      · exact ⟨hjoined.nodup, hjoined.numbered, hjoined.own, hjoined.loop, hjoined.modules⟩
      · exact hjoined
  | @readable c received now hc =>
    unfold readable
    extract_lets out s₁ s₂
    have hs : s₂ = s₁ := if_neg (by simp [show out.closed = false from hn])
    have hread : Addressed s₁ := by
      refine ⟨ha.nodup, ha.numbered, ha.own, ha.loop, fun rq hrq => ?_⟩
      rcases List.mem_append.mp hrq with hrq | hrq
      · exact ha.modules rq hrq
      · obtain ⟨_, _, rfl⟩ := List.mem_map.mp hrq
        exact ha.loop c hc
    rw [hs]
    split
    · exact hread
    · exact addressed_remEventSource c hread
  | collectorsTimer =>
    rw [collectorsTimer_eq]
    exact ⟨ha.nodup, ha.numbered, ha.own, ha.loop, ha.modules⟩
  | updateProcessList => exact ⟨ha.nodup, ha.numbered, ha.own, ha.loop, ha.modules⟩
  | @handle rq rest => exact addressed_handler ⟨ha.nodup, ha.numbered, ha.own, ha.loop, ha.modules⟩
  | served => exact ⟨ha.nodup, ha.numbered, ha.own, ha.loop, fun rq hrq => ha.modules rq (List.mem_of_mem_erase hrq)⟩
  | @destroy c hc hd =>
    have hmem {d : ICollector} (hd : d ∈ s.live.erase c) : d ∈ s.live ∧ d ≠ c :=
      ⟨List.mem_of_mem_erase hd, fun he => ha.nodup.not_mem_erase (he ▸ hd)⟩
    have hkept {d : ICollector} (hd : d ∈ s.live) (hne : d ≠ c) : d ∈ s.live.erase c := (List.mem_erase_of_ne hne).mpr hd
    have hfd {d : ICollector} (hd : d ∈ s.live) (hne : d ≠ c) : d.fd ≠ c.fd := by
      intro he
      have hown := ha.own d hd
      rw [he, ha.own c hc] at hown
      exact hne (Option.some.inj hown).symm
    have hsame : (s.disconnect c).loop = s.loop ∧ (s.disconnect c).modules = s.modules ∧
        (s.disconnect c).accepts = s.accepts ∧ ∀ fd, fd ≠ c.fd → (s.disconnect c).owner fd = s.owner fd := by
      unfold disconnect
      split
      · exact ⟨rfl, rfl, rfl, fun fd hne => Function.update_of_ne hne ..⟩
      · exact ⟨rfl, rfl, rfl, fun _ _ => rfl⟩
    obtain ⟨hloop, hmodules, haccepts, howner⟩ := hsame
    constructor
    case nodup => exact ha.nodup.erase c
    case numbered =>
      intro d hd
      show d.number < (s.disconnect c).accepts
      rw [haccepts]
      exact ha.numbered d (hmem hd).1
    case own =>
      intro d hm
      obtain ⟨hlive, hne⟩ := hmem hm
      exact (howner d.fd (hfd hlive hne)).trans (ha.own d hlive)
    case loop =>
      intro d hm
      have hm : d ∈ s.loop := hloop ▸ hm
      exact hkept (ha.loop d hm) fun he => hd.loop (he ▸ hm)
    case modules =>
      intro rq hm
      have hm : rq ∈ s.modules := hmodules ▸ hm
      exact hkept (ha.modules rq hm) (hd.modules rq hm)

theorem addressed_start : Addressed (start cfg held : Service L) := by
  constructor <;> simp [start]

/-- What is left of the requests when the step is done with one. -/
def Label.serve : Label → List (ICollector × ModuleRequest) → List (ICollector × ModuleRequest)
  | .served rq, modules => modules.erase rq
  | .accept .., modules | .readable .., modules | .collectorsTimer _, modules | .updateProcessList, modules
  | .handle, modules | .destroy _, modules => modules

theorem step_modules (h : step cfg s l = some t) : t.modules = l.serve s.modules ++ asked cfg s l := by
  cases stepped h with
  | @accept type fd descriptor now =>
    rw [asked, List.append_nil]
    cases descriptor with
    | none => rfl
    | some id =>
      simp only [accept, construct_eq]
      split <;> rfl
  | @readable c received now =>
    unfold readable
    extract_lets out s₁ s₂
    have hs : s₂.modules = s.modules ++ out.queued.map fun rq => (c, rq) := by
      show (if _ then _ else s₁).modules = _
      split <;> rfl
    split
    · exact hs
    · rw [modules_remEventSource, hs]
      rfl
  | collectorsTimer =>
    rw [collectorsTimer_eq]
    exact (List.append_nil _).symm
  | updateProcessList => exact (List.append_nil _).symm
  | @handle rq rest =>
    rw [modules_handler]
    exact (List.append_nil _).symm
  | served => exact (List.append_nil _).symm
  | @destroy c =>
    show (s.disconnect c).modules = s.modules ++ []
    rw [List.append_nil]
    unfold disconnect
    split <;> rfl

/-! ### Runs -/

/-- **No answer goes astray.** While a request of a collector is at a module, the collector is live, and its descriptor is
open, its own and no other collector's: in every state of every run that reads no envelope of another origin, though the
client may have hung up and others may have connected since. -/
theorem answers_addressed (hn : Meets (step cfg) (Native cfg) (start cfg held : Service L) labels)
    (h : run (step cfg) (start cfg held : Service L) labels = some t) :
    ∀ rq ∈ t.modules, rq.1 ∈ t.live ∧ t.owner rq.1.fd = some rq.1 ∧ ∀ c ∈ t.live, c.fd = rq.1.fd → c = rq.1 := by
  have haddressed : Addressed t :=
    (Steps.of_run hn h).invariant (fun _ _ _ ha hn hl => addressed_step hl hn ha) addressed_start
  intro rq hrq
  have hlive := haddressed.modules rq hrq
  refine ⟨hlive, haddressed.own _ hlive, fun c hc hfd => ?_⟩
  have hown := haddressed.own c hc
  rw [hfd, haddressed.own _ hlive] at hown
  exact (Option.some.inj hown).symm

/-- A client asks for processes and hangs up, and the number of its descriptor is given to nobody before it is answered. -/
def askedThenGone : List Label :=
  [.accept .TCP 5 (some []) 0, .readable ⟨0, .TCP, 5⟩ [.envelope true (request .getProcInfo), .endOfFile] 1,
    .handle, .handle, .accept .UDS 6 (some []) 2]

theorem answers_addressed_late :
    ∃ t, run (step fullService) (start fullService false : Service Recorded) askedThenGone = some t ∧ t.modules ≠ [] ∧
      ∀ rq ∈ t.modules, rq.1 ∈ t.live ∧ t.owner rq.1.fd = some rq.1 ∧ ∀ c ∈ t.live, c.fd = rq.1.fd → c = rq.1 := by
  have hnative : Meets (step fullService) (Native fullService) (start fullService false : Service Recorded)
      askedThenGone := by decide
  exact ⟨_, rfl, by decide, answers_addressed hnative rfl⟩

end TaskMonitor.Service

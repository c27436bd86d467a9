import TaskMonitor.Connection.Bookkeeping
import TaskMonitor.Lib.History

/-! Whom the timer of the state manager removes.

The timer asks for the removal of a collector that was not heard of for the time
that sessions call the interval of keeping alive. A collector that is heard of in
time stays whatever else happens (`active_stays`). One that is not leaves loop and
list with the requests that are then queued, and does not come back
(`inactive_removed`). -/
namespace TaskMonitor.Service
open Collector DeferredList Transition

variable {L : Type → Type} [DeferredList L] {cfg : ServiceConfig} {held : Bool} {s t u : Service L} {l : Label}
  {labels : List Label} {c d : ICollector} {b b' : Books}

/-! ### Who stays -/

/-- The step does not give the collector up: its reads stay, and the timer finds it heard of in time. -/
def HeardOf (cfg : ServiceConfig) (c : ICollector) (s : Service L) : Label → Prop
  | .readable d received _ => d = c → (callback c.type cfg.app (s.record c) received).stays = true
  | .collectorsTimer now => c ∈ items s.activeCollectorList → inactive cfg now s c = false
  | .accept .. | .updateProcessList | .handle | .served _ | .destroy _ => True

instance (cfg : ServiceConfig) (c : ICollector) (s : Service L) : (l : Label) → Decidable (HeardOf cfg c s l)
  | .readable d received _ =>
    inferInstanceAs (Decidable (d = c → (callback c.type cfg.app (s.record c) received).stays = true))
  | .collectorsTimer now => inferInstanceAs (Decidable (c ∈ items s.activeCollectorList → inactive cfg now s c = false))
  | .accept .. | .updateProcessList | .handle | .served _ | .destroy _ => .isTrue trivial

/-- In the loop, and nothing in the queue takes it off. -/
structure Stays (c : ICollector) (s : Service L) : Prop where
  live : c ∈ s.live
  loop : c ∈ s.loop
  unremoved : ∀ rq ∈ s.queue, rq.action = .removeCollector → rq.collector ≠ some c

omit [DeferredList L] in
/-- A collector that leaves the loop takes only itself off. -/
theorem stays_remEventSource (h : Stays c s) (hd : d ≠ c) : Stays c (s.remEventSource d) := by
  unfold remEventSource
  split
  · rw [finalize_eq]
    refine ⟨h.live, (List.mem_erase_of_ne hd.symm).mpr h.loop, fun rq hm ha => ?_⟩
    rcases List.mem_append.mp hm with hm | hm
    · exact h.unremoved rq hm ha
    · obtain rfl := List.mem_singleton.mp hm
      exact fun hc => hd (Option.some.inj hc)
  · exact h

omit [DeferredList L] in
theorem stays_pushed {rqs : List StateManager.Request} (h : Stays c s)
    (hp : ∀ rq ∈ rqs, rq.action = .removeCollector → rq.collector ≠ some c) :
    Stays c {s with queue := s.queue ++ rqs} := by
  refine ⟨h.live, h.loop, fun rq hm ha => ?_⟩
  rcases List.mem_append.mp hm with hm | hm
  · exact h.unremoved rq hm ha
  · exact hp rq hm ha

omit [DeferredList L] in
theorem stays_readable {received : List Received} {now : UInt64} (h : Stays c s)
    (hstays : d = c → (callback c.type cfg.app (s.record c) received).stays = true) :
    Stays c (s.readable cfg d received now) := by
  unfold readable
  extract_lets out s₁ s₂
  have hs : Stays c s₂ := by
    show Stays c (if _ then _ else s₁)
    split <;> exact ⟨h.live, h.loop, h.unremoved⟩
  by_cases hd : d = c
  · subst hd
    rw [if_pos (hstays rfl)]
    exact hs
  · split
    · exact hs
    · exact stays_remEventSource hs hd

theorem stays_handle {rq : StateManager.Request} {rest : List StateManager.Request} (h : Stays c s)
    (hq : s.queue = rq :: rest) : Stays c (requestHandler cfg rq {s with queue := rest}) := by
  have hrest : Stays c {s with queue := rest} :=
    ⟨h.live, h.loop, fun rq' hm => h.unremoved rq' (hq ▸ List.mem_cons_of_mem _ hm)⟩
  have hwake (d : ICollector) : ∀ rq ∈ wakeLockRequests d, rq.action = .removeCollector → rq.collector ≠ some c := by
    intro rq hm ha
    obtain ⟨_, rfl⟩ := mem_wakeLockRequests.mp hm
    cases ha
  unfold requestHandler
  split
  · rw [doMonitorCollector, pushWakeLock_eq]
    exact stays_pushed ⟨hrest.live, hrest.loop, hrest.unremoved⟩ (hwake _)
  · rename_i d ha hd
    have hne : d ≠ c := fun he => h.unremoved rq (hq ▸ List.mem_cons_self ..) ha (he ▸ hd)
    rw [doRemoveCollector, pushWakeLock_eq]
    have hkeep : Stays c (if rq.withEventSource = true then remEventSource d {s with queue := rest}
        else {s with queue := rest}) := by
      split
      · exact stays_remEventSource hrest hne
      · exact hrest
    exact stays_pushed (s := {(if rq.withEventSource = true then remEventSource d {s with queue := rest}
      else {s with queue := rest}) with activeCollectorList := _}) ⟨hkeep.live, hkeep.loop, hkeep.unremoved⟩ (hwake d)
  · unfold doUpdateWakeLock
    split <;> exact ⟨hrest.live, hrest.loop, hrest.unremoved⟩
  all_goals exact hrest

theorem stays_step (h : step cfg s l = some t) (hh : HeardOf cfg c s l) (hs : Stays c s) : Stays c t := by
  cases stepped h with
  | @accept type fd descriptor now hfd =>
    cases descriptor with
    | none => exact ⟨hs.live, hs.loop, hs.unremoved⟩
    | some id =>
      simp only [accept, construct_eq]
      have hjoined : Stays c {s with
          accepts := s.accepts + 1
          live := s.live ++ [⟨s.accepts, type, fd⟩]
          record := Function.update s.record ⟨s.accepts, type, fd⟩ {descriptorId := id}
          lastUpdateTime := Function.update s.lastUpdateTime ⟨s.accepts, type, fd⟩ now
          owner := Function.update s.owner fd (some ⟨s.accepts, type, fd⟩)
          procAcctCollectorCounter := s.procAcctCollectorCounter + accounting type
          loop := s.loop ++ [⟨s.accepts, type, fd⟩]} :=
        ⟨List.mem_append_left _ hs.live, List.mem_append_left _ hs.loop, hs.unremoved⟩
      split
      · exact stays_pushed hjoined fun rq hm ha => by
          obtain rfl := List.mem_singleton.mp hm
          cases ha
      · exact hjoined
  | readable hc => exact stays_readable hs hh
  | collectorsTimer =>
    rw [collectorsTimer_eq]
    refine stays_pushed hs fun rq hm _ hc => ?_
    obtain ⟨d, hd, rfl⟩ := List.mem_map.mp hm
    obtain rfl := Option.some.inj hc
    obtain ⟨hlisted, hinactive⟩ := List.mem_filter.mp hd
    rw [hh hlisted] at hinactive
    cases hinactive
  | updateProcessList =>
    refine stays_pushed hs fun rq hm ha => ?_
    obtain rfl := List.mem_singleton.mp hm
    cases ha
  | handle hq => exact stays_handle hs hq
  | served => exact ⟨hs.live, hs.loop, hs.unremoved⟩
  | @destroy d hd hdropped =>
    have hne : d ≠ c := fun he => hdropped.loop (he ▸ hs.loop)
    have hsame : (s.disconnect d).loop = s.loop ∧ (s.disconnect d).queue = s.queue := by
      unfold disconnect
      split <;> exact ⟨rfl, rfl⟩
    refine ⟨(List.mem_erase_of_ne hne.symm).mpr hs.live, hsame.1.symm ▸ hs.loop, ?_⟩
    show ∀ rq ∈ (s.disconnect d).queue, _
    rw [hsame.2]
    exact hs.unremoved

/-- A collector that was just accepted stays. -/
theorem stays_accept {type : CollectorType} {fd : Nat} {id : Id} {now : UInt64} (hb : Booked cfg s)
    (h : step cfg s (.accept type fd (some id) now) = some t) : Stays ⟨s.accepts, type, fd⟩ t := by
  have hfresh : ¬s.books.Mentions ⟨s.accepts, type, fd⟩ := hb.kept.fresh rfl
  obtain ⟨_, ht⟩ := Option.ite_none_right_eq_some.mp h
  obtain rfl := Option.some.inj ht
  have hunremoved : ∀ rq ∈ s.queue, rq.action = .removeCollector → rq.collector ≠ some ⟨s.accepts, type, fd⟩ :=
    fun rq hm _ hc => hfresh (.inr (.inr ⟨rq, hm, hc⟩))
  simp only [accept, construct_eq]
  have hjoined : Stays ⟨s.accepts, type, fd⟩ {s with
      accepts := s.accepts + 1
      live := s.live ++ [⟨s.accepts, type, fd⟩]
      record := Function.update s.record ⟨s.accepts, type, fd⟩ {descriptorId := id}
      lastUpdateTime := Function.update s.lastUpdateTime ⟨s.accepts, type, fd⟩ now
      owner := Function.update s.owner fd (some ⟨s.accepts, type, fd⟩)
      procAcctCollectorCounter := s.procAcctCollectorCounter + accounting type
      loop := s.loop ++ [⟨s.accepts, type, fd⟩]} :=
    ⟨List.mem_append_right _ (List.mem_singleton_self _), List.mem_append_right _ (List.mem_singleton_self _), hunremoved⟩
  split
  · exact stays_pushed hjoined fun rq hm ha => by
      obtain rfl := List.mem_singleton.mp hm
      cases ha
  · exact hjoined

/-- **A collector that is heard of in time is not given up**, whatever the other collectors do and in whatever order
requests are handled: it is not destroyed and stays in the loop, and whenever the queue is empty it is on the list, if
it is monitored, and a TCP collector has the wake lock held. -/
theorem active_stays {type : CollectorType} {fd : Nat} {id : Id} {now : UInt64}
    (hr : Reaches (step cfg) (start cfg held : Service L) s) (ha : step cfg s (.accept type fd (some id) now) = some t)
    (hc : c = ⟨s.accepts, type, fd⟩) (h : Steps (step cfg) (HeardOf cfg c) t u) :
    c ∈ u.live ∧ c ∈ u.loop ∧ (u.queue = [] → (cfg.monitors c = true → c ∈ items u.activeCollectorList) ∧
      (WakeLockWorks cfg → c.type = .TCP → u.wakeLock = true)) := by
  have hb := booked_reaches hr
  have hstays : Booked cfg u ∧ Stays c u := h.invariant (P := fun s => Booked cfg s ∧ Stays c s)
    (fun _ _ _ ⟨hb, hs⟩ hh hl => ⟨booked_step hl hb, stays_step hl hh hs⟩)
    ⟨booked_step ha hb, hc ▸ stays_accept hb ha⟩
  refine ⟨hstays.2.live, hstays.2.loop, fun hq => ?_⟩
  have hsettled := hstays.1.settled hq
  exact ⟨fun hm => (hsettled.active c).mpr ⟨hstays.2.loop, hm⟩,
    fun hw ht => (hsettled.wakeLock hw).mpr ⟨c, hstays.2.loop, ht⟩⟩

/-- A collector answers the timer in time. -/
def keepAlive : List Label :=
  [.handle, .handle, .readable ⟨0, .TCP, 5⟩ [.envelope true (request .keepAlive)] 9000000, .collectorsTimer 18000000]

theorem active_stays_keepAlive :
    ∃ t u, step fullService (start fullService false : Service Recorded) (.accept .TCP 5 (some []) 0) = some t ∧
      run (step fullService) t keepAlive = some u ∧
      (⟨0, .TCP, 5⟩ : ICollector) ∈ u.live ∧ (⟨0, .TCP, 5⟩ : ICollector) ∈ u.loop ∧ (u.queue = [] →
        (fullService.monitors ⟨0, .TCP, 5⟩ = true → (⟨0, .TCP, 5⟩ : ICollector) ∈ items u.activeCollectorList) ∧
        (WakeLockWorks fullService → CollectorType.TCP = .TCP → u.wakeLock = true)) := by
  have hmeets : Meets (step fullService) (HeardOf fullService ⟨0, .TCP, 5⟩)
      ((start fullService false : Service Recorded).accept fullService .TCP 5 (some []) 0) keepAlive := by decide
  exact ⟨_, _, rfl, rfl, active_stays .refl rfl rfl (.of_run hmeets rfl)⟩

/-! ### Who is removed -/

def Label.isHandle : Label → Bool
  | .handle => true
  | _ => false

/-- Requests come off the front of the queue, one with each that is handled. -/
theorem step_queue (h : step cfg s l = some t) :
    ∃ front back, s.queue = front ++ back ∧ front.length = (if l.isHandle then 1 else 0) ∧ back <+: t.queue := by
  have hkept (hl : l.isHandle = false) (hq : s.queue <+: t.queue) :
      ∃ front back, s.queue = front ++ back ∧ front.length = (if l.isHandle then 1 else 0) ∧ back <+: t.queue :=
    ⟨[], s.queue, rfl, by rw [hl]; rfl, hq⟩
  have hleave (c : ICollector) (s : Service L) : s.queue <+: (s.remEventSource c).queue := by
    unfold remEventSource
    split
    · rw [finalize_eq]
      exact List.prefix_append ..
    · exact List.prefix_rfl
  cases stepped h with
  | @accept type fd descriptor now =>
    refine hkept rfl ?_
    cases descriptor with
    | none => exact List.prefix_rfl
    | some id =>
      simp only [accept, construct_eq]
      split
      · exact List.prefix_append ..
      · exact List.prefix_rfl
  | @readable c received now hc =>
    refine hkept rfl ?_
    unfold readable
    extract_lets out s₁ s₂
    have hs : s₂.queue = s.queue := by
      show (if _ then _ else s₁).queue = _
      split <;> rfl
    rw [← hs]
    split
    · exact List.prefix_rfl
    · exact hleave c s₂
  | collectorsTimer =>
    refine hkept rfl ?_
    rw [collectorsTimer_eq]
    exact List.prefix_append ..
  | updateProcessList => exact hkept rfl (List.prefix_append ..)
  | @handle rq rest hq =>
    refine ⟨[rq], rest, hq, rfl, ?_⟩
    unfold requestHandler
    split
    · rw [doMonitorCollector, pushWakeLock_eq]
      exact List.prefix_append ..
    · rename_i c _ _
      rw [doRemoveCollector, pushWakeLock_eq]
      refine List.IsPrefix.trans ?_ (List.prefix_append ..)
      split
      · exact hleave c {s with queue := rest}
      · exact List.prefix_rfl
    · unfold doUpdateWakeLock
      split <;> exact List.prefix_rfl
    all_goals exact List.prefix_rfl
  | served => exact hkept rfl List.prefix_rfl
  | @destroy c =>
    refine hkept rfl ?_
    show s.queue <+: (s.disconnect c).queue
    unfold disconnect
    split <;> exact List.prefix_rfl

theorem gone_run (h : run (step cfg) s labels = some t) (hb : Booked cfg s) (hg : Gone c s.books) : Gone c t.books :=
  ((Steps.of_run (meets_true _ _ labels) h).invariant (P := fun s => Booked cfg s ∧ Gone c s.books)
    (fun _ _ _ ⟨hb, hg⟩ _ hs => ⟨booked_step hs hb, gone_change (step_change hb.kept.committed hs) hg⟩) ⟨hb, hg⟩).2

/-- A removal is handled when those before it are. -/
theorem removal_handled {rq : StateManager.Request} {front back : List StateManager.Request} (hb : Booked cfg s)
    (hq : front ++ rq :: back <+: s.queue) (ha : rq.action = .removeCollector) (hc : rq.collector = some c)
    (h : run (step cfg) s labels = some t) (hn : front.length < labels.countP Label.isHandle) : Gone c t.books := by
  induction labels generalizing s front with
  | nil => exact absurd hn (Nat.not_lt_zero _)
  | cons l rest ih =>
    obtain ⟨m, hl, hrest⟩ := Option.bind_eq_some_iff.mp h
    obtain ⟨tail, htail⟩ := hq
    obtain ⟨taken, left, hsplit, hlength, hleft⟩ := step_queue hl
    rw [List.countP_cons] at hn
    cases hh : l.isHandle with
    | false =>
      rw [hh] at hlength hn
      obtain rfl := List.length_eq_zero_iff.mp hlength
      obtain rfl : s.queue = left := hsplit
      have hbegins : front ++ rq :: back <+: s.queue := ⟨tail, htail⟩
      exact ih (booked_step hl hb) (hbegins.trans hleft) hrest (by simpa using hn)
    | true =>
      rw [hh, if_pos rfl] at hlength hn
      cases front with
      | nil =>
        have hhandle : l = .handle := by cases l <;> first | rfl | cases hh
        subst hhandle
        exact gone_run hrest (booked_step hl hb) (hb.gone ⟨rq, back ++ tail, by simpa using htail.symm, ha, hc⟩ hl)
      | cons first front =>
        have hbegins : front ++ rq :: back <+: left := by
          obtain ⟨x, rfl⟩ := List.length_eq_one_iff.mp hlength
          rw [hsplit] at htail
          simp only [List.cons_append, List.nil_append, List.cons.injEq] at htail
          exact ⟨tail, by simpa using htail.2⟩
        exact ih (booked_step hl hb) (hbegins.trans hleft) hrest (by simpa using hn)

/-- **A collector that the timer finds inactive is removed for good**: once the requests that are then in the queue are
handled, whatever happens in between, it is neither in the loop nor on the list, nor about to be listed. -/
theorem inactive_removed {now : UInt64} (hr : Reaches (step cfg) (start cfg held : Service L) s)
    (hm : c ∈ items s.activeCollectorList) (hi : inactive cfg now s c = true)
    (ht : step cfg s (.collectorsTimer now) = some t) (h : run (step cfg) t labels = some u)
    (hn : t.queue.length ≤ labels.countP Label.isHandle) :
    c ∉ u.loop ∧ c ∉ items u.activeCollectorList ∧ ∀ rq ∈ u.queue, rq.action = .monitorCollector → rq.collector ≠ some c := by
  have hqueue : t.queue = s.queue ++ ((items s.activeCollectorList).filter (inactive cfg now s)).map (removal · true) := by
    obtain rfl := Option.some.inj ht
    rw [collectorsTimer_eq]
  have hmem : removal c true ∈ t.queue := by
    rw [hqueue]
    exact List.mem_append_right _ (List.mem_map_of_mem (List.mem_filter.mpr ⟨hm, hi⟩))
  obtain ⟨front, back, hsplit⟩ := List.append_of_mem hmem
  have hlength : front.length < t.queue.length := by simp [hsplit]
  have hbegins : front ++ removal c true :: back <+: t.queue := ⟨[], by rw [List.append_nil, hsplit]⟩
  have hgone := removal_handled (booked_step ht (booked_reaches hr)) hbegins rfl rfl h (Nat.lt_of_lt_of_le hlength hn)
  exact ⟨hgone.loop, hgone.active, fun rq hrq ha hc => hgone.pending ⟨rq, hrq, ha, hc⟩⟩

/-- A connected collector says nothing for longer than the timeout, and another one connects meanwhile. -/
def silent : List Label := [.accept .TCP 6 (some []) 20000001, .handle, .handle]

theorem inactive_removed_silent :
    ∃ s t u, run (step fullService) (start fullService false : Service Recorded) connected = some s ∧
      step fullService s (.collectorsTimer 20000000) = some t ∧ run (step fullService) t silent = some u ∧
      (⟨0, .TCP, 5⟩ : ICollector) ∉ u.loop ∧ (⟨0, .TCP, 5⟩ : ICollector) ∉ items u.activeCollectorList ∧
      ∀ rq ∈ u.queue, rq.action = .monitorCollector → rq.collector ≠ some ⟨0, .TCP, 5⟩ := by
  have hend : ((run (step fullService) (start fullService false : Service Recorded) connected).bind fun s =>
      (step fullService s (.collectorsTimer 20000000)).bind fun t => (run (step fullService) t silent).map fun _ =>
        (items s.activeCollectorList, inactive fullService 20000000 s ⟨0, .TCP, 5⟩, t.queue.length)) =
      some ([⟨0, .TCP, 5⟩], true, 1) := by rfl
  obtain ⟨s, hs, hend⟩ := Option.bind_eq_some_iff.mp hend
  obtain ⟨t, ht, hend⟩ := Option.bind_eq_some_iff.mp hend
  obtain ⟨u, hu, hend⟩ := Option.map_eq_some_iff.mp hend
  obtain ⟨hlisted, hrest⟩ := Prod.mk.inj hend
  obtain ⟨hinactive, hlength⟩ := Prod.mk.inj hrest
  have hreached : Reaches (step fullService) (start fullService false : Service Recorded) s :=
    .of_run (meets_true _ _ connected) hs
  have hhandled : t.queue.length ≤ silent.countP Label.isHandle := by
    rw [hlength]
    decide
  exact ⟨s, t, u, hs, ht, hu, inactive_removed hreached (by simp [hlisted]) hinactive ht hu hhandled⟩

end TaskMonitor.Service

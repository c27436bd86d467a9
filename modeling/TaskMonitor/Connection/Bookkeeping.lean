import TaskMonitor.Connection.System

/-! The list of active collectors and the wake lock.

A collector is listed some time after it joined the event loop and taken off the
list some time after it left, with requests in between; the wake lock follows the
list later still. What is out of step is in the queue: a collector in the loop
that is not listed has its `MonitorCollector` there, one that left has a
`RemoveCollector` after it, and where the lock and the list disagree an update
of the lock is to come (`Kept`). So when the queue is empty all agree. -/
namespace TaskMonitor.Service
open Collector DeferredList Transition

variable {L : Type → Type} [DeferredList L] {cfg : ServiceConfig} {held : Bool} {s t u : Service L} {l : Label}
  {c : ICollector} {rq : StateManager.Request}

/-- What list, loop and lock depend on. -/
structure Books where
  accepts : Nat
  loop : List ICollector
  active : List ICollector
  /-- Recorded for removal from the list. -/
  recorded : List ICollector
  queue : List StateManager.Request
  /-- The flag, and whether the kernel holds the lock. -/
  lock : Bool × Bool

def books (s : Service L) : Books :=
  ⟨s.accepts, s.loop, items s.activeCollectorList, recorded s.activeCollectorList, s.queue,
    (s.activeWakeLock, s.wakeLock)⟩

def haveTcp (cs : List ICollector) : Bool := cs.any fun c => decide (c.type = .TCP)

def updatedLock (cfg : ServiceConfig) (b : Books) : Bool × Bool :=
  if cfg.withWakeLock && cfg.tcpActiveWakeLock then switchWakeLock cfg (haveTcp b.active) b.lock else b.lock

/-- A removal is handled; one with the event source takes the collector off the loop as well. -/
def Books.remove (c : ICollector) (withEventSource : Bool) (rest : List StateManager.Request) (b : Books) : Books :=
  if withEventSource = true ∧ c ∈ b.loop then
    {b with
      loop := b.loop.erase c
      active := b.active.filter fun d => decide (d ≠ c)
      queue := rest ++ [removal c false] ++ wakeLockRequests c}
  else
    {b with
      active := b.active.filter fun d => decide (d ≠ c)
      queue := rest ++ wakeLockRequests c}

/-- What a step does to the books. -/
inductive Change (cfg : ServiceConfig) (b : Books) : Books → Prop where
  | idle : Change cfg b b
  | refuse : Change cfg b {b with accepts := b.accepts + 1}
  | accept {c : ICollector} (hc : c.number = b.accepts) : Change cfg b {b with
      accepts := b.accepts + 1
      loop := b.loop ++ [c]
      queue := b.queue ++ if cfg.monitors c then [{action := .monitorCollector, collector := some c}] else []}
  | leave {c : ICollector} (hc : c ∈ b.loop) : Change cfg b {b with
      loop := b.loop.erase c
      queue := b.queue ++ [removal c false]}
  /-- Inactive collectors are to be removed. -/
  | inactive {cs : List ICollector} (hcs : ∀ c ∈ cs, c ∈ b.active) : Change cfg b {b with
      queue := b.queue ++ cs.map (removal · true)}
  | ask : Change cfg b {b with queue := b.queue ++ [{action := .updateProcessList}]}
  | monitor {rq : StateManager.Request} {rest : List StateManager.Request} {c : ICollector}
      (hq : b.queue = rq :: rest) (ha : rq.action = .monitorCollector) (hc : rq.collector = some c) :
      Change cfg b {b with active := b.active ++ [c], queue := rest ++ wakeLockRequests c}
  | remove {rq : StateManager.Request} {rest : List StateManager.Request} {c : ICollector}
      (hq : b.queue = rq :: rest) (ha : rq.action = .removeCollector) (hc : rq.collector = some c) :
      Change cfg b (b.remove c rq.withEventSource rest)
  | lock {rq : StateManager.Request} {rest : List StateManager.Request}
      (hq : b.queue = rq :: rest) (ha : rq.action = .updateWakeLock) :
      Change cfg b {b with queue := rest, lock := updatedLock cfg b}
  | pass {rq : StateManager.Request} {rest : List StateManager.Request}
      (hq : b.queue = rq :: rest) (ha : rq.action = .updateProcessList ∨
        rq.action ≠ .updateWakeLock ∧ rq.collector = none) :
      Change cfg b {b with queue := rest}

/-! ### What the operations do -/

theorem foreach_haveTcp (l : L ICollector) :
    foreach l (fun found c => if c.type = .TCP then true else found) false = haveTcp (items l) := by
  have hfold (cs : List ICollector) (b : Bool) :
      cs.foldl (fun found c => if c.type = .TCP then true else found) b = (b || haveTcp cs) := by
    induction cs generalizing b with
    | nil => simp [haveTcp]
    | cons c rest ih =>
      rw [List.foldl_cons, ih]
      cases h : c.type <;> simp [haveTcp, h]
  rw [foreach, hfold, Bool.false_or]

theorem books_remEventSource (c : ICollector) (s : Service L) :
    (s.remEventSource c).books = if c ∈ s.loop then {s.books with
      loop := s.loop.erase c, queue := s.queue ++ [removal c false]} else s.books := by
  unfold remEventSource
  split
  · rw [finalize_eq]
    rfl
  · rfl

theorem accept_change {type : CollectorType} {fd : Nat} {descriptor : Option Id} {now : UInt64} :
    Change cfg s.books (s.accept cfg type fd descriptor now).books := by
  cases descriptor with
  | none => exact .refuse
  | some id =>
    have hc : Change cfg s.books _ := .accept (c := ⟨s.accepts, type, fd⟩) rfl
    simp only [accept, construct_eq]
    split at hc <;> rename_i hm
    · rw [if_pos hm]
      exact hc
    · rw [if_neg hm]
      rwa [List.append_nil] at hc

/-- A read is seen in the books only if the collector leaves. -/
theorem readable_change {received : List Received} {now : UInt64} (hc : c ∈ s.loop) :
    Change cfg s.books (s.readable cfg c received now).books := by
  unfold readable
  extract_lets out s₁ s₂
  have hs : s₂.books = s.books := by
    show (if _ then _ else s₁).books = _
    split <;> rfl
  split
  · rw [hs]
    exact .idle
  · have hloop : s₂.loop = s.loop := congrArg Books.loop hs
    have hqueue : s₂.queue = s.queue := congrArg Books.queue hs
    rw [books_remEventSource, hs, hloop, hqueue, if_pos hc]
    exact .leave hc

theorem books_doRemoveCollector (withEventSource : Bool) (rest : List StateManager.Request)
    (hr : recorded s.activeCollectorList = []) :
    (doRemoveCollector c withEventSource {s with queue := rest}).books =
      s.books.remove c withEventSource rest := by
  unfold Books.remove
  split <;> rename_i hl
  · have hc : c ∈ s.loop := hl.2
    simp only [doRemoveCollector, remEventSource, finalize_eq, pushWakeLock_eq, books, hl.1, if_true, if_pos hc,
      items_removeNow _ _ hr, recorded_removeNow, hr]
  · have hsame : (if withEventSource = true then remEventSource c {s with queue := rest}
        else {s with queue := rest}) = {s with queue := rest} := by
      split
      · rename_i he
        exact if_neg fun hm => hl ⟨he, hm⟩
      · rfl
    simp only [doRemoveCollector, hsame, pushWakeLock_eq, books, items_removeNow _ _ hr, recorded_removeNow, hr]

theorem books_doUpdateWakeLock (s : Service L) :
    (s.doUpdateWakeLock cfg).books = {s.books with lock := updatedLock cfg s.books} := by
  unfold doUpdateWakeLock updatedLock
  split
  · rw [foreach_haveTcp]
    rfl
  · rfl

theorem handler_change {rest : List StateManager.Request} (hr : recorded s.activeCollectorList = [])
    (hq : s.queue = rq :: rest) :
    Change cfg s.books (requestHandler cfg rq {s with queue := rest}).books := by
  unfold requestHandler
  split
  · rename_i ha hc
    have hm : Change cfg s.books _ := .monitor hq ha hc
    simpa only [doMonitorCollector, pushWakeLock_eq, books, items_append, recorded_append, hr] using hm
  · rename_i ha hc
    rw [books_doRemoveCollector _ _ hr]
    exact .remove hq ha hc
  · rename_i ha
    rw [books_doUpdateWakeLock]
    exact .lock hq ha
  · rename_i ha
    exact .pass hq (.inl ha)
  · rename_i ha hc
    exact .pass hq (.inr ⟨by rw [ha]; decide, hc⟩)
  · rename_i ha hc
    exact .pass hq (.inr ⟨by rw [ha]; decide, hc⟩)

/-- **What a step does**, while nothing is recorded for removal. -/
theorem step_change (hr : recorded s.activeCollectorList = []) (h : step cfg s l = some t) :
    Change cfg s.books t.books := by
  cases stepped h with
  | accept => exact accept_change
  | readable hc => exact readable_change hc
  | collectorsTimer =>
    rw [collectorsTimer_eq]
    exact .inactive fun c hc => List.mem_of_mem_filter hc
  | updateProcessList => exact .ask
  | handle hq => exact handler_change hr hq
  | served => exact .idle
  | @destroy c =>
    rw [show Service.books {s.disconnect c with live := s.live.erase c} = s.books by
      unfold disconnect
      split <;> rfl]
    exact .idle

/-! ### What is in the queue -/

/-- A request of the kind about the collector is in the queue. -/
def Books.Pending (b : Books) (action : StateManager.Action) (c : ICollector) : Prop :=
  ∃ rq ∈ b.queue, rq.action = action ∧ rq.collector = some c

/-- The collector is known to the loop, the list or the queue. -/
def Books.Mentions (b : Books) (c : ICollector) : Prop :=
  c ∈ b.loop ∨ c ∈ b.active ∨ ∃ rq ∈ b.queue, rq.collector = some c

/-- Nothing about a collector comes before its `MonitorCollector`. -/
def Ordered (queue : List StateManager.Request) : Prop :=
  queue.Pairwise fun rq rq' => rq'.action = .monitorCollector → rq.collector ≠ rq'.collector

variable {b b' : Books} {queue rest rqs : List StateManager.Request}

@[grind =] theorem mem_wakeLockRequests :
    rq ∈ wakeLockRequests c ↔ c.type = .TCP ∧ rq = {action := .updateWakeLock, collector := some c} := by
  unfold wakeLockRequests
  cases c.type <;> simp

@[grind =] theorem removal_eq (c : ICollector) (withEventSource : Bool) :
    removal c withEventSource = ⟨.removeCollector, some c, withEventSource⟩ := rfl

theorem Ordered.append (h : Ordered queue) (hn : ∀ rq ∈ rqs, rq.action ≠ .monitorCollector) :
    Ordered (queue ++ rqs) := by
  refine List.pairwise_append.mpr ⟨h, ?_, fun _ _ rq' hm ha => absurd ha (hn rq' hm)⟩
  exact List.Pairwise.imp_of_mem (R := fun _ _ => True) (fun _ hm _ ha => absurd ha (hn _ hm))
    (List.pairwise_of_forall fun _ _ => trivial)

theorem Ordered.tail (h : Ordered (rq :: rest)) : Ordered rest := (List.pairwise_cons.mp h).2

/-- After a request about a collector there is no `MonitorCollector` of it. -/
theorem Ordered.head (h : Ordered (rq :: rest)) (hc : rq.collector = some c) :
    ∀ rq' ∈ rest, rq'.action = .monitorCollector → rq'.collector ≠ some c := by
  intro rq' hm ha hc'
  exact (List.pairwise_cons.mp h).1 rq' hm ha (hc.trans hc'.symm)

/-! ### Lists and requests -/

structure Kept (cfg : ServiceConfig) (b : Books) : Prop where
  committed : b.recorded = []
  nodup : b.active.Nodup
  sources : b.loop.Nodup
  numbered : ∀ c, b.Mentions c → c.number < b.accepts
  ordered : Ordered b.queue
  unlisted : ∀ c, b.Pending .monitorCollector c → c ∉ b.active
  monitored : ∀ c, b.Pending .monitorCollector c ∨ c ∈ b.active → cfg.monitors c = true
  joined : ∀ c ∈ b.loop, cfg.monitors c = true → c ∈ b.active ∨ b.Pending .monitorCollector c
  leaving : ∀ c, c ∈ b.active ∨ b.Pending .monitorCollector c → c ∈ b.loop ∨ b.Pending .removeCollector c
  finalized : ∀ c, removal c false ∈ b.queue → c ∉ b.loop

/-- Out of the loop and the list, with nothing to come that lists it. -/
structure Gone (c : ICollector) (b : Books) : Prop where
  number : c.number < b.accepts
  loop : c ∉ b.loop
  active : c ∉ b.active
  pending : ¬b.Pending .monitorCollector c

/-- A collector with the next number is not known yet. -/
theorem Kept.fresh (h : Kept cfg b) (hn : c.number = b.accepts) : ¬b.Mentions c := by
  intro hm
  have := h.numbered c hm
  omega

theorem accepts_change (hc : Change cfg b b') : b.accepts ≤ b'.accepts := by
  cases hc with
  | refuse => exact Nat.le_succ _
  | accept => exact Nat.le_succ _
  | remove =>
    unfold Books.remove
    split <;> exact Nat.le_refl _
  | _ => exact Nat.le_refl _

/-- Only an accept makes a collector known, and gives it the next number. -/
theorem mentions_change (hc : Change cfg b b') (h : b'.Mentions c) :
    b.Mentions c ∨ (c.number = b.accepts ∧ b'.accepts = b.accepts + 1) := by
  unfold Books.Mentions at *
  cases hc <;> grind [Books.remove]

/-- A `MonitorCollector` in the queue was there before or is that of an accept. -/
theorem waiting_change (hc : Change cfg b b') (h : b'.Pending .monitorCollector c) :
    b.Pending .monitorCollector c ∨ (c.number = b.accepts ∧ cfg.monitors c = true ∧ c ∈ b'.loop) := by
  unfold Books.Pending at *
  cases hc <;> grind [Books.remove]

/-- A collector is listed because it was, or because its `MonitorCollector` was handled. -/
theorem listed_change (hc : Change cfg b b') (hm : c ∈ b'.active) :
    c ∈ b.active ∨ ∃ rq rest, b.queue = rq :: rest ∧ rq.action = .monitorCollector ∧ rq.collector = some c ∧
      b'.queue = rest ++ wakeLockRequests c := by
  cases hc <;> grind [Books.remove]

/-- A collector that leaves the loop has its removal pushed. -/
theorem loop_change (hc : Change cfg b b') (hl : c ∈ b.loop) : c ∈ b'.loop ∨ b'.Pending .removeCollector c := by
  cases hc with
  | accept => exact .inl (List.mem_append_left _ hl)
  | @leave d =>
    by_cases he : c = d
    · subst he
      exact .inr ⟨removal c false, by simp, rfl, rfl⟩
    · exact .inl ((List.mem_erase_of_ne he).mpr hl)
  | @remove rq rest d =>
    unfold Books.remove
    split
    · by_cases he : c = d
      · subst he
        exact .inr ⟨removal c false, by simp, rfl, rfl⟩
      · exact .inl ((List.mem_erase_of_ne he).mpr hl)
    · exact .inl hl
  | _ => exact .inl hl

theorem numbered_change (hc : Change cfg b b') (h : Kept cfg b) (hm : b'.Mentions c) :
    c.number < b'.accepts := by
  have hle := accepts_change hc
  rcases mentions_change hc hm with hm | ⟨hn, ha⟩
  · have := h.numbered c hm
    omega
  · omega

theorem committed_change (hc : Change cfg b b') (h : Kept cfg b) : b'.recorded = [] := by
  cases hc with
  | remove =>
    unfold Books.remove
    split <;> exact h.committed
  | _ => exact h.committed

theorem nodup_change (hc : Change cfg b b') (h : Kept cfg b) : b'.active.Nodup := by
  cases hc with
  | monitor hq ha hc =>
    have hnew := h.unlisted _ ⟨_, hq ▸ List.mem_cons_self .., ha, hc⟩
    exact List.nodup_append.mpr ⟨h.nodup, List.nodup_singleton _, by grind⟩
  | remove =>
    unfold Books.remove
    split <;> exact h.nodup.filter _
  | _ => exact h.nodup

theorem sources_change (hc : Change cfg b b') (h : Kept cfg b) : b'.loop.Nodup := by
  cases hc with
  | accept hn =>
    have hnew := h.fresh hn
    exact List.nodup_append.mpr ⟨h.sources, List.nodup_singleton _, by grind [Books.Mentions]⟩
  | leave => exact h.sources.erase _
  | remove =>
    unfold Books.remove
    split
    · exact h.sources.erase _
    · exact h.sources
  | _ => exact h.sources

theorem ordered_change (hc : Change cfg b b') (h : Kept cfg b) : Ordered b'.queue := by
  have ho := h.ordered
  cases hc with
  | accept hn =>
    have hnew := h.fresh hn
    refine List.pairwise_append.mpr ⟨ho, ?_, ?_⟩
    · split <;> simp
    · grind [Books.Mentions]
  | leave => exact ho.append (by grind)
  | inactive => exact ho.append (by grind)
  | ask => exact ho.append (by grind)
  | monitor hq => exact (hq ▸ ho).tail.append (by grind)
  | remove hq =>
    unfold Books.remove
    split
    · exact ((hq ▸ ho).tail.append (by grind)).append (by grind)
    · exact (hq ▸ ho).tail.append (by grind)
  | lock hq => exact (hq ▸ ho).tail
  | pass hq => exact (hq ▸ ho).tail
  | _ => exact ho

theorem unlisted_change (hc : Change cfg b b') (h : Kept cfg b) (hp : b'.Pending .monitorCollector c) :
    c ∉ b'.active := by
  intro hm
  rcases listed_change hc hm with hm | ⟨rq, rest, hq, ha, hcol, hq'⟩
  · rcases waiting_change hc hp with hp | ⟨hn, _⟩
    · exact h.unlisted c hp hm
    · exact h.fresh hn (.inr (.inl hm))
  · have hhead := (hq ▸ h.ordered).head hcol
    obtain ⟨rq', hm', ha', hc'⟩ := hp
    grind

theorem monitored_change (hc : Change cfg b b') (h : Kept cfg b)
    (hm : b'.Pending .monitorCollector c ∨ c ∈ b'.active) : cfg.monitors c = true := by
  rcases hm with hp | hm
  · rcases waiting_change hc hp with hp | ⟨_, hm, _⟩
    · exact h.monitored c (.inl hp)
    · exact hm
  · rcases listed_change hc hm with hm | ⟨rq, rest, hq, ha, hcol, _⟩
    · exact h.monitored c (.inr hm)
    · exact h.monitored c (.inl ⟨rq, hq ▸ List.mem_cons_self .., ha, hcol⟩)

/-- A removal that does not take its collector off the loop finds it has left. -/
theorem Kept.left (h : Kept cfg b) (hq : b.queue = rq :: rest) (ha : rq.action = .removeCollector)
    (hc : rq.collector = some c) (hl : ¬(rq.withEventSource = true ∧ c ∈ b.loop)) : c ∉ b.loop := by
  cases he : rq.withEventSource with
  | true => exact fun hm => hl ⟨he, hm⟩
  | false =>
    have hrq : rq = removal c false := by
      obtain ⟨action, collector, withEventSource⟩ := rq
      simp_all [removal]
    exact h.finalized c (by rw [hq, hrq]; exact List.mem_cons_self ..)

/-- **A removal that was handled** leaves nothing of its collector. -/
theorem gone_remove (h : Kept cfg b) (hq : b.queue = rq :: rest) (ha : rq.action = .removeCollector)
    (hc : rq.collector = some c) : Gone c (b.remove c rq.withEventSource rest) := by
  have hnumber := h.numbered c (.inr (.inr ⟨rq, hq ▸ List.mem_cons_self .., hc⟩))
  have hrest := (hq ▸ h.ordered).head hc
  unfold Books.remove
  split <;> rename_i hl
  · exact
      { number := hnumber
        loop := h.sources.not_mem_erase
        active := by simp
        pending := by grind [Books.Pending] }
  · exact
      { number := hnumber
        loop := h.left hq ha hc hl
        active := by simp
        pending := by grind [Books.Pending] }

/-- A removal stays in the queue until it is handled. -/
theorem removal_change (hc : Change cfg b b') (h : Kept cfg b) (hp : b.Pending .removeCollector c) :
    b'.Pending .removeCollector c ∨ Gone c b' := by
  cases hc with
  | @remove rq rest d hq ha hd =>
    by_cases he : c = d
    · subst he
      exact .inr (gone_remove h hq ha hd)
    · grind [Books.Pending, Books.remove]
  | _ => grind [Books.Pending]

theorem joined_change (hc : Change cfg b b') (h : Kept cfg b) (hl : c ∈ b'.loop) (hm : cfg.monitors c = true) :
    c ∈ b'.active ∨ b'.Pending .monitorCollector c := by
  have hj := h.joined c
  cases hc with
  | accept =>
    rcases List.mem_append.mp hl with hl | hl
    · exact (hj hl hm).imp id fun ⟨rq, hq, hp⟩ => ⟨rq, List.mem_append_left _ hq, hp⟩
    · -- its own request is pushed after it joined
      obtain rfl := List.mem_singleton.mp hl
      exact .inr ⟨_, List.mem_append_right _ (by rw [if_pos hm]; exact List.mem_singleton_self _), rfl, rfl⟩
  | @remove rq rest d hq ha hd =>
    have hne : c ≠ d := fun he => (gone_remove h hq ha hd).loop (he ▸ hl)
    grind [Books.Pending, Books.remove]
  | _ => grind [Books.Pending]

theorem leaving_change (hc : Change cfg b b') (h : Kept cfg b)
    (hm : c ∈ b'.active ∨ b'.Pending .monitorCollector c) : c ∈ b'.loop ∨ b'.Pending .removeCollector c := by
  have hold : (c ∈ b.active ∨ b.Pending .monitorCollector c) ∨ c ∈ b'.loop := by
    rcases hm with hm | hp
    · rcases listed_change hc hm with hm | ⟨rq, rest, hq, ha, hcol, _⟩
      · exact .inl (.inl hm)
      · exact .inl (.inr ⟨rq, hq ▸ List.mem_cons_self .., ha, hcol⟩)
    · rcases waiting_change hc hp with hp | ⟨_, _, hl⟩
      · exact .inl (.inr hp)
      · exact .inr hl
  rcases hold with hold | hl
  · rcases h.leaving c hold with hl | hr
    · exact loop_change hc hl
    · rcases removal_change hc h hr with hr | hg
      · exact .inr hr
      · exact (hm.elim hg.active hg.pending).elim
  · exact .inl hl

theorem finalized_change (hc : Change cfg b b') (h : Kept cfg b) (hr : removal c false ∈ b'.queue) :
    c ∉ b'.loop := by
  have hf := h.finalized c
  have hn := h.numbered c
  have hs := h.sources
  unfold Books.Mentions at *
  cases hc <;> grind [Books.remove]

theorem kept_change (hc : Change cfg b b') (h : Kept cfg b) : Kept cfg b' where
  committed := committed_change hc h
  nodup := nodup_change hc h
  sources := sources_change hc h
  numbered := fun _ => numbered_change hc h
  ordered := ordered_change hc h
  unlisted := fun _ => unlisted_change hc h
  monitored := fun _ => monitored_change hc h
  joined := fun _ => joined_change hc h
  leaving := fun _ => leaving_change hc h
  finalized := fun _ => finalized_change hc h

/-- What is gone stays gone: an accept makes a new collector. -/
theorem gone_change (hc : Change cfg b b') (h : Gone c b) : Gone c b' where
  number := Nat.lt_of_lt_of_le h.number (accepts_change hc)
  loop := by
    have hl := h.loop
    have hn := h.number
    cases hc <;> grind [Books.remove]
  active := by
    intro hm
    rcases listed_change hc hm with hm | ⟨rq, rest, hq, ha, hcol, _⟩
    · exact h.active hm
    · exact h.pending ⟨rq, hq ▸ List.mem_cons_self .., ha, hcol⟩
  pending := by
    intro hp
    rcases waiting_change hc hp with hp | ⟨hn, _⟩
    · exact h.pending hp
    · exact absurd h.number (by omega)

/-! ### The wake lock -/

/-- The wake lock is built in, switched on and there. -/
structure WakeLockWorks (cfg : ServiceConfig) : Prop where
  built : cfg.withWakeLock = true
  active : cfg.tcpActiveWakeLock = true
  lockFile : cfg.wakeLockFile = true
  unlockFile : cfg.wakeUnlockFile = true

/-- The flag tells whether the lock is held; it follows the list with the next update. -/
structure Follows (b : Books) : Prop where
  flag : b.lock.1 = b.lock.2
  due : (∃ rq ∈ b.queue, rq.action = .updateWakeLock) ∨ b.lock.1 = haveTcp b.active

theorem haveTcp_append (cs : List ICollector) (hc : c.type = .UDS) : haveTcp (cs ++ [c]) = haveTcp cs := by
  simp [haveTcp, hc]

theorem haveTcp_filter (cs : List ICollector) (hc : c.type = .UDS) :
    haveTcp (cs.filter fun d => decide (d ≠ c)) = haveTcp cs := by
  rw [haveTcp, haveTcp, List.any_filter]
  congr 1
  funext d
  by_cases hd : d = c
  · simp [hd, hc]
  · simp [hd]

omit [DeferredList L] in
theorem switchWakeLock_eq (hw : WakeLockWorks cfg) (found flag : Bool) :
    switchWakeLock cfg found (flag, flag) = (found, found) := by
  cases found <;> cases flag <;> simp [switchWakeLock, hw.lockFile, hw.unlockFile]

/-- With the files there an update makes lock and list agree. -/
theorem updatedLock_eq (hw : WakeLockWorks cfg) (h : b.lock.1 = b.lock.2) :
    updatedLock cfg b = (haveTcp b.active, haveTcp b.active) := by
  rcases hl : b.lock with ⟨flag, lock⟩
  obtain rfl : flag = lock := by simpa [hl] using h
  rw [updatedLock, hw.built, hw.active, hl, switchWakeLock_eq hw]
  rfl

/-- Where the list gains or loses a TCP collector an update is pushed. -/
theorem follows_listed {active' : List ICollector} (hq : b.queue = rq :: rest) (ha : rq.action ≠ .updateWakeLock)
    (hrest : rest ⊆ queue) (hwake : wakeLockRequests c ⊆ queue)
    (hactive : c.type = .UDS → haveTcp active' = haveTcp b.active) (h : Follows b) :
    (∃ rq ∈ queue, rq.action = .updateWakeLock) ∨ b.lock.1 = haveTcp active' := by
  cases hc : c.type with
  | TCP => exact .inl ⟨_, hwake (mem_wakeLockRequests.mpr ⟨hc, rfl⟩), rfl⟩
  | UDS =>
    rcases h.due with ⟨rq', hm, hu⟩ | hf
    · rcases List.mem_cons.mp (hq ▸ hm) with rfl | hm
      · exact absurd hu ha
      · exact .inl ⟨rq', hrest hm, hu⟩
    · exact .inr (hf.trans (hactive hc).symm)

theorem follows_change (hw : WakeLockWorks cfg) (hc : Change cfg b b') (h : Follows b) : Follows b' := by
  have hpushed (rqs : List StateManager.Request) :
      (∃ rq ∈ b.queue ++ rqs, rq.action = .updateWakeLock) ∨ b.lock.1 = haveTcp b.active :=
    h.due.imp (fun ⟨rq, hm, hu⟩ => ⟨rq, List.mem_append_left _ hm, hu⟩) id
  cases hc with
  | idle => exact h
  | refuse => exact ⟨h.flag, h.due⟩
  | accept => exact ⟨h.flag, hpushed _⟩
  | leave => exact ⟨h.flag, hpushed _⟩
  | inactive => exact ⟨h.flag, hpushed _⟩
  | ask => exact ⟨h.flag, hpushed _⟩
  | monitor hq ha =>
    exact ⟨h.flag, follows_listed (b := b) hq (by simp [ha]) (List.subset_append_left ..) (List.subset_append_right ..)
      (haveTcp_append b.active) h⟩
  | remove hq ha =>
    unfold Books.remove
    split
    · exact ⟨h.flag, follows_listed (b := b) hq (by simp [ha]) (by simp) (List.subset_append_right ..)
        (haveTcp_filter b.active) h⟩
    · exact ⟨h.flag, follows_listed (b := b) hq (by simp [ha]) (List.subset_append_left ..) (List.subset_append_right ..)
        (haveTcp_filter b.active) h⟩
  | lock =>
    have hl := updatedLock_eq hw h.flag
    exact ⟨by rw [hl], .inr (by rw [hl])⟩
  | @pass rq rest hq ha =>
    refine ⟨h.flag, h.due.imp (fun ⟨rq', hm, hu⟩ => ?_) id⟩
    rcases List.mem_cons.mp (hq ▸ hm) with rfl | hm
    · rcases ha with ha | ⟨ha, _⟩
      · rw [ha] at hu
        cases hu
      · exact absurd hu ha
    · exact ⟨rq', hm, hu⟩

/-! ### Runs -/

/-- With nothing left to handle the list is that of the monitored collectors in the loop, and the
wake lock is held while a TCP collector is connected. -/
structure Settled (cfg : ServiceConfig) (s : Service L) : Prop where
  active : ∀ c, c ∈ items s.activeCollectorList ↔ c ∈ s.loop ∧ cfg.monitors c = true
  wakeLock : WakeLockWorks cfg → (s.wakeLock = true ↔ ∃ c ∈ s.loop, c.type = .TCP)

/-- What holds in every state reached. -/
structure Booked (cfg : ServiceConfig) (s : Service L) : Prop where
  kept : Kept cfg s.books
  follows : WakeLockWorks cfg → Follows s.books

theorem booked_step (h : step cfg s l = some t) (hb : Booked cfg s) : Booked cfg t where
  kept := kept_change (step_change hb.kept.committed h) hb.kept
  follows := fun hw => follows_change hw (step_change hb.kept.committed h) (hb.follows hw)

theorem booked_start : Booked cfg (start cfg held : Service L) where
  kept := by
    have hno (c : ICollector) : ¬(start cfg held : Service L).books.Mentions c := by
      simp [Books.Mentions, books, start]
    exact
      { committed := by simp [books, start]
        nodup := by simp [books, start]
        sources := by simp [books, start]
        numbered := fun c hm => absurd hm (hno c)
        ordered := List.Pairwise.nil
        unlisted := fun c _ hm => hno c (.inr (.inl hm))
        monitored := by simp [Books.Pending, books, start]
        joined := by simp [books, start]
        leaving := by simp [Books.Pending, books, start]
        finalized := by simp [books, start] }
  follows := by
    intro hw
    have hlock : (start cfg held : Service L).books.lock = (false, false) := by
      simp [books, start, hw.built, hw.unlockFile]
    refine ⟨by rw [hlock], .inr ?_⟩
    rw [hlock]
    simp [books, start, haveTcp]

theorem booked_reaches (h : Reaches (step cfg) (start cfg held) s) : Booked cfg s :=
  h.invariant (fun _ _ _ hb _ hs => booked_step hs hb) booked_start

theorem Booked.settled (h : Booked cfg s) (hq : s.queue = []) : Settled cfg s := by
  have hnone (action : StateManager.Action) (c : ICollector) : ¬s.books.Pending action c := by
    rintro ⟨rq, hm, _⟩
    rw [show s.books.queue = [] from hq] at hm
    cases hm
  have hactive (c : ICollector) : c ∈ items s.activeCollectorList ↔ c ∈ s.loop ∧ cfg.monitors c = true := by
    constructor
    · intro hm
      exact ⟨(h.kept.leaving c (.inl hm)).resolve_right (hnone _ c), h.kept.monitored c (.inr hm)⟩
    · rintro ⟨hl, hm⟩
      exact (h.kept.joined c hl hm).resolve_right (hnone _ c)
  refine ⟨hactive, fun hw => ?_⟩
  have hf := h.follows hw
  have hlock : s.wakeLock = haveTcp (items s.activeCollectorList) := by
    rcases hf.due with ⟨rq, hm, _⟩ | hd
    · rw [show s.books.queue = [] from hq] at hm
      cases hm
    · exact hf.flag.symm.trans hd
  rw [hlock, haveTcp, List.any_eq_true]
  constructor
  · rintro ⟨c, hm, hc⟩
    exact ⟨c, ((hactive c).mp hm).1, by simpa using hc⟩
  · rintro ⟨c, hl, hc⟩
    exact ⟨c, (hactive c).mpr ⟨hl, by simp [ServiceConfig.monitors, hc]⟩, by simpa using hc⟩

/-- The next request to be handled removes the collector. -/
def Removes (c : ICollector) (s : Service L) : Prop :=
  ∃ rq rest, s.queue = rq :: rest ∧ rq.action = .removeCollector ∧ rq.collector = some c

theorem Booked.gone (h : Booked cfg s) (hr : Removes c s) (hs : step cfg s .handle = some t) : Gone c t.books := by
  obtain ⟨rq, rest, hq, ha, hc⟩ := hr
  have hgone := gone_remove h.kept (show s.books.queue = rq :: rest from hq) ha hc
  rw [← books_doRemoveCollector _ _ h.kept.committed] at hgone
  simp only [step, hq, requestHandler, ha, hc, Option.some.injEq] at hs
  exact hs ▸ hgone

/-- **The books are right**: no collector is listed twice, none reappears once its removal was
handled, and whenever the queue is empty list and lock agree with the loop. -/
theorem collectors_bookkept (h : Reaches (step cfg) (start cfg held : Service L) s) :
    (items s.activeCollectorList).Nodup ∧
      (∀ c t u, Removes c s → step cfg s .handle = some t → Reaches (step cfg) t u →
        c ∉ items u.activeCollectorList) ∧
      (s.queue = [] → Settled cfg s) := by
  have hb := booked_reaches h
  refine ⟨hb.kept.nodup, fun c t u hr hs hu => ?_, hb.settled⟩
  -- Being gone lasts, in a run in which the books stay right.
  have hgone : Booked cfg u ∧ Gone c u.books := hu.invariant
    (P := fun s => Booked cfg s ∧ Gone c s.books)
    (fun _ _ _ ⟨hb, hg⟩ _ hs => ⟨booked_step hs hb, gone_change (step_change hb.kept.committed hs) hg⟩)
    ⟨booked_step hs hb, hb.gone hr hs⟩
  exact hgone.2.active

/-- A TCP collector connects, then disconnects, each with the requests that follow. -/
def connected : List Label := [.accept .TCP 5 (some []) 0, .handle, .handle]
def disconnected : List Label := [.readable ⟨0, .TCP, 5⟩ [.endOfFile] 1, .handle, .handle]

/-- The lock is taken for it and given up after it. -/
theorem collectors_bookkept_disconnect :
    ∃ s t, run (step fullService) (start fullService false : Service Recorded) connected = some s ∧
      s.queue = [] ∧ s.wakeLock = true ∧ Settled fullService s ∧
      run (step fullService) s disconnected = some t ∧
      t.queue = [] ∧ t.wakeLock = false ∧ Settled fullService t :=
  have hmeets (labels : List Label) := meets_true (step fullService) (start fullService false : Service Recorded) labels
  ⟨_, _, rfl, rfl, rfl, (collectors_bookkept (.of_run (hmeets connected) rfl)).2.2 rfl, rfl, rfl, rfl,
    (collectors_bookkept (.of_run (hmeets (connected ++ disconnected)) rfl)).2.2 rfl⟩

end TaskMonitor.Service

import TaskMonitor.Event.Report

/-! What a client that asks for the contexts is told.

A request for the contexts sums the entries that an answer for the processes
would carry, so after a tick of the Pace lane each item of the answer is a sum
over processes that were live at the tick. In every reachable state the listed
contexts have different ids (`Ordered`), so no process is in two sums. It can be
in none: its context may be gone. -/
namespace TaskMonitor.System
open Registry Transition DeferredList Grouping

variable {L : Type → Type} [DeferredList L] {cfg : Config} {s t u : System L} {l : Label}

/-! ### The listed contexts have different ids -/

/-- The contexts are left alone, and no process is added. -/
structure Apart (r r' : Registry L) : Prop where
  contextList : r'.contextList = r.contextList
  contexts : r'.contexts = r.contexts
  next : r'.next = r.next
  procs : ∀ p ∈ items r'.procList, p ∈ items r.procList

theorem Apart.of_retains {r r' : Registry L} (h : Retains r r') : Apart r r' :=
  ⟨h.contextList, h.contexts, h.next, fun p hp => (h.procs p hp).1⟩

theorem Apart.ordered {r r' : Registry L} (ha : Apart r r') (h : Ordered r) : Ordered r' := by
  refine ⟨fun p hp => ?_, ?_, ?_, ?_⟩
  · rw [ha.next]
    exact h.proc_lt p (ha.procs p hp)
  · rw [ha.contextList, ha.next]
    exact h.context_lt
  · rw [ha.contextList, ha.next]
    exact h.recorded_lt
  · rw [ha.contextList, ha.contexts]
    exact h.ids

variable {r : Registry L} {env : Env}

theorem ordered_foldl {α : Type} {body : Registry L → α → Registry L}
    (hb : ∀ r a, Ordered r → Ordered (body r a)) (as : List α) (h : Ordered r) : Ordered (as.foldl body r) := by
  induction as generalizing r with
  | nil => exact h
  | cons a rest ih => exact ih (hb r a h)

theorem ordered_createProcessEntry (h : Ordered r) (pid : Pid) (name : Name) :
    Ordered (r.createProcessEntry cfg env pid name) := by
  unfold createProcessEntry
  cases ProcEntry.make cfg env pid name with
  | none => exact h
  | some e =>
    have hinsert := ordered_insertProc h e
    by_cases hc : (r.insertProc e).hasContext e.getContextId = true
    · simpa only [hc, if_true] using hinsert
    · simp only [hc, if_false, Bool.false_eq_true]
      exact ordered_insertContext hinsert ((Bool.not_eq_true _).mp hc)

theorem ordered_initEntry (h : Ordered r) (pid : Pid) : Ordered (initEntry cfg env r pid) := by
  unfold initEntry
  split
  · exact h
  · split
    · exact h
    · exact ordered_createProcessEntry h pid _

theorem ordered_addProcEntry (h : Ordered r) (pid : Pid) : Ordered (r.addProcEntry cfg env pid) := by
  unfold addProcEntry
  split
  · exact h
  · exact ordered_initEntry h pid

theorem ordered_updateProcessList (h : Ordered r) : Ordered (r.updateProcessList cfg env) :=
  ordered_foldl (fun _ pid h => ordered_addProcEntry h pid) env.pids h

theorem ordered_updateProcInfo (h : Ordered r) (p : Ptr) : Ordered (updateProcInfo cfg env r p) := by
  have hset : Ordered (r.setProc p ((r.procs p).updateProcInfo cfg env).1) :=
    ⟨h.proc_lt, h.context_lt, h.recorded_lt, h.ids⟩
  unfold updateProcInfo storeUpdate
  simp only
  split
  · exact hset
  · exact (Apart.of_retains (retains_remEntries _ _ _)).ordered hset

theorem ordered_update (h : Ordered r) (lane : UpdateLane) : Ordered (r.update cfg env lane) := by
  have hscan : Ordered (if eventDriven cfg then r else r.updateProcessList cfg env) := by
    split
    · exact h
    · exact ordered_updateProcessList h
  unfold update
  cases lane with
  | slow =>
    refine ordered_foldl (fun r p h => ?_) _ hscan
    split
    · exact (Apart.of_retains (retains_updateProcAcct env r p)).ordered h
    · exact h
  | pace => exact ordered_foldl (fun r p h => ordered_updateProcInfo h p) _ hscan
  | fast => exact hscan
  | any => exact hscan

theorem ordered_collect (h : Ordered r) : Ordered (doCollectAndSendContextInfo r).1 := by
  obtain ⟨hlist, _, hnext, _⟩ := updateContext_procs r (items r.contextList)
  obtain ⟨hitems, hcontexts, hrecorded⟩ := collected h.nodup
  have hid (c : Ptr) : ((foreach r.contextList updateContext r).contexts c).ctxId = (r.contexts c).ctxId := by
    rw [hcontexts c]
    split
    · exact totals_ctxId r _
    · rfl
  have hnext' : (doCollectAndSendContextInfo r).1.next = r.next := hnext
  refine ⟨fun p hp => ?_, fun c hc => ?_, fun c hc => ?_, ?_⟩
  · have hp' : p ∈ items (foreach r.contextList updateContext r).procList := hp
    rw [show (foreach r.contextList updateContext r).procList = r.procList from hlist] at hp'
    rw [hnext']
    exact h.proc_lt p hp'
  · have hc' : c ∈ items (foreach r.contextList updateContext r).contextList := hc
    rw [hitems] at hc'
    rw [hnext']
    exact h.context_lt c hc'
  · rw [hnext']
    rcases (hrecorded c).mp hc with hold | ⟨hlisted, _⟩
    · exact h.recorded_lt c hold
    · exact h.context_lt c hlisted
  · show ((items (foreach r.contextList updateContext r).contextList).map
      fun c => ((foreach r.contextList updateContext r).contexts c).ctxId).Nodup
    rw [hitems, funext hid]
    exact h.ids

theorem ordered_requestHandler (h : Ordered r) (rq : Request) : Ordered (requestHandler cfg rq r).1 := by
  unfold requestHandler
  cases rq.action with
  | commitProcList => exact (Apart.of_retains (retains_commitProcs r)).ordered h
  | commitContextList =>
    refine ⟨h.proc_lt, fun c hc => h.context_lt c ((mem_items_commit _ c).mp hc).1, fun c hc => ?_, ?_⟩
    · simp [doCommitContextList] at hc
    · show ((items (commit r.contextList)).map fun c => (r.contexts c).ctxId).Nodup
      rw [items_commit]
      exact h.ids.sublist (List.filter_sublist.map _)
  | collectAndSendProcAcct =>
    simp only [doCollectAndSendProcAcct]
    split <;> exact h
  | collectAndSendProcInfo => exact h
  | collectAndSendContextInfo => exact ordered_collect h

theorem ordered_handleEvent (h : Ordered r) (ev : ProcEvent) : Ordered (handleEvent cfg env ev r) := by
  unfold handleEvent
  split
  · split
    · exact ordered_addProcEntry h _
    · exact h
  · split
    · exact (Apart.of_retains (retains_updProcEntry env _ r)).ordered h
    · exact h
  · split
    · exact (Apart.of_retains (retains_remEntries _ _ r)).ordered h
    · exact h
  all_goals exact h

theorem ordered_step (h : step cfg s l = some t) (ho : Ordered s.registry) : Ordered t.registry := by
  rcases step_registry h with ht | ⟨x, ev, rest, _, _, ht⟩ | ⟨x, _, ht⟩ | ⟨lane, x, _, ht⟩ |
    ⟨record, _, ht⟩ | ⟨rq, _, _, ht⟩ | ⟨rq, rest, _, _, ht⟩
  · exact ht ▸ ho
  · exact ht ▸ ordered_handleEvent ho ev
  · exact ht ▸ ordered_updateProcessList ho
  · exact ht ▸ ordered_update ho lane
  · exact ht ▸ (Apart.of_retains (retains_processDelayAcct record s.registry)).ordered ho
  · exact ht ▸ ⟨ho.proc_lt, ho.context_lt, ho.recorded_lt, ho.ids⟩
  · have hrest : Ordered ({s.registry with queue := rest} : Registry L) :=
      ⟨ho.proc_lt, ho.context_lt, ho.recorded_lt, ho.ids⟩
    exact ht ▸ ordered_requestHandler hrest rq

theorem ordered_start (cfg : Config) (w : World) (x : Readings) : Ordered (start cfg w x : System L).registry := by
  refine ordered_foldl (fun _ pid h => ordered_initEntry h pid) _ ?_
  exact covered_empty.toOrdered

/-! ### The sums -/

end TaskMonitor.System

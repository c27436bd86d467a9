import TaskMonitor.Lib.Grouping
import TaskMonitor.Registry.Context

/-! What a ContextInfo request answers.

The two traversals of the request group the listed processes by their contexts:
each item holds the sums over one group, whatever the entries held before, and
over all groups the sums are those over all processes. -/
namespace TaskMonitor.Registry
open DeferredList Grouping

variable {L : Type → Type} [DeferredList L] {r : Registry L}

/-- A total of a context entry, what a process adds to it, and the width it wraps at. -/
structure Quantity where
  total : ContextInfoEntry → Nat
  part : ProcInfoEntry → Nat
  width : Nat

def quantities : List Quantity :=
  [⟨fun e => e.totalCpuTime.toNat, fun p => p.cpuTime.toNat, 2 ^ 64⟩,
    ⟨fun e => e.totalCpuPercent.toNat, fun p => p.cpuPercent.toNat, 2 ^ 32⟩,
    ⟨fun e => e.totalMemRss.toNat, fun p => p.memRss.toNat, 2 ^ 64⟩,
    ⟨fun e => e.totalMemPss.toNat, fun p => p.memPss.toNat, 2 ^ 64⟩]

/-- The listed processes. -/
def infos (r : Registry L) : List ProcInfoEntry := (items r.procList).map fun p => (r.procs p).info

/-- The item names the context and totals the processes with its id. -/
structure Totals (r : Registry L) (c e : ContextInfoEntry) : Prop where
  ctxId : e.ctxId = c.ctxId
  ctxName : e.ctxName = c.ctxName
  sums : ∀ q ∈ quantities, q.total e = ((group ProcInfoEntry.ctxId (infos r) c.ctxId).map q.part).sum % q.width

theorem members_eq (r : Registry L) (id : UInt64) : r.members id = group ProcInfoEntry.ctxId (infos r) id :=
  List.filter_congr fun info _ => by simp [beq_eq_decide]

theorem add_quantity : ∀ q ∈ quantities, ∀ c p, q.total (c.add p) = (q.total c + q.part p) % q.width := by
  simp [quantities, ContextInfoEntry.add]

theorem reset_quantity : ∀ q ∈ quantities, 0 < q.width ∧ ∀ c, q.total (ContextInfoEntry.resetData c) = 0 := by
  simp [quantities, ContextInfoEntry.resetData]

theorem totals_spec (r : Registry L) (c : ContextInfoEntry) : Totals r c (r.totals c) where
  ctxId := totals_ctxId r c
  ctxName := totals_ctxName r c
  sums q hq := by
    obtain ⟨hwidth, hreset⟩ := reset_quantity q hq
    rw [totals, foldl_mod (add_quantity q hq) _ (by rw [hreset]; exact hwidth), hreset, Nat.zero_add, members_eq]

/-! ### The order of the processes -/

instance : RightCommutative ContextInfoEntry.add where
  right_comm c p q := by
    simp only [ContextInfoEntry.add, ContextInfoEntry.mk.injEq, true_and]
    exact ⟨add_right_comm .., add_right_comm .., add_right_comm .., add_right_comm ..⟩

/-- Totals do not depend on the order of the processes, nor on what was totalled before. -/
theorem totals_congr {r₂ : Registry L} (hperm : (infos r₂).Perm (infos r)) {c c₂ : ContextInfoEntry}
    (hreset : c₂.resetData = c.resetData) : r₂.totals c₂ = r.totals c := by
  have hid : c₂.resetData.ctxId = c.resetData.ctxId := by rw [hreset]
  change c₂.ctxId = c.ctxId at hid
  rw [totals, totals, hreset, hid, members_eq, members_eq]
  exact (group_perm hperm _).foldl_eq _

theorem resetData_totals (r : Registry L) (c : ContextInfoEntry) : (r.totals c).resetData = c.resetData := by
  simp [ContextInfoEntry.resetData, totals_ctxId, totals_ctxName]

/-! ### The answer -/

theorem answer_eq (hn : (items r.contextList).Nodup) :
    (doCollectAndSendContextInfo r).2 = [.contextInfo ((items r.contextList).map fun c => r.totals (r.contexts c))] := by
  show [Data.contextInfo (contextInfo (foreach r.contextList updateContext r))] = _
  rw [contextInfo_collect hn]

/-- Requests are answered alike over the same processes, in any order, and contexts that differ in their totals only. -/
theorem answer_congr {r₂ : Registry L} (hperm : (infos r₂).Perm (infos r)) (hn : (items r₂.contextList).Nodup)
    (hreset : ∀ c ∈ items r₂.contextList, (r₂.contexts c).resetData = (r.contexts c).resetData) :
    (doCollectAndSendContextInfo r₂).2 =
      [.contextInfo ((items r₂.contextList).map fun c => r.totals (r.contexts c))] := by
  rw [answer_eq hn]
  exact congrArg (fun es => [Data.contextInfo es])
    (List.map_congr_left fun c hmem => totals_congr hperm (hreset c hmem))

/-- What a request leaves alone: the processes, the list of contexts, and all of a context but its totals. -/
structure Untouched (r s : Registry L) : Prop where
  procs : s.procs = r.procs
  procList : s.procList = r.procList
  items : items s.contextList = items r.contextList
  reset : ∀ c ∈ DeferredList.items r.contextList, (s.contexts c).resetData = (r.contexts c).resetData

theorem untouched_collect (hn : (items r.contextList).Nodup) : Untouched r (doCollectAndSendContextInfo r).1 := by
  obtain ⟨hlist, hprocs, _⟩ := updateContext_procs r (items r.contextList)
  obtain ⟨hitems, hcontexts, _⟩ := collected hn
  refine ⟨hprocs, hlist, hitems, fun c hmem => ?_⟩
  show ((foreach r.contextList updateContext r).contexts c).resetData = _
  rw [hcontexts c, if_pos hmem, resetData_totals]

theorem Untouched.infos {s : Registry L} (h : Untouched r s) : infos s = infos r := by
  rw [Registry.infos, Registry.infos, h.procs, h.procList]

/-- A second request is answered as the first. -/
theorem answer_again (hn : (items r.contextList).Nodup) :
    (doCollectAndSendContextInfo (doCollectAndSendContextInfo r).1).2 = (doCollectAndSendContextInfo r).2 := by
  have hsame := untouched_collect hn
  rw [answer_congr (.of_eq hsame.infos) (hsame.items ▸ hn) fun c hmem => hsame.reset c (hsame.items ▸ hmem),
    answer_eq hn, hsame.items]

/-- After the commit, the contexts that are left are answered as before. -/
theorem answer_committed (hn : (items r.contextList).Nodup) :
    (doCollectAndSendContextInfo (doCommitContextList (doCollectAndSendContextInfo r).1).1).2 =
      [.contextInfo (((items r.contextList).filter
        fun c => decide (c ∉ recorded (doCollectAndSendContextInfo r).1.contextList)).map
          fun c => r.totals (r.contexts c))] := by
  have hsame := untouched_collect hn
  have hleft : items (doCommitContextList (doCollectAndSendContextInfo r).1).1.contextList =
      (items r.contextList).filter fun c => decide (c ∉ recorded (doCollectAndSendContextInfo r).1.contextList) := by
    rw [← hsame.items]
    exact items_commit _
  have hagain : (doCollectAndSendContextInfo (doCommitContextList (doCollectAndSendContextInfo r).1).1).2 =
      [.contextInfo ((items (doCommitContextList (doCollectAndSendContextInfo r).1).1.contextList).map
        fun c => r.totals (r.contexts c))] :=
    answer_congr (.of_eq hsame.infos) (hleft ▸ hn.filter _)
      fun c hmem => hsame.reset c (List.mem_of_mem_filter (hleft ▸ hmem))
  rw [hagain, hleft]

/-- The totals over the items are the totals over the processes, where every process has an item. -/
theorem sum_items {cs : List ContextInfoEntry} (hids : (cs.map ContextInfoEntry.ctxId).Nodup)
    (hcover : ∀ info ∈ infos r, info.ctxId ∈ cs.map ContextInfoEntry.ctxId) :
    ∀ q ∈ quantities, (cs.map fun c => q.total (r.totals c)).sum % q.width =
      ((infos r).map q.part).sum % q.width := by
  intro q hq
  have hsums : (cs.map fun c => q.total (r.totals c)) = (((cs.map ContextInfoEntry.ctxId).map fun id =>
      ((group ProcInfoEntry.ctxId (infos r) id).map q.part).sum).map fun n => n % q.width) := by
    rw [List.map_map, List.map_map]
    exact List.map_congr_left fun c _ => (totals_spec r c).sums q hq
  rw [hsums, sum_mod, sum_groups hids hcover]

/-- So they are over the contexts that are listed. -/
theorem sum_listed (hids : ((items r.contextList).map fun c => (r.contexts c).ctxId).Nodup)
    (hcover : ∀ p ∈ items r.procList, ∃ c ∈ items r.contextList, (r.contexts c).ctxId = (r.procs p).getContextId)
    {q : Quantity} (hq : q ∈ quantities) :
    (((items r.contextList).map fun c => r.totals (r.contexts c)).map q.total).sum % q.width =
      ((infos r).map q.part).sum % q.width := by
  have hmap : ((items r.contextList).map r.contexts).map ContextInfoEntry.ctxId =
      (items r.contextList).map fun c => (r.contexts c).ctxId := List.map_map
  have hlisted : ∀ info ∈ infos r, info.ctxId ∈ ((items r.contextList).map r.contexts).map ContextInfoEntry.ctxId := by
    intro info hinfo
    obtain ⟨p, hmem, rfl⟩ := List.mem_map.mp hinfo
    obtain ⟨c, hcmem, hid⟩ := hcover p hmem
    rw [hmap]
    exact List.mem_map.mpr ⟨c, hcmem, hid⟩
  have hsum := sum_items (hmap ▸ hids) hlisted q hq
  rw [List.map_map] at hsum
  rw [List.map_map]
  exact hsum

/-- What a ContextInfo request answers and leaves behind: the processes grouped by their contexts, and summed. -/
structure GroupedBySum (r : Registry L) : Prop where
  /-- One item for each context entry. -/
  items : ∃ es, (doCollectAndSendContextInfo r).2 = [.contextInfo es] ∧
    List.Forall₂ (fun c e => Totals r (r.contexts c) e) (items r.contextList) es
  /-- The order of the process list does not matter. -/
  order : ∀ r₂ : Registry L, (DeferredList.items r₂.procList).Perm (DeferredList.items r.procList) →
    r₂.procs = r.procs → r₂.contextList = r.contextList → r₂.contexts = r.contexts →
    (doCollectAndSendContextInfo r₂).2 = (doCollectAndSendContextInfo r).2
  /-- A second request is answered as the first. -/
  again : (doCollectAndSendContextInfo (doCollectAndSendContextInfo r).1).2 = (doCollectAndSendContextInfo r).2
  /-- So it is after the commit, but for the contexts that are gone. -/
  committed : (doCollectAndSendContextInfo (doCommitContextList (doCollectAndSendContextInfo r).1).1).2 =
    [.contextInfo (((DeferredList.items r.contextList).filter
      fun c => decide (c ∉ recorded (doCollectAndSendContextInfo r).1.contextList)).map
        fun c => r.totals (r.contexts c))]
  procs : (doCollectAndSendContextInfo r).1.procs = r.procs ∧
    (doCollectAndSendContextInfo r).1.procList = r.procList
  removed : ∀ c, c ∈ recorded (doCollectAndSendContextInfo r).1.contextList ↔
    c ∈ recorded r.contextList ∨ c ∈ DeferredList.items r.contextList ∧
      ∀ p ∈ DeferredList.items r.procList, (r.procs p).getContextId ≠ (r.contexts c).ctxId
  /-- Where every process has its context listed, nothing is left out of the totals. -/
  all : (∀ p ∈ DeferredList.items r.procList, ∃ c ∈ DeferredList.items r.contextList,
      (r.contexts c).ctxId = (r.procs p).getContextId) →
    ∀ es, (doCollectAndSendContextInfo r).2 = [.contextInfo es] → ∀ q ∈ quantities,
      (es.map q.total).sum % q.width = ((infos r).map q.part).sum % q.width

theorem members_nil_iff (r : Registry L) (id : UInt64) :
    r.members id = [] ↔ ∀ p ∈ items r.procList, (r.procs p).getContextId ≠ id := by
  rw [members_eq, group, List.filter_eq_nil_iff, infos, List.forall_mem_map]
  simp [ProcEntry.getContextId, eq_comm]

/-- **ContextInfo is a sum over groups**, for every list of processes and of contexts with distinct ids. -/
theorem contextInfo_groupedBySum (r : Registry L)
    (hids : ((items r.contextList).map fun c => (r.contexts c).ctxId).Nodup) : GroupedBySum r := by
  have hn : (items r.contextList).Nodup := List.Nodup.of_map _ hids
  have hanswer := answer_eq hn
  have hsame := untouched_collect hn
  constructor
  · refine ⟨_, hanswer, ?_⟩
    rw [List.forall₂_map_right_iff]
    exact List.forall₂_same.mpr fun c _ => totals_spec r (r.contexts c)
  · intro r₂ hperm hprocs hlist hctx
    have hinfos : (infos r₂).Perm (infos r) := by
      rw [infos, infos, hprocs]
      exact hperm.map _
    rw [hanswer, answer_congr hinfos (hlist ▸ hn) fun c _ => by rw [hctx], hlist]
  · exact answer_again hn
  · exact answer_committed hn
  · exact ⟨hsame.procs, hsame.procList⟩
  · intro c
    rw [← members_nil_iff]
    exact (collected hn).recorded c
  · intro hcover es hes q hq
    obtain rfl := Data.contextInfo.inj (List.singleton_inj.mp (hanswer.symm.trans hes))
    exact sum_listed hids hcover hq

/-- Two processes of one context, and a context without any. -/
def twoContexts : Registry Recorded where
  procList := ⟨[0, 1], []⟩
  contextList := ⟨[2, 3], []⟩
  procs := fun p => {pid := p, info := {ctxId := 2, cpuTime := 5, memRss := 7}}
  contexts := fun c => {ctxId := UInt64.ofNat c, totalCpuTime := 100}
  next := 4
  queue := []

theorem groupedBySum_twoContexts : GroupedBySum twoContexts := contextInfo_groupedBySum twoContexts (by decide)

end TaskMonitor.Registry

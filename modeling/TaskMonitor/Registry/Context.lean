import TaskMonitor.Lib.Transition
import TaskMonitor.Registry.Slots

/-! Every listed process has its context listed.

A ContextInfo request records every context without processes for removal, and
asks for the commit. Until that comes the context is still found, so a process
created into it gets no other, and stays without one after the commit. Neither is
one made for a process whose context is looked up again. `Covered` is what holds
as long as no process joins such a context. -/
namespace TaskMonitor.Registry
open DeferredList Transition

variable {L : Type → Type} [DeferredList L] {cfg : Config} {r r' : Registry L}

/-! ### Operations -/

/-- What runs between two requests, and the requests themselves. -/
inductive Op where
  | createProcessEntry (env : Env) (pid : Pid) (name : Name)
  | updProcEntry (env : Env) (pid : Pid)
  /-- `remProcEntry` by pid or by name. -/
  | remEntries (which : ProcEntry → Bool) (sync : Bool)
  | updateProcInfo (env : Env) (p : Ptr)
  | updateProcAcct (env : Env) (p : Ptr)
  | processDelayAcct (t : Taskstats)
  | collect (rq : Request)
  | dispatch

def operate (cfg : Config) (r : Registry L) : Op → Option (Registry L)
  | .createProcessEntry env pid name => some (r.createProcessEntry cfg env pid name)
  | .updProcEntry env pid => some (r.updProcEntry cfg env pid)
  | .remEntries which sync => some (r.remEntries which sync)
  | .updateProcInfo env p => if p ∈ items r.procList then some (updateProcInfo cfg env r p) else none
  | .updateProcAcct env p => if p ∈ items r.procList then some (updateProcAcct env r p) else none
  | .processDelayAcct t => some (r.processDelayAcct t)
  | .collect rq =>
    match rq.action with
    | .commitProcList | .commitContextList => none
    | _ => some (r.pushRequest rq)
  | .dispatch => (r.dispatch cfg).map Prod.fst

/-- The infos of the listed processes of a context. -/
def members (r : Registry L) (id : UInt64) : List ProcInfoEntry :=
  ((items r.procList).map fun p => (r.procs p).info).filter fun info => id == info.ctxId

/-- How often the context of an id is listed. -/
def listings (r : Registry L) (id : UInt64) : Nat :=
  ((items r.contextList).filter fun c => decide ((r.contexts c).ctxId = id)).length

/-- Every listed process has its context listed exactly once, and is counted in exactly one item
of an answer to a ContextInfo request, which totals the processes of its context. -/
structure Counted (r : Registry L) : Prop where
  once : ∀ p ∈ items r.procList, r.listings (r.procs p).getContextId = 1
  answer : ∃ es, (doCollectAndSendContextInfo r).2 = [.contextInfo es] ∧
    (∀ e ∈ es, ∃ c ∈ items r.contextList, e.ctxId = (r.contexts c).ctxId ∧
      e = (r.members e.ctxId).foldl .add (r.contexts c).resetData) ∧
    ∀ p ∈ items r.procList, (es.filter fun e => decide (e.ctxId = (r.procs p).getContextId)).length = 1

/-! ### The invariant -/

/-- The context of the id is listed, and its removal is not recorded. -/
def Standing (r : Registry L) (id : UInt64) : Prop :=
  ∃ c ∈ items r.contextList, c ∉ recorded r.contextList ∧ (r.contexts c).ctxId = id

/-- Pointers in use are below the next one, and no two listed contexts share an id. -/
structure Ordered (r : Registry L) : Prop where
  proc_lt : ∀ p ∈ items r.procList, p < r.next
  context_lt : ∀ c ∈ items r.contextList, c < r.next
  recorded_lt : ∀ c ∈ recorded r.contextList, c < r.next
  ids : ((items r.contextList).map fun c => (r.contexts c).ctxId).Nodup

/-- The context of every listed process stands. -/
structure Covered (r : Registry L) : Prop extends Ordered r where
  covers : ∀ p ∈ items r.procList, Standing r (r.procs p).getContextId

/-- The context id a new entry of the pid gets. -/
def newContextId (cfg : Config) (env : Env) (pid : Pid) : UInt64 :=
  if cfg.root then env.contextId pid else 0

/-- No process that can be read is created into a context whose removal is recorded, and none is
found, when its context is looked up again, in another that is not listed or to be removed. -/
def JoinsStanding (cfg : Config) (r : Registry L) : Op → Prop
  | .createProcessEntry env pid _ => (env.files pid).stat.isSome = true → ∀ c ∈ items r.contextList,
      (r.contexts c).ctxId = newContextId cfg env pid → c ∉ recorded r.contextList
  | .updateProcInfo env p => (r.procs p).resolvesAgain cfg = true →
      env.contextId (r.procs p).pid = (r.procs p).getContextId ∨
        Standing r (env.contextId (r.procs p).pid)
  | _ => True

theorem covered_empty : Covered (empty : Registry L) := by
  refine ⟨⟨?_, ?_, ?_, ?_⟩, ?_⟩ <;> simp [empty]

/-- What leaves the contexts alone, lists no new process and moves none covers still. -/
theorem Covered.congr (h : Covered r) (hprocs : ∀ p ∈ items r'.procList, p ∈ items r.procList ∧
      Standing r (r'.procs p).getContextId)
    (hlist : r'.contextList = r.contextList) (hctx : r'.contexts = r.contexts)
    (hnext : r.next ≤ r'.next) : Covered r' := by
  refine ⟨⟨fun p hp => (h.proc_lt p (hprocs p hp).1).trans_le hnext, ?_, ?_, ?_⟩, fun p hp => ?_⟩
  · rw [hlist]
    exact fun c hc => (h.context_lt c hc).trans_le hnext
  · rw [hlist]
    exact fun c hc => (h.recorded_lt c hc).trans_le hnext
  · rw [hlist, hctx]
    exact h.ids
  · unfold Standing
    rw [hlist, hctx]
    exact (hprocs p hp).2

theorem Ordered.nodup (h : Ordered r) : (items r.contextList).Nodup := List.Nodup.of_map _ h.ids

/-! ### A ContextInfo request -/

omit [DeferredList L] in
theorem foldl_collect (r : Registry L) (ps : List Ptr) (c : ContextInfoEntry) (found : Bool) :
    ps.foldl (fun (acc : ContextInfoEntry × Bool) p =>
        if acc.1.ctxId == (r.procs p).getContextId then (acc.1.add (r.procs p).info, true) else acc)
      (c, found) =
    (((ps.map fun p => (r.procs p).info).filter fun info => c.ctxId == info.ctxId).foldl .add c,
      found || !((ps.map fun p => (r.procs p).info).filter fun info => c.ctxId == info.ctxId).isEmpty) := by
  induction ps generalizing c found with
  | nil => simp
  | cons p rest ih =>
    by_cases hp : c.ctxId = (r.procs p).info.ctxId
    · have hbeq : (c.ctxId == (r.procs p).getContextId) = true := by simpa [ProcEntry.getContextId] using hp
      rw [List.foldl_cons, if_pos hbeq, ih, show (c.add (r.procs p).info).ctxId = c.ctxId from rfl]
      simp [hp]
    · have hbeq : ¬(c.ctxId == (r.procs p).getContextId) = true := by simpa [ProcEntry.getContextId] using hp
      rw [List.foldl_cons, if_neg hbeq, ih]
      simp [hp]

/-- The totals of a context are over its members. -/
theorem collectContext_eq (r : Registry L) (c : ContextInfoEntry) :
    r.collectContext c = ((r.members c.ctxId).foldl .add c.resetData, !(r.members c.ctxId).isEmpty) := by
  rw [collectContext, foreach, foldl_collect, Bool.false_or]
  rfl

/-- Totals leave a context its id and its name. -/
theorem foldl_add (infos : List ProcInfoEntry) (c : ContextInfoEntry) :
    (infos.foldl ContextInfoEntry.add c).ctxId = c.ctxId ∧
      (infos.foldl ContextInfoEntry.add c).ctxName = c.ctxName := by
  induction infos generalizing c with
  | nil => exact ⟨rfl, rfl⟩
  | cons info rest ih => exact ih (c.add info)

/-- The context with the totals of its members. -/
def totals (r : Registry L) (c : ContextInfoEntry) : ContextInfoEntry :=
  (r.members c.ctxId).foldl .add c.resetData

theorem totals_ctxId (r : Registry L) (c : ContextInfoEntry) : (r.totals c).ctxId = c.ctxId :=
  (foldl_add _ _).1

theorem totals_ctxName (r : Registry L) (c : ContextInfoEntry) : (r.totals c).ctxName = c.ctxName :=
  (foldl_add _ _).2

theorem members_congr (hlist : r'.procList = r.procList) (hprocs : r'.procs = r.procs) (id : UInt64) :
    r'.members id = r.members id := by
  rw [members, members, hlist, hprocs]

/-- What the traversal of a ContextInfo request does to the contexts. -/
structure Collected (r r' : Registry L) (cs : List Ptr) : Prop where
  items : items r'.contextList = items r.contextList
  contexts : ∀ c, r'.contexts c = if c ∈ cs then r.totals (r.contexts c) else r.contexts c
  recorded : ∀ c, c ∈ recorded r'.contextList ↔
    c ∈ recorded r.contextList ∨ (c ∈ cs ∧ r.members (r.contexts c).ctxId = [])

theorem collected_one (r : Registry L) (c : Ptr) : Collected r (updateContext r c) [c] := by
  have heq := collectContext_eq r (r.contexts c)
  unfold updateContext
  rw [heq]
  by_cases hm : r.members (r.contexts c).ctxId = []
  · simp only [hm, List.isEmpty_nil, Bool.not_true, if_false, Bool.false_eq_true]
    refine ⟨?_, fun d => ?_, fun d => ?_⟩
    · simp [setContext]
    · by_cases hd : d = c
      · subst hd
        simp [setContext, totals, hm]
      · simp [setContext, hd]
    · by_cases hd : d = c
      · subst hd
        simp [setContext, hm]
      · simp [setContext, hd]
  · simp only [List.isEmpty_eq_false_iff.mpr hm, Bool.not_false, if_true]
    refine ⟨rfl, fun d => ?_, fun d => ?_⟩
    · by_cases hd : d = c
      · subst hd
        simp [setContext, totals]
      · simp [setContext, hd]
    · by_cases hd : d = c
      · subst hd
        simp [setContext, hm]
      · simp [setContext, hd]

theorem collected_foldl (cs : List Ptr) (hn : cs.Nodup) (r : Registry L) :
    Collected r (cs.foldl updateContext r) cs := by
  induction cs generalizing r with
  | nil => exact ⟨rfl, fun c => by simp, fun c => by simp⟩
  | cons c rest ih =>
    rw [List.nodup_cons] at hn
    obtain ⟨hi, hc, hr⟩ := collected_one r c
    obtain ⟨hi', hc', hr'⟩ := ih hn.2 (updateContext r c)
    obtain ⟨hl, hp, _⟩ := updateContext_procs r [c]
    have hmem (id : UInt64) : (updateContext r c).members id = r.members id := members_congr hl hp id
    have hother (d : Ptr) (hd : d ∈ rest) : d ≠ c := fun he => hn.1 (he ▸ hd)
    refine ⟨hi'.trans hi, fun d => ?_, fun d => ?_⟩
    · rw [List.foldl_cons, hc' d, hc d]
      by_cases hd : d ∈ rest
      · simp [hd, hother d hd, totals, hmem]
      · simp [hd]
    · rw [List.foldl_cons, hr' d, hr d, hc d, hmem]
      by_cases hd : d ∈ rest
      · simp [hd, hother d hd]
      · simp [hd]

theorem collected (hn : (items r.contextList).Nodup) :
    Collected r (foreach r.contextList updateContext r) (items r.contextList) :=
  collected_foldl _ hn r

/-- The member of a listed process stands in the way of a removal of its context. -/
theorem members_ne_nil {p : Ptr} (hp : p ∈ items r.procList) : r.members (r.procs p).getContextId ≠ [] := by
  have hm : (r.procs p).info ∈ r.members (r.procs p).getContextId :=
    List.mem_filter.mpr ⟨List.mem_map_of_mem hp, by simp [ProcEntry.getContextId]⟩
  exact List.ne_nil_of_mem hm

theorem covered_collect (h : Covered r) : Covered (doCollectAndSendContextInfo r).1 := by
  obtain ⟨hl, hp, hn, _⟩ := updateContext_procs r (items r.contextList)
  obtain ⟨hi, hc, hr⟩ := collected h.nodup
  have hid (c : Ptr) : ((foreach r.contextList updateContext r).contexts c).ctxId = (r.contexts c).ctxId := by
    rw [hc c]
    split
    · exact totals_ctxId r _
    · rfl
  refine ⟨⟨?_, ?_, fun c hrec => ?_, ?_⟩, fun p hp' => ?_⟩
  · show ∀ p ∈ items (foreach r.contextList updateContext r).procList, _
    rw [show (foreach r.contextList updateContext r).procList = r.procList from hl]
    exact fun p hp' => (h.proc_lt p hp').trans_le hn.ge
  · show ∀ c ∈ items (foreach r.contextList updateContext r).contextList, _
    rw [hi]
    exact fun c hc' => (h.context_lt c hc').trans_le hn.ge
  · rcases (hr c).mp hrec with hold | ⟨hm, _⟩
    · exact (h.recorded_lt c hold).trans_le hn.ge
    · exact (h.context_lt c hm).trans_le hn.ge
  · show ((items (foreach r.contextList updateContext r).contextList).map
      fun c => ((foreach r.contextList updateContext r).contexts c).ctxId).Nodup
    rw [hi, funext hid]
    exact h.ids
  · have hmem : p ∈ items r.procList := by
      rw [← hl]
      exact hp'
    obtain ⟨c, hlisted, hstays, hctx⟩ := h.covers p hmem
    have hprocs : (foreach r.contextList updateContext r).procs = r.procs := hp
    refine ⟨c, ?_, fun hrec => ?_, ?_⟩
    · show c ∈ items (foreach r.contextList updateContext r).contextList
      rwa [hi]
    · rcases (hr c).mp hrec with hold | ⟨_, hnone⟩
      · exact hstays hold
      · rw [hctx] at hnone
        exact members_ne_nil hmem hnone
    · show ((foreach r.contextList updateContext r).contexts c).ctxId =
        ((foreach r.contextList updateContext r).procs p).getContextId
      rw [hid, hprocs, hctx]

/-! ### The other operations -/

theorem hasContext_false {id : UInt64} (h : r.hasContext id = false) :
    id ∉ (items r.contextList).map fun c => (r.contexts c).ctxId := by
  intro hm
  obtain ⟨c, hc, rfl⟩ := List.mem_map.mp hm
  have : r.hasContext (r.contexts c).ctxId = true :=
    List.any_eq_true.mpr ⟨c, hc, by simp⟩
  rw [this] at h
  cases h

theorem mem_insertProc {e : ProcEntry} {p : Ptr} (hp : p ∈ items (r.insertProc e).procList) :
    p ∈ items r.procList ∨ p = r.next := by
  simpa [insertProc] using hp

theorem mem_insertContext {c : ContextInfoEntry} {d : Ptr} (hd : d ∈ items (r.insertContext c).contextList) :
    d ∈ items r.contextList ∨ d = r.next := by
  simpa [insertContext] using hd

theorem ordered_insertProc (h : Ordered r) (e : ProcEntry) : Ordered (r.insertProc e) := by
  refine ⟨fun p hp => ?_, fun c hc => Nat.lt_succ_of_lt (h.context_lt c hc),
    fun c hc => Nat.lt_succ_of_lt (h.recorded_lt c hc), h.ids⟩
  rcases mem_insertProc hp with hp | rfl
  · exact Nat.lt_succ_of_lt (h.proc_lt p hp)
  · exact Nat.lt_succ_self _

theorem contexts_insertContext (h : Ordered r) (c : ContextInfoEntry) {d : Ptr} (hd : d ∈ items r.contextList) :
    (r.insertContext c).contexts d = r.contexts d := by
  have hne : d ≠ r.next := Nat.ne_of_lt (h.context_lt d hd)
  simp [insertContext, hne]

theorem ordered_insertContext (h : Ordered r) {c : ContextInfoEntry} (hnew : r.hasContext c.ctxId = false) :
    Ordered (r.insertContext c) := by
  refine ⟨fun p hp => Nat.lt_succ_of_lt (h.proc_lt p hp), fun d hd => ?_, fun d hd => ?_, ?_⟩
  · rcases mem_insertContext hd with hd | rfl
    · exact Nat.lt_succ_of_lt (h.context_lt d hd)
    · exact Nat.lt_succ_self _
  · simp only [insertContext, recorded_append] at hd
    exact Nat.lt_succ_of_lt (h.recorded_lt d hd)
  · have hids : ((items (r.insertContext c).contextList).map fun d => ((r.insertContext c).contexts d).ctxId) =
        ((items r.contextList).map fun d => (r.contexts d).ctxId) ++ [c.ctxId] := by
      rw [show items (r.insertContext c).contextList = items r.contextList ++ [r.next] from items_append _ _,
        List.map_append, List.map_congr_left fun d hd => congrArg _ (contexts_insertContext h c hd)]
      simp [insertContext]
    rw [hids]
    exact List.Nodup.append h.ids (List.nodup_singleton _)
      (List.disjoint_singleton.mpr (hasContext_false hnew))

theorem standing_insertContext (h : Ordered r) {c : ContextInfoEntry} {id : UInt64} (hs : Standing r id) :
    Standing (r.insertContext c) id := by
  obtain ⟨d, hd, hstays, hid⟩ := hs
  refine ⟨d, by simp [insertContext, hd], by simpa [insertContext] using hstays, ?_⟩
  rw [contexts_insertContext h c hd]
  exact hid

/-- A new context stands. -/
theorem standing_new (h : Ordered r) (c : ContextInfoEntry) : Standing (r.insertContext c) c.ctxId := by
  have hfresh : r.next ∉ recorded r.contextList := fun hm => Nat.lt_irrefl _ (h.recorded_lt _ hm)
  exact ⟨r.next, by simp [insertContext], by simpa [insertContext] using hfresh, by simp [insertContext]⟩

theorem make_contextId {env : Env} {pid : Pid} {name : Name} {e : ProcEntry}
    (h : ProcEntry.make cfg env pid name = some e) : e.getContextId = newContextId cfg env pid :=
  (ProcEntry.make_spec h).2.2.2

/-- The processes after an insertion: the old ones, whose contexts stand, and the new one. -/
theorem Covered.insertProc (h : Covered r) {e : ProcEntry} {p : Ptr}
    (hp : p ∈ items (r.insertProc e).procList) :
    ((r.insertProc e).procs p = e) ∨ Standing r ((r.insertProc e).procs p).getContextId := by
  rcases mem_insertProc hp with hp | rfl
  · have hne : p ≠ r.next := Nat.ne_of_lt (h.proc_lt p hp)
    have hold : (r.insertProc e).procs p = r.procs p := by simp [Registry.insertProc, hne]
    rw [hold]
    exact .inr (h.covers p hp)
  · exact .inl (by simp [Registry.insertProc])

theorem covered_createProcessEntry (h : Covered r) {env : Env} {pid : Pid} {name : Name}
    (hj : JoinsStanding cfg r (.createProcessEntry env pid name)) :
    Covered (r.createProcessEntry cfg env pid name) := by
  unfold createProcessEntry
  cases hm : ProcEntry.make cfg env pid name with
  | none => exact h
  | some e =>
    have hstat : (env.files pid).stat.isSome = true := by
      rw [← ProcEntry.make_isSome, hm]
      rfl
    have hord := ordered_insertProc h.toOrdered e
    have hid := make_contextId hm
    by_cases hc : (r.insertProc e).hasContext e.getContextId = true
    · simp only [hc, if_true]
      refine ⟨hord, fun p hp => ?_⟩
      rcases h.insertProc hp with he | hs
      · obtain ⟨c, hlisted, hctx⟩ := List.any_eq_true.mp hc
        have hctx : e.getContextId = ((r.insertProc e).contexts c).ctxId := by simpa using hctx
        rw [he]
        exact ⟨c, hlisted, hj hstat c hlisted (hctx.symm.trans hid), hctx.symm⟩
      · exact hs
    · simp only [hc, if_false, Bool.false_eq_true]
      have hnew : (r.insertProc e).hasContext (ContextInfoEntry.make e.info.ctxId e.info.ctxName).ctxId = false :=
        (Bool.not_eq_true _).mp hc
      refine ⟨ordered_insertContext hord hnew, fun p hp => ?_⟩
      rcases h.insertProc hp with he | hs
      · show Standing _ ((r.insertProc e).procs p).getContextId
        rw [he]
        exact standing_new hord _
      · exact standing_insertContext hord hs

/-- The contexts are left alone, no process is added, and those still listed keep their contexts. -/
structure Frame (r r' : Registry L) : Prop where
  contextList : r'.contextList = r.contextList
  contexts : r'.contexts = r.contexts
  next : r'.next = r.next
  procs : ∀ p ∈ items r'.procList, p ∈ items r.procList ∧
    (r'.procs p).getContextId = (r.procs p).getContextId

theorem Frame.covered (hf : Frame r r') (h : Covered r) : Covered r' := by
  refine h.congr (fun p hp => ?_) hf.contextList hf.contexts hf.next.ge
  obtain ⟨hp', hid⟩ := hf.procs p hp
  rw [hid]
  exact ⟨hp', h.covers p hp'⟩

/-- The process of an entry, and its context by id and name. -/
def membership (e : ProcEntry) : Pid × UInt64 × Name := (e.pid, e.info.ctxId, e.info.ctxName)

/-- A frame in which those still listed also keep the names of their contexts. -/
structure Retains (r r' : Registry L) : Prop where
  contextList : r'.contextList = r.contextList
  contexts : r'.contexts = r.contexts
  next : r'.next = r.next
  procs : ∀ p ∈ items r'.procList, p ∈ items r.procList ∧ membership (r'.procs p) = membership (r.procs p)

theorem Retains.refl (r : Registry L) : Retains r r := ⟨rfl, rfl, rfl, fun _ hp => ⟨hp, rfl⟩⟩

theorem Retains.trans {r'' : Registry L} (h : Retains r r') (h' : Retains r' r'') : Retains r r'' := by
  refine ⟨h'.contextList.trans h.contextList, h'.contexts.trans h.contexts, h'.next.trans h.next,
    fun p hp => ?_⟩
  obtain ⟨hp', hmember⟩ := h'.procs p hp
  exact ⟨(h.procs p hp').1, hmember.trans (h.procs p hp').2⟩

theorem Retains.frame (h : Retains r r') : Frame r r' := by
  refine ⟨h.contextList, h.contexts, h.next, fun p hp => ?_⟩
  obtain ⟨hp', hmember⟩ := h.procs p hp
  exact ⟨hp', congrArg (fun m : Pid × UInt64 × Name => m.2.1) hmember⟩

theorem retains_foldl {body : Registry L → Ptr → Registry L} (hb : ∀ r p, Retains r (body r p)) (ps : List Ptr)
    (r : Registry L) : Retains r (ps.foldl body r) := by
  induction ps generalizing r with
  | nil => exact .refl r
  | cons p rest ih => exact (hb r p).trans (ih (body r p))

theorem retains_condemn (r : Registry L) (p : Ptr) : Retains r (r.condemn p) :=
  ⟨rfl, rfl, rfl, fun q hq => ⟨by simpa [condemn] using hq, rfl⟩⟩

theorem retains_commitProcs (r : Registry L) : Retains r r.commitProcs :=
  ⟨rfl, rfl, rfl, fun p hp => ⟨((mem_items_commit _ p).mp hp).1, rfl⟩⟩

theorem retains_setProc (r : Registry L) (p : Ptr) {e : ProcEntry}
    (he : membership e = membership (r.procs p)) : Retains r (r.setProc p e) := by
  refine ⟨rfl, rfl, rfl, fun q hq => ⟨hq, ?_⟩⟩
  by_cases hqp : q = p
  · subst hqp
    simpa [setProc] using he
  · simp [setProc, hqp]

theorem retains_remEntries (which : ProcEntry → Bool) (sync : Bool) (r : Registry L) :
    Retains r (r.remEntries which sync) := by
  have hmark : Retains r (foreach r.procList (fun r p => if which (r.procs p) then r.condemn p else r) r) := by
    refine retains_foldl (fun r p => ?_) _ r
    split
    · exact retains_condemn r p
    · exact .refl r
  cases sync with
  | true => exact hmark.trans (retains_commitProcs _)
  | false => exact hmark.trans ⟨rfl, rfl, rfl, fun _ hp => ⟨hp, rfl⟩⟩

theorem retains_updName (env : Env) (pid : Pid) (r : Registry L) (p : Ptr) :
    Retains r (updName cfg env pid r p) := by
  unfold updName
  repeat' split
  · exact .refl r
  · exact .refl r
  · exact retains_condemn r p
  · exact retains_setProc r p rfl
  · exact .refl r

theorem retains_updProcEntry (env : Env) (pid : Pid) (r : Registry L) : Retains r (r.updProcEntry cfg env pid) :=
  (retains_foldl (retains_updName env pid) _ r).trans (retains_commitProcs _)

theorem retains_updateProcAcct (env : Env) (r : Registry L) (p : Ptr) : Retains r (updateProcAcct env r p) := by
  obtain ⟨hpid, hinfo⟩ := ProcEntry.updateProcAcct_info env (r.procs p)
  have hset := retains_setProc r p (e := ((r.procs p).updateProcAcct env).1) (by simp only [membership, hpid, hinfo])
  unfold updateProcAcct storeUpdate
  simp only
  split
  · exact hset
  · exact hset.trans (retains_remEntries _ _ _)

theorem retains_processDelayAcct (t : Taskstats) (r : Registry L) : Retains r (r.processDelayAcct t) := by
  unfold processDelayAcct
  split
  · exact .refl r
  · exact retains_setProc r _ rfl

theorem covered_updateProcInfo (h : Covered r) {env : Env} {p : Ptr} (hp : p ∈ items r.procList)
    (hj : JoinsStanding cfg r (.updateProcInfo env p)) : Covered (updateProcInfo cfg env r p) := by
  have hset : Covered (r.setProc p ((r.procs p).updateProcInfo cfg env).1) := by
    refine h.congr (fun q hq => ⟨hq, ?_⟩) rfl rfl (Nat.le_refl _)
    by_cases hqp : q = p
    · subst hqp
      simp only [setProc, Function.update_self]
      rcases (ProcEntry.updateProcInfo_spec cfg env (r.procs q)).context with ⟨hid, _⟩ | ⟨hagain, hid⟩
      · rw [ProcEntry.getContextId, hid]
        exact h.covers q hp
      · rw [ProcEntry.getContextId, hid]
        rcases hj hagain with hsame | hs
        · rw [hsame]
          exact h.covers q hp
        · exact hs
    · simpa [setProc, hqp] using h.covers q hq
  unfold updateProcInfo storeUpdate
  simp only
  split
  · exact hset
  · exact (retains_remEntries _ _ _).frame.covered hset

theorem covered_requestHandler (h : Covered r) (rq : Request) : Covered (requestHandler cfg rq r).1 := by
  unfold requestHandler
  cases rq.action with
  | commitProcList => exact (retains_commitProcs r).frame.covered h
  | commitContextList =>
    have hstays (c : Ptr) (hc : c ∈ items (commit r.contextList)) : c ∈ items r.contextList :=
      ((mem_items_commit _ c).mp hc).1
    refine ⟨⟨h.proc_lt, fun c hc => h.context_lt c (hstays c hc), fun c hc => ?_, ?_⟩, fun p hp => ?_⟩
    · simp [doCommitContextList] at hc
    · show ((items (commit r.contextList)).map fun c => (r.contexts c).ctxId).Nodup
      rw [items_commit]
      exact h.ids.sublist (List.filter_sublist.map _)
    · obtain ⟨c, hc, hr, hid⟩ := h.covers p hp
      exact ⟨c, (mem_items_commit _ c).mpr ⟨hc, hr⟩, by simp [doCommitContextList], hid⟩
  | collectAndSendProcAcct =>
    simp only [doCollectAndSendProcAcct]
    split <;> exact h
  | collectAndSendProcInfo => exact h
  | collectAndSendContextInfo => exact covered_collect h

theorem covered_operate {op : Op} (h : Covered r) (hj : JoinsStanding cfg r op)
    (hop : operate cfg r op = some r') : Covered r' := by
  cases op with
  | createProcessEntry env pid name =>
    obtain rfl := Option.some.inj hop
    exact covered_createProcessEntry h hj
  | updProcEntry env pid =>
    obtain rfl := Option.some.inj hop
    exact (retains_updProcEntry env pid r).frame.covered h
  | remEntries which sync =>
    obtain rfl := Option.some.inj hop
    exact (retains_remEntries which sync r).frame.covered h
  | updateProcInfo env p =>
    simp only [operate] at hop
    split at hop
    · rename_i hp
      obtain rfl := Option.some.inj hop
      exact covered_updateProcInfo h hp hj
    · cases hop
  | updateProcAcct env p =>
    simp only [operate] at hop
    split at hop
    · obtain rfl := Option.some.inj hop
      exact (retains_updateProcAcct env r p).frame.covered h
    · cases hop
  | processDelayAcct t =>
    obtain rfl := Option.some.inj hop
    exact (retains_processDelayAcct t r).frame.covered h
  | collect rq =>
    simp only [operate] at hop
    split at hop
    · cases hop
    · cases hop
    · obtain rfl := Option.some.inj hop
      have hframe : Frame r (r.pushRequest rq) := ⟨rfl, rfl, rfl, fun _ hp => ⟨hp, rfl⟩⟩
      exact hframe.covered h
  | dispatch =>
    obtain ⟨rq, rest, _, rfl⟩ := dispatch_some hop
    have hframe : Frame r {r with queue := rest} := ⟨rfl, rfl, rfl, fun _ hp => ⟨hp, rfl⟩⟩
    exact covered_requestHandler (hframe.covered h) rq

/-! ### Every process is counted -/

/-- With distinct keys, the elements of a key that occurs are one. -/
theorem length_filter_key {α κ : Type} [DecidableEq κ] {f : α → κ} {l : List α} {k : κ}
    (hn : (l.map f).Nodup) (hk : k ∈ l.map f) : (l.filter fun a => decide (f a = k)).length = 1 := by
  have hcount : (l.map f).count k = 1 := List.count_eq_one_of_mem hn hk
  rw [List.count_eq_countP, List.countP_map, List.countP_eq_length_filter] at hcount
  exact hcount

theorem listings_one (h : Ordered r) {id : UInt64} (hs : Standing r id) : r.listings id = 1 := by
  obtain ⟨c, hc, _, rfl⟩ := hs
  exact length_filter_key h.ids (List.mem_map_of_mem hc)

/-- An answer lists the contexts with their totals. -/
theorem contextInfo_collect (hn : (items r.contextList).Nodup) :
    contextInfo (foreach r.contextList updateContext r) =
      (items r.contextList).map fun c => r.totals (r.contexts c) := by
  obtain ⟨hi, hc, _⟩ := collected hn
  rw [contextInfo, hi]
  exact List.map_congr_left fun c hm => by rw [hc c, if_pos hm]

theorem counted_of_covered (h : Covered r) : Counted r := by
  refine ⟨fun p hp => listings_one h.toOrdered (h.covers p hp), ?_⟩
  have hids : ((items r.contextList).map fun c => r.totals (r.contexts c)).map ContextInfoEntry.ctxId =
      (items r.contextList).map fun c => (r.contexts c).ctxId := by
    rw [List.map_map]
    exact List.map_congr_left fun c _ => totals_ctxId r _
  refine ⟨(items r.contextList).map fun c => r.totals (r.contexts c), ?_, fun e he => ?_, fun p hp => ?_⟩
  · show [Data.contextInfo (contextInfo (foreach r.contextList updateContext r))] = _
    rw [contextInfo_collect h.nodup]
  · obtain ⟨c, hm, rfl⟩ := List.mem_map.mp he
    refine ⟨c, hm, totals_ctxId r _, ?_⟩
    rw [totals_ctxId]
    rfl
  · obtain ⟨c, hm, _, hid⟩ := h.covers p hp
    refine length_filter_key (hids ▸ h.ids) ?_
    rw [hids, ← hid]
    exact List.mem_map_of_mem hm

/-- **No process is lost from its context** in any run whose processes join standing contexts only:
each is listed under one context, and counted in one item of an answer. -/
theorem processes_counted (hs : Steps (operate cfg) (JoinsStanding cfg) (empty : Registry L) r) : Counted r :=
  counted_of_covered <| hs.invariant (fun _ _ _ h hj hop => covered_operate h hj hop) covered_empty

/-! ### Two histories -/

/-- Root, with containers and no blacklist. -/
def contextConfig : Config where
  blacklist := []
  withProcEvent := true
  withProcAcct := true
  withLXC := true
  procEvent := true
  procAcct := true
  updateOnProcEvent := true
  enableProcFDCount := false
  root := true

/-- Every process is of the context 9. -/
def oneContext : Env where
  pids := []
  files := fun _ => ⟨some ['p'], some ⟨5, 1, 0, 0⟩, some ⟨none, none, true⟩, some 0⟩
  taskstats := fun _ => true
  contextId := fun _ => 9
  containers := []
  now := 0
  procAcctCollectorCounter := 0

/-- A process comes into an empty context between the request and its commit. -/
def lateProcess : List Op :=
  [.createProcessEntry oneContext 5 ['p'], .remEntries (fun e => e.pid == 5) true,
    .collect {action := .collectAndSendContextInfo}, .dispatch, .createProcessEntry oneContext 6 ['p'],
    .dispatch]

/-- **A process can lose its context**: the commit takes out the context it was created into. -/
theorem late_process_uncounted :
    ∃ r : Registry Recorded, Reaches (operate contextConfig) empty r ∧ r.queue = [] ∧ ¬Counted r := by
  refine ⟨_, .of_run (meets_true _ _ lateProcess) rfl, rfl, fun hc => ?_⟩
  have hone := hc.once 2 (List.mem_singleton_self 2)
  exact absurd hone (by decide)

/-- Two processes of one context, and a request. -/
def twoProcesses : List Op :=
  [.createProcessEntry oneContext 5 ['p'], .createProcessEntry oneContext 6 ['p'],
    .collect {action := .collectAndSendContextInfo}, .dispatch, .dispatch]

/-- They are counted. -/
theorem processes_counted_two :
    ∃ r : Registry Recorded, run (operate contextConfig) empty twoProcesses = some r ∧ Counted r := by
  have hs : Meets (operate contextConfig) (JoinsStanding contextConfig) (empty : Registry Recorded)
      twoProcesses := by
    refine ⟨fun _ _ hc => absurd hc List.not_mem_nil, fun _ h => ?_⟩
    obtain rfl := Option.some.inj h
    exact ⟨fun _ _ _ _ => List.not_mem_nil, fun _ _ => ⟨trivial, fun _ _ => ⟨trivial, fun _ _ =>
      ⟨trivial, fun _ _ => trivial⟩⟩⟩⟩
  exact ⟨_, rfl, processes_counted (.of_run hs rfl)⟩

end TaskMonitor.Registry

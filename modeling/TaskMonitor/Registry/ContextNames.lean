import TaskMonitor.Registry.Context

/-! What ProcInfo and ContextInfo call a context.

An entry whose context has no name yet asks for it again on the Pace lane. The
item of the context is named when its first process is created, and never again:
the two agree in the runs in which no process learns the name of a context that is
listed as unknown, nor joins one that is to be removed (`names_agree`). -/
namespace TaskMonitor.Registry
open DeferredList Transition

variable {L : Type → Type} [DeferredList L] {cfg : Config} {f : UInt64 → Name} {g : Pid → UInt64} {r r' : Registry L}

/-! ### Names -/

/-- Every process has one context, and every context has one name, which may be unknown for now. -/
structure Naming (cfg : Config) (f : UInt64 → Name) (g : Pid → UInt64) (env : Env) : Prop where
  contextId : ∀ pid, env.contextId pid = g pid
  contextName : ∀ id, getContextName cfg env id = unknownName ∨ getContextName cfg env id = f id

/-- The operation finds contexts and names as they are. -/
def Op.Named (cfg : Config) (f : UInt64 → Name) (g : Pid → UInt64) : Op → Prop
  | .createProcessEntry env _ _ | .updateProcInfo env _ => Naming cfg f g env
  | _ => True

/-- The context name a new entry of the pid gets. -/
def newContextName (cfg : Config) (env : Env) (pid : Pid) : Name :=
  if cfg.root then getContextName cfg env (env.contextId pid) else genericName

/-- No process that can be read is created into a context whose removal is recorded, and none learns a name
while its context is listed as unknown. -/
def LearnsListed (cfg : Config) (r : Registry L) : Op → Prop
  | .createProcessEntry env pid _ => (env.files pid).stat.isSome = true → ∀ c ∈ items r.contextList,
      (r.contexts c).ctxId = newContextId cfg env pid → c ∉ recorded r.contextList ∧
        ((r.contexts c).ctxName = unknownName → newContextName cfg env pid = unknownName)
  | .updateProcInfo env p => (r.procs p).resolvesAgain cfg = true → ∀ c ∈ items r.contextList,
      (r.contexts c).ctxId = (r.procs p).getContextId → (r.contexts c).ctxName = unknownName →
        getContextName cfg env (env.contextId (r.procs p).pid) = unknownName
  | _ => True

/-- Where every process of a context reports one known name, so does the item of the context. -/
def NamesAgree (r : Registry L) : Prop :=
  ∃ infos es, (doCollectAndSendProcInfo r).2 = [.procInfo infos] ∧
    (doCollectAndSendContextInfo r).2 = [.contextInfo es] ∧
    ∀ id name, name ≠ unknownName → (∃ info ∈ infos, info.ctxId = id) →
      (∀ info ∈ infos, info.ctxId = id → info.ctxName = name) →
      (∃ e ∈ es, e.ctxId = id) ∧ ∀ e ∈ es, e.ctxId = id → e.ctxName = name

/-! ### The invariant -/

/-- The name of a context that is known. -/
def knownName (cfg : Config) (f : UInt64 → Name) (id : UInt64) : Name := if cfg.root then f id else genericName

/-- The entry is of the context of its process, and calls it by its name, if not unknown. -/
structure Member (cfg : Config) (f : UInt64 → Name) (g : Pid → UInt64) (e : ProcEntry) : Prop where
  id : e.info.ctxId = if cfg.root then g e.pid else 0
  name : e.info.ctxName = unknownName ∨ e.info.ctxName = knownName cfg f e.info.ctxId
  root : e.info.ctxName = unknownName → cfg.root = true

/-- A context that is listed as unknown is so to its processes. -/
structure Agreeing (cfg : Config) (f : UInt64 → Name) (g : Pid → UInt64) (r : Registry L) : Prop
    extends Covered r where
  member : ∀ p ∈ items r.procList, Member cfg f g (r.procs p)
  context : ∀ c ∈ items r.contextList,
    (r.contexts c).ctxName = unknownName ∨ (r.contexts c).ctxName = knownName cfg f (r.contexts c).ctxId
  agree : ∀ c ∈ items r.contextList, (r.contexts c).ctxName = unknownName →
    ∀ p ∈ items r.procList, (r.procs p).getContextId = (r.contexts c).ctxId → (r.procs p).info.ctxName = unknownName

theorem agreeing_empty : Agreeing cfg f g (empty : Registry L) := by
  refine ⟨covered_empty, ?_, ?_, ?_⟩ <;> simp [empty]

theorem Member.congr {e e' : ProcEntry} (h : Member cfg f g e) (he : membership e' = membership e) :
    Member cfg f g e' := by
  obtain ⟨hpid, hctx⟩ := Prod.ext_iff.mp he
  obtain ⟨hid, hname⟩ := Prod.ext_iff.mp hctx
  simp only [membership] at hpid hid hname
  refine ⟨?_, ?_, fun hu => h.root (hname.symm.trans hu)⟩
  · rw [hid, hpid]
    exact h.id
  · rw [hid, hname]
    exact h.name

/-- What lists no other process or context, and renames none, agrees still. -/
theorem Agreeing.congr (h : Agreeing cfg f g r) (hcovered : Covered r')
    (hprocs : ∀ p ∈ items r'.procList, p ∈ items r.procList ∧ membership (r'.procs p) = membership (r.procs p))
    (hctx : ∀ c ∈ items r'.contextList, c ∈ items r.contextList ∧
      (r'.contexts c).ctxId = (r.contexts c).ctxId ∧ (r'.contexts c).ctxName = (r.contexts c).ctxName) :
    Agreeing cfg f g r' := by
  refine ⟨hcovered, fun p hp => ?_, fun c hc => ?_, fun c hc hu p hp hid => ?_⟩
  · obtain ⟨hp', he⟩ := hprocs p hp
    exact (h.member p hp').congr he
  · obtain ⟨hc', hid, hname⟩ := hctx c hc
    rw [hid, hname]
    exact h.context c hc'
  · obtain ⟨hp', he⟩ := hprocs p hp
    obtain ⟨hc', hcid, hcname⟩ := hctx c hc
    have hsame : (r'.procs p).info.ctxId = (r.procs p).info.ctxId ∧
        (r'.procs p).info.ctxName = (r.procs p).info.ctxName := Prod.ext_iff.mp (Prod.ext_iff.mp he).2
    rw [hsame.2]
    exact h.agree c hc' (hcname.symm.trans hu) p hp' (hsame.1.symm.trans (hid.trans hcid))

theorem Agreeing.retains (h : Agreeing cfg f g r) (hr : Retains r r') : Agreeing cfg f g r' := by
  refine h.congr (hr.frame.covered h.toCovered) hr.procs fun c hc => ?_
  rw [hr.contextList] at hc
  rw [hr.contexts]
  exact ⟨hc, rfl, rfl⟩

/-! ### Creation -/

theorem make_contextName {env : Env} {pid : Pid} {name : Name} {e : ProcEntry}
    (h : ProcEntry.make cfg env pid name = some e) : e.info.ctxName = newContextName cfg env pid := by
  simp only [ProcEntry.make, ProcEntry.initInfoData, Option.map_map, Option.map_eq_some_iff,
    Function.comp_apply] at h
  obtain ⟨st, _, rfl⟩ := h
  unfold ProcEntry.initContext newContextName
  split <;> rfl

theorem member_make {env : Env} {pid : Pid} {name : Name} {e : ProcEntry} (hn : Naming cfg f g env)
    (h : ProcEntry.make cfg env pid name = some e) : Member cfg f g e := by
  have hpid := (ProcEntry.make_spec h).1
  have hid : e.info.ctxId = newContextId cfg env pid := make_contextId h
  refine ⟨?_, ?_, ProcEntry.make_unresolved h⟩
  · rw [hid, hpid]
    unfold newContextId
    split
    · exact hn.contextId pid
    · rfl
  · rw [hid, make_contextName h]
    unfold newContextName newContextId knownName
    split
    · exact hn.contextName _
    · exact .inr rfl

/-- After an insertion an entry is the new one, or as it was. -/
theorem procs_insertProc (h : Ordered r) {e : ProcEntry} {p : Ptr} (hp : p ∈ items (r.insertProc e).procList) :
    (r.insertProc e).procs p = e ∨ (p ∈ items r.procList ∧ (r.insertProc e).procs p = r.procs p) := by
  rcases mem_insertProc hp with hp | rfl
  · have hne : p ≠ r.next := Nat.ne_of_lt (h.proc_lt p hp)
    exact .inr ⟨hp, by simp [insertProc, hne]⟩
  · exact .inl (by simp [insertProc])

theorem member_insertProc (h : Agreeing cfg f g r) {e : ProcEntry} (he : Member cfg f g e) :
    ∀ p ∈ items (r.insertProc e).procList, Member cfg f g ((r.insertProc e).procs p) := by
  intro p hp
  rcases procs_insertProc h.toOrdered hp with hnew | ⟨hold, hsame⟩
  · rw [hnew]
    exact he
  · rw [hsame]
    exact h.member p hold

/-- An entry that joins a listed context calls it by no name where that is unknown. -/
theorem agreeing_insertProc (h : Agreeing cfg f g r) {e : ProcEntry} (he : Member cfg f g e)
    (hcovered : Covered (r.insertProc e))
    (hlisted : ∀ c ∈ items r.contextList, (r.contexts c).ctxId = e.getContextId →
      (r.contexts c).ctxName = unknownName → e.info.ctxName = unknownName) : Agreeing cfg f g (r.insertProc e) := by
  refine ⟨hcovered, member_insertProc h he, h.context, fun c hc hu p hp hid => ?_⟩
  rcases procs_insertProc h.toOrdered hp with hnew | ⟨hold, hsame⟩
  · rw [hnew] at hid ⊢
    exact hlisted c hc hid.symm hu
  · rw [hsame] at hid ⊢
    exact h.agree c hc hu p hold hid

/-- A context made for a new entry has no other process, and the name that the entry gives it. -/
theorem agreeing_insertContext (h : Agreeing cfg f g r) {e : ProcEntry} (he : Member cfg f g e)
    (hnone : (r.insertProc e).hasContext e.getContextId = false)
    (hcovered : Covered ((r.insertProc e).insertContext (ContextInfoEntry.make e.info.ctxId e.info.ctxName))) :
    Agreeing cfg f g ((r.insertProc e).insertContext (ContextInfoEntry.make e.info.ctxId e.info.ctxName)) := by
  have hids := hasContext_false hnone
  have hord := ordered_insertProc h.toOrdered e
  have hnew : ((r.insertProc e).insertContext (ContextInfoEntry.make e.info.ctxId e.info.ctxName)).contexts
      (r.insertProc e).next = ContextInfoEntry.make e.info.ctxId e.info.ctxName := Function.update_self ..
  refine ⟨hcovered, member_insertProc h he, fun c hlisted => ?_, fun c hlisted hu p hp hid => ?_⟩
  · rcases mem_insertContext hlisted with hold | rfl
    · rw [contexts_insertContext hord _ hold]
      exact h.context c hold
    · rw [hnew]
      exact he.name
  · rcases mem_insertContext hlisted with hold | rfl
    · rw [contexts_insertContext hord _ hold] at hu hid
      rcases procs_insertProc h.toOrdered hp with hp' | ⟨hp', hsame⟩
      · -- the context of the new entry is not listed yet
        have hid : e.getContextId = (r.contexts c).ctxId := (congrArg ProcEntry.getContextId hp').symm.trans hid
        exact absurd (hid ▸ List.mem_map_of_mem hold) hids
      · have hid : (r.procs p).getContextId = (r.contexts c).ctxId := hsame ▸ hid
        exact (congrArg (fun e : ProcEntry => e.info.ctxName) hsame).trans (h.agree c hold hu p hp' hid)
    · rw [hnew] at hu hid
      rcases procs_insertProc h.toOrdered hp with hp' | ⟨hp', hsame⟩
      · exact (congrArg (fun e : ProcEntry => e.info.ctxName) hp').trans hu
      · have hid : (r.procs p).getContextId = e.getContextId := hsame ▸ hid
        obtain ⟨c, hlisted, _, hctx⟩ := h.covers p hp'
        exact absurd ((hctx.trans hid) ▸ List.mem_map_of_mem hlisted) hids

theorem agreeing_createProcessEntry (h : Agreeing cfg f g r) {env : Env} {pid : Pid} {name : Name}
    (hn : Naming cfg f g env) (hl : LearnsListed cfg r (.createProcessEntry env pid name)) :
    Agreeing cfg f g (r.createProcessEntry cfg env pid name) := by
  have hj : JoinsStanding cfg r (.createProcessEntry env pid name) := fun hs c hc hid => (hl hs c hc hid).1
  have hcovered := covered_createProcessEntry h.toCovered hj
  revert hcovered
  unfold createProcessEntry
  cases hm : ProcEntry.make cfg env pid name with
  | none => exact fun _ => h
  | some e =>
    have hstat : (env.files pid).stat.isSome = true := by
      rw [← ProcEntry.make_isSome, hm]
      rfl
    have he := member_make hn hm
    by_cases hc : (r.insertProc e).hasContext e.getContextId = true
    · simp only [hc, if_true]
      refine fun hcovered => agreeing_insertProc h he hcovered fun c hlisted hid hu => ?_
      rw [make_contextName hm]
      exact (hl hstat c hlisted (hid.trans (make_contextId hm))).2 hu
    · simp only [hc, if_false, Bool.false_eq_true]
      exact agreeing_insertContext h he ((Bool.not_eq_true _).mp hc)

/-! ### Pace updates -/

/-- An info update finds the entry a member of its context as before, or looks its context up. -/
theorem updateProcInfo_membership (cfg : Config) (env : Env) (e : ProcEntry) :
    membership (e.updateProcInfo cfg env).1 = membership e ∨
      (e.resolvesAgain cfg = true ∧ membership (e.updateProcInfo cfg env).1 =
        (e.pid, env.contextId e.pid, getContextName cfg env (env.contextId e.pid))) := by
  unfold ProcEntry.updateProcInfo
  by_cases hp : e.updatePending = true
  · rw [if_pos hp]
    exact .inl rfl
  · rw [if_neg hp]
    obtain ⟨hk, _⟩ := ProcEntry.updateInfoData_spec cfg env ({e with updatePending := true}.resolveContext cfg env)
    have hkeeps : membership ({e with updatePending := true}.resolveContext cfg env |>.updateInfoData cfg env).1 =
        membership ({e with updatePending := true}.resolveContext cfg env) := by
      simp only [membership, hk.pid, hk.ctxId, hk.ctxName]
    have hresolve : membership ({e with updatePending := true}.resolveContext cfg env) = membership e ∨
        (e.resolvesAgain cfg = true ∧ membership ({e with updatePending := true}.resolveContext cfg env) =
          (e.pid, env.contextId e.pid, getContextName cfg env (env.contextId e.pid))) := by
      unfold ProcEntry.resolveContext
      by_cases hl : cfg.withLXC = true
      · simp only [hl, if_true]
        split
        · rename_i hr
          exact .inr ⟨by simp [ProcEntry.resolvesAgain, hl, hp, hr.1, hr.2], rfl⟩
        · exact .inl rfl
      · rw [if_neg hl]
        exact .inl rfl
    rcases hresolve with hsame | ⟨hagain, hnew⟩
    · exact .inl (hkeeps.trans hsame)
    · exact .inr ⟨hagain, hkeeps.trans hnew⟩

/-- An entry that learns the name of its context agrees with the item of it, if that is not unknown. -/
theorem agreeing_learn (h : Agreeing cfg f g r) {p : Ptr} {e : ProcEntry} (hp : p ∈ items r.procList)
    (hid : e.info.ctxId = (r.procs p).info.ctxId) (hmember : Member cfg f g e)
    (hlisted : ∀ c ∈ items r.contextList, (r.contexts c).ctxId = (r.procs p).getContextId →
      (r.contexts c).ctxName = unknownName → e.info.ctxName = unknownName) : Agreeing cfg f g (r.setProc p e) := by
  have hprocs : ∀ q ∈ items r.procList,
      (r.setProc p e).procs q = e ∧ q = p ∨ (r.setProc p e).procs q = r.procs q := by
    intro q _
    by_cases hq : q = p
    · subst hq
      exact .inl ⟨Function.update_self .., rfl⟩
    · exact .inr (Function.update_of_ne hq ..)
  have hcovered : Covered (r.setProc p e) := by
    refine h.toCovered.congr (fun q hq => ⟨hq, ?_⟩) rfl rfl (Nat.le_refl _)
    rcases hprocs q hq with ⟨hnew, rfl⟩ | hold
    · rw [hnew, ProcEntry.getContextId, hid]
      exact h.covers q hq
    · rw [hold]
      exact h.covers q hq
  refine ⟨hcovered, fun q hq => ?_, h.context, fun c hc hu q hq hctx => ?_⟩
  · rcases hprocs q hq with ⟨hnew, _⟩ | hold
    · rw [hnew]
      exact hmember
    · rw [hold]
      exact h.member q hq
  · rcases hprocs q hq with ⟨hnew, rfl⟩ | hold
    · rw [hnew] at hctx ⊢
      exact hlisted c hc (hctx.symm.trans hid) hu
    · rw [hold] at hctx ⊢
      exact h.agree c hc hu q hq hctx

theorem agreeing_updateProcInfo (h : Agreeing cfg f g r) {env : Env} {p : Ptr} (hp : p ∈ items r.procList)
    (hn : Naming cfg f g env) (hl : LearnsListed cfg r (.updateProcInfo env p)) :
    Agreeing cfg f g (updateProcInfo cfg env r p) := by
  have hset : Agreeing cfg f g (r.setProc p ((r.procs p).updateProcInfo cfg env).1) := by
    rcases updateProcInfo_membership cfg env (r.procs p) with hsame | ⟨hagain, hnew⟩
    · exact h.retains (retains_setProc r p hsame)
    · have hold := h.member p hp
      have hroot : cfg.root = true := hold.root (ProcEntry.unknown_of_resolvesAgain hagain)
      obtain ⟨hpid, hctx⟩ := Prod.ext_iff.mp hnew
      obtain ⟨hid, hname⟩ := Prod.ext_iff.mp hctx
      simp only [membership] at hpid hid hname
      have hwas : (r.procs p).info.ctxId = g (r.procs p).pid := hold.id.trans (if_pos hroot)
      have hids := hn.contextId (r.procs p).pid
      refine agreeing_learn h hp (hid.trans (hids.trans hwas.symm)) ⟨?_, ?_, fun _ => hroot⟩ fun c hc hcid hu => ?_
      · rw [if_pos hroot, hid, hpid, hids]
      · rw [hid, hname, knownName, if_pos hroot]
        exact hn.contextName _
      · exact hname.trans (hl hagain c hc hcid hu)
  unfold updateProcInfo storeUpdate
  simp only
  split
  · exact hset
  · exact hset.retains (retains_remEntries _ _ _)

/-! ### Runs -/

theorem agreeing_collect (h : Agreeing cfg f g r) : Agreeing cfg f g (doCollectAndSendContextInfo r).1 := by
  obtain ⟨hl, hp, _, _⟩ := updateContext_procs r (items r.contextList)
  obtain ⟨hi, hc, _⟩ := collected h.nodup
  have hprocs : (foreach r.contextList updateContext r).procs = r.procs := hp
  have hlist : (foreach r.contextList updateContext r).procList = r.procList := hl
  refine h.congr (covered_collect h.toCovered) (fun p hp' => ?_) fun c hc' => ?_
  · have hm : p ∈ items r.procList := hlist ▸ hp'
    exact ⟨hm, congrArg (fun procs => membership (procs p)) hprocs⟩
  · have hm : c ∈ items r.contextList := hi ▸ hc'
    have htotals : (doCollectAndSendContextInfo r).1.contexts c = r.totals (r.contexts c) :=
      (hc c).trans (if_pos hm)
    rw [htotals]
    exact ⟨hm, totals_ctxId r _, totals_ctxName r _⟩

theorem agreeing_requestHandler (h : Agreeing cfg f g r) (rq : Request) :
    Agreeing cfg f g (requestHandler cfg rq r).1 := by
  have hcovered : Covered (requestHandler cfg rq r).1 := covered_requestHandler h.toCovered rq
  revert hcovered
  unfold requestHandler
  cases rq.action with
  | commitProcList => exact fun _ => h.retains (retains_commitProcs r)
  | commitContextList =>
    refine fun hcovered => h.congr hcovered (fun p hp => ⟨hp, rfl⟩) fun c hc => ?_
    exact ⟨((mem_items_commit _ c).mp hc).1, rfl, rfl⟩
  | collectAndSendProcAcct =>
    simp only [doCollectAndSendProcAcct]
    split <;> exact fun _ => h
  | collectAndSendProcInfo => exact fun _ => h
  | collectAndSendContextInfo => exact fun _ => agreeing_collect h

theorem agreeing_operate {op : Op} (h : Agreeing cfg f g r) (hn : op.Named cfg f g) (hl : LearnsListed cfg r op)
    (hop : operate cfg r op = some r') : Agreeing cfg f g r' := by
  cases op with
  | createProcessEntry env pid name =>
    obtain rfl := Option.some.inj hop
    exact agreeing_createProcessEntry h hn hl
  | updProcEntry env pid =>
    obtain rfl := Option.some.inj hop
    exact h.retains (retains_updProcEntry env pid r)
  | remEntries which sync =>
    obtain rfl := Option.some.inj hop
    exact h.retains (retains_remEntries which sync r)
  | updateProcInfo env p =>
    obtain ⟨hp, hr⟩ := Option.ite_none_right_eq_some.mp hop
    obtain rfl := Option.some.inj hr
    exact agreeing_updateProcInfo h hp hn hl
  | updateProcAcct env p =>
    obtain ⟨_, hr⟩ := Option.ite_none_right_eq_some.mp hop
    obtain rfl := Option.some.inj hr
    exact h.retains (retains_updateProcAcct env r p)
  | processDelayAcct t =>
    obtain rfl := Option.some.inj hop
    exact h.retains (retains_processDelayAcct t r)
  | collect rq =>
    simp only [operate] at hop
    split at hop
    · cases hop
    · cases hop
    · obtain rfl := Option.some.inj hop
      exact h.retains ⟨rfl, rfl, rfl, fun _ hp => ⟨hp, rfl⟩⟩
  | dispatch =>
    obtain ⟨rq, rest, _, rfl⟩ := dispatch_some hop
    have hpopped : Retains r {r with queue := rest} := ⟨rfl, rfl, rfl, fun _ hp => ⟨hp, rfl⟩⟩
    exact agreeing_requestHandler (h.retains hpopped) rq

theorem namesAgree_of_agreeing (h : Agreeing cfg f g r) : NamesAgree r := by
  refine ⟨_, _, rfl, rfl, fun id name hknown hsome hall => ?_⟩
  have hanswer : contextInfo (doCollectAndSendContextInfo r).1 =
      (items r.contextList).map fun c => r.totals (r.contexts c) := contextInfo_collect h.nodup
  show (∃ e ∈ contextInfo (doCollectAndSendContextInfo r).1, _) ∧
    ∀ e ∈ contextInfo (doCollectAndSendContextInfo r).1, _
  rw [hanswer]
  obtain ⟨info, hinfo, rfl⟩ := hsome
  obtain ⟨p, hp, rfl⟩ := List.mem_map.mp hinfo
  have hname : (r.procs p).info.ctxName = name := hall _ (List.mem_map_of_mem hp) rfl
  constructor
  · obtain ⟨c, hc, _, hid⟩ := h.covers p hp
    exact ⟨r.totals (r.contexts c), List.mem_map_of_mem hc, (totals_ctxId r _).trans hid⟩
  · intro e he hid
    obtain ⟨c, hc, rfl⟩ := List.mem_map.mp he
    have hcid : (r.contexts c).ctxId = (r.procs p).info.ctxId := (totals_ctxId r _).symm.trans hid
    rw [totals_ctxName]
    rcases h.context c hc with hu | hc'
    · exact absurd (hname.symm.trans (h.agree c hc hu p hp hcid.symm)) hknown
    · rcases (h.member p hp).name with hu | hp'
      · exact absurd (hname.symm.trans hu) hknown
      · rw [hc', hcid, ← hp', hname]

/-- **ProcInfo and ContextInfo agree** on the name of a context in every run in which no process joins a context
that is to be removed, or learns the name of one that is listed as unknown. -/
theorem names_agree
    (hs : Steps (operate cfg) (fun r op => op.Named cfg f g ∧ LearnsListed cfg r op) (empty : Registry L) r) :
    NamesAgree r :=
  namesAgree_of_agreeing (hs.invariant (P := Agreeing cfg f g)
    (fun _ _ _ h hc hop => agreeing_operate h hc.1 hc.2 hop) agreeing_empty)

/-! ### Two histories -/

def webName : Name := ['w', 'e', 'b']

/-- All processes but the first are of the context 9. -/
def contextOf (pid : Pid) : UInt64 := if pid = 1 then 1 else 9

def nameOf (id : UInt64) : Name := if id = 1 then rootName else webName

/-- The container of the context 9 is active, or not yet. -/
def container (active : Bool) : Env where
  pids := []
  files := oneContext.files
  taskstats := fun _ => true
  contextId := contextOf
  containers := if active then [⟨some webName, true, 5⟩] else []
  now := 0
  procAcctCollectorCounter := 0

theorem naming_container (active : Bool) : Naming contextConfig nameOf contextOf (container active) := by
  refine ⟨fun _ => rfl, fun id => ?_⟩
  by_cases hroot : id = 1
  · subst hroot
    exact .inr rfl
  · have hne : (id == (container active).contextId 1) = false := beq_eq_false_iff_ne.mpr hroot
    have hlookup : getContextName contextConfig (container active) id =
        getContainerNameForContext (container active) id := by
      rw [getContextName, hne]
      rfl
    rw [hlookup, nameOf, if_neg hroot]
    cases active with
    | false => exact .inl rfl
    | true =>
      by_cases hid : contextOf 5 = id
      · subst hid
        exact .inr rfl
      · refine .inl ?_
        have hother : (contextOf 5 == id) = false := beq_eq_false_iff_ne.mpr hid
        simp [getContainerNameForContext, container, hother]

/-- Processes that find their container active. -/
def namedRun : List Op :=
  [.createProcessEntry (container true) 5 ['p'], .createProcessEntry (container true) 6 ['p'],
    .remEntries (fun e => e.pid == 5) true, .collect {action := .collectAndSendContextInfo}, .dispatch]

theorem names_agree_named :
    ∃ r : Registry Recorded, run (operate contextConfig) empty namedRun = some r ∧ NamesAgree r := by
  have hs : Meets (operate contextConfig)
      (fun r op => op.Named contextConfig nameOf contextOf ∧ LearnsListed contextConfig r op)
      (empty : Registry Recorded) namedRun := by
    refine ⟨⟨naming_container true, fun _ _ hc => absurd hc List.not_mem_nil⟩, fun _ h => ?_⟩
    obtain rfl := Option.some.inj h
    refine ⟨⟨naming_container true, fun _ c hc _ => ⟨List.not_mem_nil, fun hu => ?_⟩⟩, fun _ _ =>
      ⟨⟨trivial, trivial⟩, fun _ _ => ⟨⟨trivial, trivial⟩, fun _ _ => ⟨⟨trivial, trivial⟩, fun _ _ => trivial⟩⟩⟩⟩
    obtain rfl := List.mem_singleton.mp hc
    exact absurd hu (by decide)
  exact ⟨_, rfl, names_agree (.of_run hs rfl)⟩

/-- The container becomes active after its first process was created. -/
def lateName : List Op := [.createProcessEntry (container false) 5 ['p'], .updateProcInfo (container true) 0]

/-- **A context can stay unknown**: its only process reports its name, and its item never does. -/
theorem late_name_unknown :
    (∀ op ∈ lateName, op.Named contextConfig nameOf contextOf) ∧
      ∃ r : Registry Recorded, run (operate contextConfig) empty lateName = some r ∧ ¬NamesAgree r := by
  constructor
  · intro op hop
    rcases List.mem_cons.mp hop with rfl | hop
    · exact naming_container false
    · obtain rfl := List.mem_singleton.mp hop
      exact naming_container true
  · refine ⟨_, rfl, fun h => ?_⟩
    obtain ⟨infos, es, hinfos, hes, hagree⟩ := h
    obtain rfl := Data.procInfo.inj (List.singleton_inj.mp hinfos)
    obtain rfl := Data.contextInfo.inj (List.singleton_inj.mp hes)
    have hitem := (hagree 9 webName (by decide) (by decide +kernel) (by decide +kernel)).2
    exact absurd hitem (by decide +kernel)

end TaskMonitor.Registry

import TaskMonitor.Registry.Cells

/-! What each operation of the registry does to the slot of a pid.

`entryFor` is the entry an attempt to add a pid would make: none where the name or
the stat file cannot be read or the name is blacklisted. Adding fills an empty
slot with it, a scan of procfs does so for every listed pid, a lane update maps
over the slots, and a request of the queue at most commits. -/
namespace TaskMonitor

namespace ProcEntry
variable {cfg : Config} {env : Env} {pid : Pid} {name : Name} {e : ProcEntry}

theorem make_spec (h : make cfg env pid name = some e) :
    e.pid = pid ∧ e.info.comm = name ∧ (∃ st, (env.files pid).stat = some st ∧ e.info.ppid = st.ppid) ∧
      e.info.ctxId = (if cfg.root then env.contextId pid else 0) := by
  simp only [make, initInfoData, Option.map_map, Option.map_eq_some_iff, Function.comp_apply] at h
  obtain ⟨st, hst, rfl⟩ := h
  unfold initContext
  split <;> exact ⟨rfl, rfl, ⟨st, hst, rfl⟩, rfl⟩

/-- Only root can have left a context unresolved. -/
theorem make_unresolved (h : make cfg env pid name = some e) (hu : e.info.ctxName = unknownName) :
    cfg.root = true := by
  simp only [make, initInfoData, Option.map_map, Option.map_eq_some_iff, Function.comp_apply] at h
  obtain ⟨st, _, rfl⟩ := h
  by_contra hr
  simp only [initContext, if_neg hr] at hu
  exact absurd hu (by decide)

theorem make_updatePending (h : make cfg env pid name = some e) : e.updatePending = false := by
  obtain ⟨info, _, rfl⟩ := Option.map_eq_some_iff.mp h
  rfl

theorem make_isSome : (make cfg env pid name).isSome = (env.files pid).stat.isSome := by
  simp [make, initInfoData]

/-- Whether every file the Pace lane reads could be read. -/
def readable (cfg : Config) (f : Files) : Bool :=
  f.stat.isSome && f.smapsRollup.any Smaps.parsed && (!cfg.enableProcFDCount || f.fd.isSome)

/-- `e'` is `e` with other readings of the same process. -/
structure Keeps (e e' : ProcEntry) : Prop where
  pid : e'.pid = e.pid
  comm : e'.info.comm = e.info.comm
  ppid : e'.info.ppid = e.info.ppid
  ctxId : e'.info.ctxId = e.info.ctxId
  ctxName : e'.info.ctxName = e.info.ctxName
  updatePending : e'.updatePending = e.updatePending

theorem Keeps.refl (e : ProcEntry) : Keeps e e := ⟨rfl, rfl, rfl, rfl, rfl, rfl⟩

theorem Keeps.trans {e e' e'' : ProcEntry} (h : Keeps e e') (h' : Keeps e' e'') : Keeps e e'' :=
  ⟨h'.pid.trans h.pid, h'.comm.trans h.comm, h'.ppid.trans h.ppid, h'.ctxId.trans h.ctxId,
    h'.ctxName.trans h.ctxName, h'.updatePending.trans h.updatePending⟩

theorem readProcStat_spec (env : Env) (e : ProcEntry) :
    Keeps e (e.readProcStat env).1 ∧ (e.readProcStat env).2 = (env.files e.pid).stat.isSome := by
  unfold readProcStat
  cases hs : (env.files e.pid).stat with
  | none => exact ⟨.refl e, rfl⟩
  | some st =>
    simp only
    split <;> exact ⟨⟨rfl, rfl, rfl, rfl, rfl, rfl⟩, rfl⟩

theorem readProcSmapsRollup_spec (env : Env) (e : ProcEntry) :
    Keeps e (e.readProcSmapsRollup env).1 ∧
      (e.readProcSmapsRollup env).2 = (env.files e.pid).smapsRollup.any Smaps.parsed := by
  unfold readProcSmapsRollup
  cases (env.files e.pid).smapsRollup <;> exact ⟨⟨rfl, rfl, rfl, rfl, rfl, rfl⟩, rfl⟩

theorem countFileDescriptors_spec (env : Env) (e : ProcEntry) :
    Keeps e (e.countFileDescriptors env).1 ∧
      (e.countFileDescriptors env).2 = (env.files e.pid).fd.isSome := by
  unfold countFileDescriptors
  cases (env.files e.pid).fd <;> exact ⟨⟨rfl, rfl, rfl, rfl, rfl, rfl⟩, rfl⟩

theorem updateInfoData_spec (cfg : Config) (env : Env) (e : ProcEntry) :
    Keeps e (e.updateInfoData cfg env).1 ∧
      (e.updateInfoData cfg env).2 = readable cfg (env.files e.pid) := by
  obtain ⟨hstat, hstat'⟩ := readProcStat_spec env e
  obtain ⟨hsmaps, hsmaps'⟩ := readProcSmapsRollup_spec env (e.readProcStat env).1
  obtain ⟨hfd, hfd'⟩ := countFileDescriptors_spec env
    ((e.readProcStat env).1.readProcSmapsRollup env).1
  have hboth := hstat.trans hsmaps
  rw [hstat.pid] at hsmaps'
  rw [hboth.pid] at hfd'
  unfold updateInfoData readable
  simp only [hstat', hsmaps', ← hfd']
  cases (env.files e.pid).stat.isSome
  · exact ⟨hstat, rfl⟩
  · cases (env.files e.pid).smapsRollup.any Smaps.parsed
    · exact ⟨hboth, rfl⟩
    · cases cfg.enableProcFDCount
      · exact ⟨hboth, rfl⟩
      · exact ⟨hboth.trans hfd, rfl⟩

/-- Whether an info update looks up the context of the entry again. -/
def resolvesAgain (cfg : Config) (e : ProcEntry) : Bool :=
  cfg.withLXC && !e.updatePending && decide (e.contextNameResolveCount < contextNameMaxRetry) &&
    decide (e.info.ctxName = unknownName)

theorem unknown_of_resolvesAgain (h : resolvesAgain cfg e = true) : e.info.ctxName = unknownName := by
  simp only [resolvesAgain, Bool.and_eq_true, decide_eq_true_eq] at h
  exact h.2

/-- An update on the Pace lane keeps pid, name and parent; it may look up again a
context whose name is not known; it fails where a file could not be read. -/
structure Updated (cfg : Config) (env : Env) (e e' : ProcEntry) (status : Bool) : Prop where
  pid : e'.pid = e.pid
  comm : e'.info.comm = e.info.comm
  ppid : e'.info.ppid = e.info.ppid
  context : (e'.info.ctxId = e.info.ctxId ∧ e'.info.ctxName = e.info.ctxName) ∨
    (resolvesAgain cfg e = true ∧ e'.info.ctxId = env.contextId e.pid)
  updatePending : e'.updatePending = e.updatePending
  status : status = (e.updatePending || readable cfg (env.files e.pid))

theorem resolveContext_spec (cfg : Config) (env : Env) (e : ProcEntry) :
    (e.resolveContext cfg env).pid = e.pid ∧ (e.resolveContext cfg env).info.comm = e.info.comm ∧
      (e.resolveContext cfg env).info.ppid = e.info.ppid ∧
      (((e.resolveContext cfg env).info.ctxId = e.info.ctxId ∧
          (e.resolveContext cfg env).info.ctxName = e.info.ctxName) ∨
        (resolvesAgain cfg {e with updatePending := false} = true ∧
          (e.resolveContext cfg env).info.ctxId = env.contextId e.pid)) := by
  unfold resolveContext
  by_cases hl : cfg.withLXC = true
  · simp only [hl, if_true]
    split
    · rename_i hr
      exact ⟨rfl, rfl, rfl, .inr ⟨by simp [resolvesAgain, hl, hr.1, hr.2], rfl⟩⟩
    · exact ⟨rfl, rfl, rfl, .inl ⟨rfl, rfl⟩⟩
  · rw [if_neg hl]
    exact ⟨rfl, rfl, rfl, .inl ⟨rfl, rfl⟩⟩

theorem updateProcInfo_spec (cfg : Config) (env : Env) (e : ProcEntry) :
    Updated cfg env e (e.updateProcInfo cfg env).1 (e.updateProcInfo cfg env).2 := by
  unfold updateProcInfo
  by_cases hp : e.updatePending = true
  · rw [if_pos hp]
    exact ⟨rfl, rfl, rfl, .inl ⟨rfl, rfl⟩, rfl, by rw [hp]; rfl⟩
  · have hp' : e.updatePending = false := by simpa using hp
    rw [if_neg hp]
    obtain ⟨hpid, hcomm, hppid, hctx⟩ :=
      resolveContext_spec cfg env {e with updatePending := true}
    obtain ⟨hk, hs⟩ := updateInfoData_spec cfg env
      ({e with updatePending := true}.resolveContext cfg env)
    refine ⟨hk.pid.trans hpid, hk.comm.trans hcomm, hk.ppid.trans hppid, ?_, hp'.symm, ?_⟩
    · rcases hctx with ⟨hid, hname⟩ | ⟨hagain, hid⟩
      · exact .inl ⟨hk.ctxId.trans hid, hk.ctxName.trans hname⟩
      · have heq : ({e with updatePending := false} : ProcEntry) = e := by rw [← hp']
        exact .inr ⟨heq ▸ hagain, hk.ctxId.trans hid⟩
    · rw [hp', Bool.false_or]
      exact hs.trans (by rw [hpid])

theorem updateProcAcct_info (env : Env) (e : ProcEntry) :
    (e.updateProcAcct env).1.pid = e.pid ∧ (e.updateProcAcct env).1.info = e.info := by
  unfold updateProcAcct
  repeat' split
  all_goals exact ⟨rfl, rfl⟩

theorem updateProcAcct_updatePending (env : Env) (e : ProcEntry) :
    (e.updateProcAcct env).1.updatePending = e.updatePending := by
  unfold updateProcAcct
  (repeat' split) <;> rfl

/-- An accounting update fails only where the request it makes does. -/
theorem updateProcAcct_status {e : ProcEntry}
    (h : env.procAcctCollectorCounter ≠ 0 → e.updateProcAcctPending = false → env.taskstats e.pid = true) :
    (e.updateProcAcct env).2.2 = true := by
  unfold updateProcAcct
  split
  · rfl
  · rename_i hn
    split
    · rfl
    · rename_i hpending
      exact h (by simpa using hn) (by simpa using hpending)

end ProcEntry

namespace Registry
open DeferredList

variable {L : Type → Type} [DeferredList L] {cfg : Config} {env : Env} {r : Registry L}

/-! ### Adding entries -/

/-- The entry an attempt to add the pid makes, if any. -/
def entryFor (cfg : Config) (env : Env) (pid : Pid) : Option ProcEntry :=
  (getProcNameForPID env pid).bind fun procName =>
    if isBlacklisted cfg procName then none else ProcEntry.make cfg env pid procName

theorem entryFor_spec {pid : Pid} {e : ProcEntry} (h : entryFor cfg env pid = some e) :
    (env.files pid).status = some e.info.comm ∧ isBlacklisted cfg e.info.comm = false ∧
      ProcEntry.make cfg env pid e.info.comm = some e := by
  obtain ⟨procName, hname, hmake⟩ := Option.bind_eq_some_iff.mp h
  by_cases hb : isBlacklisted cfg procName = true
  · simp [hb] at hmake
  · rw [if_neg hb] at hmake
    have hcomm := (ProcEntry.make_spec hmake).2.1
    subst hcomm
    exact ⟨hname, by simpa using hb, hmake⟩

theorem entryFor_pid {pid : Pid} {e : ProcEntry} (h : entryFor cfg env pid = some e) : e.pid = pid :=
  (ProcEntry.make_spec (entryFor_spec h).2.2).1

/-- A fresh cell for the entry. -/
def Cell.fresh (e : ProcEntry) : Cell := ⟨e, false⟩

theorem cells_insertProc (h : WF r) (e : ProcEntry) :
    (r.insertProc e).cells = r.cells ++ [Cell.fresh e] := by
  have hold : ∀ p ∈ items r.procList, (r.insertProc e).cell p = r.cell p := by
    intro p hp
    have hne : p ≠ r.next := Nat.ne_of_lt (h.items_lt p hp)
    simp [cell, insertProc, hne]
  have hnew : (r.insertProc e).cell r.next = Cell.fresh e := by
    have : r.next ∉ recorded r.procList := fun hm => Nat.lt_irrefl _ (h.recorded_lt _ hm)
    simp [cell, insertProc, Cell.fresh, this]
  rw [cells, show items (r.insertProc e).procList = items r.procList ++ [r.next] from items_append _ _,
    List.map_append, List.map_congr_left hold, List.map_singleton, hnew]
  rfl

theorem wf_insertProc (h : WF r) (e : ProcEntry) (he : r.slot e.pid = none) : WF (r.insertProc e) := by
  refine ⟨?_, ?_, ?_⟩
  · intro p hp
    simp only [insertProc, items_append, List.mem_append, List.mem_singleton] at hp ⊢
    rcases hp with hp | rfl
    · exact Nat.lt_succ_of_lt (h.items_lt p hp)
    · exact Nat.lt_succ_self _
  · intro p hp
    simp only [insertProc, recorded_append] at hp ⊢
    exact Nat.lt_succ_of_lt (h.recorded_lt p hp)
  · rw [cells_insertProc h]
    exact Keyed.nodup_append h.pids he

theorem cells_createProcessEntry (h : WF r) (pid : Pid) (name : Name) :
    (r.createProcessEntry cfg env pid name).cells =
      r.cells ++ ((ProcEntry.make cfg env pid name).map Cell.fresh).toList := by
  unfold createProcessEntry
  cases ProcEntry.make cfg env pid name with
  | none => simp
  | some e =>
    simp only [Option.map_some, Option.toList_some]
    split
    · exact cells_insertProc h e
    · exact cells_insertProc h e

theorem wf_createProcessEntry (h : WF r) (pid : Pid) (name : Name) (hs : r.slot pid = none) :
    WF (r.createProcessEntry cfg env pid name) := by
  unfold createProcessEntry
  cases hm : ProcEntry.make cfg env pid name with
  | none => exact h
  | some e =>
    have hpid := (ProcEntry.make_spec hm).1
    have hwf := wf_insertProc h e (by rw [hpid]; exact hs)
    simp only
    split
    · exact hwf
    · exact hwf.congr rfl rfl (Nat.le_succ _)

theorem cells_initEntry (h : WF r) (pid : Pid) :
    (initEntry cfg env r pid).cells = r.cells ++ ((entryFor cfg env pid).map Cell.fresh).toList := by
  unfold initEntry entryFor
  cases getProcNameForPID env pid with
  | none => simp
  | some procName =>
    by_cases hb : isBlacklisted cfg procName = true
    · simp [hb]
    · simp only [hb, if_false, Option.bind_some, Bool.false_eq_true]
      exact cells_createProcessEntry h pid procName

theorem wf_initEntry (h : WF r) {pid : Pid} (hs : r.slot pid = none) : WF (initEntry cfg env r pid) := by
  unfold initEntry
  split
  · exact h
  · split
    · exact h
    · exact wf_createProcessEntry h pid _ hs

theorem slot_initEntry (h : WF r) {pid : Pid} (hs : r.slot pid = none) (q : Pid) :
    (initEntry cfg env r pid).slot q =
      if q = pid then (entryFor cfg env pid).map Cell.fresh else r.slot q := by
  rw [slot, cells_initEntry h]
  cases ha : entryFor cfg env pid with
  | none =>
    by_cases hq : q = pid
    · subst hq
      simpa [slot] using hs
    · simp [hq, slot]
  | some e =>
    have hpid : (Cell.fresh e).pid = pid := entryFor_pid ha
    simp only [Option.map_some, Option.toList_some, Keyed.lookup_append, hpid]
    by_cases hq : q = pid
    · subst hq
      rw [slot] at hs
      simp [hs]
    · have hne : ¬ pid = q := fun h' => hq h'.symm
      simp [hq, hne, slot]

theorem hasProc_iff (pid : Pid) (r : Registry L) : r.hasProc pid = (r.slot pid).isSome := by
  rw [Bool.eq_iff_iff, Option.isSome_iff_ne_none, ne_eq, slot, Keyed.lookup_eq_none]
  simp [hasProc, cells, Cell.pid, cell]

theorem wf_addProcEntry (h : WF r) (pid : Pid) : WF (r.addProcEntry cfg env pid) := by
  unfold addProcEntry
  split
  · exact h
  · rename_i hp
    exact wf_initEntry h (by simpa [hasProc_iff] using hp)

/-- Adding fills an empty slot. -/
theorem slot_addProcEntry (h : WF r) (pid q : Pid) :
    (r.addProcEntry cfg env pid).slot q =
      if q = pid then (r.slot pid).or ((entryFor cfg env pid).map Cell.fresh) else r.slot q := by
  unfold addProcEntry
  rw [hasProc_iff]
  cases hs : r.slot pid with
  | none =>
    rw [if_neg (by simp), slot_initEntry h hs, Option.none_or]
  | some c =>
    rw [if_pos (by simp)]
    by_cases hq : q = pid
    · subst hq
      simp [hs]
    · simp [hq]

theorem wf_updateProcessList (cfg : Config) (env : Env) (h : WF r) : WF (r.updateProcessList cfg env) := by
  unfold updateProcessList
  generalize env.pids = pids
  induction pids generalizing r with
  | nil => exact h
  | cons pid rest ih => exact ih (wf_addProcEntry h pid)

/-- A scan fills every empty slot of a listed pid. -/
theorem slot_updateProcessList (cfg : Config) (env : Env) (h : WF r) (q : Pid) :
    (r.updateProcessList cfg env).slot q =
      if q ∈ env.pids then (r.slot q).or ((entryFor cfg env q).map Cell.fresh) else r.slot q := by
  unfold updateProcessList
  generalize env.pids = pids
  induction pids generalizing r with
  | nil => simp
  | cons pid rest ih =>
    rw [List.foldl_cons, ih (wf_addProcEntry h pid), slot_addProcEntry h]
    by_cases hq : q = pid
    · subst hq
      cases r.slot q <;> cases entryFor cfg env q <;> simp
    · by_cases hr : q ∈ rest <;> simp [hq, hr]

/-- The registry read from procfs at start holds what can be admitted. -/
theorem initFromProc_spec (cfg : Config) (hn : env.pids.Nodup) :
    WF (initFromProc cfg env (empty : Registry L)) ∧
      ∀ q, (initFromProc cfg env (empty : Registry L)).slot q =
        if q ∈ env.pids then (entryFor cfg env q).map Cell.fresh else none := by
  have main : ∀ (pids : List Pid) (r : Registry L), pids.Nodup → WF r → (∀ q ∈ pids, r.slot q = none) →
      WF (pids.foldl (initEntry cfg env) r) ∧ ∀ q, (pids.foldl (initEntry cfg env) r).slot q =
        if q ∈ pids then (entryFor cfg env q).map Cell.fresh else r.slot q := by
    intro pids
    induction pids with
    | nil => exact fun r _ h _ => ⟨h, fun q => by simp⟩
    | cons pid rest ih =>
      intro r hn h hs
      rw [List.nodup_cons] at hn
      have hpid := hs pid (List.mem_cons_self ..)
      have hslot (q : Pid) : (initEntry cfg env r pid).slot q =
          if q = pid then (entryFor cfg env pid).map Cell.fresh else r.slot q := slot_initEntry h hpid q
      obtain ⟨hwf, hrest⟩ := ih (initEntry cfg env r pid) hn.2 (wf_initEntry h hpid) (fun q hq => by
        have hne : q ≠ pid := fun he => hn.1 (he ▸ hq)
        rw [hslot, if_neg hne]
        exact hs q (List.mem_cons_of_mem pid hq))
      refine ⟨hwf, fun q => ?_⟩
      rw [List.foldl_cons, hrest q, hslot]
      by_cases hq : q = pid
      · subst hq
        simp [hn.1]
      · by_cases hr : q ∈ rest <;> simp [hq, hr]
  have hempty : ∀ q, (empty : Registry L).slot q = none := fun q => by simp [slot, cells, empty]
  obtain ⟨hwf, hslot⟩ := main env.pids empty hn wf_empty (fun q _ => hempty q)
  exact ⟨hwf, fun q => by rw [initFromProc, hslot, hempty]⟩

/-! ### Lane updates -/

theorem Cell.updLane_pid (lane : UpdateLane) (c : Cell) : (c.updLane cfg env lane).pid = c.pid := by
  cases lane with
  | pace => exact (ProcEntry.updateProcInfo_spec cfg env c.entry).pid
  | slow =>
    show (Cell.updAcct cfg env c).pid = c.pid
    unfold Cell.updAcct
    split
    · exact (ProcEntry.updateProcAcct_info env c.entry).1
    · rfl
  | fast => rfl
  | any => rfl

theorem acts_updateProcInfo :
    Acts (updateProcInfo (L := L) cfg env) (Cell.updInfo cfg env) :=
  acts_storeUpdate fun e => (ProcEntry.updateProcInfo_spec cfg env e).pid

theorem acts_updateProcAcct :
    Acts (fun (r : Registry L) p => if cfg.withProcAcct && cfg.procAcct then updateProcAcct env r p else r)
      (Cell.updAcct cfg env) := by
  let upd (e : ProcEntry) : ProcEntry × Bool := ((e.updateProcAcct env).1, (e.updateProcAcct env).2.2)
  have hpid (e : ProcEntry) : (upd e).1.pid = e.pid := (ProcEntry.updateProcAcct_info env e).1
  have hupd := acts_storeUpdate (L := L) hpid
  unfold Cell.updAcct
  by_cases hc : (cfg.withProcAcct && cfg.procAcct) = true
  · simp only [hc, if_true]
    exact hupd
  · simp only [hc, if_false, Bool.false_eq_true]
    exact ⟨fun _ => rfl, fun _ _ h _ => h, fun _ _ => rfl, fun _ _ _ _ _ _ => by split <;> rfl⟩

/-- Where events stand in for the scan, a lane update maps over the cells. -/
theorem update_cells (he : eventDriven cfg = true) (h : WF r) (lane : UpdateLane) :
    WF (r.update cfg env lane) ∧
      (r.update cfg env lane).cells = r.cells.map (Cell.updLane cfg env lane) := by
  unfold update
  simp only [he, if_true]
  cases lane with
  | pace => exact acts_updateProcInfo.traverse h
  | slow => exact acts_updateProcAcct.traverse h
  | fast => exact ⟨h, (List.map_id _).symm⟩
  | any => exact ⟨h, (List.map_id _).symm⟩

theorem slot_update (he : eventDriven cfg = true) (h : WF r) (lane : UpdateLane) (q : Pid) :
    (r.update cfg env lane).slot q = (r.slot q).map (Cell.updLane cfg env lane) :=
  slot_map (Cell.updLane_pid lane) (update_cells he h lane).2 q

/-! ### Taskstats replies -/

/-- The entry looked up for a pid is listed under it; where none is, no entry is. -/
theorem getProcEntry_spec (r : Registry L) (pid : Pid) :
    match r.getProcEntry pid with
    | none => ∀ p ∈ items r.procList, (r.procs p).pid ≠ pid
    | some p => p ∈ items r.procList ∧ (r.procs p).pid = pid := by
  unfold getProcEntry foreach
  induction items r.procList using List.reverseRecOn with
  | nil => simp
  | append_singleton ps p ih =>
    rw [List.foldl_concat]
    by_cases hp : (r.procs p).pid = pid
    · simp [hp]
    · rw [if_neg (by simpa using hp)]
      split at ih
      · intro q hq
        rcases List.mem_append.mp hq with hq | hq
        · exact ih q hq
        · rwa [List.mem_singleton.mp hq]
      · exact ⟨List.mem_append_left _ ih.1, ih.2⟩

@[simp] theorem Cell.answered_pid (t : Taskstats) (c : Cell) : (c.answered t).pid = c.pid := by
  unfold Cell.answered
  split <;> rfl

@[simp] theorem Cell.answered_info (t : Taskstats) (c : Cell) : (c.answered t).entry.info = c.entry.info := by
  unfold Cell.answered
  split <;> rfl

@[simp] theorem Cell.answered_condemned (t : Taskstats) (c : Cell) :
    (c.answered t).condemned = c.condemned := by
  unfold Cell.answered
  split <;> rfl

@[simp] theorem Cell.answered_updatePending (t : Taskstats) (c : Cell) :
    (c.answered t).entry.updatePending = c.entry.updatePending := by
  unfold Cell.answered
  split <;> rfl

/-- A reply changes the cell of its pid. -/
theorem processDelayAcct_cells (h : WF r) (t : Taskstats) :
    WF (r.processDelayAcct t) ∧ (r.processDelayAcct t).cells = r.cells.map (Cell.answered t) := by
  have hentry := getProcEntry_spec r t.acPid.toNat
  unfold processDelayAcct
  split
  · rename_i hnone
    rw [hnone] at hentry
    exact ⟨h, cells_eq_map rfl fun p hp => (if_neg (hentry p hp)).symm⟩
  · rename_i p hsome
    rw [hsome] at hentry
    obtain ⟨hp, hpid⟩ := hentry
    refine ⟨wf_setProc h rfl, cells_eq_map rfl fun q hq => ?_⟩
    rw [cell_setProc]
    by_cases hqp : q = p
    · subst hqp
      exact (if_pos rfl).trans (if_pos hpid).symm
    · have hne : (r.procs q).pid ≠ t.acPid.toNat := fun h' => hqp (h.ptr_eq hq hp (h'.trans hpid.symm))
      exact (if_neg hqp).trans (if_neg hne).symm

theorem slot_processDelayAcct (h : WF r) (t : Taskstats) (q : Pid) :
    (r.processDelayAcct t).slot q = (r.slot q).map (Cell.answered t) :=
  slot_map (Cell.answered_pid t) (processDelayAcct_cells h t).2 q

/-! ### Requests -/

/-- A ContextInfo request leaves the processes alone. -/
theorem updateContext_procs (r : Registry L) (cs : List Ptr) :
    (cs.foldl updateContext r).procList = r.procList ∧ (cs.foldl updateContext r).procs = r.procs ∧
      (cs.foldl updateContext r).next = r.next ∧ (cs.foldl updateContext r).queue = r.queue := by
  induction cs generalizing r with
  | nil => exact ⟨rfl, rfl, rfl, rfl⟩
  | cons c rest ih =>
    have hstep : (updateContext r c).procList = r.procList ∧ (updateContext r c).procs = r.procs ∧
        (updateContext r c).next = r.next ∧ (updateContext r c).queue = r.queue := by
      unfold updateContext
      simp only
      split <;> exact ⟨rfl, rfl, rfl, rfl⟩
    obtain ⟨hl, hp, hn, hq⟩ := ih (updateContext r c)
    exact ⟨hl.trans hstep.1, hp.trans hstep.2.1, hn.trans hstep.2.2.1, hq.trans hstep.2.2.2⟩

/-- A request either commits the process list or leaves it alone. -/
theorem requestHandler_cells (rq : Request) (h : WF r) :
    WF (requestHandler cfg rq r).1 ∧ (requestHandler cfg rq r).1.cells =
      if rq.action = .commitProcList then r.cells.filter (fun c => !c.condemned) else r.cells := by
  unfold requestHandler
  cases rq.action with
  | commitProcList => exact ⟨wf_commitProcs h, cells_commitProcs r⟩
  | commitContextList => exact ⟨h.congr rfl rfl (Nat.le_refl _), cells_congr rfl rfl⟩
  | collectAndSendProcAcct =>
    have hr : (doCollectAndSendProcAcct cfg r).1 = r := by
      unfold doCollectAndSendProcAcct
      split <;> rfl
    show WF (doCollectAndSendProcAcct cfg r).1 ∧ (doCollectAndSendProcAcct cfg r).1.cells = r.cells
    rw [hr]
    exact ⟨h, rfl⟩
  | collectAndSendProcInfo => exact ⟨h, rfl⟩
  | collectAndSendContextInfo =>
    obtain ⟨hl, hp, hn, _⟩ := updateContext_procs r (items r.contextList)
    exact ⟨h.congr hl hp hn.ge, cells_congr hl hp⟩

theorem slot_requestHandler (cfg : Config) (rq : Request) (h : WF r) (q : Pid) :
    (requestHandler cfg rq r).1.slot q =
      if rq.action = .commitProcList then (r.slot q).filter (fun c => !c.condemned) else r.slot q := by
  rw [slot, (requestHandler_cells rq h).2]
  split
  · exact Keyed.lookup_filter _ h.pids q
  · rfl

/-- A dispatch handles the oldest request. -/
theorem dispatch_eq_some {out : Registry L × List Data} (h : r.dispatch cfg = some out) :
    ∃ rq rest, r.queue = rq :: rest ∧ out = requestHandler cfg rq {r with queue := rest} := by
  unfold dispatch at h
  split at h
  · cases h
  · rename_i rq rest hq
    exact ⟨rq, rest, hq, (Option.some.inj h).symm⟩

theorem dispatch_some {t : Registry L} (h : (r.dispatch cfg).map Prod.fst = some t) :
    ∃ rq rest, r.queue = rq :: rest ∧ t = (requestHandler cfg rq {r with queue := rest}).1 := by
  obtain ⟨out, hd, rfl⟩ := Option.map_eq_some_iff.mp h
  obtain ⟨rq, rest, hq, rfl⟩ := dispatch_eq_some hd
  exact ⟨rq, rest, hq, rfl⟩

/-! ### Every recorded removal has its commit requested -/

theorem requested_clean {r : Registry L} (h : recorded r.procList = []) : Requested r := by
  intro p hp
  rw [h] at hp
  cases hp

theorem requested_commitProcs (r : Registry L) : Requested r.commitProcs :=
  requested_clean (recorded_commit r.procList)

theorem requested_updProcEntry (pid : Pid) : Requested (r.updProcEntry cfg env pid) :=
  requested_commitProcs _

theorem requested_remEntries (which : ProcEntry → Bool) (sync : Bool) :
    Requested (r.remEntries which sync) := by
  cases sync
  · intro _ _
    exact ⟨{action := .commitProcList}, List.mem_append_right _ (List.mem_singleton_self _), rfl⟩
  · exact requested_commitProcs _

theorem requested_congr {r' : Registry L} (h : Requested r)
    (hr : recorded r'.procList = recorded r.procList) (hq : r'.queue = r.queue) : Requested r' := by
  intro p hp
  rw [hq]
  exact h p (hr ▸ hp)

theorem requested_storeUpdate (h : Requested r) (p : Ptr) (e : ProcEntry) (status : Bool) :
    Requested (r.storeUpdate p e status) := by
  cases status
  · exact requested_remEntries (r := r.setProc p e) (fun e' => e'.pid == e.pid) false
  · exact requested_congr h rfl rfl

theorem requested_foldl {body : Registry L → Ptr → Registry L}
    (hb : ∀ r p, Requested r → Requested (body r p)) (ps : List Ptr) (h : Requested r) :
    Requested (ps.foldl body r) := by
  induction ps generalizing r with
  | nil => exact h
  | cons p rest ih => exact ih (hb r p h)

theorem requested_createProcessEntry (h : Requested r) (pid : Pid) (name : Name) :
    Requested (r.createProcessEntry cfg env pid name) := by
  unfold createProcessEntry
  cases ProcEntry.make cfg env pid name with
  | none => exact h
  | some e =>
    have hinsert : Requested (r.insertProc e) := requested_congr h (recorded_append _ _) rfl
    simp only
    split
    · exact hinsert
    · exact requested_congr hinsert rfl rfl

theorem requested_initEntry (h : Requested r) (pid : Pid) : Requested (initEntry cfg env r pid) := by
  unfold initEntry
  split
  · exact h
  · split
    · exact h
    · exact requested_createProcessEntry h pid _

theorem requested_initFromProc (cfg : Config) (env : Env) :
    Requested (initFromProc cfg env (empty : Registry L)) := by
  unfold initFromProc
  exact requested_foldl (fun _ pid h => requested_initEntry h pid) _ (requested_clean (by simp [empty]))

theorem requested_addProcEntry (h : Requested r) (pid : Pid) :
    Requested (r.addProcEntry cfg env pid) := by
  unfold addProcEntry
  split
  · exact h
  · exact requested_initEntry h pid

theorem requested_updateProcessList (h : Requested r) : Requested (r.updateProcessList cfg env) :=
  requested_foldl (fun _ pid h => requested_addProcEntry h pid) env.pids h

theorem requested_update (h : Requested r) (lane : UpdateLane) :
    Requested (r.update cfg env lane) := by
  have hscan : Requested (if eventDriven cfg then r else r.updateProcessList cfg env) := by
    split
    · exact h
    · exact requested_updateProcessList h
  unfold update
  cases lane with
  | slow =>
    refine requested_foldl (fun r p h => ?_) _ hscan
    split
    · exact requested_storeUpdate h _ _ _
    · exact h
  | pace => exact requested_foldl (fun r p h => requested_storeUpdate h _ _ _) _ hscan
  | fast => exact hscan
  | any => exact hscan

theorem requested_processDelayAcct (h : Requested r) (t : Taskstats) : Requested (r.processDelayAcct t) := by
  unfold processDelayAcct
  split
  · exact h
  · exact requested_congr h rfl rfl

theorem requested_dispatch (h : Requested r) {rq : Request} {rest : List Request}
    (hq : r.queue = rq :: rest) :
    Requested (requestHandler cfg rq {r with queue := rest}).1 := by
  by_cases ha : rq.action = .commitProcList
  · simp only [requestHandler, ha, doCommitProcList]
    exact requested_commitProcs _
  · have hrest : Requested ({r with queue := rest} : Registry L) := by
      intro p hp
      obtain ⟨rq', hm, ha'⟩ := h p hp
      rw [hq] at hm
      rcases List.mem_cons.mp hm with rfl | hm
      · exact absurd ha' ha
      · exact ⟨rq', hm, ha'⟩
    unfold requestHandler
    cases hc : rq.action with
    | commitProcList => exact absurd hc ha
    | commitContextList => exact requested_congr hrest rfl rfl
    | collectAndSendProcAcct =>
      simp only [doCollectAndSendProcAcct]
      split <;> exact hrest
    | collectAndSendProcInfo => exact hrest
    | collectAndSendContextInfo =>
      obtain ⟨hl, _, _, hqueue⟩ :=
        updateContext_procs ({r with queue := rest} : Registry L) (items r.contextList)
      intro p hp
      obtain ⟨rq', hm, ha'⟩ := hrest p (congrArg recorded hl ▸ hp)
      exact ⟨rq', List.mem_append_left _ (hqueue.symm ▸ hm : rq' ∈ Registry.queue _), ha'⟩

/-- With no commit pending, no removal is. -/
theorem Requested.settled (h : Requested r) (hq : Committed r) (pid : Pid) {c : Cell}
    (hc : r.slot pid = some c) : c.condemned = false := by
  obtain ⟨p, _, rfl, _⟩ := slot_some hc
  have hp : p ∉ recorded r.procList := by
    intro hp
    obtain ⟨rq, hrq, ha⟩ := h p hp
    exact hq rq hrq ha
  simp [cell, hp]

end Registry
end TaskMonitor

import TaskMonitor.Lib.Keyed
import TaskMonitor.Registry.Basic

/-! The process list as a list of cells keyed by pid.

A cell is an entry with the mark of a recorded removal. Behind the pointers every
operation of the registry is an operation on the list of cells: adding appends
one, a traversal maps over them, a commit filters the marked ones out. With one
cell a pid (`WF`), `slot` says what the registry holds for a pid, and each
operation changes it as the lemmas `slot_…` state; proofs about the registry use
these and never unfold a traversal again. -/
namespace TaskMonitor.Registry
open DeferredList

variable {L : Type → Type} [DeferredList L] {cfg : Config} {env : Env} {r : Registry L}

structure Cell where
  entry : ProcEntry
  /-- A removal is recorded and not yet committed. -/
  condemned : Bool

namespace Cell

def pid (c : Cell) : Pid := c.entry.pid

/-- The cell after a removal is recorded for the entries that satisfy `which`. -/
def mark (which : ProcEntry → Bool) (c : Cell) : Cell := {c with condemned := c.condemned || which c.entry}

/-- The cell after an exec of its process was handled. -/
def updName (cfg : Config) (env : Env) (pid : Pid) (c : Cell) : Cell :=
  if c.pid = pid then
    match getProcNameForPID env pid with
    | none => c
    | some procName =>
      if c.entry.getName = procName then c
      else if isBlacklisted cfg procName then {c with condemned := true}
      else {c with entry := c.entry.setName procName}
  else c

/-- The cell after its entry was updated on the Pace lane. -/
def updInfo (cfg : Config) (env : Env) (c : Cell) : Cell :=
  ⟨(c.entry.updateProcInfo cfg env).1, c.condemned || !(c.entry.updateProcInfo cfg env).2⟩

/-- The cell after its entry was updated on the Slow lane. -/
def updAcct (cfg : Config) (env : Env) (c : Cell) : Cell :=
  if cfg.withProcAcct && cfg.procAcct then
    ⟨(c.entry.updateProcAcct env).1, c.condemned || !(c.entry.updateProcAcct env).2.2⟩
  else c

/-- The cell after a taskstats reply. -/
def answered (t : Taskstats) (c : Cell) : Cell :=
  if c.pid = t.acPid.toNat then {c with entry := (c.entry.setAcct (.ofTaskstats t)).setUpdateProcAcctPending false}
  else c

def updLane (cfg : Config) (env : Env) (lane : UpdateLane) : Cell → Cell :=
  match lane with
  | .pace => updInfo cfg env
  | .slow => updAcct cfg env
  | .fast | .any => id

end Cell

def cell (r : Registry L) (p : Ptr) : Cell := ⟨r.procs p, decide (p ∈ recorded r.procList)⟩

def cells (r : Registry L) : List Cell := (items r.procList).map r.cell

/-- What the registry holds for a pid. -/
def slot (r : Registry L) (pid : Pid) : Option Cell := Keyed.lookup Cell.pid pid r.cells

/-- The pids and names of the process list. -/
def tracked (r : Registry L) : List (Pid × Name) :=
  (items r.procList).map fun p => ((r.procs p).pid, (r.procs p).getName)

/-- Pointers in use are below the next one, and no two entries share a pid. -/
structure WF (r : Registry L) : Prop where
  items_lt : ∀ p ∈ items r.procList, p < r.next
  recorded_lt : ∀ p ∈ recorded r.procList, p < r.next
  pids : (r.cells.map Cell.pid).Nodup

/-- A commit is requested wherever a removal is recorded. -/
def Requested (r : Registry L) : Prop :=
  ∀ p ∈ recorded r.procList, ∃ rq ∈ r.queue, rq.action = .commitProcList

/-- No commit of the process list is pending. -/
def Committed (r : Registry L) : Prop := ∀ rq ∈ r.queue, rq.action ≠ .commitProcList

theorem wf_empty : WF (empty : Registry L) := by
  refine ⟨?_, ?_, ?_⟩ <;> simp [empty, cells]

theorem WF.items_nodup (h : WF r) : (items r.procList).Nodup := by
  have := h.pids
  rw [cells, List.map_map] at this
  exact List.Nodup.of_map _ this

/-- Two listed pointers to entries with one pid are one pointer. -/
theorem WF.ptr_eq (h : WF r) {p q : Ptr} (hp : p ∈ items r.procList) (hq : q ∈ items r.procList)
    (he : (r.procs p).pid = (r.procs q).pid) : p = q := by
  have hn := h.pids
  rw [cells, List.map_map] at hn
  exact List.inj_on_of_nodup_map hn hp hq he

/-- A listed pointer is found under the pid of its entry. -/
theorem WF.slot_listed (h : WF r) {p : Ptr} (hp : p ∈ items r.procList) :
    r.slot (r.procs p).pid = some (r.cell p) :=
  Keyed.lookup_of_mem h.pids (List.mem_map_of_mem hp)

/-- What is found under a pid is behind a listed pointer. -/
theorem slot_some {pid : Pid} {c : Cell} (h : r.slot pid = some c) :
    ∃ p ∈ items r.procList, r.cell p = c ∧ (r.procs p).pid = pid := by
  obtain ⟨hm, hpid⟩ := Keyed.lookup_some h
  obtain ⟨p, hp, rfl⟩ := List.mem_map.mp hm
  exact ⟨p, hp, rfl, hpid⟩

theorem tracked_eq (r : Registry L) : r.tracked = r.cells.map fun c => (c.pid, c.entry.getName) := by
  rw [cells, List.map_map]
  rfl

theorem WF.tracked_nodup (h : WF r) : r.tracked.Nodup := by
  refine List.Nodup.of_map Prod.fst ?_
  rw [tracked_eq, List.map_map]
  exact h.pids

theorem WF.mem_tracked (h : WF r) (pid : Pid) (name : Name) :
    (pid, name) ∈ r.tracked ↔ ∃ c, r.slot pid = some c ∧ c.entry.getName = name := by
  simp only [tracked_eq, List.mem_map, slot, Keyed.lookup_eq_some h.pids, Prod.mk.injEq, and_assoc]

/-! ### Traversals -/

theorem cells_eq_map {r' : Registry L} {f : Cell → Cell}
    (hitems : items r'.procList = items r.procList)
    (hcell : ∀ p ∈ items r.procList, r'.cell p = f (r.cell p)) : r'.cells = r.cells.map f := by
  rw [cells, cells, hitems, List.map_map]
  exact List.map_congr_left hcell

theorem cells_congr {r' : Registry L} (hlist : r'.procList = r.procList) (hprocs : r'.procs = r.procs) :
    r'.cells = r.cells := by
  rw [cells, cells, show r'.cell = r.cell by funext p; simp only [cell, hlist, hprocs], hlist]

theorem WF.congr {r' : Registry L} (h : WF r) (hlist : r'.procList = r.procList)
    (hprocs : r'.procs = r.procs) (hnext : r.next ≤ r'.next) : WF r' := by
  refine ⟨?_, ?_, ?_⟩
  · rw [hlist]
    exact fun p hp => (h.items_lt p hp).trans_le hnext
  · rw [hlist]
    exact fun p hp => (h.recorded_lt p hp).trans_le hnext
  · rw [cells_congr hlist hprocs]
    exact h.pids

/-- What a traversal does to the cell of each pointer, given what its body does to one:
the body acts by `f` on the pointer it is at and keeps the other cells. -/
structure Acts (body : Registry L → Ptr → Registry L) (f : Cell → Cell) : Prop where
  pid : ∀ c, (f c).pid = c.pid
  wf : ∀ r p, WF r → p ∈ items r.procList → WF (body r p)
  keeps : ∀ r p, items (body r p).procList = items r.procList
  cell : ∀ r p, WF r → p ∈ items r.procList → ∀ q ∈ items r.procList,
    (body r p).cell q = if q = p then f (r.cell q) else r.cell q

theorem items_foldl {body : Registry L → Ptr → Registry L}
    (hk : ∀ r p, items (body r p).procList = items r.procList) (ps : List Ptr) (r : Registry L) :
    items (ps.foldl body r).procList = items r.procList := by
  induction ps generalizing r with
  | nil => rfl
  | cons p rest ih => exact (ih _).trans (hk r p)

theorem Acts.foldl {body : Registry L → Ptr → Registry L} {f : Cell → Cell} (ha : Acts body f)
    (ps : List Ptr) (hn : ps.Nodup) (r : Registry L) (h : WF r) (hps : ∀ p ∈ ps, p ∈ items r.procList) :
    WF (ps.foldl body r) ∧
      ∀ q ∈ items r.procList, (ps.foldl body r).cell q = if q ∈ ps then f (r.cell q) else r.cell q := by
  induction ps generalizing r with
  | nil => exact ⟨h, fun q _ => by simp⟩
  | cons p rest ih =>
    rw [List.nodup_cons] at hn
    have hp := hps p (List.mem_cons_self ..)
    have hi := ha.keeps r p
    obtain ⟨hwf, hcell⟩ := ih hn.2 (body r p) (ha.wf r p h hp)
      (fun q hq => by rw [hi]; exact hps q (List.mem_cons_of_mem p hq))
    refine ⟨hwf, fun q hq => ?_⟩
    rw [List.foldl_cons, hcell q (by rw [hi]; exact hq), ha.cell r p h hp q hq]
    by_cases hqp : q = p
    · subst hqp
      simp [hn.1]
    · by_cases hqr : q ∈ rest <;> simp [hqp, hqr]

/-- **A traversal maps over the cells.** -/
theorem Acts.traverse {body : Registry L → Ptr → Registry L} {f : Cell → Cell} (ha : Acts body f)
    (h : WF r) :
    WF (foreach r.procList body r) ∧ (foreach r.procList body r).cells = r.cells.map f := by
  obtain ⟨hwf, hcell⟩ := ha.foldl (items r.procList) h.items_nodup r h (fun _ hp => hp)
  exact ⟨hwf, cells_eq_map (items_foldl ha.keeps _ r) fun p hp => by rw [foreach, hcell p hp, if_pos hp]⟩

/-! ### Recording and committing removals -/

@[simp] theorem cell_condemn (r : Registry L) (p q : Ptr) :
    (r.condemn p).cell q = {r.cell q with condemned := (r.cell q).condemned || decide (q = p)} := by
  simp [cell, condemn, Bool.decide_or, Bool.or_comm]

theorem wf_condemn (h : WF r) {p : Ptr} (hp : p ∈ items r.procList) : WF (r.condemn p) := by
  refine ⟨?_, ?_, ?_⟩
  · simpa [condemn] using h.items_lt
  · intro q hq
    rcases (mem_recorded_remove _ _ _).mp hq with rfl | hq
    · exact h.items_lt q hp
    · exact h.recorded_lt q hq
  · have : (r.condemn p).cells.map Cell.pid = r.cells.map Cell.pid := by
      simp [cells, condemn, cell, Cell.pid, Function.comp_def]
    rw [this]
    exact h.pids

theorem acts_condemn (which : ProcEntry → Bool) :
    Acts (fun (r : Registry L) p => if which (r.procs p) then r.condemn p else r) (Cell.mark which) where
  pid := fun _ => rfl
  wf := fun r p h hp => by
    by_cases hw : which (r.procs p) = true
    · simpa [hw] using wf_condemn h hp
    · simpa [hw] using h
  keeps := fun r p => by
    by_cases hw : which (r.procs p) = true <;> simp [hw, condemn]
  cell := fun r p _ _ q _ => by
    by_cases hw : which (r.procs p) = true
    · simp only [hw, if_true, cell_condemn]
      by_cases hq : q = p
      · subst hq
        have he : which (r.cell q).entry = true := hw
        simp [Cell.mark, he]
      · simp [hq]
    · by_cases hq : q = p
      · subst hq
        have he : which (r.cell q).entry = false := (Bool.not_eq_true _).mp hw
        simp [Cell.mark, he, hw]
      · simp [hw, hq]

theorem cells_commitProcs (r : Registry L) :
    r.commitProcs.cells = r.cells.filter fun c => !c.condemned := by
  simp only [cells, commitProcs, items_commit, List.filter_map]
  have hp : ((fun c : Cell => !c.condemned) ∘ r.cell) = fun p => decide (p ∉ recorded r.procList) := by
    funext p
    simp [cell]
  rw [hp]
  apply List.map_congr_left
  intro p hp
  have : p ∉ recorded r.procList := by simpa using (List.mem_filter.mp hp).2
  simp [cell, this]

theorem wf_commitProcs (h : WF r) : WF r.commitProcs := by
  refine ⟨?_, ?_, ?_⟩
  · intro p hp
    exact h.items_lt p ((mem_items_commit _ _).mp hp).1
  · intro p hp
    simp [commitProcs] at hp
  · rw [cells_commitProcs]
    exact Keyed.nodup_filter _ h.pids

theorem slot_commitProcs (h : WF r) (pid : Pid) :
    r.commitProcs.slot pid = (r.slot pid).filter fun c => !c.condemned := by
  rw [slot, cells_commitProcs, Keyed.lookup_filter _ h.pids]
  rfl

theorem slot_map {r' : Registry L} {f : Cell → Cell} (hf : ∀ c, (f c).pid = c.pid)
    (hcells : r'.cells = r.cells.map f) (pid : Pid) : r'.slot pid = (r.slot pid).map f := by
  rw [slot, hcells, Keyed.lookup_map f hf]
  rfl

theorem items_remEntries (which : ProcEntry → Bool) (r : Registry L) :
    items (r.remEntries which false).procList = items r.procList :=
  items_foldl (acts_condemn which).keeps _ r

/-- Without a commit, the entries that satisfy `which` are marked. -/
theorem remEntries_cell (which : ProcEntry → Bool) (h : WF r) :
    WF (r.remEntries which false) ∧
      ∀ q ∈ items r.procList, (r.remEntries which false).cell q = (r.cell q).mark which := by
  obtain ⟨hwf, hcell⟩ :=
    (acts_condemn (L := L) which).foldl (items r.procList) h.items_nodup r h (fun _ hp => hp)
  exact ⟨hwf.congr rfl rfl (Nat.le_refl _), fun q hq => (hcell q hq).trans (if_pos hq)⟩

theorem cells_remEntries (which : ProcEntry → Bool) (h : WF r) :
    (r.remEntries which false).cells = r.cells.map (Cell.mark which) :=
  cells_eq_map (items_remEntries which r) (remEntries_cell which h).2

/-- With a commit, every marked entry leaves. -/
theorem cells_remEntries_sync (which : ProcEntry → Bool) (h : WF r) :
    (r.remEntries which true).cells =
      (r.cells.map (Cell.mark which)).filter fun c => !c.condemned := by
  simp only [remEntries, if_true, cells_commitProcs]
  rw [((acts_condemn (L := L) which).traverse h).2]

theorem wf_remEntries (which : ProcEntry → Bool) (sync : Bool) (h : WF r) :
    WF (r.remEntries which sync) := by
  cases sync
  · exact (remEntries_cell which h).1
  · exact wf_commitProcs ((acts_condemn (L := L) which).traverse h).1

theorem slot_pid {pid : Pid} {c : Cell} (h : r.slot pid = some c) : c.pid = pid :=
  (Keyed.lookup_some h).2

/-- A removal with its commit empties the slot of its pid, and commits the others. -/
theorem slot_remProcEntry_sync (h : WF r) (pid q : Pid) :
    (r.remProcEntry pid true).slot q =
      if q = pid then none else (r.slot q).filter fun c => !c.condemned := by
  have hpid (c : Cell) : (c.mark fun e => e.pid == pid).pid = c.pid := rfl
  have hn := Keyed.nodup_map hpid h.pids
  rw [slot, remProcEntry, cells_remEntries_sync _ h, Keyed.lookup_filter _ hn,
    Keyed.lookup_map (Cell.mark _) (fun _ => rfl)]
  cases hs : Keyed.lookup Cell.pid q r.cells with
  | none => simp [slot, hs]
  | some c =>
    have hc : c.entry.pid = q := (Keyed.lookup_some hs).2
    by_cases hq : q = pid
    · simp [Cell.mark, hc, hq, Option.filter_some]
    · have hb : (q == pid) = false := by simpa using hq
      simp [slot, hs, Cell.mark, hc, hq, hb, Option.filter_some]

/-! ### Updates through a pointer -/

theorem cell_setProc (r : Registry L) (p : Ptr) (e : ProcEntry) (q : Ptr) :
    (r.setProc p e).cell q = if q = p then ⟨e, (r.cell q).condemned⟩ else r.cell q := by
  show (⟨Function.update r.procs p e q, (r.cell q).condemned⟩ : Cell) = _
  rw [Function.update_apply]
  split <;> rfl

theorem wf_setProc (h : WF r) {p : Ptr} {e : ProcEntry} (he : e.pid = (r.procs p).pid) :
    WF (r.setProc p e) := by
  refine ⟨h.items_lt, h.recorded_lt, ?_⟩
  have : (r.setProc p e).cells.map Cell.pid = r.cells.map Cell.pid := by
    simp only [cells, List.map_map]
    apply List.map_congr_left
    intro q _
    simp only [Function.comp_apply, cell_setProc]
    by_cases hq : q = p
    · subst hq
      simp [Cell.pid, cell, he]
    · simp [hq]
  rw [this]
  exact h.pids

theorem acts_updName (cfg : Config) (env : Env) (pid : Pid) :
    Acts (updName (L := L) cfg env pid) (Cell.updName cfg env pid) where
  pid := fun c => by
    unfold Cell.updName
    (repeat' split) <;> rfl
  wf := fun r p h hp => by
    unfold updName
    repeat' split
    · exact h
    · exact h
    · exact wf_condemn h hp
    · exact wf_setProc h rfl
    · exact h
  keeps := fun r p => by
    unfold updName
    (repeat' split) <;> simp [condemn, setProc]
  cell := fun r p _ _ q _ => by
    by_cases hq : q = p
    · subst hq
      rw [if_pos rfl]
      unfold updName Cell.updName
      by_cases hpid : (r.procs q).pid = pid
      · cases hname : getProcNameForPID env pid with
        | none => simp [hpid]
        | some procName =>
          by_cases hsame : (r.procs q).getName = procName
          · simp [hpid, hsame, cell, Cell.pid]
          · by_cases hb : isBlacklisted cfg procName = true
            · simp [hpid, hsame, hb, Cell.pid, cell, condemn]
            · simp [hpid, hsame, hb, Cell.pid, cell, setProc]
      · simp [hpid, cell, Cell.pid]
    · rw [if_neg hq]
      unfold updName
      repeat' split
      · rfl
      · rfl
      · simp [hq]
      · simp [cell_setProc, hq]
      · rfl

theorem wf_updProcEntry (h : WF r) (pid : Pid) : WF (r.updProcEntry cfg env pid) :=
  wf_commitProcs ((acts_updName cfg env pid).traverse h).1

/-- An exec updates the cell of its pid, and commits every removal. -/
theorem slot_updProcEntry (h : WF r) (pid q : Pid) :
    (r.updProcEntry cfg env pid).slot q =
      ((r.slot q).map (Cell.updName cfg env pid)).filter fun c => !c.condemned := by
  obtain ⟨hwf, hcells⟩ := (acts_updName (L := L) cfg env pid).traverse h
  rw [updProcEntry, slot_commitProcs hwf, slot_map (acts_updName (L := L) cfg env pid).pid hcells]

/-- An update that keeps the pid acts on its own cell; one that fails marks it. -/
theorem acts_storeUpdate {upd : ProcEntry → ProcEntry × Bool} (hpid : ∀ e, (upd e).1.pid = e.pid) :
    Acts (fun (r : Registry L) p => r.storeUpdate p (upd (r.procs p)).1 (upd (r.procs p)).2)
      (fun c => ⟨(upd c.entry).1, c.condemned || !(upd c.entry).2⟩) where
  pid := fun c => hpid c.entry
  wf := fun r p h _ => by
    have hset := wf_setProc h (hpid (r.procs p))
    unfold storeUpdate
    split
    · exact hset
    · exact (remEntries_cell _ hset).1
  keeps := fun r p => by
    unfold storeUpdate
    split
    · rfl
    · exact items_remEntries _ _
  cell := fun r p h hp q hq => by
    have hset := wf_setProc h (hpid (r.procs p))
    have hcell := cell_setProc r p (upd (r.procs p)).1 q
    unfold storeUpdate
    cases hs : (upd (r.procs p)).2
    · rw [if_neg Bool.false_ne_true, remProcEntry, (remEntries_cell _ hset).2 q hq, hcell]
      by_cases he : q = p
      · subst he
        simp [Cell.mark, cell, hs]
      · have hne : (r.procs q).pid ≠ (r.procs p).pid := fun h' => he (h.ptr_eq hq hp h')
        simp [Cell.mark, cell, he, hpid, hne]
    · rw [if_pos rfl, hcell]
      by_cases he : q = p
      · subst he
        simp [cell, hs]
      · simp [he]

end TaskMonitor.Registry

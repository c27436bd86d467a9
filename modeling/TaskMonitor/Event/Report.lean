import TaskMonitor.Event.Agreement
import TaskMonitor.Registry.ContextTotals
import Mathlib.Data.List.Forall2
import Mathlib.Data.List.Perm.Basic

/-! What a client that asks for the processes is told.

An update on the Pace lane puts the figures of procfs into the entries, and an
answer copies the entries out. Where no event is lost, the process list is exact
once every event is handled, so the answers after a tick that finds it so show
each process that lived at the tick, with its figures then, until the daemon
reads procfs again. -/
namespace TaskMonitor

namespace ProcEntry
variable {cfg : Config} {env : Env} {e : ProcEntry}

/-- The figures an update takes from the files of a process. -/
structure Reads (cfg : Config) (f : Files) (i : ProcInfoEntry) : Prop where
  cpuTime : ∀ st, f.stat = some st → i.cpuTime = st.utime + st.stime
  memRss : ∀ m n, f.smapsRollup = some m → m.rss = some n → i.memRss = n
  memPss : ∀ m n, f.smapsRollup = some m → m.pss = some n → i.memPss = n
  fdCount : cfg.enableProcFDCount = true → ∀ n, f.fd = some n → i.fdCount = UInt32.ofNat n

theorem readProcStat_cpuTime (env : Env) (e : ProcEntry) {st : Stat} (h : (env.files e.pid).stat = some st) :
    (e.readProcStat env).1.info.cpuTime = st.utime + st.stime := by
  unfold readProcStat
  rw [h]
  simp only
  split <;> rfl

theorem readProcStat_number (env : Env) (e : ProcEntry) : (e.readProcStat env).1.info.pid = e.info.pid := by
  unfold readProcStat
  (repeat' split) <;> rfl

/-- The second read leaves the CPU time, and takes the figures that its lines give. -/
theorem readProcSmapsRollup_info (env : Env) (e : ProcEntry) :
    (e.readProcSmapsRollup env).1.info.pid = e.info.pid ∧
      (e.readProcSmapsRollup env).1.info.cpuTime = e.info.cpuTime ∧
      ∀ m, (env.files e.pid).smapsRollup = some m →
        (e.readProcSmapsRollup env).1.info.memRss = m.rss.getD e.info.memRss ∧
          (e.readProcSmapsRollup env).1.info.memPss = m.pss.getD e.info.memPss := by
  unfold readProcSmapsRollup
  cases (env.files e.pid).smapsRollup with
  | none => exact ⟨rfl, rfl, fun m hm => by cases hm⟩
  | some m' =>
    refine ⟨rfl, rfl, fun m hm => ?_⟩
    obtain rfl := Option.some.inj hm
    exact ⟨rfl, rfl⟩

/-- The third one leaves what the others read. -/
theorem countFileDescriptors_info (env : Env) (e : ProcEntry) :
    (e.countFileDescriptors env).1.info = {e.info with fdCount := (e.countFileDescriptors env).1.info.fdCount} ∧
      ∀ n, (env.files e.pid).fd = some n → (e.countFileDescriptors env).1.info.fdCount = UInt32.ofNat n := by
  unfold countFileDescriptors
  cases (env.files e.pid).fd with
  | none => exact ⟨rfl, fun n hn => by cases hn⟩
  | some n' =>
    refine ⟨rfl, fun n hn => ?_⟩
    obtain rfl := Option.some.inj hn
    rfl

theorem updateInfoData_number (cfg : Config) (env : Env) (e : ProcEntry) :
    (e.updateInfoData cfg env).1.info.pid = e.info.pid := by
  have hstat := readProcStat_number env e
  have hsmaps := (readProcSmapsRollup_info env (e.readProcStat env).1).1
  have hfd := (countFileDescriptors_info env ((e.readProcStat env).1.readProcSmapsRollup env).1).1
  unfold updateInfoData
  simp only
  split
  · exact hstat
  · split
    · exact hsmaps.trans hstat
    · split
      · rw [hfd]
        exact hsmaps.trans hstat
      · exact hsmaps.trans hstat

/-- Where every file could be read, their figures are in the entry. -/
theorem updateInfoData_reads (h : readable cfg (env.files e.pid) = true) :
    Reads cfg (env.files e.pid) (e.updateInfoData cfg env).1.info := by
  obtain ⟨hk, hstat⟩ := readProcStat_spec env e
  obtain ⟨hk', hsmaps⟩ := readProcSmapsRollup_spec env (e.readProcStat env).1
  obtain ⟨_, hcpu, hmem⟩ := readProcSmapsRollup_info env (e.readProcStat env).1
  obtain ⟨hinfo, hfd⟩ := countFileDescriptors_info env ((e.readProcStat env).1.readProcSmapsRollup env).1
  rw [hk.pid] at hsmaps hmem
  rw [hk'.pid, hk.pid] at hfd
  simp only [readable, Bool.and_eq_true] at h
  have hread : Reads {cfg with enableProcFDCount := false} (env.files e.pid)
      ((e.readProcStat env).1.readProcSmapsRollup env).1.info := by
    refine ⟨fun st hst => hcpu.trans (readProcStat_cpuTime env e hst), ?_, ?_, fun hf => by cases hf⟩
    · intro m n hm hn
      rw [(hmem m hm).1, hn]
      rfl
    · intro m n hm hn
      rw [(hmem m hm).2, hn]
      rfl
  unfold updateInfoData
  simp only [hstat, hsmaps, h.1.1, h.1.2, Bool.not_true, Bool.false_eq_true, if_false]
  by_cases hc : cfg.enableProcFDCount = true
  · rw [if_pos hc, hinfo]
    exact ⟨hread.cpuTime, hread.memRss, hread.memPss, fun _ => hfd⟩
  · rw [if_neg hc]
    exact ⟨hread.cpuTime, hread.memRss, hread.memPss, fun hf => absurd hf hc⟩

theorem resolveContext_number (cfg : Config) (env : Env) (e : ProcEntry) :
    (e.resolveContext cfg env).info.pid = e.info.pid := by
  unfold resolveContext
  simp only
  (repeat' split) <;> rfl

theorem updateProcInfo_number (cfg : Config) (env : Env) (e : ProcEntry) :
    (e.updateProcInfo cfg env).1.info.pid = e.info.pid := by
  unfold updateProcInfo
  split
  · rfl
  · exact (updateInfoData_number cfg env _).trans (resolveContext_number cfg env _)

theorem updateProcInfo_reads (hp : e.updatePending = false) (h : readable cfg (env.files e.pid) = true) :
    Reads cfg (env.files e.pid) (e.updateProcInfo cfg env).1.info := by
  have hpid := (resolveContext_spec cfg env {e with updatePending := true}).1
  have hread : Reads cfg (env.files e.pid)
      (({e with updatePending := true}.resolveContext cfg env).updateInfoData cfg env).1.info := by
    have hready : readable cfg (env.files ({e with updatePending := true}.resolveContext cfg env).pid) = true := by
      rw [hpid]
      exact h
    have hinfo := updateInfoData_reads hready
    rw [hpid] at hinfo
    exact hinfo
  unfold updateProcInfo
  rw [if_neg (by simp [hp])]
  exact hread

theorem make_number {pid : Pid} {name : Name} (h : make cfg env pid name = some e) :
    ∃ st, (env.files pid).stat = some st ∧ e.info.pid = st.pid := by
  simp only [make, initInfoData, Option.map_map, Option.map_eq_some_iff, Function.comp_apply] at h
  obtain ⟨st, hst, rfl⟩ := h
  refine ⟨st, hst, ?_⟩
  show (initContext cfg env pid _).pid = st.pid
  unfold initContext
  split <;> rfl

end ProcEntry

namespace System
open Registry Transition DeferredList

variable {L : Type → Type} [DeferredList L] {cfg : Config} {q : Pid} {s t u : System L} {l : Label} {v v' : View}

/-! ### The pid that an entry shows -/

/-- The entry shows the pid it is kept under. -/
def View.Numbered (q : Pid) (v : View) : Prop := ∀ c, v.slot = some c → c.entry.info.pid = UInt32.ofNat q

theorem updLane_number {env : Env} (lane : UpdateLane) (c : Cell) :
    (c.updLane cfg env lane).entry.info.pid = c.entry.info.pid := by
  cases lane with
  | pace => exact ProcEntry.updateProcInfo_number cfg env c.entry
  | slow =>
    simp only [Cell.updLane, Cell.updAcct]
    split
    · rw [(ProcEntry.updateProcAcct_info env c.entry).2]
    · rfl
  | fast => rfl
  | any => rfl

theorem updName_number {env : Env} (c : Cell) : (c.updName cfg env q).entry.info.pid = c.entry.info.pid := by
  unfold Cell.updName
  (repeat' split) <;> rfl

theorem entryFor_number {w : World} {x : Readings} {e : ProcEntry} (h : entryFor cfg (w.env x) q = some e) :
    e.info.pid = UInt32.ofNat q := by
  obtain ⟨st, hst, hpid⟩ := ProcEntry.make_number (entryFor_spec h).2.2
  rw [hpid]
  cases hp : w.find q with
  | none => simp [World.env, World.files, hp] at hst
  | some p =>
    have hfile : ((w.env x).files q).stat = if x.fails q .stat then none
        else some ⟨UInt32.ofNat q, UInt32.ofNat p.ppid, x.utime q, x.stime q⟩ := by
      simp [World.env, World.files, hp]
    rw [hfile] at hst
    split at hst
    · cases hst
    · obtain rfl := Option.some.inj hst
      rfl

theorem numbered_change (hc : Change cfg q l v v') (h : v.Numbered q) : v'.Numbered q := by
  intro c hslot
  cases hc with
  | idle => exact h c hslot
  | fork => exact h c (by simpa using hslot)
  | exec => exact h c (by simpa using hslot)
  | exit => exact h c (by simpa using hslot)
  | reparent => exact h c hslot
  | handle =>
    rcases handle_slot hslot with ⟨_, hold | ⟨_, e, hfor, rfl⟩⟩ | ⟨_, _, c', hold, rfl⟩
    · exact h c hold
    · exact entryFor_number hfor
    · rw [updName_number]
      exact h c' hold
  | commit => exact h c (commit_slot hslot).1
  | scan =>
    rcases scanned_slot hslot with hold | ⟨_, e, hfor, rfl⟩
    · exact h c hold
    · exact entryFor_number hfor
  | lane =>
    obtain ⟨c', hold, rfl⟩ := Option.map_eq_some_iff.mp hslot
    rw [updLane_number]
    exact h c' hold
  | reply =>
    obtain ⟨c', hold, rfl⟩ := Option.map_eq_some_iff.mp hslot
    rw [Cell.answered_info]
    exact h c' hold

/-! ### The context that an entry shows -/

/-- The entry of a process is of its context; only root can have left its name open. -/
def Places (cfg : Config) (p : Process) (e : ProcEntry) : Prop :=
  e.info.ctxId = World.contextOf cfg p ∧ (e.info.ctxName = unknownName → cfg.root = true)

/-- The entry of a live process shows its context. -/
def View.Placed (cfg : Config) (v : View) : Prop :=
  ∀ p c, v.proc = some p → .exit ∉ v.events → v.slot = some c → Places cfg p c.entry

theorem updLane_places {w : World} {x : Readings} {p : Process} {c : Cell} (hw : w.find q = some p) (hc : c.pid = q)
    (lane : UpdateLane) (h : Places cfg p c.entry) : Places cfg p (c.updLane cfg (w.env x) lane).entry := by
  have hc' : c.entry.pid = q := hc
  cases lane with
  | pace =>
    rcases (ProcEntry.updateProcInfo_spec cfg (w.env x) c.entry).context with ⟨hid, hname⟩ | ⟨hagain, hid⟩
    · exact ⟨hid.trans h.1, fun hn => h.2 (hname.symm.trans hn)⟩
    · have hroot := h.2 (ProcEntry.unknown_of_resolvesAgain hagain)
      refine ⟨hid.trans ?_, fun _ => hroot⟩
      simp [World.env, hc', hw, World.contextOf, hroot]
  | slow =>
    simp only [Cell.updLane, Cell.updAcct]
    split
    · unfold Places
      rw [(ProcEntry.updateProcAcct_info (w.env x) c.entry).2]
      exact h
    · exact h
  | fast => exact h
  | any => exact h

theorem updName_places {env : Env} {p : Process} {c : Cell} (h : Places cfg p c.entry) :
    Places cfg p (c.updName cfg env q).entry := by
  unfold Cell.updName
  (repeat' split) <;> exact h

/-- A process keeps its context for its life, and its entry with it. -/
theorem placed_change (hc : Change cfg q l v v') (hpid : ∀ c, v.slot = some c → c.pid = q)
    (hf : FreshFork q l v) (h : v.Placed cfg) : v'.Placed cfg := by
  intro p c hp hexit hslot
  cases hc with
  | idle => exact h p c hp hexit hslot
  | fork => exact (hf.vacuous hexit (by simpa using hslot)).elim
  | @exec _ name lost p' hp' =>
    obtain rfl : p = {p' with name := name} := by simpa using hp.symm
    have hexit' : Kind.exit ∉ v.events := by
      cases lost with
      | true => exact hexit
      | false => exact fun hm => hexit (List.mem_append_left _ hm)
    exact h p' c hp' hexit' (by simpa using hslot)
  | exit => simp at hp
  | reparent hp' =>
    obtain rfl := Option.some.inj hp
    have hold := h _ c hp' hexit hslot
    exact hold
  | handle hw hx he =>
    have hr := hx (by rw [show v.proc = some p from hp]; rfl)
    rcases handle_slot hslot with ⟨rfl, hold | ⟨_, e, hfor, rfl⟩⟩ | ⟨rfl, _, c', hold, rfl⟩
    · exact h p c hp (by simpa [he] using hexit) hold
    · have hdesc := (entryFor_fresh (hw.trans hp) hr hfor).2
      exact ⟨hdesc.ctxId, hdesc.unresolved⟩
    · exact updName_places (h p c' hp (by simpa [he] using hexit) hold)
  | commit => exact h p c hp hexit (commit_slot hslot).1
  | scan hw hx =>
    have hlive : v.proc.isSome := by rw [show v.proc = some p from hp]; rfl
    rcases scanned_slot hslot with hold | ⟨_, e, hfor, rfl⟩
    · exact h p c hp hexit hold
    · have hdesc := (entryFor_fresh (hw.trans hp) (hx hlive) hfor).2
      exact ⟨hdesc.ctxId, hdesc.unresolved⟩
  | lane hw =>
    obtain ⟨c', hold, rfl⟩ := Option.map_eq_some_iff.mp hslot
    exact updLane_places (hw.trans hp) (hpid c' hold) _ (h p c' hp hexit hold)
  | reply =>
    obtain ⟨c', hold, rfl⟩ := Option.map_eq_some_iff.mp hslot
    unfold Places
    rw [Cell.answered_info]
    exact h p c' hp hexit hold

/-! ### One tick of the Pace lane -/

/-- The entry shows the live process with the figures of the readings. -/
structure Shows (cfg : Config) (x : Readings) (p : Process) (i : ProcInfoEntry) : Prop where
  pid : i.pid = UInt32.ofNat p.pid
  comm : i.comm = p.name
  ctxId : i.ctxId = World.contextOf cfg p
  cpuTime : i.cpuTime = x.utime p.pid + x.stime p.pid
  memRss : ∀ n, x.rss p.pid = some n → i.memRss = n
  memPss : ∀ n, x.pss p.pid = some n → i.memPss = n
  fdCount : cfg.enableProcFDCount = true → i.fdCount = UInt32.ofNat (x.fdCount p.pid)

/-- What holds of every pid in a run that loses nothing and announces every exec. -/
structure Told (cfg : Config) (q : Pid) (s : System L) : Prop where
  followed : Followed cfg q s
  listed : (view q s).Listed cfg
  atRest : (view q s).AtRest
  numbered : (view q s).Numbered q
  placed : (view q s).Placed cfg

theorem told_step (he : eventDriven cfg = true) (hl : Lossless s l) (ha : Announced cfg s l)
    (h : step cfg s l = some t) (ht : Told cfg q s) : Told cfg q t := by
  have hc := step_change he ht.followed.regular.wf (hl.2.serves q) h
  exact
    { followed := followed_step he hl.1 (hl.2.serves q) h ht.followed
      listed := listed_step he hl ha h ht.followed ht.listed
      atRest := atRest_change hc ht.atRest
      numbered := numbered_change hc ht.numbered
      placed := placed_change hc view_pid (freshFork_of_ended ht.followed.ended h) ht.placed }

theorem told_start {w : World} {x : Readings} (hx : (w.find q).isSome → x.ReliableFor q) :
    Told cfg q (start cfg w x : System L) := by
  have hc := start_change (L := L) cfg hx
  exact
    { followed := followed_start hx
      listed := listed_start hx
      atRest := atRest_change hc fun c h => by cases h
      numbered := numbered_change hc fun c h => by cases h
      placed := placed_change hc (fun c h => by cases h) (fun _ _ _ h => by cases h) fun p c _ _ h => by cases h }

theorem told_run (he : eventDriven cfg = true) {w : World} {x : Readings}
    (hx : ∀ pid, (w.find pid).isSome → x.ReliableFor pid)
    (hs : Steps (step cfg) (fun s l => Lossless s l ∧ Announced cfg s l) (start cfg w x : System L) s) (q : Pid) :
    Told cfg q s :=
  hs.invariant (P := Told cfg q) (fun _ _ _ ht hc h => told_step he hc.1 hc.2 h ht) (told_start (hx q))

/-- With every event handled, an entry is of a live process with an allowed name, which is the
name the entry has, and its removal is not recorded. -/
theorem Followed.of_cell (hf : Followed cfg q s) (hd : s.socket = []) {c : Cell} (hc : s.registry.slot q = some c) :
    ∃ p, s.world.find q = some p ∧ c.entry.getName = p.name ∧ isBlacklisted cfg p.name = false ∧
      c.condemned = false := by
  have hev : (view q s).events = [] := by simp [view, pending, hd]
  cases hp : s.world.find q with
  | none =>
    rcases hf.ended hp with ⟨_, hnone⟩ | hlast
    · exact absurd (hnone.symm.trans hc) (by simp)
    · rw [hev] at hlast
      cases hlast
  | some p =>
    have hname := hf.named.settled hp hev hc
    have hlive : (view q s).proc.isSome := by simp [view, hp]
    exact ⟨p, rfl, hname, hname ▸ hf.allowed c hc, hf.sound.kept hlive (by simp [hev]) c hc⟩

omit [DeferredList L] in
/-- A tick fills the entry of a live process with its figures. -/
theorem shows_updInfo {x : Readings} {p : Process} {c : Cell} (hp : s.world.find c.pid = some p)
    (hx : x.ReliableFor c.pid) (hrest : c.entry.updatePending = false) (hname : c.entry.getName = p.name)
    (hnumber : c.entry.info.pid = UInt32.ofNat c.pid) (hplace : Places cfg p c.entry) :
    Shows cfg x p (c.updInfo cfg (s.world.env x)).entry.info := by
  have hpid : p.pid = c.entry.pid := World.find_pid hp
  have hp' : s.world.find c.entry.pid = some p := hp
  have hx' : x.ReliableFor c.entry.pid := hx
  have hready : ProcEntry.readable cfg ((s.world.env x).files c.entry.pid) = true :=
    World.readable_live hp' (hx'.serves cfg .pace)
  have hreads := ProcEntry.updateProcInfo_reads hrest hready
  have hstat : ((s.world.env x).files c.entry.pid).stat =
      some ⟨UInt32.ofNat p.pid, UInt32.ofNat p.ppid, x.utime p.pid, x.stime p.pid⟩ := by
    rw [hpid]
    simp [World.env, World.files, hp', hx' .stat]
  have hsmaps : ((s.world.env x).files c.entry.pid).smapsRollup = some ⟨x.rss p.pid, x.pss p.pid, true⟩ := by
    rw [hpid]
    simp [World.env, World.files, hp', hx' .smapsRollup]
  have hfd : ((s.world.env x).files c.entry.pid).fd = some (x.fdCount p.pid) := by
    rw [hpid]
    simp [World.env, World.files, hp', hx' .fd]
  refine
    { pid := ?_
      comm := (ProcEntry.updateProcInfo_spec cfg (s.world.env x) c.entry).comm.trans hname
      ctxId := (updLane_places (x := x) hp rfl .pace hplace).1
      cpuTime := hreads.cpuTime _ hstat
      memRss := fun n hn => hreads.memRss _ n hsmaps hn
      memPss := fun n hn => hreads.memPss _ n hsmaps hn
      fdCount := fun hc => hreads.fdCount hc _ hfd }
  rw [hpid]
  exact (ProcEntry.updateProcInfo_number cfg (s.world.env x) c.entry).trans hnumber

/-! ### The answers after it -/

theorem infos_cells (r : Registry L) : infos r = r.cells.map fun c => c.entry.info := by
  rw [infos, cells, List.map_map]
  rfl

/-- No removal is recorded. -/
structure Kept (r : Registry L) : Prop where
  wf : WF r
  kept : ∀ c ∈ r.cells, c.condemned = false

/-- A step that reads nothing of procfs changes no entry that is not condemned. -/
theorem infos_step (hl : l.reads = none) (h : step cfg s l = some t) (hk : Kept s.registry) :
    Kept t.registry ∧ infos t.registry = infos s.registry := by
  rcases step_registry h with ht | ⟨x, ev, rest, rfl, _, ht⟩ | ⟨x, rfl, ht⟩ | ⟨lane, x, rfl, ht⟩ |
    ⟨record, _, ht⟩ | ⟨rq, _, _, ht⟩ | ⟨rq, rest, _, hq, ht⟩
  · rw [ht]
    exact ⟨hk, rfl⟩
  · cases hl
  · cases hl
  · cases hl
  · obtain ⟨hwf, hcells⟩ := processDelayAcct_cells hk.wf record
    rw [ht, infos_cells, infos_cells, hcells, List.map_map]
    refine ⟨⟨hwf, ?_⟩, List.map_congr_left fun c _ => Cell.answered_info record c⟩
    rw [hcells]
    intro c hc
    obtain ⟨c', hc', rfl⟩ := List.mem_map.mp hc
    exact (Cell.answered_condemned record c').trans (hk.kept c' hc')
  · rw [ht]
    exact ⟨⟨hk.wf.congr rfl rfl (Nat.le_refl _), hk.kept⟩, rfl⟩
  · have hwf : WF ({s.registry with queue := rest} : Registry L) := hk.wf.congr rfl rfl (Nat.le_refl _)
    have hrest : ({s.registry with queue := rest} : Registry L).cells = s.registry.cells := cells_congr rfl rfl
    obtain ⟨hwf', hcells⟩ : WF (requestHandler cfg rq {s.registry with queue := rest}).1 ∧ _ :=
      requestHandler_cells rq hwf
    have hall : s.registry.cells.filter (fun c => !c.condemned) = s.registry.cells :=
      List.filter_eq_self.mpr fun c hc => by simp [hk.kept c hc]
    rw [hrest, hall, ite_self] at hcells
    rw [ht, infos_cells, infos_cells, hcells]
    exact ⟨⟨hwf', hcells ▸ hk.kept⟩, rfl⟩

theorem infos_sent {r : Registry L} {rq : Request} {rest : List Request} (hq : r.queue = rq :: rest)
    (ha : rq.action = .collectAndSendProcInfo) :
    (r.dispatch cfg).map Prod.snd = some [.procInfo (infos r)] := by
  rw [dispatch, hq]
  simp only [requestHandler, ha, Option.map_some]
  rfl

/-- Elements that each have a partner are paired with the list of the partners. -/
theorem forall₂_filterMap {α β γ : Type} {R : β → γ → Prop} {f : α → Option β} {g : α → γ} (xs : List α)
    (h : ∀ a ∈ xs, ∃ b, f a = some b ∧ R b (g a)) : List.Forall₂ R (xs.filterMap f) (xs.map g) := by
  induction xs with
  | nil => exact .nil
  | cons a rest ih =>
    obtain ⟨b, hb, hr⟩ := h a (List.mem_cons_self ..)
    rw [List.filterMap_cons_some hb, List.map_cons]
    exact .cons hr (ih fun a' ha' => h a' (List.mem_cons_of_mem a ha'))

/-- With every event handled, the processes behind the entries are those with allowed names. -/
theorem processes_perm (ht : ∀ q, Told cfg q s) (hd : s.socket = []) :
    (s.registry.cells.filterMap fun c => s.world.find c.pid).Perm
      (s.world.procs.filter fun p => !isBlacklisted cfg p.name) := by
  have hwf := (ht 0).followed.regular.wf
  have hslot (c : Cell) (hc : c ∈ s.registry.cells) : s.registry.slot c.pid = some c :=
    Keyed.lookup_of_mem hwf.pids hc
  have hpids : (s.registry.cells.filterMap fun c => s.world.find c.pid).map Process.pid =
      s.registry.cells.map Cell.pid := by
    have hpair := forall₂_filterMap (R := fun p pid => p.pid = pid) (f := fun c => s.world.find c.pid)
      (g := Cell.pid) s.registry.cells fun c hc => by
        obtain ⟨p, hp, _⟩ := (ht c.pid).followed.of_cell hd (hslot c hc)
        exact ⟨p, hp, World.find_pid hp⟩
    rw [← List.forall₂_eq_eq_eq, List.forall₂_map_left_iff]
    exact hpair
  have hn : (s.registry.cells.filterMap fun c => s.world.find c.pid).Nodup := by
    refine List.Nodup.of_map Process.pid ?_
    rw [hpids]
    exact hwf.pids
  have hn' : (s.world.procs.filter fun p => !isBlacklisted cfg p.name).Nodup :=
    (List.Nodup.of_map _ s.world.nodup).filter _
  refine (List.perm_ext_iff_of_nodup hn hn').mpr fun p => ?_
  rw [List.mem_filterMap, List.mem_filter]
  constructor
  · intro h
    obtain ⟨c, hc, hp⟩ := h
    obtain ⟨p', hp', _, hb, _⟩ := (ht c.pid).followed.of_cell hd (hslot c hc)
    obtain rfl := Option.some.inj (hp.symm.trans hp')
    exact ⟨(Keyed.lookup_some hp).1, by simp [hb]⟩
  · intro h
    have hp : s.world.find p.pid = some p := Keyed.lookup_of_mem s.world.nodup h.1
    have hev : (view p.pid s).events = [] := by simp [view, pending, hd]
    obtain ⟨c, hc, _⟩ := (ht p.pid).followed.sound.complete (ht p.pid).listed hp hev
      (ht p.pid).followed.noScan (by simpa using h.2)
    have hpid : c.pid = p.pid := slot_pid hc
    exact ⟨c, (Keyed.lookup_some hc).1, hpid ▸ hp⟩

/-- **The entries after a tick**: where nothing was lost and every event is handled when the Pace
lane ticks, the entries, until procfs is read again, are those of the processes that were live
then and have allowed names, once each and with their figures. -/
theorem infos_exact (he : eventDriven cfg = true) {w : World} {x₀ x : Readings}
    (hx₀ : ∀ pid, (w.find pid).isSome → x₀.ReliableFor pid)
    (hs : Steps (step cfg) (fun s l => Lossless s l ∧ Announced cfg s l) (start cfg w x₀ : System L) s)
    (hd : s.socket = []) (hx : ∀ pid, (s.world.find pid).isSome → x.ReliableFor pid)
    (htick : step cfg s (.lane .pace x) = some t)
    (hrun : Steps (step cfg) (fun _ l => l.reads = none) t u) :
    ∃ ps, ps.Perm (s.world.procs.filter fun p => !isBlacklisted cfg p.name) ∧
      List.Forall₂ (Shows cfg x) ps (infos u.registry) := by
  have htold := told_run he hx₀ hs
  have hwf := (htold 0).followed.regular.wf
  obtain rfl := Option.some.inj htick
  obtain ⟨hwf', hcells⟩ : WF (s.registry.update cfg (s.world.env x) .pace) ∧ _ := update_cells he hwf .pace
  have hslot (c : Cell) (hc : c ∈ s.registry.cells) : s.registry.slot c.pid = some c :=
    Keyed.lookup_of_mem hwf.pids hc
  have hkept : Kept (s.registry.update cfg (s.world.env x) .pace) := by
    refine ⟨hwf', ?_⟩
    rw [hcells]
    intro c' hc'
    obtain ⟨c, hc, rfl⟩ := List.mem_map.mp hc'
    obtain ⟨p, hp, _, _, hcond⟩ := (htold c.pid).followed.of_cell hd (hslot c hc)
    have hlive : (s.world.find c.entry.pid).isSome := by
      rw [show s.world.find c.entry.pid = some p from hp]
      rfl
    exact (updLane_condemned hp ((hx c.entry.pid hlive).serves cfg .pace)).trans hcond
  have hinfos : infos u.registry = infos (s.registry.update cfg (s.world.env x) .pace) :=
    (hrun.invariant (P := fun u => Kept u.registry ∧
      infos u.registry = infos (s.registry.update cfg (s.world.env x) .pace))
      (fun _ _ _ hi hl h => by
        obtain ⟨hk, heq⟩ := infos_step hl h hi.1
        exact ⟨hk, heq.trans hi.2⟩) ⟨hkept, rfl⟩).2
  refine ⟨s.registry.cells.filterMap fun c => s.world.find c.pid, processes_perm htold hd, ?_⟩
  rw [hinfos, infos_cells, hcells, List.map_map]
  refine forall₂_filterMap _ fun c hc => ?_
  have hc' := hslot c hc
  obtain ⟨p, hp, hname, _⟩ := (htold c.pid).followed.of_cell hd hc'
  have hlive : (s.world.find c.pid).isSome := by
    rw [hp]
    rfl
  have hexit : Kind.exit ∉ (view c.pid s).events := by simp [view, pending, hd]
  exact ⟨p, hp, shows_updInfo hp (hx c.pid hlive) ((htold c.pid).atRest c hc') hname
    ((htold c.pid).numbered c hc') ((htold c.pid).placed p c hp hexit hc')⟩

/-- **A client is told of the processes at the last tick**, also of those that have exited since, where nothing was lost
and every exec to an allowed name was announced. -/
theorem procInfo_exact (he : eventDriven cfg = true) {w : World} {x₀ x : Readings}
    (hx₀ : ∀ pid, (w.find pid).isSome → x₀.ReliableFor pid)
    (hs : Steps (step cfg) (fun s l => Lossless s l ∧ Announced cfg s l) (start cfg w x₀ : System L) s)
    (hd : s.socket = []) (hx : ∀ pid, (s.world.find pid).isSome → x.ReliableFor pid)
    (htick : step cfg s (.lane .pace x) = some t)
    (hrun : Steps (step cfg) (fun _ l => l.reads = none) t u)
    {rq : Request} {rest : List Request} (hq : u.registry.queue = rq :: rest)
    (ha : rq.action = .collectAndSendProcInfo) :
    ∃ entries ps, (u.registry.dispatch cfg).map Prod.snd = some [.procInfo entries] ∧
      ps.Perm (s.world.procs.filter fun p => !isBlacklisted cfg p.name) ∧
      List.Forall₂ (Shows cfg x) ps entries := by
  obtain ⟨ps, hperm, hshows⟩ := infos_exact he hx₀ hs hd hx htick hrun
  exact ⟨infos u.registry, ps, infos_sent hq ha, hperm, hshows⟩

/-! ### A process that exits after the tick -/

/-- A child of init takes an allowed name, and both its events are handled. -/
def shellStarted : List Label :=
  [.fork 1 5 7 false, .recv .quiet, .exec 5 ['s', 'h'] false, .recv .quiet]

/-- Every attempt succeeds, and every process has used some of everything. -/
def busy : Readings :=
  {Readings.quiet with
    utime := fun _ => 4
    stime := fun _ => 2
    rss := fun _ => some 9
    fdCount := fun _ => 3}

/-- The shell is gone when a client asks. -/
def shellExits (action : Registry.Action) : List Label :=
  [.exit 5 1 false, .collect {action := action, collector := some 4}]

theorem meets_shellStarted : Meets (step trackingConfig) (fun s l => Lossless s l ∧ Announced trackingConfig s l)
    booted shellStarted := by
  refine ⟨⟨lossless_quiet _ rfl (.inl rfl), trivial⟩, fun s₁ h₁ => ?_⟩
  obtain rfl := Option.some.inj h₁
  refine ⟨⟨lossless_quiet _ rfl (.inr rfl), trivial⟩, fun s₂ h₂ => ?_⟩
  obtain rfl := Option.some.inj h₂
  exact ⟨⟨lossless_quiet _ rfl (.inl rfl), .inr (.inl (by decide))⟩, fun _ _ =>
    ⟨⟨lossless_quiet _ rfl (.inr rfl), trivial⟩, fun _ _ => trivial⟩⟩

theorem meets_shellExits (t : System Recorded) (action : Registry.Action) :
    Meets (step trackingConfig) (fun _ l => l.reads = none) t (shellExits action) :=
  ⟨rfl, fun _ _ => ⟨rfl, fun _ _ => trivial⟩⟩

/-- All of it, and a request at the end. -/
def afterExit (action : Registry.Action) : Option (System Recorded × System Recorded × System Recorded) :=
  (run (step trackingConfig) booted shellStarted).bind fun s =>
    (step trackingConfig s (.lane .pace busy)).bind fun t =>
      (run (step trackingConfig) t (shellExits action)).map fun u => (s, t, u)

theorem afterExit_some {action : Registry.Action} {s t u : System Recorded} (h : afterExit action = some (s, t, u)) :
    run (step trackingConfig) booted shellStarted = some s ∧ step trackingConfig s (.lane .pace busy) = some t ∧
      run (step trackingConfig) t (shellExits action) = some u := by
  obtain ⟨s', hs, h⟩ := Option.bind_eq_some_iff.mp h
  obtain ⟨t', ht, h⟩ := Option.bind_eq_some_iff.mp h
  obtain ⟨u', hu, h⟩ := Option.map_eq_some_iff.mp h
  simp only [Prod.mk.injEq] at h
  obtain ⟨rfl, rfl, rfl⟩ := h
  exact ⟨hs, ht, hu⟩

theorem procInfo_exact_exited :
    ∃ s t u, afterExit .collectAndSendProcInfo = some (s, t, u) ∧
      ∃ entries ps, (u.registry.dispatch trackingConfig).map Prod.snd = some [.procInfo entries] ∧
        ps.Perm [⟨1, ['i'], 0, 7⟩, ⟨5, ['s', 'h'], 1, 7⟩] ∧
        List.Forall₂ (Shows trackingConfig busy) ps entries := by
  obtain ⟨⟨s, t, u⟩, hafter⟩ := Option.isSome_iff_exists.mp (by rfl : (afterExit .collectAndSendProcInfo).isSome = true)
  have hend : (afterExit .collectAndSendProcInfo).map (fun r =>
      (r.1.socket, r.1.world.procs.filter fun p => !isBlacklisted trackingConfig p.name, r.2.2.registry.queue)) =
      some ([], [⟨1, ['i'], 0, 7⟩, ⟨5, ['s', 'h'], 1, 7⟩], [{action := .collectAndSendProcInfo, collector := some 4}]) := by
    rfl
  rw [hafter] at hend
  simp only [Option.map_some, Option.some.injEq, Prod.mk.injEq] at hend
  obtain ⟨hs, ht, hu⟩ := afterExit_some hafter
  have hanswer := procInfo_exact rfl (fun pid _ => Readings.quiet_reliable pid) (.of_run meets_shellStarted hs) hend.1
    (fun _ _ _ => rfl) ht (.of_run (meets_shellExits t _) hu) hend.2.2 rfl
  rw [hend.2.1] at hanswer
  exact ⟨s, t, u, hafter, hanswer⟩

end System
end TaskMonitor

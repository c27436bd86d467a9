import TaskMonitor.Registry.Slots

/-! The processes of the machine, and what procfs shows of them.

A `World` holds the live processes, one a pid. Processes fork, exec and exit; an
exit hands the children of the process to another one. `World.env` is what the
registry reads while a world stands still: a process that is not live has no
files, and for one that is, `Readings` says which attempts fail and supplies the
figures that are not part of the world. The name of a process is the one that
`getProcNameForPID` makes of its status file, with single spaces for blanks and
never empty (`shown_iff`). -/
namespace TaskMonitor

structure Process where
  pid : Pid
  name : Name
  ppid : Pid
  ctx : UInt64
deriving Repr, DecidableEq

structure World where
  procs : List Process
  nodup : (procs.map Process.pid).Nodup

namespace World

/-- The live process with the pid. -/
def find (w : World) (pid : Pid) : Option Process := Keyed.lookup Process.pid pid w.procs

def insert (w : World) (p : Process) (h : w.find p.pid = none) : World :=
  ⟨w.procs ++ [p], Keyed.nodup_append w.nodup h⟩

/-- A child starts with the name of its parent, under a pid that is free. -/
def fork (w : World) (parent child : Pid) (ctx : UInt64) : Option World :=
  match w.find parent with
  | none => none
  | some p =>
    if h : w.find child = none then some (w.insert ⟨child, p.name, parent, ctx⟩ h) else none

def rename (pid : Pid) (name : Name) (p : Process) : Process :=
  if p.pid = pid then {p with name := name} else p

theorem rename_pid (pid : Pid) (name : Name) (p : Process) : (rename pid name p).pid = p.pid := by
  unfold rename
  split <;> rfl

def exec (w : World) (pid : Pid) (name : Name) : Option World :=
  if (w.find pid).isSome then
    some ⟨w.procs.map (rename pid name), Keyed.nodup_map (rename_pid pid name) w.nodup⟩
  else none

def reparent (pid reaper : Pid) (p : Process) : Process :=
  if p.ppid = pid then {p with ppid := reaper} else p

theorem reparent_pid (pid reaper : Pid) (p : Process) : (reparent pid reaper p).pid = p.pid := by
  unfold reparent
  split <;> rfl

/-- The process is gone and its children are the reaper's. -/
def exit (w : World) (pid reaper : Pid) : Option World :=
  if (w.find pid).isSome then
    some ⟨(w.procs.filter fun p => decide (p.pid ≠ pid)).map (reparent pid reaper),
      Keyed.nodup_map (reparent_pid pid reaper) (Keyed.nodup_filter _ w.nodup)⟩
  else none

variable {w w' : World} {pid q : Pid}

theorem find_pid {p : Process} (h : w.find pid = some p) : p.pid = pid := (Keyed.lookup_some h).2

theorem find_fork {parent child : Pid} {ctx : UInt64} (h : w.fork parent child ctx = some w') :
    w.find child = none ∧ ∃ p, w.find parent = some p ∧
      ∀ q, w'.find q = if q = child then some ⟨child, p.name, parent, ctx⟩ else w.find q := by
  unfold fork at h
  split at h
  · cases h
  · rename_i p hp
    split at h
    · rename_i hc
      obtain rfl := Option.some.inj h
      refine ⟨hc, p, hp, fun q => ?_⟩
      simp only [find, insert, Keyed.lookup_append]
      by_cases hq : q = child
      · subst hq
        have : Keyed.lookup Process.pid q w.procs = none := hc
        simp [this]
      · have hne : ¬ child = q := fun h' => hq h'.symm
        simp [hq, hne]
    · cases h

theorem find_exec {name : Name} (h : w.exec pid name = some w') :
    ∃ p, w.find pid = some p ∧
      ∀ q, w'.find q = if q = pid then some {p with name := name} else w.find q := by
  unfold exec at h
  split at h
  · rename_i hp
    obtain ⟨p, hp⟩ := Option.isSome_iff_exists.mp hp
    obtain rfl := Option.some.inj h
    refine ⟨p, hp, fun q => ?_⟩
    simp only [find, Keyed.lookup_map _ (rename_pid pid name)]
    by_cases hq : q = pid
    · subst hq
      have hl : Keyed.lookup Process.pid q w.procs = some p := hp
      simp [hl, rename, find_pid hp]
    · rw [if_neg hq]
      cases hl : Keyed.lookup Process.pid q w.procs with
      | none => rfl
      | some p' =>
        have hne : p'.pid ≠ pid := by
          rw [(Keyed.lookup_some hl).2]
          exact hq
        simp [rename, hne]
  · cases h

theorem find_exit {reaper : Pid} (h : w.exit pid reaper = some w') :
    (∃ p, w.find pid = some p) ∧
      ∀ q, w'.find q = if q = pid then none else (w.find q).map (reparent pid reaper) := by
  unfold exit at h
  split at h
  · rename_i hp
    obtain rfl := Option.some.inj h
    refine ⟨Option.isSome_iff_exists.mp hp, fun q => ?_⟩
    simp only [find, Keyed.lookup_map _ (reparent_pid pid reaper), Keyed.lookup_filter _ w.nodup]
    cases hl : Keyed.lookup Process.pid q w.procs with
    | none => simp
    | some p' =>
      have hpid := (Keyed.lookup_some hl).2
      by_cases hq : q = pid
      · simp [Option.filter_some, hpid, hq]
      · simp [Option.filter_some, hpid, hq]
  · cases h

end World

/-! ### Procfs -/

inductive Attempt where
  | status | stat | smapsRollup | fd | taskstats
deriving Repr, DecidableEq

structure Readings where
  /-- Which attempts on a live process fail. -/
  fails : Pid → Attempt → Bool
  utime : Pid → UInt64
  stime : Pid → UInt64
  rss : Pid → Option UInt64
  pss : Pid → Option UInt64
  fdCount : Pid → Nat
  containers : List Container
  now : Int
  procAcctCollectorCounter : UInt16

/-- Every attempt on the process succeeds. -/
def Readings.ReliableFor (x : Readings) (pid : Pid) : Prop := ∀ a, x.fails pid a = false

/-- Every attempt that an update of the entry in the lane makes succeeds. -/
def Readings.Serves (x : Readings) (cfg : Config) (e : ProcEntry) : UpdateLane → Prop
  | .pace => x.fails e.pid .stat = false ∧ x.fails e.pid .smapsRollup = false ∧
      (cfg.enableProcFDCount = true → x.fails e.pid .fd = false)
  | .slow => (cfg.withProcAcct && cfg.procAcct) = true → x.procAcctCollectorCounter ≠ 0 →
      e.updateProcAcctPending = false → x.fails e.pid .taskstats = false
  | .fast | .any => True

/-- Every attempt succeeds, and every figure is zero. -/
def Readings.quiet : Readings where
  fails := fun _ _ => false
  utime := fun _ => 0
  stime := fun _ => 0
  rss := fun _ => none
  pss := fun _ => none
  fdCount := fun _ => 0
  containers := []
  now := 0
  procAcctCollectorCounter := 0

theorem Readings.ReliableFor.serves {x : Readings} {e : ProcEntry} (h : x.ReliableFor e.pid) (cfg : Config)
    (lane : UpdateLane) : x.Serves cfg e lane := by
  cases lane with
  | pace => exact ⟨h _, h _, fun _ => h _⟩
  | slow => exact fun _ _ _ => h _
  | fast => trivial
  | any => trivial

theorem Readings.quiet_reliable (pid : Pid) : quiet.ReliableFor pid := fun _ => rfl

namespace World

def files (w : World) (x : Readings) (pid : Pid) : Files :=
  match w.find pid with
  | none => ⟨none, none, none, none⟩
  | some p =>
    { status := if x.fails pid .status then none else some p.name
      stat := if x.fails pid .stat then none
        else some ⟨UInt32.ofNat pid, UInt32.ofNat p.ppid, x.utime pid, x.stime pid⟩
      smapsRollup := if x.fails pid .smapsRollup then none else some ⟨x.rss pid, x.pss pid, true⟩
      fd := if x.fails pid .fd then none else some (x.fdCount pid) }

def env (w : World) (x : Readings) : Env where
  pids := w.procs.map Process.pid
  files := w.files x
  taskstats := fun pid => !x.fails pid .taskstats
  contextId := fun pid => ((w.find pid).map Process.ctx).getD 0
  containers := x.containers
  now := x.now
  procAcctCollectorCounter := x.procAcctCollectorCounter

/-- The context id an entry of the process should carry. -/
def contextOf (cfg : Config) (p : Process) : UInt64 := if cfg.root then p.ctx else 0

variable {w : World} {x : Readings} {cfg : Config} {pid : Pid} {p : Process}

theorem mem_pids (w : World) (x : Readings) (pid : Pid) :
    pid ∈ (w.env x).pids ↔ (w.find pid).isSome = true := by
  rw [Option.isSome_iff_ne_none, ne_eq, find, Keyed.lookup_eq_none]
  simp [env]

theorem name_live (h : w.find pid = some p) (hr : x.ReliableFor pid) :
    Registry.getProcNameForPID (w.env x) pid = some p.name := by
  simp [Registry.getProcNameForPID, env, files, h, hr .status]

/-- What an entry made for a process says of it. -/
structure Describes (cfg : Config) (p : Process) (e : ProcEntry) : Prop where
  ppid : e.info.ppid = UInt32.ofNat p.ppid
  ctxId : e.info.ctxId = contextOf cfg p
  unresolved : e.info.ctxName = unknownName → cfg.root = true

theorem entryFor_blacklisted (h : w.find pid = some p) (hr : x.ReliableFor pid)
    (hb : Registry.isBlacklisted cfg p.name = true) : Registry.entryFor cfg (w.env x) pid = none := by
  simp [Registry.entryFor, name_live h hr, hb]

/-- A live process with an allowed name is admitted, under its name. -/
theorem entryFor_live (h : w.find pid = some p) (hr : x.ReliableFor pid)
    (hb : Registry.isBlacklisted cfg p.name = false) :
    ∃ e, Registry.entryFor cfg (w.env x) pid = some e ∧ e.info.comm = p.name ∧ Describes cfg p e := by
  have hfiles : ((w.env x).files pid).stat =
      some ⟨UInt32.ofNat pid, UInt32.ofNat p.ppid, x.utime pid, x.stime pid⟩ := by
    simp [env, files, h, hr .stat]
  have hctx : (w.env x).contextId pid = p.ctx := by simp [env, h]
  obtain ⟨e, he⟩ : ∃ e, ProcEntry.make cfg (w.env x) pid p.name = some e := by
    rw [← Option.isSome_iff_exists, ProcEntry.make_isSome, hfiles]
    rfl
  obtain ⟨_, hcomm, ⟨st, hst, hppid⟩, hid⟩ := ProcEntry.make_spec he
  rw [hfiles] at hst
  obtain rfl := Option.some.inj hst
  refine ⟨e, ?_, hcomm, hppid, ?_, ProcEntry.make_unresolved he⟩
  · simp [Registry.entryFor, name_live h hr, hb, he]
  · rw [hid, hctx]
    rfl

/-- A scan that starts from nothing lists the live processes with allowed names. -/
theorem tracked_scan {L : Type → Type} [DeferredList L] (w : World) (x : Readings)
    (hr : ∀ q, (w.find q).isSome → x.ReliableFor q) (pid : Pid) (name : Name) :
    (pid, name) ∈ (Registry.updateProcessList cfg (w.env x) (Registry.empty : Registry L)).tracked ↔
      ∃ p, w.find pid = some p ∧ p.name = name ∧ Registry.isBlacklisted cfg name = false := by
  have hwf := Registry.wf_updateProcessList (L := L) cfg (w.env x) Registry.wf_empty
  have hempty : (Registry.empty : Registry L).slot pid = none := by
    simp [Registry.slot, Registry.cells, Registry.empty]
  rw [hwf.mem_tracked, Registry.slot_updateProcessList cfg _ Registry.wf_empty, hempty, Option.none_or]
  simp only [mem_pids]
  cases hp : w.find pid with
  | none => simp
  | some p =>
    have hx := hr pid (by rw [hp]; rfl)
    by_cases hb : Registry.isBlacklisted cfg p.name = true
    · simp only [Option.isSome_some, if_true, entryFor_blacklisted hp hx hb, Option.map_none,
        Option.some.injEq, exists_eq_left', reduceCtorEq, false_and, exists_false, false_iff]
      rintro ⟨rfl, hallowed⟩
      exact absurd hb (by simp [hallowed])
    · obtain ⟨e, he, hname, _⟩ := entryFor_live hp hx (by simpa using hb)
      have hfresh : (Registry.Cell.fresh e).entry.getName = p.name := hname
      simp only [Option.isSome_some, if_true, he, Option.map_some, Option.some.injEq, exists_eq_left', hfresh]
      constructor
      · rintro rfl
        exact ⟨rfl, by simpa using hb⟩
      · exact fun h => h.1

theorem readable_dead (h : w.find pid = none) : ProcEntry.readable cfg ((w.env x).files pid) = false := by
  simp [ProcEntry.readable, env, files, h]

theorem readable_live {e : ProcEntry} (h : w.find e.pid = some p) (hr : x.Serves cfg e .pace) :
    ProcEntry.readable cfg ((w.env x).files e.pid) = true := by
  obtain ⟨hstat, hsmaps, hfd⟩ := hr
  cases hc : cfg.enableProcFDCount with
  | true => simp [ProcEntry.readable, env, files, h, hstat, hsmaps, hfd hc]
  | false => simp [ProcEntry.readable, env, files, h, hstat, hsmaps, hc]

end World
end TaskMonitor

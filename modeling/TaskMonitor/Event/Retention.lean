import TaskMonitor.Event.Agreement

/-! Live processes stay listed, while every read of them succeeds.

A read that fails makes an update remove the entry. In event mode nothing adds
it again, so a single failure on a live process is for good. Where no attempt on
a live process fails, an entry leaves only for its exit or its name, and a
process that has the pid anew is listed again once its fork is handled. -/
namespace TaskMonitor.System
open Registry Transition

variable {L : Type → Type} [DeferredList L] {cfg : Config} {pid : Pid} {s t : System L} {l : Label}
  {v v' : View}

/-- The entry of the pid leaves the process list. -/
def Leaves (pid : Pid) (s t : System L) : Prop :=
  s.registry.hasProc pid = true ∧ t.registry.hasProc pid = false

/-- The process lives on under allowed names, no event is lost and every read of it succeeds. -/
def Undisturbed (cfg : Config) (pid : Pid) (_ : System L) (l : Label) : Prop :=
  l.lost = false ∧ l.ReliableFor pid ∧ (∀ reaper lost, l ≠ .exit pid reaper lost) ∧
    ∀ name lost, l = .exec pid name lost → isBlacklisted cfg name = false

/-- However the system goes on undisturbed, with complete Fast, Pace and Slow updates and every
event handled the process is listed under its name. -/
def Returns (cfg : Config) (pid : Pid) (t : System L) : Prop :=
  ∀ labels u, run (step cfg) t labels = some u → Meets (step cfg) (Undisturbed cfg pid) t labels →
    (∀ lane ∈ [UpdateLane.fast, .pace, .slow], ∃ x, .lane lane x ∈ labels) → u.socket = [] →
    ∃ p, u.world.find pid = some p ∧ (pid, p.name) ∈ u.registry.tracked

/-- Why an entry may have left: its process has exited, its name is blacklisted, or it returns. -/
def Excused (cfg : Config) (pid : Pid) (t : System L) : Prop :=
  t.world.find pid = none ∨ (∃ p, t.world.find pid = some p ∧ isBlacklisted cfg p.name = true) ∨
    Returns cfg pid t

/-- The process is live under an allowed name. -/
def View.Monitorable (cfg : Config) (v : View) : Prop :=
  ∃ p, v.proc = some p ∧ isBlacklisted cfg p.name = false

/-- A monitorable process that has its entry, or will have it once its events are handled. -/
structure Awaited (cfg : Config) (pid : Pid) (s : System L) : Prop where
  followed : Followed cfg pid s
  listed : (view pid s).Listed cfg
  monitorable : (view pid s).Monitorable cfg

omit [DeferredList L] in
theorem monitorable_change (hc : Change cfg pid l v v') (hu : Undisturbed cfg pid s l)
    (h : v.Monitorable cfg) : v'.Monitorable cfg := by
  obtain ⟨p, hp, hb⟩ := h
  cases hc with
  | idle => exact ⟨p, hp, hb⟩
  | fork hd =>
    rw [hp] at hd
    cases hd
  | exec => exact ⟨_, deliver_proc _ _, hu.2.2.2 _ _ rfl⟩
  | exit => exact absurd rfl (hu.2.2.1 _ _)
  | reparent hp' =>
    obtain rfl := Option.some.inj (hp.symm.trans hp')
    exact ⟨_, rfl, hb⟩
  | handle => exact ⟨p, hp, hb⟩
  | commit => exact ⟨p, hp, hb⟩
  | scan => exact ⟨p, hp, hb⟩
  | lane => exact ⟨p, hp, hb⟩
  | reply => exact ⟨p, hp, hb⟩

/-- An exec of an awaited process finds its entry or its fork unhandled. -/
theorem Awaited.listedExec (h : Awaited cfg pid s) : ListedExec cfg pid l (view pid s) := by
  intro name _
  obtain ⟨p, hp, hb⟩ := h.monitorable
  cases hslot : (view pid s).slot with
  | some c => exact .inr (.inl rfl)
  | none =>
    by_cases hexit : Kind.exit ∈ (view pid s).events
    · have hrenewed := (h.followed.sound.renewed (by rw [hp]; rfl)).resolve_right fun hscan => by
        rw [show (view pid s).scan = false from h.followed.noScan] at hscan
        cases hscan
      exact .inr (.inr (.inl (hrenewed.fork_mem hexit)))
    · rcases h.listed p hp hexit hslot with hb' | hf
      · rw [hb] at hb'
        cases hb'
      · exact .inr (.inr hf)

theorem awaited_step (he : eventDriven cfg = true) (hu : Undisturbed cfg pid s l)
    (h : step cfg s l = some t) (ha : Awaited cfg pid s) : Awaited cfg pid t := by
  have hserves : (s.world.find pid).isSome → Serves cfg pid s l := fun _ => serves_of_reliable hu.2.1
  have hc := step_change he ha.followed.regular.wf hserves h
  exact
    { followed := followed_step he hu.1 hserves h ha.followed
      listed := listed_change hc view_pid ha.listedExec ha.followed.sound ha.listed
      monitorable := monitorable_change hc hu ha.monitorable }

theorem Awaited.returns (he : eventDriven cfg = true) (h : Awaited cfg pid t) : Returns cfg pid t := by
  intro labels u hrun hmeets _ hsocket
  have hu : Awaited cfg pid u :=
    (Steps.of_run hmeets hrun).invariant (fun _ _ _ ha hu hs => awaited_step he hu hs ha) h
  obtain ⟨p, hp, hb⟩ := hu.monitorable
  have hev : (view pid u).events = [] := by simp [view, pending, hsocket]
  obtain ⟨c, hslot, _⟩ := hu.followed.sound.complete hu.listed hp hev hu.followed.noScan hb
  exact ⟨p, hp, (hu.followed.regular.wf.mem_tracked pid p.name).mpr
    ⟨c, hslot, hu.followed.named.settled hp hev hslot⟩⟩

/-- No event is lost, and no attempt on a live process fails. -/
def Spared (cfg : Config) (s : System L) (l : Label) : Prop :=
  l.lost = false ∧ ∀ pid, (s.world.find pid).isSome → Serves cfg pid s l

theorem Lossless.spared (h : Lossless s l) : Spared cfg s l := ⟨h.1, h.2.serves⟩

/-- **No live process is dropped** in a run that loses no event and in which no attempt on a live
process fails: an entry that leaves is excused. -/
theorem live_process_kept (he : eventDriven cfg = true) {w : World} {x : Readings}
    (hx : ∀ pid, (w.find pid).isSome → x.ReliableFor pid)
    (hs : Steps (step cfg) (Spared cfg) (start cfg w x : System L) s) (hl : Spared cfg s l)
    (h : step cfg s l = some t) (hleave : Leaves pid s t) : Excused cfg pid t := by
  have hf : Followed cfg pid s := hs.invariant
    (fun _ _ _ hf hl h => followed_step he hl.1 (hl.2 pid) h hf) (followed_start (hx pid))
  have hsome : (view pid s).slot.isSome = true := by
    rw [← hleave.1, hasProc_iff]
    rfl
  have hlisted : (view pid t).Listed cfg :=
    listed_change (step_change he hf.regular.wf (hl.2 pid) h) view_pid
      (fun _ _ => .inr (.inl hsome)) hf.sound (fun p _ _ hn => by simp [hn] at hsome)
  cases hp : t.world.find pid with
  | none => exact .inl hp
  | some p =>
    by_cases hb : isBlacklisted cfg p.name = true
    · exact .inr (.inl ⟨p, hp, hb⟩)
    · have ha : Awaited cfg pid t :=
        ⟨followed_step he hl.1 (hl.2 pid) h hf, hlisted, ⟨p, hp, by simpa using hb⟩⟩
      exact .inr (.inr (ha.returns he))

/-! ### Two histories -/

/-- Reading the memory of process 5 fails. -/
def failingSmaps : Readings :=
  {Readings.quiet with fails := fun pid a => decide (pid = 5 ∧ a = .smapsRollup)}

/-- One failed read removes a live process. -/
def failedRead : List Label := [.fork 1 5 7 false, .recv .quiet, .lane .pace failingSmaps]

/-- Complete updates in which every read succeeds. -/
def cleanUpdates : List Label := [.lane .fast .quiet, .lane .pace .quiet, .lane .slow .quiet]

/-- A listed child takes a blacklisted name. -/
def renamedChild : List Label := [.fork 1 5 7 false, .recv .quiet, .exec 5 ['k', 'w'] false]

omit [DeferredList L] in
theorem undisturbed_lane (lane : UpdateLane) : Undisturbed cfg pid s (.lane lane .quiet) := by
  refine ⟨rfl, fun x hx => ?_, fun _ _ h => ?_, fun _ _ h => ?_⟩
  · obtain rfl := Option.some.inj hx
    exact Readings.quiet_reliable pid
  · cases h
  · cases h

/-- **A live process can be dropped for good** by one failed read, though no event was lost. -/
theorem failed_read_drops :
    ∃ s t, Steps (step trackingConfig) (fun _ l => l.lost = false) booted s ∧
      step trackingConfig s .dispatch = some t ∧ Leaves 5 s t ∧ ¬Excused trackingConfig 5 t := by
  have hs : Meets (step trackingConfig) (fun _ l => l.lost = false) booted failedRead :=
    ⟨rfl, fun _ _ => ⟨rfl, fun _ _ => ⟨rfl, fun _ _ => trivial⟩⟩⟩
  refine ⟨_, _, .of_run hs rfl, rfl, ⟨rfl, rfl⟩, ?_⟩
  rintro (hdead | ⟨p, hp, hb⟩ | hret)
  · cases hdead
  · obtain rfl := Option.some.inj hp
    exact absurd hb (by decide)
  · have hclean {t : System Recorded} : Meets (step trackingConfig) (Undisturbed trackingConfig 5) t cleanUpdates :=
      ⟨undisturbed_lane .fast, fun _ _ => ⟨undisturbed_lane .pace, fun _ _ =>
        ⟨undisturbed_lane .slow, fun _ _ => trivial⟩⟩⟩
    obtain ⟨p, _, hlisted⟩ := hret cleanUpdates _ rfl hclean (by simp [cleanUpdates]) rfl
    have hpid : 5 ∈ [((1 : Pid), ['i'])].map Prod.fst := List.mem_map_of_mem hlisted
    exact absurd hpid (by decide)

/-- The blacklisted child of another leaves, and is excused. -/
theorem live_process_kept_renamed :
    ∃ s t, run (step trackingConfig) booted renamedChild = some s ∧
      step trackingConfig s (.recv .quiet) = some t ∧ Leaves 5 s t ∧ Excused trackingConfig 5 t := by
  have hs : Meets (step trackingConfig) (Spared trackingConfig) booted renamedChild :=
    ⟨(lossless_quiet _ rfl (.inl rfl)).spared, fun _ _ => ⟨(lossless_quiet _ rfl (.inr rfl)).spared, fun _ _ =>
      ⟨(lossless_quiet _ rfl (.inl rfl)).spared, fun _ _ => trivial⟩⟩⟩
  refine ⟨_, _, rfl, rfl, ⟨rfl, rfl⟩, ?_⟩
  exact live_process_kept (l := .recv .quiet) rfl (fun pid _ => Readings.quiet_reliable pid)
    (.of_run hs rfl) (lossless_quiet _ rfl (.inr rfl)).spared rfl ⟨rfl, rfl⟩

end TaskMonitor.System

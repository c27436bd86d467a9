import TaskMonitor.Event.Agreement

/-! Recovery after lost events.

The scan adds what is missing and nothing else: an entry that is there keeps its
name, its parent and its context, whoever has the pid now. So the registry is
restored unless a step leaves a live process under a stale entry, or out of the
list with nothing to come that adds it (`Recoverable`). -/
namespace TaskMonitor.System
open Registry Transition DeferredList

variable {L : Type → Type} [DeferredList L] {cfg : Config} {q : Pid} {s t u : System L} {l : Label}

/-- A pid is forked with no entry or an unhandled exit. An exec to an allowed name is of a process
with an entry, an unhandled fork or a scan to come; one that is lost leaves no entry under another
name, unless an exit or exec is unhandled. No live process with an entry loses its parent. The
last scan due finds every live process announced after each unhandled exit of its pid. -/
def Recoverable (cfg : Config) (s : System L) : Label → Prop
  | .fork _ child _ _ => s.registry.hasProc child = false ∨ .exit ∈ pending child s
  | .exec pid name false =>
    isBlacklisted cfg name = true ∨ s.registry.hasProc pid = true ∨ .fork ∈ pending pid s ∨ scanDue s = true
  | .exec pid name true =>
    .exit ∈ pending pid s ∨ .exec ∈ pending pid s ∨ ∀ n, (pid, n) ∈ s.registry.tracked → n = name
  | .exit pid _ _ => ∀ child p, s.world.find child = some p → p.ppid = pid →
      s.registry.hasProc child = false ∨ .exit ∈ pending child s
  | .updateProcessList _ => s.overflow = false → s.rescans = 1 →
      ∀ pid, (s.world.find pid).isSome → Renewed (pending pid s)
  | _ => True

/-- One entry for each live process with an allowed name and no other, with its name, parent and
context. -/
structure Restored (cfg : Config) (s : System L) : Prop where
  one : (s.registry.tracked.map Prod.fst).Nodup
  listed : ∀ pid, s.registry.hasProc pid = true ↔
    ∃ p, s.world.find pid = some p ∧ isBlacklisted cfg p.name = false
  entry : ∀ ptr ∈ items s.registry.procList, ∃ p, s.world.find (s.registry.procs ptr).pid = some p ∧
    (s.registry.procs ptr).getName = p.name ∧
    (s.registry.procs ptr).info.ppid = UInt32.ofNat p.ppid ∧
    (s.registry.procs ptr).info.ctxId = World.contextOf cfg p

/-- No process forks, execs or exits, and every read of a live one succeeds. -/
def Quiet (s : System L) (l : Label) : Prop :=
  Reliable s l ∧ ((∃ lane x, l = .lane lane x) ∨ (∃ rq, l = .collect rq) ∨ l = .dispatch)

/-- What holds of a pid in every run whose steps are recoverable. -/
structure Recovering (cfg : Config) (q : Pid) (s : System L) : Prop where
  regular : Regular s
  sound : (view q s).Sound
  named : (view q s).Named
  listed : (view q s).Listed cfg
  described : (view q s).Described cfg
  allowed : (view q s).Allowed cfg
  atRest : (view q s).AtRest

theorem no_entry {pid : Pid} (h : s.registry.hasProc pid = false) : (view pid s).slot = none := by
  rw [hasProc_iff, Option.isSome_eq_false_iff, Option.isNone_iff_eq_none] at h
  exact h

/-- A scan after which none is due was the last. -/
theorem last_scan {x : Readings} (h : step cfg s (.updateProcessList x) = some t) (hn : scanDue t = false) :
    s.overflow = false ∧ s.rescans = 1 := by
  simp only [step] at h
  split at h
  · cases h
  · rename_i n hs
    obtain rfl := Option.some.inj h
    simp only [scanDue, Bool.or_eq_false_iff, decide_eq_false_iff_not] at hn
    exact ⟨hn.1, by omega⟩

theorem recovering_step (he : eventDriven cfg = true) (hrec : Recoverable cfg s l) (hr : Reliable s l)
    (h : step cfg s l = some t) (hv : Recovering cfg q s) : Recovering cfg q t := by
  have hwf := hv.regular.wf
  have hc := step_change he hwf (hr.serves q) h
  have hfork : FreshFork q l (view q s) := by
    rintro parent ctx lost rfl
    exact hrec.imp no_entry id
  have hnamed : NamedExec q l (view q s) := by
    rintro name rfl
    refine hrec.imp id (.imp id fun hn c hslot => ?_)
    exact hn _ ((hwf.mem_tracked q _).mpr ⟨c, hslot, rfl⟩)
  have hlisted : ListedExec cfg q l (view q s) := by
    rintro name rfl
    refine hrec.imp id (.imp (fun hp => ?_) id)
    rwa [hasProc_iff] at hp
  have hparent : KeptParent l (view q s) := by
    rintro pid reaper lost p rfl hp hppid
    exact (hrec q p hp hppid).imp no_entry id
  have hscan : SettledScan l (view q s) (view q t) := by
    rintro x rfl hnone hp
    obtain ⟨hover, hlast⟩ := last_scan h hnone
    exact hrec hover hlast q hp
  exact
    { regular := regular_step he h hv.regular
      sound := sound_change hc view_pid hfork hscan hv.sound
      named := named_change hc view_pid hfork hnamed hv.named
      listed := listed_change hc view_pid hlisted hv.sound hv.listed
      described := described_change hc view_pid hfork hparent hv.described
      allowed := allowed_change hc hv.allowed
      atRest := atRest_change hc hv.atRest }

theorem recovering_start {w : World} {x : Readings} (hx : (w.find q).isSome → x.ReliableFor q) :
    Recovering cfg q (start cfg w x : System L) := by
  have hf : Followed cfg q (start cfg w x : System L) := followed_start hx
  have hc := start_change (L := L) cfg hx
  exact
    { regular := hf.regular
      sound := hf.sound
      named := hf.named
      listed := listed_start hx
      described := described_change hc (fun c h => by cases h) (fun _ _ _ h => by cases h)
        (fun _ _ _ _ h => by cases h) fun _ c _ _ h => by cases h
      allowed := hf.allowed
      atRest := atRest_change hc fun c h => by cases h }

/-! ### The update after activity has stopped -/

/-- A Pace update records the removal of every entry without a process. -/
theorem fading_pace (he : eventDriven cfg = true) {x : Readings} (hv : Recovering cfg q s)
    (h : step cfg s (.lane .pace x) = some t) : (view q t).Fading := by
  obtain rfl := Option.some.inj h
  intro hdead c hslot
  have hmap : (view q s).slot.map (Cell.updInfo cfg (s.world.env x)) = some c := by
    rw [← hslot]
    exact (slot_update he hv.regular.wf .pace q).symm
  obtain ⟨c', hold, rfl⟩ := Option.map_eq_some_iff.mp hmap
  have hpid : c'.entry.pid = q := view_pid c' hold
  have hstatus := (ProcEntry.updateProcInfo_spec cfg (s.world.env x) c'.entry).status
  rw [hv.atRest c' hold, hpid, World.readable_dead hdead] at hstatus
  simp [Cell.updInfo, hstatus]

theorem updLane_fading {env : Env} {c : Cell} (lane : UpdateLane) (h : c.condemned = true) :
    (c.updLane cfg env lane).condemned = true := by
  cases lane with
  | pace => simp [Cell.updLane, Cell.updInfo, h]
  | slow =>
    simp only [Cell.updLane, Cell.updAcct]
    split
    · simp [h]
    · exact h
  | fast => exact h
  | any => exact h

theorem quiet_frame (hq : Quiet s l) (h : step cfg s l = some t) :
    t.world = s.world ∧ t.socket = s.socket ∧ scanDue t = scanDue s := by
  rcases hq.2 with ⟨lane, x, rfl⟩ | ⟨rq, rfl⟩ | rfl
  · obtain rfl := Option.some.inj h
    exact ⟨rfl, rfl, rfl⟩
  · simp only [step] at h
    split at h
    · cases h
    · obtain rfl := Option.some.inj h
      exact ⟨rfl, rfl, rfl⟩
  · obtain ⟨out, _, rfl⟩ := Option.map_eq_some_iff.mp h
    exact ⟨rfl, rfl, rfl⟩

theorem fading_quiet (he : eventDriven cfg = true) (hwf : WF s.registry) (hq : Quiet s l)
    (h : step cfg s l = some t) (hf : (view q s).Fading) : (view q t).Fading := by
  have hc := step_change he hwf (hq.1.serves q) h
  have hlabel := hq.2
  generalize view q s = v at hc hf
  generalize view q t = v' at hc
  intro hdead c hslot
  cases hc with
  | idle => exact hf hdead c hslot
  | fork => simp at hlabel
  | exec => simp at hlabel
  | exit => simp at hlabel
  | reparent => simp at hlabel
  | handle => simp at hlabel
  | commit => exact hf hdead c (commit_slot hslot).1
  | scan => simp at hlabel
  | lane =>
    obtain ⟨c', hold, rfl⟩ := Option.map_eq_some_iff.mp hslot
    exact updLane_fading _ (hf hdead c' hold)
  | reply => simp at hlabel

theorem recoverable_quiet (hq : Quiet s l) : Recoverable cfg s l := by
  rcases hq.2 with ⟨lane, x, rfl⟩ | ⟨rq, rfl⟩ | rfl <;> trivial

/-! ### Recovery -/

/-- Settled pids without process have no entry, and the others the one of their process. -/
theorem restored_of_recovering (hv : ∀ q, Recovering cfg q s) (hf : ∀ q, (view q s).Fading)
    (hd : s.socket = []) (hs : scanDue s = false) (hc : Committed s.registry) : Restored cfg s := by
  have hwf := (hv 0).regular.wf
  have hev (q : Pid) : (view q s).events = [] := by simp [view, pending, hd]
  have hlive (q : Pid) (c : Cell) (hslot : s.registry.slot q = some c) : ∃ p, s.world.find q = some p := by
    rw [← Option.isSome_iff_exists, Option.isSome_iff_ne_none]
    intro hdead
    have hcond := hf q hdead c hslot
    rw [(hv q).regular.requested.settled hc q hslot] at hcond
    cases hcond
  refine ⟨?_, fun pid => ?_, fun ptr hptr => ?_⟩
  · rw [tracked_eq, List.map_map]
    exact hwf.pids
  · rw [hasProc_iff, Option.isSome_iff_exists]
    constructor
    · rintro ⟨c, hslot⟩
      obtain ⟨p, hp⟩ := hlive pid c hslot
      exact ⟨p, hp, (hv pid).named.settled hp (hev pid) hslot ▸ (hv pid).allowed c hslot⟩
    · rintro ⟨p, hp, hb⟩
      obtain ⟨c, hslot, _⟩ := (hv pid).sound.complete (hv pid).listed hp (hev pid) hs hb
      exact ⟨c, hslot⟩
  · have hslot : s.registry.slot (s.registry.procs ptr).pid = some (s.registry.cell ptr) :=
      (Keyed.lookup_eq_some hwf.pids).mpr ⟨List.mem_map_of_mem hptr, rfl⟩
    obtain ⟨p, hp⟩ := hlive _ _ hslot
    have hdesc := (hv _).described p _ hp (by simp [hev]) hslot
    exact ⟨p, hp, (hv _).named.settled hp (hev _) hslot, hdesc.ppid, hdesc.ctxId⟩

/-- **Lost events are recovered from** in every run whose steps are recoverable: once activity
stops and the scan is made, a Pace update and its commit leave the registry exact. -/
theorem lost_events_recovered (he : eventDriven cfg = true) {w : World} {x x' : Readings}
    (hx : ∀ pid, (w.find pid).isSome → x.ReliableFor pid)
    (hs : Steps (step cfg) (fun s l => Recoverable cfg s l ∧ Reliable s l) (start cfg w x : System L) s)
    (hd : Drained s) (hx' : Reliable s (.lane .pace x')) (hp : step cfg s (.lane .pace x') = some t)
    (hq : Steps (step cfg) Quiet t u) (hc : Committed u.registry) : Restored cfg u := by
  have hv : ∀ q, Recovering cfg q s := hs.invariant (P := fun s => ∀ q, Recovering cfg q s)
    (fun _ _ _ hv ⟨hrec, hr⟩ h q => recovering_step he hrec hr h (hv q)) fun q => recovering_start (hx q)
  have hquiet : Quiet s (.lane .pace x') := ⟨hx', .inl ⟨_, _, rfl⟩⟩
  have ht (q : Pid) : Recovering cfg q t ∧ (view q t).Fading :=
    ⟨recovering_step he (recoverable_quiet hquiet) hx' hp (hv q), fading_pace he (hv q) hp⟩
  have hu := hq.invariant
    (P := fun u => (∀ q, Recovering cfg q u ∧ (view q u).Fading) ∧ u.socket = [] ∧ scanDue u = false) ?_ ?_
  · exact restored_of_recovering (fun q => (hu.1 q).1) (fun q => (hu.1 q).2) hu.2.1 hu.2.2 hc
  · intro u l u' ⟨hv, hsocket, hscan⟩ hq h
    obtain ⟨_, hsocket', hscan'⟩ := quiet_frame hq h
    exact ⟨fun q => ⟨recovering_step he (recoverable_quiet hq) hq.1 h (hv q).1,
      fading_quiet he (hv q).1.regular.wf hq h (hv q).2⟩, hsocket'.trans hsocket, hscan'.trans hscan⟩
  · obtain ⟨_, hsocket, hscan⟩ := quiet_frame hquiet hp
    exact ⟨ht, hsocket.trans hd.1, hscan.trans (by simp [scanDue, hd.2.1, hd.2.2])⟩

/-! ### Two histories -/

/-- The event of an exec is lost, and the scan made for it. -/
def lostExec : List Label :=
  [.fork 1 5 7 false, .recv .quiet, .exec 5 ['s', 'h'] true, .noBuffers .quiet, .updateProcessList .quiet]

/-- The event of a fork is lost, and the scan made for it. -/
def lostFork : List Label := [.fork 1 5 7 true, .noBuffers .quiet, .updateProcessList .quiet]

/-- **A stale name survives the recovery**, where the exec that changed it was lost. -/
theorem lost_exec_unrecovered :
    ∃ s t, Steps (step trackingConfig) Reliable booted s ∧ Drained s ∧
      Reliable s (.lane .pace .quiet) ∧ step trackingConfig s (.lane .pace .quiet) = some t ∧
      Committed t.registry ∧ ¬Restored trackingConfig t := by
  have hs : Meets (step trackingConfig) Reliable booted lostExec :=
    ⟨reliable_quiet _ (.inl rfl), fun _ _ => ⟨reliable_quiet _ (.inr rfl), fun _ _ =>
      ⟨reliable_quiet _ (.inl rfl), fun _ _ => ⟨reliable_quiet _ (.inl rfl), fun _ _ =>
        ⟨reliable_quiet _ (.inr rfl), fun _ _ => trivial⟩⟩⟩⟩⟩
  refine ⟨_, _, .of_run hs rfl, ⟨rfl, rfl, rfl⟩, reliable_quiet _ (.inr rfl), rfl, ?_, fun hr => ?_⟩
  · exact fun _ h => by cases h
  · obtain ⟨p, hp, hname, _⟩ := hr.entry 2 (List.mem_cons_of_mem _ (List.mem_cons_self ..))
    obtain rfl := Option.some.inj hp
    exact absurd hname (by decide)

/-- A lost fork is recovered from. -/
theorem lost_events_recovered_fork :
    ∃ s t, run (step trackingConfig) booted lostFork = some s ∧
      step trackingConfig s (.lane .pace .quiet) = some t ∧ Restored trackingConfig t ∧
      t.registry.tracked = [(1, ['i']), (5, ['i'])] := by
  have hs : Meets (step trackingConfig) (fun s l => Recoverable trackingConfig s l ∧ Reliable s l) booted
      lostFork := by
    refine ⟨⟨.inl rfl, reliable_quiet _ (.inl rfl)⟩, fun _ ht => ?_⟩
    obtain rfl := Option.some.inj ht
    refine ⟨⟨trivial, reliable_quiet _ (.inl rfl)⟩, fun _ ht => ?_⟩
    obtain rfl := Option.some.inj ht
    exact ⟨⟨fun _ _ _ _ => trivial, reliable_quiet _ (.inr rfl)⟩, fun _ _ => trivial⟩
  refine ⟨_, _, rfl, rfl, ?_, rfl⟩
  exact lost_events_recovered rfl (fun pid _ => Readings.quiet_reliable pid) (.of_run hs rfl) ⟨rfl, rfl, rfl⟩
    (reliable_quiet _ (.inr rfl)) rfl .refl (fun _ h => by cases h)

end TaskMonitor.System

import TaskMonitor.Event.Invariants

/-! Tracking by events agrees with a scan, where nothing is lost.

An exec does not add an entry: a process whose name was blacklisted when its fork
was handled stays out under any later name, though a scan would list it. With
every exec to an allowed name announced (`Announced`), the list is exact whenever
all events are handled. -/
namespace TaskMonitor.System
open Registry Transition

variable {L : Type → Type} [DeferredList L] {cfg : Config} {q : Pid} {s t : System L} {l : Label}

/-- No event is lost, and every read of a live process succeeds. -/
def Lossless (s : System L) (l : Label) : Prop := l.lost = false ∧ Reliable s l

/-- What holds of a pid in every run that loses no event. -/
structure Followed (cfg : Config) (q : Pid) (s : System L) : Prop where
  regular : Regular s
  noScan : scanDue s = false
  sound : (view q s).Sound
  named : (view q s).Named
  allowed : (view q s).Allowed cfg
  ended : (view q s).Ended

theorem view_pid (c : Cell) (h : (view q s).slot = some c) : c.pid = q := slot_pid h

/-- Where nothing is lost, a pid is forked again with its slot empty or its exit unhandled. -/
theorem freshFork_of_ended (he : (view q s).Ended) (h : step cfg s l = some t) :
    FreshFork q l (view q s) := by
  rintro parent ctx lost rfl
  obtain ⟨w, hw, _⟩ := Option.map_eq_some_iff.mp h
  exact (he (World.find_fork hw).1).imp And.right List.mem_of_getLast?

theorem settledScan_of_renewed (hn : scanDue s = false) (hs : (view q s).Sound) (v : View) :
    SettledScan l (view q s) v := by
  intro x _ _ hp
  refine (hs.renewed hp).resolve_right fun h => ?_
  rw [show (view q s).scan = false from hn] at h
  cases h

theorem followed_step (he : eventDriven cfg = true) (hl : l.lost = false)
    (hr : (s.world.find q).isSome → Serves cfg q s l) (h : step cfg s l = some t)
    (hf : Followed cfg q s) : Followed cfg q t := by
  have hc := step_change he hf.regular.wf hr h
  have hfork := freshFork_of_ended hf.ended h
  have hexec : NamedExec q l (view q s) := by
    rintro name rfl
    cases hl
  exact
    { regular := regular_step he h hf.regular
      noScan := scanDue_step h hl hf.noScan
      sound := sound_change hc view_pid hfork (settledScan_of_renewed hf.noScan hf.sound _) hf.sound
      named := named_change hc view_pid hfork hexec hf.named
      allowed := allowed_change hc hf.allowed
      ended := ended_change hc hl hf.ended }

theorem followed_start {w : World} {x : Readings} (hx : (w.find q).isSome → x.ReliableFor q) :
    Followed cfg q (start cfg w x : System L) := by
  have hc := start_change (L := L) cfg hx
  have hpid (c : Cell) (h : (⟨w.find q, [], none, true⟩ : View).slot = some c) : c.pid = q := by cases h
  refine
    { regular := regular_start cfg w x
      noScan := rfl
      sound := sound_change hc hpid (fun _ _ _ h => by cases h) (fun _ _ _ _ => trivial) ⟨fun _ => .inl trivial, ?_⟩
      named := named_change hc hpid (fun _ _ _ h => by cases h) (fun _ h => by cases h) ?_
      allowed := allowed_change hc ?_
      ended := ended_change hc rfl fun _ => .inl ⟨rfl, rfl⟩ }
  · exact fun _ _ c h => by cases h
  · exact fun p c _ _ h => by cases h
  · exact fun c h => by cases h

/-! ### Agreement -/

/-- An exec to an allowed name is of a process that has an entry, or whose fork event is
unhandled. -/
def Announced (cfg : Config) (s : System L) : Label → Prop
  | .exec pid name _ =>
    isBlacklisted cfg name = true ∨ s.registry.hasProc pid = true ∨ .fork ∈ pending pid s
  | _ => True

/-- The process list holds the live processes with allowed names, once each and under their
current names, as a scan from nothing would. -/
structure Agrees (cfg : Config) (s : System L) : Prop where
  nodup : s.registry.tracked.Nodup
  exact : ∀ pid name, (pid, name) ∈ s.registry.tracked ↔
    ∃ p, s.world.find pid = some p ∧ p.name = name ∧ isBlacklisted cfg name = false
  scan : ∀ x : Readings, (∀ pid, (s.world.find pid).isSome → x.ReliableFor pid) → ∀ pid name,
    (pid, name) ∈ s.registry.tracked ↔
      (pid, name) ∈ (updateProcessList cfg (s.world.env x) (empty : Registry L)).tracked

theorem listedExec_of_announced (h : Announced cfg s l) : ListedExec cfg q l (view q s) := by
  rintro name rfl
  rcases h with hb | hs | hf
  · exact .inl hb
  · exact .inr (.inl (by rwa [hasProc_iff] at hs))
  · exact .inr (.inr (.inl hf))

theorem listed_step (he : eventDriven cfg = true) (hl : Lossless s l) (ha : Announced cfg s l)
    (h : step cfg s l = some t) (hf : Followed cfg q s) (hlist : (view q s).Listed cfg) :
    (view q t).Listed cfg :=
  listed_change (step_change he hf.regular.wf (hl.2.serves q) h) view_pid (listedExec_of_announced ha) hf.sound
    hlist

theorem listed_start {w : World} {x : Readings} (hx : (w.find q).isSome → x.ReliableFor q) :
    (view q (start cfg w x : System L)).Listed cfg :=
  listed_change (start_change (L := L) cfg hx) (fun c h => by cases h) (fun _ h => by cases h)
    ⟨fun _ => .inl trivial, fun _ _ c h => by cases h⟩ fun _ _ _ _ => .inr (.inr rfl)

/-- Followed pids with every event handled are listed exactly. -/
theorem agrees_of_followed (hf : ∀ q, Followed cfg q s) (hl : ∀ q, (view q s).Listed cfg)
    (hd : s.socket = []) : Agrees cfg s := by
  have hwf := (hf 0).regular.wf
  have hev (q : Pid) : (view q s).events = [] := by simp [view, pending, hd]
  have hexact (pid : Pid) (name : Name) : (pid, name) ∈ s.registry.tracked ↔
      ∃ p, s.world.find pid = some p ∧ p.name = name ∧ isBlacklisted cfg name = false := by
    rw [hwf.mem_tracked]
    constructor
    · rintro ⟨c, hslot, rfl⟩
      cases hp : s.world.find pid with
      | none =>
        rcases (hf pid).ended hp with ⟨_, hnone⟩ | hlast
        · exact absurd (hnone.symm.trans hslot) (by simp)
        · rw [hev pid] at hlast
          cases hlast
      | some p =>
        exact ⟨p, rfl, ((hf pid).named.settled hp (hev pid) hslot).symm, (hf pid).allowed c hslot⟩
    · rintro ⟨p, hp, rfl, hb⟩
      obtain ⟨c, hslot, _⟩ := (hf pid).sound.complete (hl pid) hp (hev pid) (hf pid).noScan hb
      exact ⟨c, hslot, (hf pid).named.settled hp (hev pid) hslot⟩
  exact ⟨hwf.tracked_nodup, hexact, fun x hx pid name =>
    (hexact pid name).trans (World.tracked_scan s.world x hx pid name).symm⟩

/-- **Events keep the list a scan would build**: in every run that loses nothing and announces
each exec to an allowed name, whenever every event is handled. -/
theorem events_agree_with_scan (he : eventDriven cfg = true) {w : World} {x : Readings}
    (hx : ∀ pid, (w.find pid).isSome → x.ReliableFor pid)
    (hs : Steps (step cfg) (fun s l => Lossless s l ∧ Announced cfg s l) (start cfg w x : System L) s)
    (hd : s.socket = []) : Agrees cfg s := by
  have hinv : ∀ q, Followed cfg q s ∧ (view q s).Listed cfg := by
    refine hs.invariant (P := fun s => ∀ q, Followed cfg q s ∧ (view q s).Listed cfg) ?_ ?_
    · intro s l t hi ⟨hl, ha⟩ h q
      exact ⟨followed_step he hl.1 (hl.2.serves q) h (hi q).1, listed_step he hl ha h (hi q).1 (hi q).2⟩
    · exact fun q => ⟨followed_start (hx q), listed_start (hx q)⟩
  exact agrees_of_followed (fun q => (hinv q).1) (fun q => (hinv q).2) hd

/-! ### Two histories -/

/-- Events are enabled, and `kw` is the only blacklist key. -/
def trackingConfig : Config where
  blacklist := [['k', 'w']]
  withProcEvent := true
  withProcAcct := true
  withLXC := false
  procEvent := true
  procAcct := true
  updateOnProcEvent := true
  enableProcFDCount := true
  root := true

/-- Init and a kernel thread whose name is blacklisted. -/
def bootWorld : World := ⟨[⟨1, ['i'], 0, 7⟩, ⟨2, ['k', 'w'], 0, 7⟩], by decide⟩

def booted : System Recorded := start trackingConfig bootWorld .quiet

/-- A child of the blacklisted thread takes an allowed name once its fork is handled. -/
def unlistedExec : List Label :=
  [.fork 2 5 7 false, .recv .quiet, .exec 5 ['s', 'h'] false, .recv .quiet]

/-- A child of the blacklisted thread takes an allowed name before its fork is handled. -/
def listedExec : List Label :=
  [.fork 2 5 7 false, .exec 5 ['s', 'h'] false, .recv .quiet, .recv .quiet]

omit [DeferredList L] in
theorem reliable_quiet (s : System L) (hr : l.reads = none ∨ l.reads = some .quiet) : Reliable s l := by
  intro pid _ x hx
  rcases hr with hr | hr
  · rw [hr] at hx
    cases hx
  · obtain rfl := Option.some.inj (hr.symm.trans hx)
    exact Readings.quiet_reliable pid

omit [DeferredList L] in
theorem lossless_quiet (s : System L) (hl : l.lost = false) (hr : l.reads = none ∨ l.reads = some .quiet) :
    Lossless s l := ⟨hl, reliable_quiet s hr⟩

/-- **An exec to an allowed name can leave its process unlisted**, though nothing was lost. -/
theorem unlisted_exec_disagrees :
    ∃ s, Steps (step trackingConfig) Lossless booted s ∧ Drained s ∧ Committed s.registry ∧
      ¬Agrees trackingConfig s := by
  have hrun : (run (step trackingConfig) booted unlistedExec).isSome = true := by rfl
  obtain ⟨s, hs⟩ := Option.isSome_iff_exists.mp hrun
  have hend : (run (step trackingConfig) booted unlistedExec).map
      (fun s => (s.socket, s.overflow, s.rescans, s.registry.queue, s.registry.tracked, s.world.find 5)) =
      some ([], false, 0, [], [(1, ['i'])], some ⟨5, ['s', 'h'], 2, 7⟩) := by rfl
  rw [hs] at hend
  simp only [Option.map_some, Option.some.injEq, Prod.mk.injEq] at hend
  obtain ⟨hsocket, hover, hscan, hqueue, htracked, hfind⟩ := hend
  have hmeets : Meets (step trackingConfig) Lossless booted unlistedExec :=
    ⟨lossless_quiet _ rfl (.inl rfl), fun _ _ => ⟨lossless_quiet _ rfl (.inr rfl), fun _ _ =>
      ⟨lossless_quiet _ rfl (.inl rfl), fun _ _ => ⟨lossless_quiet _ rfl (.inr rfl), fun _ _ => trivial⟩⟩⟩⟩
  refine ⟨s, .of_run hmeets hs, ⟨hsocket, hover, hscan⟩, ?_, fun ha => ?_⟩
  · rw [Committed, hqueue]
    exact fun _ h => by cases h
  · have hlisted := (ha.exact 5 ['s', 'h']).mpr ⟨_, hfind, rfl, by decide⟩
    rw [htracked] at hlisted
    exact absurd hlisted (by decide)

/-- The same child is listed where its exec comes before its fork is handled. -/
theorem events_agree_with_scan_listed :
    ∃ s, run (step trackingConfig) booted listedExec = some s ∧ Agrees trackingConfig s ∧
      s.registry.tracked = [(1, ['i']), (5, ['s', 'h'])] := by
  have hrun : (run (step trackingConfig) booted listedExec).isSome = true := by rfl
  obtain ⟨s, hs⟩ := Option.isSome_iff_exists.mp hrun
  have hend : (run (step trackingConfig) booted listedExec).map (fun s => (s.socket, s.registry.tracked)) =
      some ([], [(1, ['i']), (5, ['s', 'h'])]) := by rfl
  rw [hs] at hend
  simp only [Option.map_some, Option.some.injEq, Prod.mk.injEq] at hend
  have hmeets : Meets (step trackingConfig) (fun s l => Lossless s l ∧ Announced trackingConfig s l) booted
      listedExec := by
    refine ⟨⟨lossless_quiet _ rfl (.inl rfl), trivial⟩, fun t ht => ?_⟩
    obtain rfl := Option.some.inj ht
    exact ⟨⟨lossless_quiet _ rfl (.inl rfl), .inr (.inr (by decide))⟩, fun _ _ =>
      ⟨⟨lossless_quiet _ rfl (.inr rfl), trivial⟩, fun _ _ =>
        ⟨⟨lossless_quiet _ rfl (.inr rfl), trivial⟩, fun _ _ => trivial⟩⟩⟩
  exact ⟨s, hs, events_agree_with_scan rfl (fun pid _ => Readings.quiet_reliable pid)
    (.of_run hmeets hs) hend.1, hend.2⟩

end TaskMonitor.System

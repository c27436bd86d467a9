import TaskMonitor.Event.Agreement
import TaskMonitor.Lib.History
import Mathlib.Data.Nat.ModEq

/-! What the event statistics say (`ProcEvent.cpp`).

Every event is counted once, when it is received. So for each kind what was
counted, what waits in the socket and what was lost make up what happened
(`events_conserved`), and the processes that are live follow from the counts of
forks and exits (`processes_balanced`). A request for the statistics goes through
the queue of the module and is answered with the counts of that moment. Counters
wrap, so all of this is up to multiples of 2^64. -/
namespace TaskMonitor
open Transition

/-- The kinds of events that are counted. -/
inductive EventKind where
  | fork | exec | uid | gid | exit
deriving Repr, DecidableEq

def ProcEvent.kind : ProcEvent → Option EventKind
  | .fork .. => some .fork
  | .exec .. => some .exec
  | .uid .. => some .uid
  | .gid .. => some .gid
  | .exit .. => some .exit
  | .none | .other => Option.none

def ProcEvent.is (k : EventKind) (ev : ProcEvent) : Bool := decide (ev.kind = some k)

def EventData.of (d : EventData) : EventKind → UInt64
  | .fork => d.forkCount
  | .exec => d.execCount
  | .uid => d.uidCount
  | .gid => d.gidCount
  | .exit => d.exitCount

theorem EventData.of_count (d : EventData) (ev : ProcEvent) (k : EventKind) :
    (d.count ev).of k = d.of k + if ev.is k then 1 else 0 := by
  cases ev <;> cases k <;> simp [count, of, ProcEvent.is, ProcEvent.kind]

theorem EventData.of_foldl (evs : List ProcEvent) (d : EventData) (k : EventKind) :
    (evs.foldl (fun d ev => d.count ev) d).of k = d.of k + UInt64.ofNat (evs.countP (ProcEvent.is k)) := by
  induction evs generalizing d with
  | nil => simp
  | cons ev rest ih =>
    rw [List.foldl_cons, ih, of_count, List.countP_cons, UInt64.ofNat_add, UInt64.add_assoc,
      UInt64.add_comm (UInt64.ofNat _)]
    split <;> rfl

/-- A counter shows its number up to multiples of 2^64. -/
theorem EventData.modEq (n : Nat) : (UInt64.ofNat n).toNat ≡ n [MOD 2 ^ 64] := by
  rw [UInt64.toNat_ofNat']
  exact Nat.mod_modEq n (2 ^ 64)

/-- Below that it shows its number. -/
theorem EventData.shown {n : Nat} (h : n < 2 ^ 64) : (UInt64.ofNat n).toNat = n := UInt64.toNat_ofNat_of_lt' h

/-! ### The processes of the world -/

theorem World.length_fork {w w' : World} {parent child : Pid} {ctx : UInt64} (h : w.fork parent child ctx = some w') :
    w'.procs.length = w.procs.length + 1 := by
  unfold fork at h
  split at h
  · cases h
  · split at h
    · obtain rfl := Option.some.inj h
      exact List.length_append
    · cases h

theorem World.length_exec {w w' : World} {pid : Pid} {name : Name} (h : w.exec pid name = some w') :
    w'.procs.length = w.procs.length := by
  unfold exec at h
  split at h
  · obtain rfl := Option.some.inj h
    exact List.length_map _
  · cases h

/-- An exit takes one process away: a pid has one. -/
theorem World.length_exit {w w' : World} {pid reaper : Pid} (h : w.exit pid reaper = some w') :
    w'.procs.length + 1 = w.procs.length := by
  unfold exit at h
  split at h
  · rename_i hp
    obtain ⟨p, hp⟩ := Option.isSome_iff_exists.mp hp
    obtain rfl := Option.some.inj h
    have hmem : pid ∈ w.procs.map Process.pid :=
      List.mem_map.mpr ⟨p, (Keyed.lookup_some hp).1, (Keyed.lookup_some hp).2⟩
    have hone : w.procs.countP (fun p => decide (p.pid = pid)) = 1 := by
      have hcount := List.count_eq_one_of_mem w.nodup hmem
      rw [List.count, List.countP_map] at hcount
      rw [← hcount]
      exact List.countP_congr fun p _ => by simp
    have hsplit := List.length_eq_countP_add_countP (fun p : Process => decide (p.pid = pid)) (l := w.procs)
    have hkept : (w.procs.filter fun p => decide (p.pid ≠ pid)).length =
        w.procs.countP fun p => decide ¬(decide (p.pid = pid) = true) := by
      rw [List.countP_eq_length_filter]
      congr 2
      funext p
      simp
    rw [List.length_map, hkept]
    omega
  · cases h

namespace System

variable {L : Type → Type} [DeferredList L] {cfg : Config} {s t : System L} {l : Label} {labels : List Label}
  {w : World} {x : Readings}

/-! ### Events -/

/-- The event that a step makes happen. -/
def Label.event : Label → Option ProcEvent
  | .fork parent child _ _ => some (.fork parent parent child child)
  | .exec pid _ _ => some (.exec pid pid)
  | .exit pid _ _ => some (.exit pid pid)
  | .other ev _ => some ev
  | .recv _ | .noBuffers _ | .updateProcessList _ | .lane _ _ | .reply _ | .collect _ | .dispatch => none

/-- An event of the kind happens. -/
def Label.happens (k : EventKind) (l : Label) : Bool := (l.event.map (ProcEvent.is k)).getD false

/-- An event of the kind happens to a thread: it starts or ends no process. -/
def Label.ofThread (k : EventKind) : Label → Bool
  | .other ev _ => ev.is k
  | _ => false

/-- What a step puts into the socket. -/
def delivered (l : Label) : List ProcEvent := if l.lost then [] else l.event.toList

/-- What a step takes from the socket. -/
def received (s : System L) : Label → List ProcEvent
  | .recv _ => s.socket.take 1
  | _ => []

omit [DeferredList L] in
theorem deliver_socket (ev : ProcEvent) (lost : Bool) (s : System L) :
    (deliver ev lost s).socket = s.socket ++ if lost then [] else [ev] := by
  cases lost <;> simp [deliver]

omit [DeferredList L] in
theorem deliver_eventData (ev : ProcEvent) (lost : Bool) (s : System L) :
    (deliver ev lost s).eventData = s.eventData := by
  cases lost <;> rfl

/-- The socket is a queue, and what is taken from it is counted. -/
theorem step_socket (h : step cfg s l = some t) :
    s.socket ++ delivered l = received s l ++ t.socket ∧
      t.eventData = (received s l).foldl (fun d ev => d.count ev) s.eventData := by
  cases l with
  | fork parent child ctx lost =>
    obtain ⟨w, _, rfl⟩ := Option.map_eq_some_iff.mp h
    refine ⟨?_, deliver_eventData ..⟩
    rw [deliver_socket]
    rfl
  | exec pid name lost =>
    obtain ⟨w, _, rfl⟩ := Option.map_eq_some_iff.mp h
    refine ⟨?_, deliver_eventData ..⟩
    rw [deliver_socket]
    rfl
  | exit pid reaper lost =>
    obtain ⟨w, _, rfl⟩ := Option.map_eq_some_iff.mp h
    refine ⟨?_, deliver_eventData ..⟩
    rw [deliver_socket]
    rfl
  | other ev lost =>
    simp only [step] at h
    split at h
    · cases h
    · obtain rfl := Option.some.inj h
      refine ⟨?_, deliver_eventData ..⟩
      rw [deliver_socket]
      rfl
  | recv x =>
    cases hs : s.socket with
    | nil => simp [step, hs] at h
    | cons ev rest =>
      simp only [step, hs, Option.some.injEq] at h
      subst h
      simp [received, hs, delivered, Label.lost, Label.event, callback]
  | noBuffers x =>
    obtain ⟨_, ht⟩ := Option.ite_none_right_eq_some.mp h
    obtain rfl := Option.some.inj ht
    exact ⟨List.append_nil _, rfl⟩
  | updateProcessList x =>
    simp only [step] at h
    split at h
    · cases h
    · obtain rfl := Option.some.inj h
      exact ⟨List.append_nil _, rfl⟩
  | lane lane x =>
    obtain rfl := Option.some.inj h
    exact ⟨List.append_nil _, rfl⟩
  | reply record =>
    obtain rfl := Option.some.inj h
    exact ⟨List.append_nil _, rfl⟩
  | collect rq =>
    obtain ⟨_, ht⟩ := Option.ite_none_left_eq_some.mp h
    obtain rfl := Option.some.inj ht
    exact ⟨List.append_nil _, rfl⟩
  | dispatch =>
    obtain ⟨out, _, rfl⟩ := Option.map_eq_some_iff.mp h
    exact ⟨List.append_nil _, rfl⟩

theorem countP_delivered (k : EventKind) (l : Label) :
    (delivered l).countP (ProcEvent.is k) + (if l.happens k && l.lost then 1 else 0) = if l.happens k then 1 else 0 := by
  unfold delivered Label.happens
  cases he : l.event <;> cases hl : l.lost <;> simp [List.countP_cons]

/-- What was delivered was counted or waits. -/
theorem delivered_run (h : run (step cfg) s labels = some t) (k : EventKind) :
    ∃ n, t.eventData.of k = s.eventData.of k + UInt64.ofNat n ∧
      s.socket.countP (ProcEvent.is k) + (labels.flatMap delivered).countP (ProcEvent.is k) =
        n + t.socket.countP (ProcEvent.is k) := by
  have hfifo : s.socket ++ trace (step cfg) (fun _ l => delivered l) s labels =
      trace (step cfg) received s labels ++ t.socket :=
    run_fifo (I := fun _ => True) (fun _ _ _ _ _ => trivial) (fun _ _ _ _ hl => (step_socket hl).1) trivial h
  have hdata : t.eventData = (trace (step cfg) received s labels).foldl (fun d ev => d.count ev) s.eventData :=
    run_replay (fun _ _ _ hl => (step_socket hl).2) h
  have hcount := congrArg (List.countP (ProcEvent.is k)) hfifo
  rw [trace_labels delivered h, List.countP_append, List.countP_append] at hcount
  exact ⟨_, by rw [hdata, EventData.of_foldl], hcount⟩

/-- What happens is delivered or lost. -/
theorem delivered_or_lost (labels : List Label) (k : EventKind) :
    labels.countP (Label.happens k) =
      (labels.flatMap delivered).countP (ProcEvent.is k) + labels.countP fun l => l.happens k && l.lost := by
  induction labels with
  | nil => rfl
  | cons l rest ih =>
    have hl := countP_delivered k l
    rw [List.countP_cons, List.flatMap_cons, List.countP_append, List.countP_cons, ih]
    omega

/-- Events of the kind that are not counted: they wait in the socket, or were lost. -/
def uncounted (t : System L) (labels : List Label) (k : EventKind) : Nat :=
  t.socket.countP (ProcEvent.is k) + labels.countP fun l => l.happens k && l.lost

/-- Of each kind, what happened was counted, waits in the socket or was lost. -/
theorem events_conserved (h : run (step cfg) (start cfg w x : System L) labels = some t) (k : EventKind) :
    ∃ n, t.eventData.of k = UInt64.ofNat n ∧ labels.countP (Label.happens k) = n + uncounted t labels k := by
  obtain ⟨n, hcount, hrun⟩ := delivered_run h k
  have hzero : (start cfg w x : System L).eventData.of k = 0 := by cases k <;> rfl
  have hempty : (start cfg w x : System L).socket.countP (ProcEvent.is k) = 0 := rfl
  refine ⟨n, by rw [hcount, hzero, UInt64.zero_add], ?_⟩
  rw [delivered_or_lost, uncounted]
  omega

/-! ### Processes -/

/-- A step ends at most one process and starts at most one. -/
theorem step_length (h : step cfg s l = some t) :
    t.world.procs.length + (if l.happens .exit then 1 else 0) + (if l.ofThread .fork then 1 else 0) =
      s.world.procs.length + (if l.happens .fork then 1 else 0) + (if l.ofThread .exit then 1 else 0) := by
  have hsame {l : Label} (hw : t.world = s.world) (he : l.event = none) (ht : ∀ k, l.ofThread k = false) :
      t.world.procs.length + (if l.happens .exit then 1 else 0) + (if l.ofThread .fork then 1 else 0) =
        s.world.procs.length + (if l.happens .fork then 1 else 0) + (if l.ofThread .exit then 1 else 0) := by
    simp [hw, Label.happens, he, ht]
  cases l with
  | fork parent child ctx lost =>
    obtain ⟨w', hw, rfl⟩ := Option.map_eq_some_iff.mp h
    have hlength := World.length_fork hw
    simpa [deliver_world, Label.happens, Label.event, Label.ofThread, ProcEvent.is, ProcEvent.kind] using hlength
  | exec pid name lost =>
    obtain ⟨w', hw, rfl⟩ := Option.map_eq_some_iff.mp h
    have hlength := World.length_exec hw
    simpa [deliver_world, Label.happens, Label.event, Label.ofThread, ProcEvent.is, ProcEvent.kind] using hlength
  | exit pid reaper lost =>
    obtain ⟨w', hw, rfl⟩ := Option.map_eq_some_iff.mp h
    have hlength := World.length_exit hw
    simpa [deliver_world, Label.happens, Label.event, Label.ofThread, ProcEvent.is, ProcEvent.kind] using hlength
  | other ev lost =>
    simp only [step] at h
    split at h
    · cases h
    · obtain rfl := Option.some.inj h
      cases hf : ev.is .fork <;> cases he : ev.is .exit <;>
        simp [deliver_world, Label.happens, Label.event, Label.ofThread, hf, he]
  | recv x =>
    cases hs : s.socket with
    | nil => simp [step, hs] at h
    | cons ev rest =>
      simp only [step, hs, Option.some.injEq] at h
      subst h
      exact hsame rfl rfl fun _ => rfl
  | noBuffers x =>
    obtain ⟨_, ht⟩ := Option.ite_none_right_eq_some.mp h
    obtain rfl := Option.some.inj ht
    exact hsame rfl rfl fun _ => rfl
  | updateProcessList x =>
    simp only [step] at h
    split at h
    · cases h
    · obtain rfl := Option.some.inj h
      exact hsame rfl rfl fun _ => rfl
  | lane lane x =>
    obtain rfl := Option.some.inj h
    exact hsame rfl rfl fun _ => rfl
  | reply record =>
    obtain rfl := Option.some.inj h
    exact hsame rfl rfl fun _ => rfl
  | collect rq =>
    obtain ⟨_, ht⟩ := Option.ite_none_left_eq_some.mp h
    obtain rfl := Option.some.inj ht
    exact hsame rfl rfl fun _ => rfl
  | dispatch =>
    obtain ⟨out, _, rfl⟩ := Option.map_eq_some_iff.mp h
    exact hsame rfl rfl fun _ => rfl

theorem length_run (h : run (step cfg) s labels = some t) :
    t.world.procs.length + labels.countP (Label.happens .exit) + labels.countP (Label.ofThread .fork) =
      s.world.procs.length + labels.countP (Label.happens .fork) + labels.countP (Label.ofThread .exit) := by
  induction labels generalizing s with
  | nil =>
    obtain rfl := Option.some.inj h
    rfl
  | cons l rest ih =>
    obtain ⟨m, hl, hrest⟩ := Option.bind_eq_some_iff.mp h
    have hstep := step_length hl
    have htail := ih hrest
    simp only [List.countP_cons]
    omega

/-- **The live processes follow from the statistics**: they are those at the start, and the forks that are counted or
yet to be, without the exits; what happens to threads is taken out of both. Counters wrap, so this is up to multiples
of 2^64, and as it stands in runs that are shorter. -/
theorem processes_balanced (h : run (step cfg) (start cfg w x : System L) labels = some t) :
    t.world.procs.length + (t.eventData.exitCount.toNat + uncounted t labels .exit) +
        labels.countP (Label.ofThread .fork) ≡
      w.procs.length + (t.eventData.forkCount.toNat + uncounted t labels .fork) +
        labels.countP (Label.ofThread .exit) [MOD 2 ^ 64] ∧
    (labels.length < 2 ^ 64 →
      t.world.procs.length + (t.eventData.exitCount.toNat + uncounted t labels .exit) +
          labels.countP (Label.ofThread .fork) =
        w.procs.length + (t.eventData.forkCount.toNat + uncounted t labels .fork) +
          labels.countP (Label.ofThread .exit)) := by
  have hlength : t.world.procs.length + labels.countP (Label.happens .exit) + labels.countP (Label.ofThread .fork) =
      w.procs.length + labels.countP (Label.happens .fork) + labels.countP (Label.ofThread .exit) := length_run h
  obtain ⟨exits, hexits, hexit⟩ := events_conserved h .exit
  obtain ⟨forks, hforks, hfork⟩ := events_conserved h .fork
  simp only [EventData.of] at hexits hforks
  rw [hexits, hforks]
  rw [hexit, hfork] at hlength
  constructor
  · calc _ ≡ t.world.procs.length + (exits + uncounted t labels .exit) + labels.countP (Label.ofThread .fork)
          [MOD 2 ^ 64] := ((EventData.modEq exits).add_right _).add_left _ |>.add_right _
      _ = w.procs.length + (forks + uncounted t labels .fork) + labels.countP (Label.ofThread .exit) := hlength
      _ ≡ _ [MOD 2 ^ 64] := (((EventData.modEq forks).symm.add_right _).add_left _).add_right _
  · intro hshort
    have hexitLe : labels.countP (Label.happens .exit) ≤ labels.length := List.countP_le_length
    have hforkLe : labels.countP (Label.happens .fork) ≤ labels.length := List.countP_le_length
    rw [EventData.shown (by omega), EventData.shown (by omega)]
    exact hlength

/-- One child is forked unheard, another waits in the socket, and a thread ends. -/
def forkedUnheard : List Label :=
  [.other (.exit 6 1) false, .fork 1 5 7 true, .recv .quiet, .fork 1 6 7 false]

theorem processes_balanced_lost :
    ∃ t, run (step trackingConfig) (start trackingConfig bootWorld .quiet : System Recorded) forkedUnheard = some t ∧
      t.world.procs.length + (t.eventData.exitCount.toNat + uncounted t forkedUnheard .exit) +
          forkedUnheard.countP (Label.ofThread .fork) ≡
        bootWorld.procs.length + (t.eventData.forkCount.toNat + uncounted t forkedUnheard .fork) +
          forkedUnheard.countP (Label.ofThread .exit) [MOD 2 ^ 64] ∧
      (forkedUnheard.length < 2 ^ 64 →
        t.world.procs.length + (t.eventData.exitCount.toNat + uncounted t forkedUnheard .exit) +
            forkedUnheard.countP (Label.ofThread .fork) =
          bootWorld.procs.length + (t.eventData.forkCount.toNat + uncounted t forkedUnheard .fork) +
            forkedUnheard.countP (Label.ofThread .exit)) :=
  ⟨_, rfl, processes_balanced rfl⟩

end System

/-! ### Requests for the statistics -/

/-- The daemon with the queue of `ProcEvent`, and what was sent to whom. -/
structure EventStats (L : Type → Type) where
  system : System L
  queue : List Nat := []
  sent : List (Nat × EventData) := []

namespace EventStats

variable {L : Type → Type} [DeferredList L] {cfg : Config} {s t : EventStats L} {labels : List Label}
  {w : World} {x : Readings}

inductive Label where
  | system (l : System.Label)
  /-- A collector asks, and whether the push is successful. -/
  | ask (collector : Nat) (pushed : Bool)
  | dispatch

def pushRequest (collector : Nat) (pushed : Bool) (s : EventStats L) : EventStats L :=
  if pushed then {s with queue := s.queue ++ [collector]} else s

def doCollectAndSend (collector : Nat) (s : EventStats L) : EventStats L :=
  {s with sent := s.sent ++ [(collector, s.system.eventData)]}

def step (cfg : Config) (s : EventStats L) : Label → Option (EventStats L)
  | .system l => (System.step cfg s.system l).map fun system => {s with system := system}
  | .ask collector pushed => some (s.pushRequest collector pushed)
  | .dispatch =>
    match s.queue with
    | [] => none
    | collector :: rest => some (doCollectAndSend collector {s with queue := rest})

def start (cfg : Config) (w : World) (x : Readings) : EventStats L := {system := System.start cfg w x}

def Label.own : Label → Option System.Label
  | .system l => some l
  | .ask _ _ | .dispatch => none

/-- The collector whose request is pushed. -/
def Label.asked : Label → Option Nat
  | .ask collector true => some collector
  | _ => none

/-- What a step answers. -/
def answers (s : EventStats L) : Label → List (Nat × EventData)
  | .dispatch => (s.queue.take 1).map fun collector => (collector, s.system.eventData)
  | .system _ | .ask _ _ => []

theorem system_carries : Transition.Carries (step cfg) EventStats.system (System.step (L := L) cfg) Label.own := by
  intro s l t h
  cases l with
  | system l =>
    obtain ⟨system, hs, rfl⟩ := Option.map_eq_some_iff.mp h
    exact hs
  | ask collector pushed =>
    obtain rfl := Option.some.inj h
    cases pushed <;> rfl
  | dispatch =>
    simp only [step] at h
    split at h
    · cases h
    · obtain rfl := Option.some.inj h
      rfl

/-- What requests for the statistics do is nothing to the rest. -/
theorem system_steps {C : System L → System.Label → Prop}
    (h : Steps (step cfg) (fun s l => ∀ own, l.own = some own → C s.system own) s t) :
    Steps (System.step cfg) C s.system t.system := by
  refine h.simulate EventStats.system fun s l t hc hl => ?_
  have hcarries := system_carries s l t hl
  cases ho : l.own with
  | none =>
    rw [ho] at hcarries
    exact hcarries ▸ .refl
  | some own =>
    rw [ho] at hcarries
    exact .single (hc own ho) hcarries

theorem step_answers (l : Label) (h : step cfg s l = some t) :
    t.sent = s.sent ++ answers s l ∧ s.queue ++ l.asked.toList = (answers s l).map Prod.fst ++ t.queue := by
  cases l with
  | system l =>
    obtain ⟨system, _, rfl⟩ := Option.map_eq_some_iff.mp h
    simp [answers, Label.asked]
  | ask collector pushed =>
    obtain rfl := Option.some.inj h
    cases pushed <;> simp [answers, Label.asked, pushRequest]
  | dispatch =>
    cases hq : s.queue with
    | nil => simp [step, hq] at h
    | cons collector rest =>
      simp only [step, hq, Option.some.injEq] at h
      subst h
      simp [answers, hq, doCollectAndSend, Label.asked]

/-- A counter shows its number, and with the events that wait or are yet to happen it does not wrap. -/
def Room (k : EventKind) (n : Nat) (s : EventStats L) (labels : List Label) : Prop :=
  s.system.eventData.of k = UInt64.ofNat n ∧
    n + s.system.socket.countP (ProcEvent.is k) + (labels.filterMap Label.own).countP (System.Label.happens k) < 2 ^ 64

omit [DeferredList L] in
theorem Room.before {k : EventKind} {n : Nat} {before after : List Label} (h : Room k n s (before ++ after)) :
    Room k n s before := by
  obtain ⟨hcount, hlt⟩ := h
  rw [List.filterMap_append, List.countP_append] at hlt
  exact ⟨hcount, by omega⟩

end EventStats
end TaskMonitor

import TaskMonitor.Event.System

/-! What a step of the system changes for one pid.

`view` is all that tracking says of a pid: the process that has it, its events
not yet received, what the registry holds for it and whether a scan is to come.
`step_change` is the one case analysis of the step function; every invariant of
tracking is proved from `Change`. -/
namespace TaskMonitor.System
open Registry

variable {L : Type → Type} [DeferredList L] {cfg : Config} {q : Pid} {s t : System L} {l : Label}

/-- What an event is to a pid that it concerns. -/
inductive Kind where
  | fork | exec | exit
deriving Repr, DecidableEq

def concerns (q : Pid) : ProcEvent → Option Kind
  | .fork _ _ childPid childTgid => if childPid = childTgid ∧ childTgid = q then some .fork else none
  | .exec processPid _ => if processPid = q then some .exec else none
  | .exit processPid processTgid =>
    if processPid = processTgid ∧ processPid = q then some .exit else none
  | .none | .uid .. | .gid .. | .other => none

/-- The unhandled events of the pid, oldest first. -/
def pending (q : Pid) (s : System L) : List Kind := s.socket.filterMap (concerns q)

/-- A scan of procfs is to come. -/
def scanDue (s : System L) : Bool := s.overflow || decide (0 < s.rescans)

structure View where
  proc : Option Process
  events : List Kind
  slot : Option Cell
  scan : Bool

def view (q : Pid) (s : System L) : View :=
  ⟨s.world.find q, pending q s, s.registry.slot q, scanDue s⟩

/-! ### The registry under one event -/

/-- What an event of the pid does to its slot. -/
def handle (cfg : Config) (env : Env) (q : Pid) (k : Kind) (c : Option Cell) : Option Cell :=
  match k with
  | .fork => c.or ((entryFor cfg env q).map Cell.fresh)
  | .exec => (c.map (Cell.updName cfg env q)).filter fun c => !c.condemned
  | .exit => none

theorem wf_handleEvent {env : Env} {r : Registry L} (h : WF r) (ev : ProcEvent) :
    WF (handleEvent cfg env ev r) := by
  unfold handleEvent
  split
  · split
    · exact wf_addProcEntry h _
    · exact h
  · split
    · exact wf_updProcEntry h _
    · exact h
  · split
    · exact wf_remEntries _ _ h
    · exact h
  all_goals exact h

theorem requested_handleEvent {env : Env} {r : Registry L} (h : Requested r) (ev : ProcEvent) :
    Requested (handleEvent cfg env ev r) := by
  unfold handleEvent
  split
  · split
    · exact requested_addProcEntry h _
    · exact h
  · split
    · exact requested_updProcEntry _
    · exact h
  · split
    · exact requested_remEntries _ _
    · exact h
  all_goals exact h

theorem updName_other {env : Env} {pid : Pid} {c : Cell} (h : c.pid ≠ pid) :
    c.updName cfg env pid = c := by
  rw [Cell.updName, if_neg h]

/-- An event does to the slot what its kind says, or commits it where the event is another's. -/
theorem slot_handleEvent (q : Pid) (env : Env) {r : Registry L} (hu : cfg.updateOnProcEvent = true) (h : WF r)
    (ev : ProcEvent) :
    (∃ k, concerns q ev = some k ∧ (handleEvent cfg env ev r).slot q = handle cfg env q k (r.slot q)) ∨
      (concerns q ev = none ∧ ((handleEvent cfg env ev r).slot q = r.slot q ∨
        (handleEvent cfg env ev r).slot q = (r.slot q).filter fun c => !c.condemned)) := by
  cases ev with
  | fork parentPid parentTgid childPid childTgid =>
    by_cases hp : childPid = childTgid
    · simp only [handleEvent, concerns, hp, hu, beq_self_eq_true, Bool.and_self, if_true, true_and,
        slot_addProcEntry h]
      by_cases hq : childTgid = q
      · subst hq
        exact .inl ⟨.fork, by simp, by simp [handle]⟩
      · exact .inr ⟨if_neg hq, .inl (if_neg fun h' => hq h'.symm)⟩
    · exact .inr ⟨by simp [concerns, hp], .inl (by simp [handleEvent, hp])⟩
  | exec processPid processTgid =>
    simp only [handleEvent, concerns, hu, if_true, slot_updProcEntry h]
    by_cases hq : processPid = q
    · subst hq
      exact .inl ⟨.exec, by simp, rfl⟩
    · refine .inr ⟨if_neg hq, .inr ?_⟩
      cases hs : r.slot q with
      | none => rfl
      | some c =>
        have hc : c.pid ≠ processPid := by
          rw [slot_pid hs]
          exact fun h' => hq h'.symm
        rw [Option.map_some, updName_other hc]
  | exit processPid processTgid =>
    by_cases hp : processPid = processTgid
    · simp only [handleEvent, concerns, hp, hu, beq_self_eq_true, Bool.and_self, if_true, true_and,
        slot_remProcEntry_sync h]
      by_cases hq : processTgid = q
      · subst hq
        exact .inl ⟨.exit, by simp, by simp [handle]⟩
      · exact .inr ⟨if_neg hq, .inr (if_neg fun h' => hq h'.symm)⟩
    · exact .inr ⟨by simp [concerns, hp], .inl (by simp [handleEvent, hp])⟩
  | _ => exact .inr ⟨rfl, .inl rfl⟩

/-! ### Steps keep the registry well formed -/

omit [DeferredList L] in
@[simp] theorem deliver_world (ev : ProcEvent) (lost : Bool) : (deliver ev lost s).world = s.world := by
  cases lost <;> rfl

omit [DeferredList L] in
@[simp] theorem deliver_registry (ev : ProcEvent) (lost : Bool) :
    (deliver ev lost s).registry = s.registry := by
  cases lost <;> rfl

/-- What a step makes of the registry. -/
theorem step_registry (h : step cfg s l = some t) :
    t.registry = s.registry ∨
      (∃ x ev rest, l = .recv x ∧ s.socket = ev :: rest ∧
        t.registry = handleEvent cfg (s.world.env x) ev s.registry) ∨
      (∃ x, l = .updateProcessList x ∧ t.registry = s.registry.updateProcessList cfg (s.world.env x)) ∨
      (∃ lane x, l = .lane lane x ∧ t.registry = s.registry.update cfg (s.world.env x) lane) ∨
      (∃ record, l = .reply record ∧ t.registry = s.registry.processDelayAcct record) ∨
      (∃ rq, l = .collect rq ∧ isCommit rq.action = false ∧ t.registry = s.registry.pushRequest rq) ∨
      (∃ rq rest, l = .dispatch ∧ s.registry.queue = rq :: rest ∧
        t.registry = (requestHandler cfg rq {s.registry with queue := rest}).1) := by
  cases l with
  | fork parent child ctx lost =>
    obtain ⟨w, _, rfl⟩ := Option.map_eq_some_iff.mp h
    exact .inl (deliver_registry _ _)
  | exec pid name lost =>
    obtain ⟨w, _, rfl⟩ := Option.map_eq_some_iff.mp h
    exact .inl (deliver_registry _ _)
  | exit pid reaper lost =>
    obtain ⟨w, _, rfl⟩ := Option.map_eq_some_iff.mp h
    exact .inl (deliver_registry _ _)
  | other ev lost =>
    simp only [step] at h
    split at h
    · cases h
    · obtain rfl := Option.some.inj h
      exact .inl (deliver_registry _ _)
  | recv x =>
    simp only [step] at h
    split at h
    · cases h
    · rename_i ev rest hs
      obtain rfl := Option.some.inj h
      exact .inr (.inl ⟨x, ev, rest, rfl, hs, rfl⟩)
  | noBuffers x =>
    simp only [step] at h
    split at h
    · obtain rfl := Option.some.inj h
      exact .inl rfl
    · cases h
  | updateProcessList x =>
    simp only [step] at h
    split at h
    · cases h
    · obtain rfl := Option.some.inj h
      exact .inr (.inr (.inl ⟨x, rfl, rfl⟩))
  | lane lane x =>
    obtain rfl := Option.some.inj h
    exact .inr (.inr (.inr (.inl ⟨lane, x, rfl, rfl⟩)))
  | reply record =>
    obtain rfl := Option.some.inj h
    exact .inr (.inr (.inr (.inr (.inl ⟨record, rfl, rfl⟩))))
  | collect rq =>
    simp only [step] at h
    split at h
    · cases h
    · rename_i hc
      obtain rfl := Option.some.inj h
      exact .inr (.inr (.inr (.inr (.inr (.inl ⟨rq, rfl, by simpa using hc, rfl⟩)))))
  | dispatch =>
    obtain ⟨out, hd, rfl⟩ := Option.map_eq_some_iff.mp h
    obtain ⟨rq, rest, hq, rfl⟩ := dispatch_eq_some hd
    exact .inr (.inr (.inr (.inr (.inr (.inr ⟨rq, rest, rfl, hq, rfl⟩)))))

/-- The registry is well formed, and every recorded removal has its commit requested. -/
structure Regular (s : System L) : Prop where
  wf : WF s.registry
  requested : Requested s.registry

theorem regular_step (he : eventDriven cfg = true) (h : step cfg s l = some t) (hr : Regular s) :
    Regular t := by
  rcases step_registry h with ht | ⟨x, ev, rest, _, _, ht⟩ | ⟨x, _, ht⟩ | ⟨lane, x, _, ht⟩ |
    ⟨record, _, ht⟩ | ⟨rq, _, _, ht⟩ | ⟨rq, rest, _, hq, ht⟩
  · exact ⟨ht ▸ hr.wf, ht ▸ hr.requested⟩
  · exact ⟨ht ▸ wf_handleEvent hr.wf ev, ht ▸ requested_handleEvent hr.requested ev⟩
  · exact ⟨ht ▸ wf_updateProcessList _ _ hr.wf, ht ▸ requested_updateProcessList hr.requested⟩
  · exact ⟨ht ▸ (update_cells he hr.wf lane).1, ht ▸ requested_update hr.requested lane⟩
  · exact ⟨ht ▸ (processDelayAcct_cells hr.wf record).1, ht ▸ requested_processDelayAcct hr.requested record⟩
  · refine ⟨ht ▸ hr.wf.congr rfl rfl (Nat.le_refl _), ?_⟩
    rw [ht]
    intro p hp
    obtain ⟨rq', hm, ha⟩ := hr.requested p hp
    exact ⟨rq', List.mem_append_left _ hm, ha⟩
  · have hwf : WF ({s.registry with queue := rest} : Registry L) := hr.wf.congr rfl rfl (Nat.le_refl _)
    exact ⟨ht ▸ (requestHandler_cells rq hwf).1, ht ▸ requested_dispatch hr.requested hq⟩

theorem regular_start (cfg : Config) (w : World) (x : Readings) :
    Regular (start cfg w x : System L) := by
  have hn : (w.env x).pids.Nodup := w.nodup
  exact ⟨(initFromProc_spec cfg hn).1, requested_initFromProc cfg (w.env x)⟩

/-! ### One pid -/

namespace View

/-- An event of the pid is delivered, or lost with a scan to come. -/
def deliver (k : Kind) (lost : Bool) (v : View) : View :=
  if lost then {v with scan := true} else {v with events := v.events ++ [k]}

/-- The removal recorded for the pid, if any, is committed. -/
def commit (v : View) : View := {v with slot := v.slot.filter fun c => !c.condemned}

end View

/-- What a step can change for a pid. -/
inductive Change (cfg : Config) (q : Pid) : Label → View → View → Prop where
  /-- Nothing, but that a scan may have become due. -/
  | idle {l : Label} {v : View} {scan : Bool} (hs : v.scan = true → scan = true) :
      Change cfg q l v {v with scan := scan}
  | fork {v : View} {parent : Pid} {ctx : UInt64} {lost : Bool} {p : Process} (hd : v.proc = none) :
      Change cfg q (.fork parent q ctx lost) v (View.deliver .fork lost {v with proc := some p})
  | exec {v : View} {name : Name} {lost : Bool} {p : Process} (hp : v.proc = some p) :
      Change cfg q (.exec q name lost) v
        (View.deliver .exec lost {v with proc := some {p with name := name}})
  | exit {v : View} {reaper : Pid} {lost : Bool} {p : Process} (hp : v.proc = some p) :
      Change cfg q (.exit q reaper lost) v (View.deliver .exit lost {v with proc := none})
  /-- The parent exits. -/
  | reparent {v : View} {pid reaper : Pid} {lost scan : Bool} {p : Process} (hp : v.proc = some p)
      (hppid : p.ppid = pid) (hs : v.scan = true → scan = true) :
      Change cfg q (.exit pid reaper lost) v {v with proc := some {p with ppid := reaper}, scan := scan}
  | handle {v : View} {x : Readings} {w : World} {k : Kind} {rest : List Kind}
      (hw : w.find q = v.proc) (hx : v.proc.isSome → x.ReliableFor q) (he : v.events = k :: rest) :
      Change cfg q (.recv x) v {v with events := rest, slot := handle cfg (w.env x) q k v.slot}
  | commit {l : Label} {v : View} : Change cfg q l v v.commit
  /-- A scan, the last one due unless `scan`. -/
  | scan {v : View} {x : Readings} {w : World} {scan : Bool} (hw : w.find q = v.proc)
      (hx : v.proc.isSome → x.ReliableFor q) :
      Change cfg q (.updateProcessList x) v
        {v with
          slot := if v.proc.isSome then v.slot.or ((entryFor cfg (w.env x) q).map Cell.fresh) else v.slot
          scan := scan}
  | lane {v : View} {x : Readings} {w : World} {lane : UpdateLane} (hw : w.find q = v.proc)
      (hx : v.proc.isSome → .exit ∉ v.events → ∀ c, v.slot = some c → x.Serves cfg c.entry lane) :
      Change cfg q (.lane lane x) v {v with slot := v.slot.map (Cell.updLane cfg (w.env x) lane)}
  | reply {v : View} {record : Taskstats} :
      Change cfg q (.reply record) v {v with slot := v.slot.map (Cell.answered record)}

theorem Change.unchanged {v : View} : Change cfg q l v v := .idle fun h => h

omit [DeferredList L] in
theorem pending_deliver (ev : ProcEvent) (lost : Bool) :
    pending q (deliver ev lost s) =
      if lost then pending q s else pending q s ++ (concerns q ev).toList := by
  cases lost with
  | true => rfl
  | false => cases hc : concerns q ev <;> simp [deliver, pending, hc]

omit [DeferredList L] in
theorem scanDue_deliver (ev : ProcEvent) (lost : Bool) :
    scanDue (deliver ev lost s) = (scanDue s || lost) := by
  cases lost <;> simp [deliver, scanDue]

omit [DeferredList L] in
@[simp] theorem pending_world (w : World) : pending q {s with world := w} = pending q s := rfl

omit [DeferredList L] in
@[simp] theorem scanDue_world (w : World) : scanDue {s with world := w} = scanDue s := rfl

/-- The view after a process event. -/
theorem view_deliver (w : World) {ev : ProcEvent} {k : Kind} (lost : Bool) (h : concerns q ev = some k) :
    view q (deliver ev lost {s with world := w}) = View.deliver k lost {view q s with proc := w.find q} := by
  cases lost <;> simp [view, View.deliver, pending_deliver, scanDue_deliver, h]

/-- The view after the event of another. -/
theorem view_deliver_other (w : World) {ev : ProcEvent} (lost : Bool) (h : concerns q ev = none) :
    view q (deliver ev lost {s with world := w}) =
      {view q s with proc := w.find q, scan := scanDue s || lost} := by
  cases lost <;> simp [view, pending_deliver, scanDue_deliver, h]

theorem concerns_thread {ev : ProcEvent} (h : isProcessEvent ev = false) : concerns q ev = none := by
  cases ev <;> simp_all [isProcessEvent, concerns]

/-- The attempts of the step on the process succeed. Of a lane these are what its update of the
entry makes, and they do not matter where the entry is about to leave for an exit. -/
def Serves (cfg : Config) (q : Pid) (s : System L) : Label → Prop
  | .lane lane x => .exit ∉ pending q s → ∀ c, s.registry.slot q = some c → x.Serves cfg c.entry lane
  | l => l.ReliableFor q

theorem serves_of_reliable (h : l.ReliableFor q) : Serves cfg q s l := by
  cases l with
  | lane lane x =>
    intro _ c hc
    have hpid : c.entry.pid = q := slot_pid hc
    exact Readings.ReliableFor.serves (by rw [hpid]; exact h x rfl) cfg lane
  | _ => exact h

theorem Reliable.serves (h : Reliable s l) (q : Pid) (hq : (s.world.find q).isSome) : Serves cfg q s l :=
  serves_of_reliable (h q hq)

/-- What was due stays due. -/
theorem scanDue_or (scan : Bool) (hs : (view q s).scan = true) : (scanDue s || scan) = true := by
  rw [show scanDue s = true from hs, Bool.true_or]

theorem change_exit {pid reaper : Pid} {lost : Bool} (h : step cfg s (.exit pid reaper lost) = some t) :
    Change cfg q (.exit pid reaper lost) (view q s) (view q t) := by
  obtain ⟨w, hw, rfl⟩ := Option.map_eq_some_iff.mp h
  obtain ⟨⟨p, hp⟩, hfind⟩ := World.find_exit hw
  by_cases hq : pid = q
  · subst hq
    rw [view_deliver (k := .exit) w lost (by simp [concerns]), hfind, if_pos rfl]
    exact .exit hp
  · rw [view_deliver_other w lost (by simp [concerns, hq]), hfind, if_neg fun h' => hq h'.symm]
    have hidle : Change cfg q (.exit pid reaper lost) (view q s) {view q s with scan := scanDue s || lost} :=
      .idle (scanDue_or lost)
    cases hf : s.world.find q with
    | none => simpa [view, hf] using hidle
    | some p' =>
      by_cases hpp : p'.ppid = pid
      · have hchild : Change cfg q (.exit pid reaper lost) (view q s)
            {view q s with proc := some {p' with ppid := reaper}, scan := scanDue s || lost} :=
          .reparent hf hpp (scanDue_or lost)
        simpa [World.reparent, hpp] using hchild
      · simpa [view, World.reparent, hpp, hf] using hidle

/-- A message that is received is handled for its pid, or commits a removal, or does nothing. -/
theorem change_recv (hu : cfg.updateOnProcEvent = true) (hwf : WF s.registry) {x : Readings}
    (hr : (s.world.find q).isSome → x.ReliableFor q) (h : step cfg s (.recv x) = some t) :
    Change cfg q (.recv x) (view q s) (view q t) := by
  simp only [step] at h
  split at h
  · cases h
  · rename_i ev rest hs
    obtain rfl := Option.some.inj h
    have hpend : pending q s = (concerns q ev).toList ++ rest.filterMap (concerns q) := by
      rw [pending, hs]
      cases hc : concerns q ev <;> simp [hc]
    rcases slot_handleEvent q (s.world.env x) hu hwf ev with
      ⟨k, hk, hslot⟩ | ⟨hk, hslot | hslot⟩
    · have hv : view q (callback cfg (s.world.env x) (.message ev) {s with socket := rest}).1 =
          {view q s with
            events := rest.filterMap (concerns q)
            slot := handle cfg (s.world.env x) q k (s.registry.slot q)} := by
        simp only [view, callback, hslot]
        rfl
      rw [hv]
      exact .handle rfl hr (by simp [view, hpend, hk])
    · have hv : view q (callback cfg (s.world.env x) (.message ev) {s with socket := rest}).1 = view q s := by
        simp only [view, callback, hslot, hpend, hk]
        rfl
      rw [hv]
      exact .unchanged
    · have hv : view q (callback cfg (s.world.env x) (.message ev) {s with socket := rest}).1 =
          (view q s).commit := by
        simp only [view, View.commit, callback, hslot, hpend, hk]
        rfl
      rw [hv]
      exact .commit

/-- A request that is handled commits the removal of the pid, or does nothing. -/
theorem change_dispatch (hwf : WF s.registry) (h : step cfg s .dispatch = some t) :
    Change cfg q .dispatch (view q s) (view q t) := by
  obtain ⟨out, hd, rfl⟩ := Option.map_eq_some_iff.mp h
  obtain ⟨rq, rest, _, rfl⟩ := dispatch_eq_some hd
  have hwf' : WF ({s.registry with queue := rest} : Registry L) := hwf.congr rfl rfl (Nat.le_refl _)
  have hslot := slot_requestHandler cfg rq hwf' q
  by_cases ha : rq.action = .commitProcList
  · rw [if_pos ha] at hslot
    have hv : view q {s with registry := (requestHandler cfg rq {s.registry with queue := rest}).1} =
        (view q s).commit := by
      simp only [view, View.commit, hslot]
      rfl
    rw [hv]
    exact .commit
  · rw [if_neg ha] at hslot
    have hv : view q {s with registry := (requestHandler cfg rq {s.registry with queue := rest}).1} =
        view q s := by
      simp only [view, hslot]
      rfl
    rw [hv]
    exact .unchanged

/-- **Every step is one of the changes**, for every pid on which its attempts succeed. -/
theorem step_change (he : eventDriven cfg = true) (hwf : WF s.registry)
    (hr : (s.world.find q).isSome → Serves cfg q s l) (h : step cfg s l = some t) :
    Change cfg q l (view q s) (view q t) := by
  have hu : cfg.updateOnProcEvent = true := by
    simp only [eventDriven, Bool.and_eq_true] at he
    exact he.2
  cases l with
  | fork parent child ctx lost =>
    obtain ⟨w, hw, rfl⟩ := Option.map_eq_some_iff.mp h
    obtain ⟨hdead, p, hp, hfind⟩ := World.find_fork hw
    by_cases hq : child = q
    · subst hq
      rw [view_deliver (k := .fork) w lost (by simp [concerns]), hfind, if_pos rfl]
      exact .fork hdead
    · rw [view_deliver_other w lost (by simp [concerns, hq]), hfind, if_neg fun h' => hq h'.symm]
      exact .idle (scanDue_or lost)
  | exec pid name lost =>
    obtain ⟨w, hw, rfl⟩ := Option.map_eq_some_iff.mp h
    obtain ⟨p, hp, hfind⟩ := World.find_exec hw
    by_cases hq : pid = q
    · subst hq
      rw [view_deliver (k := .exec) w lost (by simp [concerns]), hfind, if_pos rfl]
      exact .exec hp
    · rw [view_deliver_other w lost (by simp [concerns, hq]), hfind, if_neg fun h' => hq h'.symm]
      exact .idle (scanDue_or lost)
  | exit pid reaper lost => exact change_exit h
  | other ev lost =>
    simp only [step] at h
    split at h
    · cases h
    · rename_i hev
      obtain rfl := Option.some.inj h
      have hc : concerns q ev = none := concerns_thread (by simpa using hev)
      have := view_deliver_other (s := s) s.world lost hc
      rw [show (deliver ev lost s) = deliver ev lost {s with world := s.world} from rfl, this]
      exact .idle (scanDue_or lost)
  | recv x => exact change_recv hu hwf (fun hp => hr hp x rfl) h
  | noBuffers x =>
    simp only [step] at h
    split at h
    · rename_i ho
      obtain rfl := Option.some.inj h
      have hv : view q (callback cfg (s.world.env x) .noBuffers {s with overflow := false}).1 = view q s := by
        simp [view, callback, scanDue, ho, pending]
      rw [hv]
      exact .unchanged
    · cases h
  | updateProcessList x =>
    simp only [step] at h
    split at h
    · cases h
    · rename_i n hn
      obtain rfl := Option.some.inj h
      have hslot := slot_updateProcessList cfg (s.world.env x) hwf q
      simp only [World.mem_pids] at hslot
      have hv : view q {s with rescans := n, registry := s.registry.updateProcessList cfg (s.world.env x)} =
          {view q s with
            slot := if (s.world.find q).isSome
              then (s.registry.slot q).or ((entryFor cfg (s.world.env x) q).map Cell.fresh)
              else s.registry.slot q
            scan := s.overflow || decide (0 < n)} := by
        rw [← hslot]
        rfl
      rw [hv]
      exact .scan rfl fun hp => hr hp x rfl
  | lane lane x =>
    obtain rfl := Option.some.inj h
    have hv : view q {s with registry := s.registry.update cfg (s.world.env x) lane} =
        {view q s with slot := (s.registry.slot q).map (Cell.updLane cfg (s.world.env x) lane)} := by
      rw [← slot_update he hwf]
      rfl
    rw [hv]
    exact .lane rfl hr
  | reply record =>
    obtain rfl := Option.some.inj h
    have hv : view q {s with registry := s.registry.processDelayAcct record} =
        {view q s with slot := (s.registry.slot q).map (Cell.answered record)} := by
      rw [← slot_processDelayAcct hwf]
      rfl
    rw [hv]
    exact .reply
  | collect rq =>
    simp only [step] at h
    split at h
    · cases h
    · obtain rfl := Option.some.inj h
      exact .unchanged
  | dispatch => exact change_dispatch hwf h

/-! ### The start -/

/-- Reading procfs at start is a scan that finds nothing listed. -/
theorem start_change (cfg : Config) {w : World} {x : Readings} (hx : (w.find q).isSome → x.ReliableFor q) :
    Change cfg q (.updateProcessList x) ⟨w.find q, [], none, true⟩
      (view q (start cfg w x : System L)) := by
  have hn : (w.env x).pids.Nodup := w.nodup
  have hslot := (initFromProc_spec (L := L) cfg hn).2 q
  simp only [World.mem_pids] at hslot
  have hv : view q (start cfg w x : System L) =
      {(⟨w.find q, [], none, true⟩ : View) with
        slot := if (w.find q).isSome
          then (none : Option Cell).or ((entryFor cfg (w.env x) q).map Cell.fresh) else none
        scan := false} := by
    rw [Option.none_or, ← hslot]
    rfl
  rw [hv]
  exact .scan rfl hx

/-! ### Steps without loss -/

/-- Where nothing is lost, no scan becomes due. -/
theorem scanDue_step (h : step cfg s l = some t) (hl : l.lost = false) (hs : scanDue s = false) :
    scanDue t = false := by
  have hover : s.overflow = false := by
    simp only [scanDue, Bool.or_eq_false_iff] at hs
    exact hs.1
  have hzero : s.rescans = 0 := by simpa [scanDue, hover] using hs
  cases l with
  | fork parent child ctx lost =>
    obtain ⟨w, _, rfl⟩ := Option.map_eq_some_iff.mp h
    rw [scanDue_deliver, scanDue_world, hs, show lost = false from hl]
    rfl
  | exec pid name lost =>
    obtain ⟨w, _, rfl⟩ := Option.map_eq_some_iff.mp h
    rw [scanDue_deliver, scanDue_world, hs, show lost = false from hl]
    rfl
  | exit pid reaper lost =>
    obtain ⟨w, _, rfl⟩ := Option.map_eq_some_iff.mp h
    rw [scanDue_deliver, scanDue_world, hs, show lost = false from hl]
    rfl
  | other ev lost =>
    simp only [step] at h
    split at h
    · cases h
    · obtain rfl := Option.some.inj h
      rw [scanDue_deliver, hs, show lost = false from hl]
      rfl
  | recv x =>
    simp only [step] at h
    split at h
    · cases h
    · obtain rfl := Option.some.inj h
      exact hs
  | noBuffers x => simp [step, hover] at h
  | updateProcessList x => simp [step, hzero] at h
  | lane lane x =>
    obtain rfl := Option.some.inj h
    exact hs
  | reply record =>
    obtain rfl := Option.some.inj h
    exact hs
  | collect rq =>
    simp only [step] at h
    split at h
    · cases h
    · obtain rfl := Option.some.inj h
      exact hs
  | dispatch =>
    obtain ⟨out, _, rfl⟩ := Option.map_eq_some_iff.mp h
    exact hs

end TaskMonitor.System

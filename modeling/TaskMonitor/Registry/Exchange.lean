import TaskMonitor.Registry.Calls

/-! The exchange with taskstats (`ProcAcct.cpp`).

An entry that was asked about is pending until its reply is decoded. `Exchange`
is the registry with the requests that are still to be answered, and whether the
event loop still polls the netlink socket. A reply that cannot be decoded, or is
lost, leaves its entry pending, and no later update asks about it again: no entry
is blocked exactly in the runs whose steps are all `Harmless` (`answerable_iff`). -/
namespace TaskMonitor
open DeferredList Transition

/-! ### The netlink socket -/

/-- What receiving from the socket comes to. -/
inductive NlErr where
  | success | again | busy | objNotfound | failure
deriving Repr, DecidableEq

/-- Whether the event loop keeps polling the socket. -/
def pollProcAcct : NlErr → Bool
  | .success | .again | .busy | .objNotfound => true
  | .failure => false

/-- What a valid message holds. -/
inductive Answer where
  /-- The attribute of a process or of a thread group, with its record. -/
  | stats (t : Taskstats)
  /-- No attribute that is known. -/
  | unknown
  /-- `genlmsg_parse` fails. -/
  | unparsed

/-- The registry after the callback, and what the callback makes of the receiving. -/
def callbackStatisticsMessage {L : Type → Type} [DeferredList L] (a : Answer) (r : Registry L) :
    Registry L × NlErr :=
  match a with
  | .stats t => (r.processDelayAcct t, .success)
  | .unknown | .unparsed => (r, .failure)

/-- Whether the message can be the answer to a request for the pid. -/
def Answer.isFor (pid : Pid) : Answer → Bool
  | .stats t => t.acPid.toNat == pid
  | .unknown | .unparsed => true

structure Exchange (L : Type → Type) where
  registry : Registry L
  /-- The requests whose replies are still to come. -/
  outstanding : List Pid
  /-- Whether the loop polls the socket. -/
  attached : Bool

namespace Exchange

variable {L : Type → Type} [DeferredList L] {cfg : Config} {env : Env}

/-! ### Steps -/

/-- Whether a Slow lane update sends a request for the entry. -/
def asks (cfg : Config) (env : Env) (e : ProcEntry) : Bool :=
  cfg.withProcAcct && cfg.procAcct && decide ((e.updateProcAcct env).2 = (true, true))

/-- The registry whose entries a lane update goes through. -/
def scanned (cfg : Config) (env : Env) (r : Registry L) : Registry L :=
  if Registry.eventDriven cfg then r else r.updateProcessList cfg env

/-- The requests that a call sends. -/
def requests (cfg : Config) (r : Registry L) : Registry.Call → List Pid
  | .update env .slow =>
    let r := scanned cfg env r
    ((items r.procList).filter fun p => asks cfg env (r.procs p)).map fun p => (r.procs p).pid
  | _ => []

inductive Label where
  | call (c : Registry.Call)
  /-- The reply to a request for the pid is received. -/
  | message (pid : Pid) (a : Answer)
  /-- The reply to a request for the pid is lost to the socket buffer. -/
  | overflow (pid : Pid)
  /-- A receive that brings no message. -/
  | recvmsgs (err : NlErr)

def step (cfg : Config) (s : Exchange L) : Label → Option (Exchange L)
  | .call c => (s.registry.call cfg c).map fun r =>
      {s with registry := r, outstanding := s.outstanding ++ requests cfg s.registry c}
  | .message pid a =>
    if s.attached = true ∧ pid ∈ s.outstanding ∧ a.isFor pid = true then
      let (r, err) := callbackStatisticsMessage a s.registry
      some ⟨r, s.outstanding.erase pid, pollProcAcct err⟩
    else none
  | .overflow pid => if pid ∈ s.outstanding then some {s with outstanding := s.outstanding.erase pid} else none
  | .recvmsgs err => if s.attached then some {s with attached := pollProcAcct err} else none

/-- The daemon as it starts. -/
def start (cfg : Config) (env : Env) : Exchange L := ⟨Registry.empty.initFromProc cfg env, [], true⟩

/-! ### What the exchange owes -/

/-- Where an entry is pending, a reply for it is still to be delivered, or its removal is recorded. -/
def Answerable (s : Exchange L) : Prop :=
  ∀ p ∈ items s.registry.procList, (s.registry.procs p).updateProcAcctPending = true →
    p ∈ recorded s.registry.procList ∨ (s.attached = true ∧ (s.registry.procs p).pid ∈ s.outstanding)

/-- An entry that is to stay and of which no reply is to come is asked about by the next Slow lane update that
asks at all and can send. -/
def Renews (cfg : Config) (s : Exchange L) : Prop :=
  ∀ env, ∀ p ∈ items s.registry.procList, p ∉ recorded s.registry.procList →
    (s.registry.procs p).pid ∉ s.outstanding → (cfg.withProcAcct && cfg.procAcct) = true →
    env.procAcctCollectorCounter ≠ 0 → env.taskstats (s.registry.procs p).pid = true →
    (s.registry.procs p).pid ∈ requests cfg s.registry (.update env .slow)

/-- The entry is pending, and is to stay. -/
structure Waiting (d : Registry.Cell) : Prop where
  pending : d.entry.updateProcAcctPending = true
  stays : d.condemned = false

def Waits (s : Exchange L) (pid : Pid) : Prop := ∃ d, s.registry.slot pid = some d ∧ Waiting d

/-- No step blocks an entry: replies are decoded, and where one is lost, or the socket is no longer polled, no
entry waits for it. -/
def Harmless (cfg : Config) (s : Exchange L) : Label → Prop
  | .call c => s.attached = true ∨ ∀ env, c = .update env .slow →
      ∀ pid d, (scanned cfg env s.registry).slot pid = some d → asks cfg env d.entry = true → d.condemned = true
  | .message _ (.stats _) => True
  | .message _ _ => ∀ pid, ¬s.Waits pid
  | .overflow pid => pid ∈ s.outstanding.erase pid ∨ ¬s.Waits pid
  | .recvmsgs err => pollProcAcct err = true ∨ ∀ pid, ¬s.Waits pid

/-! ### Entries that wait -/

variable {s t : Exchange L} {pid : Pid} {c : Registry.Call} {d : Registry.Cell}

theorem answerable_slots (h : Registry.WF s.registry) :
    Answerable s ↔ ∀ pid, s.Waits pid → s.attached = true ∧ pid ∈ s.outstanding := by
  constructor
  · intro ha pid hw
    obtain ⟨d, hd, hwaiting⟩ := hw
    obtain ⟨p, hp, rfl, hpid⟩ := Registry.slot_some hd
    have hnot : p ∉ recorded s.registry.procList := by simpa [Registry.cell] using hwaiting.stays
    exact hpid ▸ (ha p hp hwaiting.pending).resolve_left hnot
  · intro ha p hp hpending
    by_cases hr : p ∈ recorded s.registry.procList
    · exact .inl hr
    · exact .inr (ha _ ⟨_, h.slot_listed hp, hpending, by simp [Registry.cell, hr]⟩)

theorem wf_scanned (cfg : Config) (env : Env) {r : Registry L} (h : Registry.WF r) :
    Registry.WF (scanned cfg env r) := by
  unfold scanned
  split
  · exact h
  · exact Registry.wf_updateProcessList cfg env h

theorem slot_scanned (cfg : Config) (env : Env) {r : Registry L} (h : Registry.WF r) (pid : Pid) :
    (scanned cfg env r).slot pid =
      if Registry.eventDriven cfg then r.slot pid else Registry.scanSlot cfg env pid (r.slot pid) := by
  unfold scanned
  split
  · rfl
  · exact Registry.slot_updateProcessList cfg env h pid

theorem mem_requests {r : Registry L} (h : Registry.WF r) :
    pid ∈ requests cfg r (.update env .slow) ↔
      ∃ d, (scanned cfg env r).slot pid = some d ∧ asks cfg env d.entry = true := by
  have hwf := wf_scanned cfg env h
  constructor
  · intro hm
    obtain ⟨p, hp, rfl⟩ := List.mem_map.mp hm
    obtain ⟨hlisted, hasks⟩ := List.mem_filter.mp hp
    exact ⟨(scanned cfg env r).cell p, hwf.slot_listed hlisted, hasks⟩
  · intro hd
    obtain ⟨d, hslot, hasks⟩ := hd
    obtain ⟨p, hp, rfl, rfl⟩ := Registry.slot_some hslot
    exact List.mem_map_of_mem (List.mem_filter.mpr ⟨hp, hasks⟩)

/-! ### What makes an entry wait -/

theorem fresh_not_waiting {e : ProcEntry} (h : Registry.entryFor cfg env pid = some e) :
    ¬Waiting (Registry.Cell.fresh e) := by
  intro hw
  obtain ⟨info, _, rfl⟩ := Option.map_eq_some_iff.mp (Registry.entryFor_spec h).2.2
  exact Bool.false_ne_true hw.pending

theorem waiting_mark {which : ProcEntry → Bool} (h : Waiting (d.mark which)) : Waiting d := by
  refine ⟨h.pending, ?_⟩
  have hboth := Bool.or_eq_false_iff.mp h.stays
  exact hboth.1

theorem waiting_updName {p : Pid} (h : Waiting (d.updName cfg env p)) : Waiting d := by
  unfold Registry.Cell.updName at h
  repeat' split at h
  · exact h
  · exact h
  · exact absurd h.stays (by simp)
  · exact ⟨h.pending, h.stays⟩
  · exact h

theorem resolveContext_pending (cfg : Config) (env : Env) (e : ProcEntry) :
    (e.resolveContext cfg env).updateProcAcctPending = e.updateProcAcctPending := by
  unfold ProcEntry.resolveContext
  split
  · simp only
    split <;> rfl
  · rfl

theorem updateInfoData_pending (cfg : Config) (env : Env) (e : ProcEntry) :
    (e.updateInfoData cfg env).1.updateProcAcctPending = e.updateProcAcctPending := by
  have hstat : (e.readProcStat env).1.updateProcAcctPending = e.updateProcAcctPending := by
    unfold ProcEntry.readProcStat
    (repeat' split) <;> rfl
  have hsmaps (e : ProcEntry) : (e.readProcSmapsRollup env).1.updateProcAcctPending = e.updateProcAcctPending := by
    unfold ProcEntry.readProcSmapsRollup
    split <;> rfl
  have hfd (e : ProcEntry) : (e.countFileDescriptors env).1.updateProcAcctPending = e.updateProcAcctPending := by
    unfold ProcEntry.countFileDescriptors
    split <;> rfl
  unfold ProcEntry.updateInfoData
  simp only
  repeat' split
  · exact hstat
  · exact (hsmaps _).trans hstat
  · exact (hfd _).trans ((hsmaps _).trans hstat)
  · exact (hsmaps _).trans hstat

theorem updateProcInfo_pending (cfg : Config) (env : Env) (e : ProcEntry) :
    (e.updateProcInfo cfg env).1.updateProcAcctPending = e.updateProcAcctPending := by
  unfold ProcEntry.updateProcInfo
  split
  · rfl
  · exact (updateInfoData_pending cfg env _).trans (resolveContext_pending cfg env _)

theorem waiting_updInfo (h : Waiting (d.updInfo cfg env)) : Waiting d := by
  have hboth := Bool.or_eq_false_iff.mp h.stays
  exact ⟨(updateProcInfo_pending cfg env d.entry).symm.trans h.pending, hboth.1⟩

/-- A Slow lane update makes those wait that it asks about. -/
theorem waiting_updAcct :
    Waiting (d.updAcct cfg env) ↔ Waiting d ∨ (asks cfg env d.entry = true ∧ d.condemned = false) := by
  unfold Registry.Cell.updAcct asks
  by_cases hacct : (cfg.withProcAcct && cfg.procAcct) = true
  · rw [if_pos hacct, hacct, Bool.true_and, decide_eq_true_eq]
    unfold ProcEntry.updateProcAcct
    split
    · -- no collector asks
      simp only [Bool.not_true, Bool.or_false, Prod.mk.injEq, Bool.false_eq_true, false_and, or_false]
    · split
      · simp only [Bool.not_true, Bool.or_false, Prod.mk.injEq, Bool.false_eq_true, false_and, or_false]
      · rename_i hpending
        have hnot : ¬Waiting d := fun hw => hpending hw.pending
        rw [or_iff_right hnot]
        constructor
        · intro hw
          have hboth := Bool.or_eq_false_iff.mp hw.stays
          exact ⟨Prod.ext rfl (by simpa using hboth.2), hboth.1⟩
        · intro h
          obtain ⟨hsent, hstays⟩ := h
          have hsent : env.taskstats d.entry.pid = true := congrArg Prod.snd hsent
          exact ⟨rfl, by simp [hstays, hsent]⟩
  · rw [if_neg hacct, (Bool.not_eq_true _).mp hacct]
    simp

theorem waiting_or {s : Option Registry.Cell} {p : Pid}
    (h : s.or ((Registry.entryFor cfg env p).map Registry.Cell.fresh) = some d) (hw : Waiting d) : s = some d := by
  cases s with
  | some d' => exact h
  | none =>
    obtain ⟨e, he, rfl⟩ := Option.map_eq_some_iff.mp h
    exact absurd hw (fresh_not_waiting he)

theorem waiting_scanSlot {s : Option Registry.Cell} (h : Registry.scanSlot cfg env pid s = some d) (hw : Waiting d) :
    s = some d := by
  unfold Registry.scanSlot at h
  split at h
  · exact waiting_or h hw
  · exact h

theorem waiting_scanned {r : Registry L} (hwf : Registry.WF r) (h : (scanned cfg env r).slot pid = some d)
    (hw : Waiting d) : r.slot pid = some d := by
  rw [slot_scanned cfg env hwf] at h
  split at h
  · exact h
  · exact waiting_scanSlot h hw

/-- No other call makes an entry wait. -/
theorem waiting_touch {slot : Option Registry.Cell} (hslow : ∀ env, c ≠ .update env .slow)
    (h : c.touch cfg pid slot = some d) (hw : Waiting d) : ∃ d', slot = some d' ∧ Waiting d' := by
  have hmap {slot : Option Registry.Cell} {f : Registry.Cell → Registry.Cell} (hf : ∀ d, Waiting (f d) → Waiting d)
      (h : slot.map f = some d) : ∃ d', slot = some d' ∧ Waiting d' := by
    obtain ⟨d', hd', rfl⟩ := Option.map_eq_some_iff.mp h
    exact ⟨d', hd', hf d' hw⟩
  cases c with
  | addProcEntry env p =>
    simp only [Registry.Call.touch] at h
    split at h
    · exact ⟨d, waiting_or h hw, hw⟩
    · exact ⟨d, h, hw⟩
  | updProcEntry env p => exact hmap (fun _ => waiting_updName) h
  | remProcEntry p sync => exact hmap (fun _ => waiting_mark) h
  | remProcEntryByName name sync => exact hmap (fun _ => waiting_mark) h
  | updateProcessList env => exact ⟨d, waiting_scanSlot h hw, hw⟩
  | update env lane =>
    have hlane : ∀ d : Registry.Cell, Waiting (d.updLane cfg env lane) → Waiting d := by
      intro d hd
      cases lane with
      | slow => exact absurd rfl (hslow env)
      | pace => exact waiting_updInfo hd
      | fast => exact hd
      | any => exact hd
    obtain ⟨d', hd', hw'⟩ := hmap hlane h
    split at hd'
    · exact ⟨d', hd', hw'⟩
    · exact ⟨d', waiting_scanSlot hd' hw', hw'⟩
  | pushRequest rq => exact ⟨d, h, hw⟩
  | dispatch => exact ⟨d, h, hw⟩

/-! ### Steps -/

/-- A call makes those wait that a Slow lane update asks about. -/
theorem waits_call {r : Registry L} (hwf : Registry.WF s.registry) (hc : s.registry.call cfg c = some r)
    (hr : t.registry = r) :
    t.Waits pid → s.Waits pid ∨ ∃ env d, c = .update env .slow ∧ (scanned cfg env s.registry).slot pid = some d ∧
      asks cfg env d.entry = true ∧ d.condemned = false := by
  intro hw
  obtain ⟨d, hd, hw⟩ := hw
  rw [hr] at hd
  have htouch := Registry.slot_call_some hwf hc hd
  by_cases hslow : ∃ env, c = .update env .slow
  · obtain ⟨env, rfl⟩ := hslow
    simp only [Registry.Call.touch, ← slot_scanned cfg env hwf] at htouch
    obtain ⟨d', hd', rfl⟩ := Option.map_eq_some_iff.mp htouch
    rcases waiting_updAcct.mp hw with hw' | ⟨hasks, hstays⟩
    · exact .inl ⟨d', waiting_scanned hwf hd' hw', hw'⟩
    · exact .inr ⟨env, d', rfl, hd', hasks, hstays⟩
  · obtain ⟨d', hd', hw'⟩ := waiting_touch (fun env he => hslow ⟨env, he⟩) htouch hw
    exact .inl ⟨d', hd', hw'⟩

theorem waits_asked {r : Registry L} (hwf : Registry.WF s.registry)
    (hc : s.registry.call cfg (.update env .slow) = some r) (hr : t.registry = r)
    (hd : (scanned cfg env s.registry).slot pid = some d) (hasks : asks cfg env d.entry = true)
    (hstays : d.condemned = false) : t.Waits pid := by
  have hw : Waiting (d.updAcct cfg env) := waiting_updAcct.mpr (.inr ⟨hasks, hstays⟩)
  refine ⟨d.updAcct cfg env, ?_, hw⟩
  rw [hr]
  refine Registry.slot_call_kept hwf hc ?_ hw.stays
  simp only [Registry.Call.touch, ← slot_scanned cfg env hwf, hd]
  rfl

/-- A reply that is decoded leaves its entry waiting no longer. -/
theorem waits_answered {st : Taskstats} (hwf : Registry.WF s.registry)
    (hr : t.registry = s.registry.processDelayAcct st) (hw : t.Waits pid) : s.Waits pid ∧ pid ≠ st.acPid.toNat := by
  obtain ⟨d, hd, hw⟩ := hw
  rw [hr, Registry.slot_processDelayAcct hwf] at hd
  obtain ⟨d', hd', rfl⟩ := Option.map_eq_some_iff.mp hd
  by_cases hpid : d'.pid = st.acPid.toNat
  · rw [Registry.Cell.answered, if_pos hpid] at hw
    exact absurd hw.pending Bool.false_ne_true
  · rw [Registry.Cell.answered, if_neg hpid] at hw
    exact ⟨⟨d', hd', hw⟩, Registry.slot_pid hd' ▸ hpid⟩

theorem step_message {a : Answer} (hs : step cfg s (.message pid a) = some t) :
    (pid ∈ s.outstanding ∧ a.isFor pid = true) ∧
      t = ⟨(callbackStatisticsMessage a s.registry).1, s.outstanding.erase pid,
        pollProcAcct (callbackStatisticsMessage a s.registry).2⟩ := by
  obtain ⟨hm, ht⟩ := Option.ite_none_right_eq_some.mp hs
  exact ⟨hm.2, (Option.some.inj ht).symm⟩

theorem step_overflow (hs : step cfg s (.overflow pid) = some t) :
    t = {s with outstanding := s.outstanding.erase pid} := by
  obtain ⟨_, ht⟩ := Option.ite_none_right_eq_some.mp hs
  exact (Option.some.inj ht).symm

theorem step_recvmsgs {err : NlErr} (hs : step cfg s (.recvmsgs err) = some t) :
    t = {s with attached := pollProcAcct err} := by
  obtain ⟨_, ht⟩ := Option.ite_none_right_eq_some.mp hs
  exact (Option.some.inj ht).symm

theorem wf_step {l : Label} (hwf : Registry.WF s.registry) (hs : step cfg s l = some t) :
    Registry.WF t.registry := by
  cases l with
  | call c =>
    obtain ⟨r, hc, rfl⟩ := Option.map_eq_some_iff.mp hs
    exact Registry.wf_call hwf hc
  | message pid a =>
    obtain ⟨_, rfl⟩ := step_message hs
    cases a with
    | stats st => exact (Registry.processDelayAcct_cells hwf st).1
    | unknown => exact hwf
    | unparsed => exact hwf
  | overflow pid =>
    obtain rfl := step_overflow hs
    exact hwf
  | recvmsgs err =>
    obtain rfl := step_recvmsgs hs
    exact hwf

/-- Where the socket is no longer polled, no entry may wait. -/
theorem answerable_detached (hwf : Registry.WF t.registry) (hr : t.registry = s.registry) (hd : t.attached = false) :
    Answerable t ↔ ∀ pid, ¬s.Waits pid := by
  have hsame (pid : Pid) : t.Waits pid ↔ s.Waits pid := by
    unfold Waits
    rw [hr]
  rw [answerable_slots hwf, hd]
  constructor
  · intro h pid hw
    exact Bool.false_ne_true (h pid ((hsame pid).mpr hw)).1
  · intro h pid hw
    exact absurd ((hsame pid).mp hw) (h pid)

/-- **A step blocks no entry exactly where it is harmless.** -/
theorem answerable_step_iff {l : Label} (hwf : Registry.WF s.registry) (ha : Answerable s)
    (hs : step cfg s l = some t) : Answerable t ↔ Harmless cfg s l := by
  have hwf' := wf_step hwf hs
  have hwaits := (answerable_slots hwf).mp ha
  cases l with
  | call c =>
    obtain ⟨r, hc, rfl⟩ := Option.map_eq_some_iff.mp hs
    rw [answerable_slots hwf']
    constructor
    · intro h
      by_cases hattached : s.attached = true
      · exact .inl hattached
      · refine .inr fun env hslow pid d hd hasks => ?_
        subst hslow
        by_contra hstays
        have hw : Waits ⟨r, s.outstanding ++ requests cfg s.registry (.update env .slow), s.attached⟩ pid :=
          waits_asked hwf hc rfl hd hasks ((Bool.not_eq_true _).mp hstays)
        exact hattached (h pid hw).1
    · intro hharmless pid hw
      rcases waits_call hwf hc rfl hw with hold | ⟨env, d, rfl, hd, hasks, hstays⟩
      · obtain ⟨hattached, hm⟩ := hwaits pid hold
        exact ⟨hattached, List.mem_append_left _ hm⟩
      · rcases hharmless with hattached | hnone
        · exact ⟨hattached, List.mem_append_right _ ((mem_requests hwf).mpr ⟨d, hd, hasks⟩)⟩
        · rw [hnone env rfl pid d hd hasks] at hstays
          cases hstays
  | message pid a =>
    obtain ⟨⟨hm, hfor⟩, rfl⟩ := step_message hs
    cases a with
    | stats st =>
      refine iff_of_true ((answerable_slots hwf').mpr fun q hw => ?_) trivial
      obtain ⟨hold, hother⟩ := waits_answered hwf rfl hw
      have hpid : st.acPid.toNat = pid := beq_iff_eq.mp hfor
      refine ⟨rfl, (List.mem_erase_of_ne ?_).mpr (hwaits q hold).2⟩
      exact hpid ▸ hother
    | unknown => exact answerable_detached hwf' rfl rfl
    | unparsed => exact answerable_detached hwf' rfl rfl
  | overflow pid =>
    obtain rfl := step_overflow hs
    rw [answerable_slots hwf']
    constructor
    · intro h
      by_cases hw : s.Waits pid
      · exact .inl (h pid hw).2
      · exact .inr hw
    · intro hharmless q hw
      obtain ⟨hattached, hq⟩ := hwaits q hw
      refine ⟨hattached, ?_⟩
      by_cases hqp : q = pid
      · subst hqp
        exact hharmless.resolve_right fun hnot => hnot hw
      · exact (List.mem_erase_of_ne hqp).mpr hq
  | recvmsgs err =>
    obtain rfl := step_recvmsgs hs
    by_cases herr : pollProcAcct err = true
    · refine iff_of_true ((answerable_slots hwf').mpr fun q hw => ?_) (.inl herr)
      exact ⟨herr, (hwaits q hw).2⟩
    · have hfails : Harmless cfg s (.recvmsgs err) ↔ ∀ pid, ¬s.Waits pid := or_iff_right herr
      rw [hfails]
      exact answerable_detached hwf' rfl ((Bool.not_eq_true _).mp herr)

/-! ### Runs -/

/-- An entry that does not wait is asked about. -/
theorem renews_of_answerable (hwf : Registry.WF s.registry) (ha : Answerable s) : Renews cfg s := by
  intro env p hp hstays hnone hacct hcounter hsend
  have hcell := hwf.slot_listed hp
  have hpending : (s.registry.procs p).updateProcAcctPending = false := by
    by_contra hset
    rcases ha p hp ((Bool.not_eq_false _).mp hset) with hr | ⟨_, hm⟩
    · exact hstays hr
    · exact hnone hm
  refine (mem_requests hwf).mpr ⟨s.registry.cell p, ?_, ?_⟩
  · rw [slot_scanned cfg env hwf, hcell]
    split
    · rfl
    · unfold Registry.scanSlot
      split <;> rfl
  · have hasks : ((s.registry.procs p).updateProcAcct env).2 = (true, true) := by
      simp [ProcEntry.updateProcAcct, hcounter, hpending, hsend]
    simp only [asks, hacct, Bool.true_and, decide_eq_true_eq]
    exact hasks

theorem answerable_start (hn : env.pids.Nodup) : Answerable (start cfg env : Exchange L) := by
  obtain ⟨hwf, hslot⟩ := Registry.initFromProc_spec (L := L) cfg hn
  refine (answerable_slots hwf).mpr fun pid hw => ?_
  obtain ⟨d, hd, hw⟩ := hw
  have hd := (hslot pid).symm.trans hd
  split at hd
  · obtain ⟨e, he, rfl⟩ := Option.map_eq_some_iff.mp hd
    exact absurd hw (fresh_not_waiting he)
  · cases hd

/-- **No entry is blocked exactly in the runs whose steps are all harmless**: in every state a pending entry is
to be answered or removed, and one of which no reply is to come is asked about again. -/
theorem answerable_iff (hn : env.pids.Nodup) {labels : List Label}
    (hr : run (step cfg) (start cfg env : Exchange L) labels = some t) :
    Throughout (step cfg) (fun s => Answerable s ∧ Renews cfg s) (start cfg env : Exchange L) labels ↔
      Meets (step cfg) (Harmless cfg) (start cfg env : Exchange L) labels := by
  have hstart : Registry.WF (start cfg env : Exchange L).registry := (Registry.initFromProc_spec cfg hn).1
  refine throughout_iff (I := fun s => Registry.WF s.registry) (fun _ _ _ hwf hs => wf_step hwf hs) ?_ hstart
    ⟨answerable_start hn, renews_of_answerable hstart (answerable_start hn)⟩ hr
  intro s l t hwf ha hs
  rw [← answerable_step_iff hwf ha.1 hs]
  exact and_iff_left_of_imp fun h => renews_of_answerable (wf_step hwf hs) h

/-! ### Two histories -/

/-- The record of the process 5. -/
def record : Taskstats := {acPid := 5}

/-- A request that is answered, and another that cannot be sent. -/
def answeredRun : List Label :=
  [.call (.update (Registry.running [5] ['p']) .slow), .recvmsgs .again, .message 5 (.stats record),
    .call (.update (Registry.running [] ['p']) .slow)]

theorem answerable_answered :
    Throughout (step Registry.scanConfig) (fun s => Answerable s ∧ Renews Registry.scanConfig s)
      (start Registry.scanConfig (Registry.running [5] ['p']) : Exchange Recorded) answeredRun := by
  have hn : (Registry.running [5] ['p']).pids.Nodup := by decide
  refine (answerable_iff hn rfl).mpr ?_
  refine ⟨.inl rfl, fun _ _ => ⟨.inl rfl, fun _ _ => ⟨trivial, fun t ht => ⟨.inl ?_, fun _ _ => trivial⟩⟩⟩⟩
  obtain ⟨_, rfl⟩ := step_message ht
  rfl

/-- **A reply that is lost or cannot be decoded blocks its entry**: nothing is outstanding, and the next Slow lane
update asks nothing. -/
theorem reply_lost_blocks :
    (∃ t : Exchange Recorded, run (step Registry.scanConfig) (start Registry.scanConfig (Registry.running [5] ['p']))
        [.call (.update (Registry.running [5] ['p']) .slow), .overflow 5] = some t ∧ t.outstanding = [] ∧
      ¬Answerable t ∧ requests Registry.scanConfig t.registry (.update (Registry.running [5] ['p']) .slow) = []) ∧
    ∃ t : Exchange Recorded, run (step Registry.scanConfig) (start Registry.scanConfig (Registry.running [5] ['p']))
        [.call (.update (Registry.running [5] ['p']) .slow), .message 5 .unparsed] = some t ∧ t.outstanding = [] ∧
      ¬Answerable t ∧ requests Registry.scanConfig t.registry (.update (Registry.running [5] ['p']) .slow) = [] := by
  refine ⟨⟨_, rfl, rfl, fun h => ?_, rfl⟩, _, rfl, rfl, fun h => ?_, rfl⟩
  · have hlisted := h 0 (List.mem_singleton_self 0) rfl
    exact absurd hlisted (by decide +kernel)
  · have hlisted := h 0 (List.mem_singleton_self 0) rfl
    exact absurd hlisted (by decide +kernel)

end Exchange
end TaskMonitor

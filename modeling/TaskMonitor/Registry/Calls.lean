import TaskMonitor.Lib.Transition
import TaskMonitor.Registry.Slots

/-! What the rest of the daemon asks of the registry.

A `Call` is one call from outside, run to its end, or a dispatch of the registry's
own queue. `touch` says what a call does to the slot of a pid before it commits,
if it does (`slot_call`): everything that holds of a pid over runs comes from that. -/
namespace TaskMonitor.Registry
open DeferredList Transition

variable {L : Type → Type} [DeferredList L] {cfg : Config} {r t : Registry L} {c : Call}

inductive Call where
  | addProcEntry (env : Env) (pid : Pid)
  | updProcEntry (env : Env) (pid : Pid)
  | remProcEntry (pid : Pid) (sync : Bool)
  | remProcEntryByName (name : Name) (sync : Bool)
  | updateProcessList (env : Env)
  | update (env : Env) (lane : UpdateLane)
  | pushRequest (rq : Request)
  | dispatch

def call (cfg : Config) (r : Registry L) : Call → Option (Registry L)
  | .addProcEntry env pid => some (r.addProcEntry cfg env pid)
  | .updProcEntry env pid => some (r.updProcEntry cfg env pid)
  | .remProcEntry pid sync => some (r.remProcEntry pid sync)
  | .remProcEntryByName name sync => some (r.remProcEntryByName name sync)
  | .updateProcessList env => some (r.updateProcessList cfg env)
  | .update env lane => some (r.update cfg env lane)
  | .pushRequest rq => some (r.pushRequest rq)
  | .dispatch => (r.dispatch cfg).map Prod.fst

/-! ### Slots -/

/-- What a scan of procfs does to a slot. -/
def scanSlot (cfg : Config) (env : Env) (q : Pid) (s : Option Cell) : Option Cell :=
  if q ∈ env.pids then s.or ((entryFor cfg env q).map Cell.fresh) else s

/-- What a call does to the slot of a pid, but for its commit. -/
def Call.touch (cfg : Config) (q : Pid) (c : Call) (s : Option Cell) : Option Cell :=
  match c with
  | .addProcEntry env pid => if q = pid then s.or ((entryFor cfg env pid).map Cell.fresh) else s
  | .updProcEntry env pid => s.map (Cell.updName cfg env pid)
  | .remProcEntry pid _ => s.map (Cell.mark fun e => e.pid == pid)
  | .remProcEntryByName name _ => s.map (Cell.mark fun e => e.getName == name)
  | .updateProcessList env => scanSlot cfg env q s
  | .update env lane => (if eventDriven cfg then s else scanSlot cfg env q s).map (Cell.updLane cfg env lane)
  | .pushRequest _ | .dispatch => s

/-- Whether a call commits the process list. -/
def Call.commits (r : Registry L) : Call → Bool
  | .updProcEntry _ _ => true
  | .remProcEntry _ sync | .remProcEntryByName _ sync => sync
  | .dispatch => r.queue.head?.any fun rq => rq.action == .commitProcList
  | _ => false

theorem slot_remEntries (h : WF r) (which : ProcEntry → Bool) (sync : Bool) (q : Pid) :
    (r.remEntries which sync).slot q =
      if sync then ((r.slot q).map (Cell.mark which)).filter fun c => !c.condemned
      else (r.slot q).map (Cell.mark which) := by
  cases sync with
  | false => exact slot_map (f := Cell.mark which) (fun _ => rfl) (cells_remEntries which h) q
  | true =>
    have hpid : ∀ c : Cell, (c.mark which).pid = c.pid := fun _ => rfl
    have hn := Keyed.nodup_map hpid h.pids
    have hmap : Keyed.lookup Cell.pid q (r.cells.map (Cell.mark which)) = (r.slot q).map (Cell.mark which) :=
      Keyed.lookup_map (Cell.mark which) (fun _ => rfl) q r.cells
    rw [slot, cells_remEntries_sync which h, Keyed.lookup_filter _ hn, hmap]
    rfl

/-- A lane update scans procfs, unless events stand in for it, and then maps over the slots. -/
theorem slot_update_scan (h : WF r) (env : Env) (lane : UpdateLane) (q : Pid) :
    WF (r.update cfg env lane) ∧
      (r.update cfg env lane).slot q =
        (if eventDriven cfg then r.slot q else scanSlot cfg env q (r.slot q)).map (Cell.updLane cfg env lane) := by
  by_cases he : eventDriven cfg = true
  · rw [if_pos he]
    exact ⟨(update_cells he h lane).1, slot_update he h lane q⟩
  · have hscan := wf_updateProcessList cfg env h
    have hslot : (r.updateProcessList cfg env).slot q = scanSlot cfg env q (r.slot q) :=
      slot_updateProcessList cfg env h q
    have hmap {f : Cell → Cell} {body : Registry L → Ptr → Registry L} (ha : Acts body f) :
        WF (foreach (r.updateProcessList cfg env).procList body (r.updateProcessList cfg env)) ∧
          (foreach (r.updateProcessList cfg env).procList body (r.updateProcessList cfg env)).slot q =
            (scanSlot cfg env q (r.slot q)).map f := by
      obtain ⟨hwf, hcells⟩ := ha.traverse hscan
      exact ⟨hwf, hslot ▸ slot_map ha.pid hcells q⟩
    have hoff : eventDriven cfg = false := by simpa using he
    unfold update
    simp only [hoff, Bool.false_eq_true, if_false]
    cases lane with
    | pace => exact hmap acts_updateProcInfo
    | slow => exact hmap acts_updateProcAcct
    | fast => exact ⟨hscan, by simp [Cell.updLane, hslot]⟩
    | any => exact ⟨hscan, by simp [Cell.updLane, hslot]⟩

/-- **What a call does to a slot.** -/
theorem slot_call (h : WF r) (hc : call cfg r c = some t) (q : Pid) :
    t.slot q =
      if c.commits r then (c.touch cfg q (r.slot q)).filter fun d => !d.condemned else c.touch cfg q (r.slot q) := by
  cases c with
  | addProcEntry env pid =>
    obtain rfl := Option.some.inj hc
    refine (slot_addProcEntry h pid q).trans ?_
    show _ = if q = pid then _ else _
    split
    · rename_i hq
      rw [hq]
    · rfl
  | updProcEntry env pid =>
    obtain rfl := Option.some.inj hc
    exact slot_updProcEntry h pid q
  | remProcEntry pid sync =>
    obtain rfl := Option.some.inj hc
    exact slot_remEntries h _ sync q
  | remProcEntryByName name sync =>
    obtain rfl := Option.some.inj hc
    exact slot_remEntries h _ sync q
  | updateProcessList env =>
    obtain rfl := Option.some.inj hc
    exact slot_updateProcessList cfg env h q
  | update env lane =>
    obtain rfl := Option.some.inj hc
    exact (slot_update_scan h env lane q).2
  | pushRequest rq =>
    obtain rfl := Option.some.inj hc
    rfl
  | dispatch =>
    obtain ⟨rq, rest, hq, rfl⟩ := dispatch_some hc
    have hwf : WF ({r with queue := rest} : Registry L) := h.congr rfl rfl (Nat.le_refl _)
    rw [slot_requestHandler cfg rq hwf q]
    simp [Call.commits, Call.touch, hq]
    rfl

/-- The slot after a call is that of its touch, which a commit may empty. -/
theorem slot_call_some {pid : Pid} {d : Cell} (h : WF r) (hc : call cfg r c = some t) (hd : t.slot pid = some d) :
    c.touch cfg pid (r.slot pid) = some d := by
  rw [slot_call h hc] at hd
  split at hd
  · exact (Option.filter_eq_some_iff.mp hd).1
  · exact hd

theorem slot_call_kept {pid : Pid} {d : Cell} (h : WF r) (hc : call cfg r c = some t)
    (hd : c.touch cfg pid (r.slot pid) = some d) (hk : d.condemned = false) : t.slot pid = some d := by
  rw [slot_call h hc, hd]
  split
  · simp [Option.filter_some, hk]
  · rfl

theorem wf_call (h : WF r) (hc : call cfg r c = some t) : WF t := by
  cases c with
  | addProcEntry env pid => exact Option.some.inj hc ▸ wf_addProcEntry h pid
  | updProcEntry env pid => exact Option.some.inj hc ▸ wf_updProcEntry h pid
  | remProcEntry pid sync => exact Option.some.inj hc ▸ wf_remEntries _ sync h
  | remProcEntryByName name sync => exact Option.some.inj hc ▸ wf_remEntries _ sync h
  | updateProcessList env => exact Option.some.inj hc ▸ wf_updateProcessList cfg env h
  | update env lane => exact Option.some.inj hc ▸ (slot_update_scan h env lane 0).1
  | pushRequest rq => exact Option.some.inj hc ▸ h.congr rfl rfl (Nat.le_refl _)
  | dispatch =>
    obtain ⟨rq, rest, _, rfl⟩ := dispatch_some hc
    have hwf : WF ({r with queue := rest} : Registry L) := h.congr rfl rfl (Nat.le_refl _)
    exact (requestHandler_cells rq hwf).1

theorem requested_call (h : Requested r) (hc : call cfg r c = some t) : Requested t := by
  cases c with
  | addProcEntry env pid => exact Option.some.inj hc ▸ requested_addProcEntry h pid
  | updProcEntry env pid => exact Option.some.inj hc ▸ requested_updProcEntry pid
  | remProcEntry pid sync => exact Option.some.inj hc ▸ requested_remEntries _ sync
  | remProcEntryByName name sync => exact Option.some.inj hc ▸ requested_remEntries _ sync
  | updateProcessList env => exact Option.some.inj hc ▸ requested_updateProcessList h
  | update env lane => exact Option.some.inj hc ▸ requested_update h lane
  | pushRequest rq =>
    obtain rfl := Option.some.inj hc
    intro p hp
    obtain ⟨rq', hm, ha⟩ := h p hp
    exact ⟨rq', List.mem_append_left _ hm, ha⟩
  | dispatch =>
    obtain ⟨rq, rest, hq, rfl⟩ := dispatch_some hc
    exact requested_dispatch h hq

/-- Well formed, with a commit requested for every recorded removal. -/
structure Regular (r : Registry L) : Prop where
  wf : WF r
  requested : Requested r

theorem regular_call (h : Regular r) (hc : call cfg r c = some t) : Regular t :=
  ⟨wf_call h.wf hc, requested_call h.requested hc⟩

theorem Regular.steps {C : Registry L → Call → Prop} (h : Regular r) (hs : Steps (call cfg) C r t) : Regular t :=
  hs.invariant (fun _ _ _ hr _ hc => regular_call hr hc) h

theorem regular_initFromProc {env : Env} (hn : env.pids.Nodup) :
    Regular (initFromProc cfg env (empty : Registry L)) :=
  ⟨(initFromProc_spec cfg hn).1, requested_initFromProc cfg env⟩

/-! ### A small machine -/

/-- Root, with a scan of procfs and accounting, and one key in the blacklist. -/
def scanConfig : Config where
  blacklist := [['s', 'h']]
  withProcEvent := true
  withProcAcct := true
  withLXC := true
  procEvent := false
  procAcct := true
  updateOnProcEvent := false
  enableProcFDCount := false
  root := true

/-- The listed processes run under one name, and taskstats answers. -/
def running (live : List Pid) (name : Name) : Env where
  pids := live
  files := fun pid =>
    if pid ∈ live then ⟨some name, some ⟨UInt32.ofNat pid, 1, 0, 0⟩, some ⟨none, none, true⟩, some 0⟩
    else ⟨none, none, none, none⟩
  taskstats := fun pid => decide (pid ∈ live)
  contextId := fun _ => 9
  containers := []
  now := 0
  procAcctCollectorCounter := 1

end TaskMonitor.Registry

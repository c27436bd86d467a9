import TaskMonitor.Registry.Calls

/-! What the process list always is.

From a listing of procfs on, whatever is called and whatever cannot be read: no
pid is listed twice, no listed name is blacklisted, every listed entry was
constructed for its pid, and a call about one pid leaves the entries of the others
as they are, but for removals recorded before it. -/
namespace TaskMonitor

/-- An entry that was constructed for the pid, and was only renamed and updated since. -/
inductive ProcEntry.Built (cfg : Config) (pid : Pid) : ProcEntry → Prop where
  | make {env : Env} {name : Name} {e : ProcEntry} (hmake : ProcEntry.make cfg env pid name = some e) :
      Built cfg pid e
  | setName {e : ProcEntry} (he : Built cfg pid e) (name : Name) : Built cfg pid (e.setName name)
  | updateProcInfo {e : ProcEntry} (he : Built cfg pid e) (env : Env) : Built cfg pid (e.updateProcInfo cfg env).1
  | updateProcAcct {e : ProcEntry} (he : Built cfg pid e) (env : Env) : Built cfg pid (e.updateProcAcct env).1

namespace Registry
open DeferredList Transition

variable {L : Type → Type} [DeferredList L] {cfg : Config} {r t : Registry L} {c : Call} {d : Cell}

/-! ### Cells -/

/-- A cell whose entry was built for its pid and whose name is not blacklisted. -/
structure Cell.Sound (cfg : Config) (d : Cell) : Prop where
  allowed : isBlacklisted cfg d.entry.getName = false
  built : ProcEntry.Built cfg d.pid d.entry

theorem sound_fresh {env : Env} {pid : Pid} {e : ProcEntry} (h : entryFor cfg env pid = some e) :
    (Cell.fresh e).Sound cfg := by
  obtain ⟨_, hallowed, hmake⟩ := entryFor_spec h
  refine ⟨hallowed, ?_⟩
  have hpid : (Cell.fresh e).pid = pid := entryFor_pid h
  rw [hpid]
  exact .make hmake

theorem Cell.Sound.mark (h : d.Sound cfg) (which : ProcEntry → Bool) : (d.mark which).Sound cfg :=
  ⟨h.allowed, h.built⟩

theorem Cell.Sound.updName (h : d.Sound cfg) (env : Env) (pid : Pid) : (d.updName cfg env pid).Sound cfg := by
  unfold Cell.updName
  split
  · split
    · exact h
    · rename_i procName _
      split
      · exact h
      · split
        · exact ⟨h.allowed, h.built⟩
        · rename_i hb
          have hallowed : isBlacklisted cfg procName = false := by simpa using hb
          exact ⟨hallowed, h.built.setName procName⟩
  · exact h

theorem Cell.Sound.updLane (h : d.Sound cfg) (env : Env) (lane : UpdateLane) :
    (d.updLane cfg env lane).Sound cfg := by
  have hpid : (d.updLane cfg env lane).pid = d.pid := Cell.updLane_pid lane d
  cases lane with
  | fast => exact h
  | any => exact h
  | pace =>
    have hcomm : (d.updLane cfg env .pace).entry.getName = d.entry.getName :=
      (ProcEntry.updateProcInfo_spec cfg env d.entry).comm
    exact ⟨hcomm ▸ h.allowed, hpid ▸ h.built.updateProcInfo env⟩
  | slow =>
    show (Cell.updAcct cfg env d).Sound cfg
    unfold Cell.updAcct
    split
    · have hinfo := ProcEntry.updateProcAcct_info env d.entry
      refine ⟨?_, ?_⟩
      · show isBlacklisted cfg (d.entry.updateProcAcct env).1.info.comm = false
        rw [hinfo.2]
        exact h.allowed
      · show ProcEntry.Built cfg (d.entry.updateProcAcct env).1.pid _
        rw [hinfo.1]
        exact h.built.updateProcAcct env
    · exact h

/-- A slot with no unsound cell. -/
def SoundSlot (cfg : Config) (s : Option Cell) : Prop := ∀ d, s = some d → d.Sound cfg

theorem SoundSlot.map {s : Option Cell} {f : Cell → Cell} (h : SoundSlot cfg s)
    (hf : ∀ d, d.Sound cfg → (f d).Sound cfg) : SoundSlot cfg (s.map f) := by
  intro d hd
  obtain ⟨d', hd', rfl⟩ := Option.map_eq_some_iff.mp hd
  exact hf d' (h d' hd')

theorem SoundSlot.add {s : Option Cell} (h : SoundSlot cfg s) (env : Env) (pid : Pid) :
    SoundSlot cfg (s.or ((entryFor cfg env pid).map Cell.fresh)) := by
  intro d hd
  cases s with
  | some d' => exact h d hd
  | none =>
    obtain ⟨e, he, rfl⟩ := Option.map_eq_some_iff.mp hd
    exact sound_fresh he

theorem SoundSlot.scan {s : Option Cell} (h : SoundSlot cfg s) (env : Env) (q : Pid) :
    SoundSlot cfg (scanSlot cfg env q s) := by
  unfold scanSlot
  split
  · exact h.add env q
  · exact h

theorem SoundSlot.touch {s : Option Cell} (h : SoundSlot cfg s) (c : Call) (q : Pid) :
    SoundSlot cfg (c.touch cfg q s) := by
  cases c with
  | addProcEntry env pid =>
    show SoundSlot cfg (if q = pid then _ else _)
    split
    · exact h.add env pid
    · exact h
  | updProcEntry env pid => exact h.map fun d hd => hd.updName env pid
  | remProcEntry pid sync => exact h.map fun d hd => hd.mark _
  | remProcEntryByName name sync => exact h.map fun d hd => hd.mark _
  | updateProcessList env => exact h.scan env q
  | update env lane =>
    refine SoundSlot.map ?_ fun d hd => hd.updLane env lane
    split
    · exact h
    · exact h.scan env q
  | pushRequest rq => exact h
  | dispatch => exact h

/-! ### Runs -/

/-- What the process list always is. -/
structure Sound (cfg : Config) (r : Registry L) : Prop where
  once : (r.tracked.map Prod.fst).Nodup
  allowed : ∀ tracked ∈ r.tracked, isBlacklisted cfg tracked.2 = false
  built : ∀ p ∈ items r.procList, ProcEntry.Built cfg (r.procs p).pid (r.procs p)

theorem sound_of_slots (h : WF r) (hs : ∀ q, SoundSlot cfg (r.slot q)) : Sound cfg r := by
  have hcell : ∀ p ∈ items r.procList, (r.cell p).Sound cfg := fun p hp => hs _ _ (h.slot_listed hp)
  refine ⟨?_, fun tracked ht => ?_, fun p hp => (hcell p hp).built⟩
  · rw [tracked_eq, List.map_map]
    exact h.pids
  · obtain ⟨p, hp, rfl⟩ := List.mem_map.mp ht
    exact (hcell p hp).allowed

theorem soundSlot_call (h : WF r) (hs : ∀ q, SoundSlot cfg (r.slot q)) (hc : call cfg r c = some t) (q : Pid) :
    SoundSlot cfg (t.slot q) := by
  rw [slot_call h hc q]
  have htouch := (hs q).touch c q
  split
  · intro d hd
    exact htouch d (Option.filter_eq_some_iff.mp hd).1
  · exact htouch

/-- The call is about the pid alone. -/
def Call.About (pid : Pid) : Call → Prop
  | .addProcEntry _ p | .updProcEntry _ p | .remProcEntry p _ => p = pid
  | _ => False

/-- The entry of the pid is as it was, or its removal was recorded and is now committed. -/
def Undisturbed (q : Pid) (r t : Registry L) : Prop :=
  t.slot q = r.slot q ∨ t.slot q = none ∧ ∃ d, r.slot q = some d ∧ d.condemned = true

theorem undisturbed_call {pid q : Pid} (h : WF r) (hc : call cfg r c = some t) (ha : c.About pid) (hq : q ≠ pid) :
    Undisturbed q r t := by
  have htouch : c.touch cfg q (r.slot q) = r.slot q := by
    cases c with
    | addProcEntry env p =>
      obtain rfl : p = pid := ha
      exact if_neg hq
    | updProcEntry env p =>
      obtain rfl : p = pid := ha
      cases hs : r.slot q with
      | none => rfl
      | some d =>
        have hne : d.pid ≠ p := fun he => hq ((slot_pid hs).symm.trans he)
        exact congrArg some (if_neg hne)
    | remProcEntry p sync =>
      obtain rfl : p = pid := ha
      cases hs : r.slot q with
      | none => rfl
      | some d =>
        have hne : d.entry.pid ≠ p := fun he => hq ((slot_pid hs).symm.trans he)
        have hfalse : (d.entry.pid == p) = false := by simpa using hne
        simp [Call.touch, Cell.mark, hfalse]
    | remProcEntryByName name sync => exact ha.elim
    | updateProcessList env => exact ha.elim
    | update env lane => exact ha.elim
    | pushRequest rq => exact ha.elim
    | dispatch => exact ha.elim
  have hslot := slot_call h hc q
  rw [htouch] at hslot
  split at hslot
  · cases hs : r.slot q with
    | none =>
      rw [hs] at hslot
      exact .inl (hslot.trans hs.symm)
    | some d =>
      rw [hs] at hslot
      cases hd : d.condemned with
      | false => exact .inl (hslot.trans (by simp [hs, Option.filter_some, hd]))
      | true => exact .inr ⟨hslot.trans (by simp [Option.filter_some, hd]), d, hs, hd⟩
  · exact .inl hslot

/-- **The process list is sound in every registry that calls reach** from a listing of procfs, and a
call about one pid leaves the entries of the others alone. -/
theorem sound_reached {env : Env} (hn : env.pids.Nodup)
    (hs : Reaches (call cfg) (initFromProc cfg env (empty : Registry L)) r) :
    Sound cfg r ∧ ∀ c t pid q, call cfg r c = some t → c.About pid → q ≠ pid → Undisturbed q r t := by
  have hinit : ∀ q, SoundSlot cfg ((initFromProc cfg env (empty : Registry L)).slot q) := by
    intro q
    rw [(initFromProc_spec cfg hn).2 q]
    split
    · intro d hd
      obtain ⟨e, he, rfl⟩ := Option.map_eq_some_iff.mp hd
      exact sound_fresh he
    · intro d hd
      cases hd
  have hinv := hs.invariant (P := fun r => WF r ∧ ∀ q, SoundSlot cfg (r.slot q))
    (fun _ _ _ hr _ hc => ⟨wf_call hr.1 hc, soundSlot_call hr.1 hr.2 hc⟩) ⟨(initFromProc_spec cfg hn).1, hinit⟩
  exact ⟨sound_of_slots hinv.1 hinv.2, fun c t pid q hc ha hq => undisturbed_call hinv.1 hc ha hq⟩

/-- A process leaves while another execs the shell, which is blacklisted. -/
def shellRun : List Call :=
  [.addProcEntry (running [5, 6, 7] ['p']) 7, .remProcEntry 5 false, .updProcEntry (running [6, 7] ['s', 'h']) 6,
    .updateProcessList (running [6, 7] ['s', 'h']), .dispatch]

theorem sound_reached_shell :
    ∃ r : Registry Recorded,
      run (call scanConfig) (initFromProc scanConfig (running [5, 6] ['p']) empty) shellRun = some r ∧
      r.tracked = [(7, ['p'])] ∧ Sound scanConfig r := by
  have hn : (running [5, 6] ['p']).pids.Nodup := by decide
  exact ⟨_, rfl, by decide +kernel, (sound_reached hn (.of_run (meets_true _ _ shellRun) rfl)).1⟩

end Registry
end TaskMonitor

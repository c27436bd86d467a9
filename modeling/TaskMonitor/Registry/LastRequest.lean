import TaskMonitor.Registry.Calls

/-! Which request for a pid decides whether it is listed.

An add looks for the pid among all listed entries, those recorded for removal
included, and does nothing where it finds one. So the last request for a pid
decides, but for an add that finds its entry condemned: the commit takes that
entry out, and no other was made (`listed_iff`). -/
namespace TaskMonitor.Registry
open DeferredList Transition

variable {L : Type → Type} [DeferredList L] {cfg : Config} {r t u m : Registry L} {c last : Call} {pid : Pid}
  {d : Cell}

/-! ### Requests -/

/-- The calls that process events and failing entries make, and the commits they ask for. -/
def Call.Plain : Call → Prop
  | .addProcEntry _ _ | .updProcEntry _ _ | .remProcEntry _ _ | .dispatch => True
  | .pushRequest rq => rq.action = .commitProcList
  | _ => False

/-- The call is an add of the pid or a removal of it. -/
def Call.Asks (pid : Pid) : Call → Prop
  | .addProcEntry _ p | .remProcEntry p _ => p = pid
  | _ => False

def Call.adds : Call → Bool
  | .addProcEntry _ _ => true
  | _ => false

/-- The process is live with an allowed name, wherever the call reads it. -/
def Call.Live (cfg : Config) (pid : Pid) : Call → Prop
  | .addProcEntry env p | .updProcEntry env p => p = pid → (entryFor cfg env pid).isSome = true
  | _ => True

/-- What may come after the last request for the pid; a process that was added stays. -/
structure After (cfg : Config) (pid : Pid) (last c : Call) : Prop where
  plain : c.Plain
  spares : ¬c.Asks pid
  live : last.adds = true → c.Live cfg pid

/-- The removal of the entry of the pid is recorded. -/
def Condemned (r : Registry L) (pid : Pid) : Prop := ∃ d, r.slot pid = some d ∧ d.condemned = true

/-! ### What one call does to the entry -/

/-- The pid has an entry that is to stay. -/
def Kept (r : Registry L) (pid : Pid) : Prop := ∃ d, r.slot pid = some d ∧ d.condemned = false

/-- The pid has no entry that is to stay. -/
def Going (r : Registry L) (pid : Pid) : Prop := ∀ d, r.slot pid = some d → d.condemned = true

theorem going_of_condemned (h : Condemned r pid) : Going r pid := by
  intro d hd
  obtain ⟨d', hd', hc⟩ := h
  obtain rfl : d' = d := Option.some.inj (hd'.symm.trans hd)
  exact hc

theorem kept_or_going (r : Registry L) (pid : Pid) : Kept r pid ∨ Going r pid := by
  cases hs : r.slot pid with
  | none => exact .inr fun d hd => by cases hs.symm.trans hd
  | some d =>
    cases hc : d.condemned with
    | false => exact .inl ⟨d, hs, hc⟩
    | true => exact .inr (going_of_condemned ⟨d, hs, hc⟩)

theorem Cell.mark_other {p : Pid} (hp : d.pid ≠ p) : d.mark (fun e => e.pid == p) = d := by
  have hfalse : (d.entry.pid == p) = false := beq_eq_false_iff_ne.mpr hp
  simp [Cell.mark, hfalse]

theorem Cell.updName_condemned {env : Env} {p : Pid} (h : d.condemned = true) :
    (d.updName cfg env p).condemned = true := by
  unfold Cell.updName
  (repeat' split) <;> simp [h]

/-- An exec of a process with an allowed name keeps its entry. -/
theorem Cell.updName_live {env : Env} {p : Pid} (hlive : d.pid = p → (entryFor cfg env d.pid).isSome = true) :
    (d.updName cfg env p).condemned = d.condemned := by
  unfold Cell.updName
  by_cases hp : d.pid = p
  · obtain ⟨e, he⟩ := Option.isSome_iff_exists.mp (hlive hp)
    obtain ⟨hname, hallowed, _⟩ := entryFor_spec he
    rw [hp] at hname
    rw [if_pos hp]
    simp only [getProcNameForPID, hname]
    split
    · rfl
    · rw [if_neg (by simp [hallowed])]
  · rw [if_neg hp]

/-- What no request of the pid does to its entry is done in place. -/
theorem touch_spares (cfg : Config) (r : Registry L) (hplain : c.Plain) (hspares : ¬c.Asks pid) :
    (∃ env p, c = .updProcEntry env p ∧ c.touch cfg pid (r.slot pid) = (r.slot pid).map (Cell.updName cfg env p)) ∨
      c.touch cfg pid (r.slot pid) = r.slot pid := by
  cases c with
  | addProcEntry env p => exact .inr (if_neg fun he => hspares he.symm)
  | updProcEntry env p => exact .inl ⟨env, p, rfl, rfl⟩
  | remProcEntry p sync =>
    refine .inr ?_
    cases hs : r.slot pid with
    | none => rfl
    | some d => exact congrArg some (Cell.mark_other fun he => hspares (he.symm.trans (slot_pid hs)))
  | pushRequest rq => exact .inr rfl
  | dispatch => exact .inr rfl
  | remProcEntryByName name sync => exact hplain.elim
  | updateProcessList env => exact hplain.elim
  | update env lane => exact hplain.elim

theorem kept_call (h : WF r) (hk : Kept r pid) (hplain : c.Plain) (hspares : ¬c.Asks pid) (hlive : c.Live cfg pid)
    (hc : call cfg r c = some t) : Kept t pid := by
  obtain ⟨d, hd, hstays⟩ := hk
  rcases touch_spares cfg r hplain hspares with ⟨env, p, rfl, htouch⟩ | htouch
  · have hp : d.pid = pid := slot_pid hd
    have hsame : (d.updName cfg env p).condemned = false := by
      rw [Cell.updName_live fun he => hp.symm ▸ hlive (he.symm.trans hp), hstays]
    rw [hd] at htouch
    exact ⟨_, slot_call_kept h hc (by rw [hd]; exact htouch) hsame, hsame⟩
  · exact ⟨d, slot_call_kept h hc (htouch.trans hd) hstays, hstays⟩

theorem going_call (h : WF r) (hg : Going r pid) (hplain : c.Plain) (hspares : ¬c.Asks pid)
    (hc : call cfg r c = some t) : Going t pid := by
  intro d hd
  have hd' := slot_call_some h hc hd
  rcases touch_spares cfg r hplain hspares with ⟨env, p, rfl, htouch⟩ | htouch
  · obtain ⟨d', hold, rfl⟩ := Option.map_eq_some_iff.mp (htouch.symm.trans hd')
    exact Cell.updName_condemned (hg d' hold)
  · exact hg d (htouch.symm.trans hd')

/-! ### What the last request does -/

/-- A removal leaves no entry that is to stay. -/
theorem going_removed (h : WF r) {sync : Bool} (hc : call cfg r (.remProcEntry pid sync) = some t) : Going t pid := by
  intro d hd
  obtain ⟨d', hold, rfl⟩ := Option.map_eq_some_iff.mp (slot_call_some h hc hd)
  have hpid : d'.entry.pid = pid := slot_pid hold
  simp [Cell.mark, hpid]

/-- An add keeps the entry it finds as it is, and makes one where it finds none. -/
theorem kept_added_iff (h : WF r) {env : Env} (hlive : (entryFor cfg env pid).isSome = true)
    (hc : call cfg r (.addProcEntry env pid) = some t) : Kept t pid ↔ ¬Condemned r pid := by
  have hslot : t.slot pid = (r.slot pid).or ((entryFor cfg env pid).map Cell.fresh) :=
    (slot_call h hc pid).trans (if_pos rfl)
  obtain ⟨e, he⟩ := Option.isSome_iff_exists.mp hlive
  unfold Kept Condemned
  rw [hslot, he]
  cases r.slot pid with
  | none => simp [Cell.fresh]
  | some d => simp

/-! ### Runs -/

theorem kept_run (h : Regular u) (hk : Kept u pid) (hlast : last.adds = true)
    (hs : Steps (call cfg) (fun _ c => After cfg pid last c) u t) : Kept t pid :=
  (hs.invariant (P := fun r => WF r ∧ Kept r pid)
    (fun _ _ _ hr ha hc => ⟨wf_call hr.1 hc, kept_call hr.1 hr.2 ha.plain ha.spares (ha.live hlast) hc⟩) ⟨h.wf, hk⟩).2

theorem going_run (h : Regular u) (hg : Going u pid) (hs : Steps (call cfg) (fun _ c => After cfg pid last c) u t) :
    Going t pid :=
  (hs.invariant (P := fun r => WF r ∧ Going r pid)
    (fun _ _ _ hr ha hc => ⟨wf_call hr.1 hc, going_call hr.1 hr.2 ha.plain ha.spares hc⟩) ⟨h.wf, hg⟩).2

theorem hasProc_of_kept (hk : Kept r pid) : r.hasProc pid = true := by
  obtain ⟨d, hd, _⟩ := hk
  rw [hasProc_iff, hd]
  rfl

/-- Once nothing is to be committed, an entry that was to leave has left. -/
theorem not_hasProc_of_going (h : Regular r) (hq : Committed r) (hg : Going r pid) : r.hasProc pid = false := by
  rw [hasProc_iff]
  cases hs : r.slot pid with
  | none => rfl
  | some d =>
    have hstays := h.requested.settled hq pid hs
    rw [hg d hs] at hstays
    cases hstays

/-- **The last request for a pid decides whether it is listed, exactly where it is not an add that
finds the entry condemned.** -/
theorem listed_iff {env : Env} (hn : env.pids.Nodup)
    (hbefore : Reaches (call cfg) (initFromProc cfg env (empty : Registry L)) m)
    (hasks : last.Asks pid) (hlive : last.Live cfg pid) (hlast : call cfg m last = some u)
    (hafter : Steps (call cfg) (fun _ c => After cfg pid last c) u t) (hq : Committed t) :
    t.hasProc pid = last.adds ↔ ¬(last.adds = true ∧ Condemned m pid) := by
  have hm : Regular m := (regular_initFromProc hn).steps hbefore
  have hu : Regular u := regular_call hm hlast
  have ht : Regular t := hu.steps hafter
  cases last with
  | addProcEntry env p =>
    obtain rfl : p = pid := hasks
    have hkept := kept_added_iff hm.wf (hlive rfl) hlast
    show t.hasProc p = true ↔ ¬(true = true ∧ Condemned m p)
    rw [and_iff_right rfl, ← hkept]
    constructor
    · intro hlisted
      refine (kept_or_going u p).resolve_right fun hg => ?_
      rw [not_hasProc_of_going ht hq (going_run hu hg hafter)] at hlisted
      cases hlisted
    · intro hk
      exact hasProc_of_kept (kept_run hu hk rfl hafter)
  | remProcEntry p sync =>
    obtain rfl : p = pid := hasks
    have hgone := not_hasProc_of_going ht hq (going_run hu (going_removed hm.wf hlast) hafter)
    exact ⟨fun _ hcontra => Bool.false_ne_true hcontra.1, fun _ => hgone⟩
  | updProcEntry env p => exact hasks.elim
  | remProcEntryByName name sync => exact hasks.elim
  | updateProcessList env => exact hasks.elim
  | update env lane => exact hasks.elim
  | pushRequest rq => exact hasks.elim
  | dispatch => exact hasks.elim

/-! ### Two histories -/

/-- What comes after an add of 5: an exec of it, and the removal of another process. -/
def execAndExit : List Call := [.updProcEntry (running [5] ['q']) 5, .remProcEntry 6 false, .dispatch]

/-- A process that was removed is added again, and execs. -/
theorem listed_again :
    ∃ m u t : Registry Recorded,
      run (call scanConfig) (initFromProc scanConfig (running [5] ['p']) empty) [.remProcEntry 5 true] = some m ∧
        call scanConfig m (.addProcEntry (running [5] ['p']) 5) = some u ∧
        run (call scanConfig) u execAndExit = some t ∧ t.hasProc 5 = true := by
  have hafter (u : Registry Recorded) : Meets (call scanConfig)
      (fun _ c => After scanConfig 5 (.addProcEntry (running [5] ['p']) 5) c) u execAndExit := by
    have hother : ¬Call.Asks 5 (.remProcEntry 6 false) := fun h : 6 = 5 => absurd h (by decide)
    exact ⟨⟨trivial, id, fun _ _ => rfl⟩, fun _ _ => ⟨⟨trivial, hother, fun _ => trivial⟩, fun _ _ =>
      ⟨⟨trivial, id, fun _ => trivial⟩, fun _ _ => trivial⟩⟩⟩
  refine ⟨_, _, _, rfl, rfl, rfl, ?_⟩
  have hasks : Call.Asks 5 (.addProcEntry (running [5] ['p']) 5) := rfl
  have hn : (running [5] ['p']).pids.Nodup := by decide
  refine (listed_iff hn (.of_run (meets_true _ _ [.remProcEntry 5 true]) rfl) hasks (fun _ => rfl) rfl
    (.of_run (hafter _) rfl) ?_).mpr ?_
  · exact fun rq hrq => by cases hrq
  · rintro ⟨_, d, hd, _⟩
    cases hd

/-- **An add can be lost**: the removal of the pid is recorded, the add finds the entry still listed, and the
commit takes it out. -/
theorem condemned_add_lost :
    ∃ m u t : Registry Recorded,
      run (call scanConfig) (initFromProc scanConfig (running [5] ['p']) empty) [.remProcEntry 5 false] = some m ∧
        (entryFor scanConfig (running [5] ['p']) 5).isSome = true ∧
        call scanConfig m (.addProcEntry (running [5] ['p']) 5) = some u ∧
        run (call scanConfig) u [.dispatch] = some t ∧ t.queue = [] ∧ t.hasProc 5 = false :=
  ⟨_, _, _, rfl, rfl, rfl, rfl, rfl, rfl⟩

end TaskMonitor.Registry

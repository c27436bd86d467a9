import TaskMonitor.Event.Tracking

/-! What tracking keeps of one pid, and under which conditions on the steps.

Each invariant is about a live process and looks past an unhandled exit: such an
exit is of an earlier process with the pid, and empties the slot when it is
handled. `Sound` says the process is announced again after it, or a scan is to
come; `Listed` that without an entry the process is blacklisted, announced or
awaits a scan; `Named` and `Described` that its entry is up to date or an exec
unhandled. -/
namespace TaskMonitor.System
open Registry

variable {L : Type → Type} [DeferredList L] {cfg : Config} {q : Pid} {l : Label} {v v' : View}

/-! ### Events -/

/-- Every exit has a fork after it. -/
def Renewed : List Kind → Prop
  | [] => True
  | k :: rest => (k = .exit → .fork ∈ rest) ∧ Renewed rest

theorem renewed_append_fork (evs : List Kind) : Renewed (evs ++ [.fork]) := by
  induction evs with
  | nil => exact ⟨fun h => (by cases h), trivial⟩
  | cons k rest ih => exact ⟨fun _ => by simp, ih⟩

theorem renewed_append_exec {evs : List Kind} (h : Renewed evs) : Renewed (evs ++ [.exec]) := by
  induction evs with
  | nil => exact ⟨fun h => (by cases h), trivial⟩
  | cons k rest ih => exact ⟨fun hk => List.mem_append_left _ (h.1 hk), ih h.2⟩

theorem Renewed.fork_mem {evs : List Kind} (h : Renewed evs) (he : .exit ∈ evs) : .fork ∈ evs := by
  induction evs with
  | nil => cases he
  | cons k rest ih =>
    rcases List.mem_cons.mp he with hk | hrest
    · exact List.mem_cons_of_mem k (h.1 hk.symm)
    · exact List.mem_cons_of_mem k (ih h.2 hrest)

/-! ### The invariants -/

namespace View

/-- A live process is announced again after every unhandled exit of its pid, or a scan is
to come; with no exit unhandled, no removal of its entry is recorded. -/
structure Sound (v : View) : Prop where
  renewed : v.proc.isSome → Renewed v.events ∨ v.scan = true
  kept : v.proc.isSome → .exit ∉ v.events → ∀ c, v.slot = some c → c.condemned = false

/-- The entry of a live process has its name, or an exec is unhandled. -/
def Named (v : View) : Prop :=
  ∀ p c, v.proc = some p → .exit ∉ v.events → v.slot = some c →
    c.entry.getName = p.name ∨ .exec ∈ v.events

/-- A live process without an entry is blacklisted, announced or awaits a scan. -/
def Listed (cfg : Config) (v : View) : Prop :=
  ∀ p, v.proc = some p → .exit ∉ v.events → v.slot = none →
    isBlacklisted cfg p.name = true ∨ .fork ∈ v.events ∨ v.scan = true

/-- The entry of a live process has its parent and its context. -/
def Described (cfg : Config) (v : View) : Prop :=
  ∀ p c, v.proc = some p → .exit ∉ v.events → v.slot = some c → World.Describes cfg p c.entry

/-- No entry has a blacklisted name. -/
def Allowed (cfg : Config) (v : View) : Prop :=
  ∀ c, v.slot = some c → isBlacklisted cfg c.entry.getName = false

/-- No update of the entry is under way. -/
def AtRest (v : View) : Prop := ∀ c, v.slot = some c → c.entry.updatePending = false

/-- Without a process, the removal of the entry is recorded. -/
def Fading (v : View) : Prop := v.proc = none → ∀ c, v.slot = some c → c.condemned = true

/-- Without a process, the last unhandled event is its exit, or nothing is left of it. -/
def Ended (v : View) : Prop :=
  v.proc = none → (v.events = [] ∧ v.slot = none) ∨ v.events.getLast? = some .exit

/-- With every event handled and no scan to come, a live process with an allowed name has
its entry. -/
theorem Sound.complete {p : Process} (hv : v.Sound) (hl : v.Listed cfg) (hp : v.proc = some p)
    (he : v.events = []) (hs : v.scan = false) (hb : isBlacklisted cfg p.name = false) :
    ∃ c, v.slot = some c ∧ c.condemned = false := by
  have hexit : Kind.exit ∉ v.events := by simp [he]
  cases hslot : v.slot with
  | none =>
    rcases hl p hp hexit hslot with h | h | h
    · rw [hb] at h
      cases h
    · rw [he] at h
      cases h
    · rw [hs] at h
      cases h
  | some c => exact ⟨c, rfl, hv.kept (by rw [hp]; rfl) hexit c hslot⟩

theorem Named.settled {p : Process} {c : Cell} (hn : v.Named) (hp : v.proc = some p)
    (he : v.events = []) (hc : v.slot = some c) : c.entry.getName = p.name := by
  rcases hn p c hp (by simp [he]) hc with h | h
  · exact h
  · rw [he] at h
    cases h

end View

/-! ### Conditions on a step -/

/-- A process is forked under a pid that has no entry, or the exit of whose last process is
unhandled. -/
def FreshFork (q : Pid) (l : Label) (v : View) : Prop :=
  ∀ parent ctx lost, l = .fork parent q ctx lost → v.slot = none ∨ .exit ∈ v.events

/-- The last scan due finds no live process with an exit of its pid unhandled and no fork after it. -/
def SettledScan (l : Label) (v v' : View) : Prop :=
  ∀ x, l = .updateProcessList x → v'.scan = false → v.proc.isSome → Renewed v.events

/-- An exec to an allowed name is of a process that has an entry, is announced or awaits a scan,
or it is lost. -/
def ListedExec (cfg : Config) (q : Pid) (l : Label) (v : View) : Prop :=
  ∀ name, l = .exec q name false →
    isBlacklisted cfg name = true ∨ v.slot.isSome ∨ .fork ∈ v.events ∨ v.scan = true

/-- A lost exec leaves no entry with another name, unless an event unhandled will change it. -/
def NamedExec (q : Pid) (l : Label) (v : View) : Prop :=
  ∀ name, l = .exec q name true →
    .exit ∈ v.events ∨ .exec ∈ v.events ∨ ∀ c, v.slot = some c → c.entry.getName = name

/-- The parent of a live process with an entry does not exit. -/
def KeptParent (l : Label) (v : View) : Prop :=
  ∀ pid reaper lost p, l = .exit pid reaper lost → v.proc = some p → p.ppid = pid →
    v.slot = none ∨ .exit ∈ v.events

/-! ### What a change preserves -/

@[simp] theorem deliver_proc (k : Kind) (lost : Bool) : (View.deliver k lost v).proc = v.proc := by
  cases lost <;> rfl

@[simp] theorem deliver_slot (k : Kind) (lost : Bool) : (View.deliver k lost v).slot = v.slot := by
  cases lost <;> rfl

theorem commit_slot {c : Cell} (h : v.commit.slot = some c) : v.slot = some c ∧ c.condemned = false := by
  obtain ⟨hs, hc⟩ := Option.filter_eq_some_iff.mp h
  exact ⟨hs, by simpa using hc⟩

/-- A commit takes out no entry that is not condemned. -/
theorem commit_kept {c : Cell} (hs : v.slot = some c) (hc : c.condemned = false) : v.commit.slot = some c := by
  simp [View.commit, hs, Option.filter_some, hc]

/-- The slot of a pid that is added: the cell before, or a fresh one. -/
theorem added_slot {env : Env} {o : Option Cell} {c : Cell}
    (h : o.or ((entryFor cfg env q).map Cell.fresh) = some c) :
    o = some c ∨ (o = none ∧ ∃ e, entryFor cfg env q = some e ∧ c = Cell.fresh e) := by
  cases o with
  | some c' => exact .inl h
  | none =>
    obtain ⟨e, he, rfl⟩ := Option.map_eq_some_iff.mp h
    exact .inr ⟨rfl, e, he, rfl⟩

/-- A scan adds the pids of live processes. -/
theorem scanned_slot {env : Env} {live : Bool} {o : Option Cell} {c : Cell}
    (h : (if live then o.or ((entryFor cfg env q).map Cell.fresh) else o) = some c) :
    o = some c ∨ (o = none ∧ ∃ e, entryFor cfg env q = some e ∧ c = Cell.fresh e) := by
  cases live with
  | true => exact added_slot h
  | false => exact .inl h

/-- The cell that handling an event leaves: the one before, renamed or not, or a fresh one. -/
theorem handle_slot {env : Env} {k : Kind} {o : Option Cell} {c : Cell} (h : handle cfg env q k o = some c) :
    (k = .fork ∧ (o = some c ∨ (o = none ∧ ∃ e, entryFor cfg env q = some e ∧ c = Cell.fresh e))) ∨
      (k = .exec ∧ c.condemned = false ∧ ∃ c', o = some c' ∧ c = c'.updName cfg env q) := by
  cases k with
  | fork => exact .inl ⟨rfl, added_slot h⟩
  | exec =>
    obtain ⟨hm, hc⟩ := Option.filter_eq_some_iff.mp h
    obtain ⟨c', rfl, rfl⟩ := Option.map_eq_some_iff.mp hm
    exact .inr ⟨rfl, by simpa using hc, c', rfl, rfl⟩
  | exit => cases h

section
variable {w : World} {x : Readings} {p : Process} {c : Cell}

/-- What handling an exec makes of the entry of a live process. -/
theorem updName_live (hw : w.find q = some p) (hx : x.ReliableFor q) (hc : c.pid = q) :
    c.updName cfg (w.env x) q =
      if c.entry.getName = p.name then c
      else if isBlacklisted cfg p.name then {c with condemned := true}
      else {c with entry := c.entry.setName p.name} := by
  simp only [Cell.updName, if_pos hc, World.name_live hw hx]

/-- Whatever a name is read as, an exec keeps the rest of the entry. -/
theorem updName_describes {env : Env} (h : World.Describes cfg p c.entry) :
    World.Describes cfg p (c.updName cfg env q).entry := by
  unfold Cell.updName
  repeat' split
  · exact h
  · exact h
  · exact h
  · exact ⟨h.ppid, h.ctxId, h.unresolved⟩
  · exact h

theorem updLane_name {env : Env} (lane : UpdateLane) :
    (c.updLane cfg env lane).entry.getName = c.entry.getName := by
  cases lane with
  | pace => exact (ProcEntry.updateProcInfo_spec cfg env c.entry).comm
  | slow =>
    simp only [Cell.updLane, Cell.updAcct]
    split
    · exact congrArg ProcInfoEntry.comm (ProcEntry.updateProcAcct_info env c.entry).2
    · rfl
  | fast => rfl
  | any => rfl

theorem updName_updatePending {env : Env} :
    (c.updName cfg env q).entry.updatePending = c.entry.updatePending := by
  unfold Cell.updName
  (repeat' split) <;> rfl

theorem updLane_updatePending {env : Env} (lane : UpdateLane) :
    (c.updLane cfg env lane).entry.updatePending = c.entry.updatePending := by
  cases lane with
  | pace => exact (ProcEntry.updateProcInfo_spec cfg env c.entry).updatePending
  | slow =>
    simp only [Cell.updLane, Cell.updAcct]
    split
    · exact ProcEntry.updateProcAcct_updatePending env c.entry
    · rfl
  | fast => rfl
  | any => rfl

/-- A lane update whose attempts succeed condemns nothing. -/
theorem updLane_condemned (hw : w.find c.pid = some p) {lane : UpdateLane} (hx : x.Serves cfg c.entry lane) :
    (c.updLane cfg (w.env x) lane).condemned = c.condemned := by
  cases lane with
  | pace =>
    have hs := (ProcEntry.updateProcInfo_spec cfg (w.env x) c.entry).status
    rw [World.readable_live hw hx, Bool.or_true] at hs
    simp [Cell.updLane, Cell.updInfo, hs]
  | slow =>
    simp only [Cell.updLane, Cell.updAcct]
    split
    · rename_i hacct
      have ht : (c.entry.updateProcAcct (w.env x)).2.2 = true :=
        ProcEntry.updateProcAcct_status fun hn hpending => by
          simp [World.env, hx hacct hn hpending]
      simp [ht]
    · rfl
  | fast => rfl
  | any => rfl

/-- A lane update keeps the parent, and the context where the process lives. -/
theorem updLane_describes (hw : w.find q = some p) (hc : c.pid = q) (lane : UpdateLane)
    (h : World.Describes cfg p c.entry) : World.Describes cfg p (c.updLane cfg (w.env x) lane).entry := by
  have hc' : c.entry.pid = q := hc
  cases lane with
  | pace =>
    have hu := ProcEntry.updateProcInfo_spec cfg (w.env x) c.entry
    rcases hu.context with ⟨hid, hname⟩ | ⟨hagain, hid⟩
    · exact ⟨hu.ppid.trans h.ppid, hid.trans h.ctxId, fun hn => h.unresolved (hname.symm.trans hn)⟩
    · have hroot := h.unresolved (ProcEntry.unknown_of_resolvesAgain hagain)
      refine ⟨hu.ppid.trans h.ppid, hid.trans ?_, fun _ => hroot⟩
      simp [World.env, hc', hw, World.contextOf, hroot]
  | slow =>
    simp only [Cell.updLane, Cell.updAcct]
    split
    · have hi := (ProcEntry.updateProcAcct_info (w.env x) c.entry).2
      exact ⟨by rw [hi]; exact h.ppid, by rw [hi]; exact h.ctxId, by rw [hi]; exact h.unresolved⟩
    · exact h
  | fast => exact h
  | any => exact h

end

/-- The entry made for a live process has its name, and describes it. -/
theorem entryFor_fresh {w : World} {x : Readings} {p : Process} {e : ProcEntry} (hw : w.find q = some p)
    (hx : x.ReliableFor q) (he : entryFor cfg (w.env x) q = some e) :
    e.getName = p.name ∧ World.Describes cfg p e := by
  by_cases hb : isBlacklisted cfg p.name = true
  · rw [World.entryFor_blacklisted hw hx hb] at he
    cases he
  · obtain ⟨e', he', hname, hdesc⟩ := World.entryFor_live hw hx (by simpa using hb)
    obtain rfl := Option.some.inj (he'.symm.trans he)
    exact ⟨hname, hdesc⟩

/-- A live process gets no entry only where it is blacklisted. -/
theorem entryFor_none {w : World} {x : Readings} {p : Process} (hw : w.find q = some p)
    (hx : x.ReliableFor q) (he : entryFor cfg (w.env x) q = none) : isBlacklisted cfg p.name = true := by
  by_contra hb
  obtain ⟨e, he', _⟩ := World.entryFor_live hw hx (by simpa using hb)
  rw [he] at he'
  cases he'

/-- A name that an exec leaves is allowed where the one before was. -/
theorem updName_allowed {env : Env} {c : Cell} (h : isBlacklisted cfg c.entry.getName = false)
    (hc : (c.updName cfg env q).condemned = false) :
    isBlacklisted cfg (c.updName cfg env q).entry.getName = false := by
  unfold Cell.updName at hc ⊢
  split
  · split
    · exact h
    · rename_i procName _
      by_cases hsame : c.entry.getName = procName
      · rw [if_pos hsame]
        exact h
      · by_cases hb : isBlacklisted cfg procName = true
        · simp_all
        · rw [if_neg hsame, if_neg hb]
          exact (Bool.not_eq_true _).mp hb
  · exact h

theorem sound_change (hc : Change cfg q l v v') (hpid : ∀ c, v.slot = some c → c.pid = q)
    (hf : FreshFork q l v) (hs : SettledScan l v v') (h : v.Sound) : v'.Sound := by
  cases hc with
  | idle hscan => exact ⟨fun hp => (h.renewed hp).imp id hscan, h.kept⟩
  | @fork _ parent ctx lost p hd =>
    refine ⟨fun _ => ?_, fun _ he c hslot => ?_⟩
    · cases lost with
      | true => exact .inr rfl
      | false => exact .inl (renewed_append_fork _)
    · rcases hf parent ctx lost rfl with hn | hexit
      · rw [deliver_slot] at hslot
        exact absurd (hn.symm.trans hslot) (by simp)
      · cases lost with
        | true => exact absurd hexit he
        | false => exact absurd (List.mem_append_left _ hexit) he
  | @exec _ name lost p hp =>
    have hlive : v.proc.isSome := by rw [hp]; rfl
    cases lost with
    | true => exact ⟨fun _ => .inr rfl, fun _ he => h.kept hlive he⟩
    | false =>
      exact ⟨fun _ => (h.renewed hlive).imp renewed_append_exec id,
        fun _ he => h.kept hlive fun hm => he (List.mem_append_left _ hm)⟩
  | exit => refine ⟨fun hp => ?_, fun hp => ?_⟩ <;> simp at hp
  | reparent hp _ hscan =>
    have hlive : v.proc.isSome := by rw [hp]; rfl
    exact ⟨fun _ => (h.renewed hlive).imp id hscan, fun _ => h.kept hlive⟩
  | handle _ _ he =>
    refine ⟨fun hp => (h.renewed hp).imp (fun hr => ?_) id, fun hp hexit c hslot => ?_⟩
    · rw [he] at hr
      exact hr.2
    · rcases handle_slot hslot with ⟨rfl, hold | ⟨_, e, _, rfl⟩⟩ | ⟨_, hcond, _⟩
      · exact h.kept hp (by simpa [he] using hexit) c hold
      · rfl
      · exact hcond
  | commit => exact ⟨h.renewed, fun _ _ c hslot => (commit_slot hslot).2⟩
  | @scan _ x w scan hw hx =>
    refine ⟨fun hp => ?_, fun hp hexit c hslot => ?_⟩
    · cases scan with
      | true => exact .inr rfl
      | false => exact .inl (hs x rfl rfl hp)
    · rcases scanned_slot hslot with hold | ⟨_, e, _, rfl⟩
      · exact h.kept hp hexit c hold
      · rfl
  | @lane _ x w lane hw hx =>
    refine ⟨h.renewed, fun hp hexit c hslot => ?_⟩
    obtain ⟨c', hold, rfl⟩ := Option.map_eq_some_iff.mp hslot
    obtain ⟨p, hproc⟩ := Option.isSome_iff_exists.mp hp
    have hlive : w.find c'.pid = some p := by rw [hpid c' hold, hw, hproc]
    rw [updLane_condemned hlive (hx hp hexit c' hold)]
    exact h.kept hp hexit c' hold
  | reply =>
    refine ⟨h.renewed, fun hp hexit c hslot => ?_⟩
    obtain ⟨c', hold, rfl⟩ := Option.map_eq_some_iff.mp hslot
    rw [Cell.answered_condemned]
    exact h.kept hp hexit c' hold

/-- A fork under its condition leaves nothing to say of an entry. -/
theorem FreshFork.vacuous {parent : Pid} {ctx : UInt64} {lost : Bool} {p : Process} {c : Cell}
    (hf : FreshFork q (.fork parent q ctx lost) v)
    (hexit : .exit ∉ (View.deliver .fork lost {v with proc := some p}).events) (hs : v.slot = some c) :
    False := by
  rcases hf parent ctx lost rfl with hn | hm
  · rw [hn] at hs
    cases hs
  · cases lost with
    | true => exact hexit hm
    | false => exact hexit (List.mem_append_left _ hm)

theorem named_change (hc : Change cfg q l v v') (hpid : ∀ c, v.slot = some c → c.pid = q)
    (hf : FreshFork q l v) (hn : NamedExec q l v) (h : v.Named) : v'.Named := by
  intro p c hp hexit hslot
  cases hc with
  | idle => exact h p c hp hexit hslot
  | fork => exact (hf.vacuous hexit (by simpa using hslot)).elim
  | @exec _ name lost p' hp' =>
    obtain rfl : p = {p' with name := name} := by simpa using hp.symm
    cases lost with
    | true =>
      rcases hn name rfl with hm | hm | hname
      · exact absurd hm hexit
      · exact .inr hm
      · exact .inl (hname c hslot)
    | false => exact .inr (List.mem_append_right _ (List.mem_singleton_self _))
  | exit => simp at hp
  | reparent hp' =>
    obtain rfl := Option.some.inj hp
    have hold := h _ c hp' hexit hslot
    exact hold
  | handle hw hx he =>
    have hproc := hw.trans hp
    have hr := hx (by rw [show v.proc = some p from hp]; rfl)
    rcases handle_slot hslot with ⟨rfl, hold | ⟨_, e, hfor, rfl⟩⟩ | ⟨rfl, hcond, c', hold, rfl⟩
    · refine (h p c hp (by simpa [he] using hexit) hold).imp id fun hm => ?_
      simpa [he] using hm
    · exact .inl (entryFor_fresh hproc hr hfor).1
    · rw [updName_live hproc hr (hpid c' hold)] at hcond ⊢
      split
      · exact .inl ‹_›
      · split
        · simp_all
        · exact .inl rfl
  | commit => exact h p c hp hexit (commit_slot hslot).1
  | scan hw hx =>
    have hlive : v.proc.isSome := by rw [show v.proc = some p from hp]; rfl
    rcases scanned_slot hslot with hold | ⟨_, e, hfor, rfl⟩
    · exact h p c hp hexit hold
    · exact .inl (entryFor_fresh (hw.trans hp) (hx hlive) hfor).1
  | lane =>
    obtain ⟨c', hold, rfl⟩ := Option.map_eq_some_iff.mp hslot
    rw [updLane_name]
    exact h p c' hp hexit hold
  | reply =>
    obtain ⟨c', hold, rfl⟩ := Option.map_eq_some_iff.mp hslot
    simpa [ProcEntry.getName] using h p c' hp hexit hold

theorem listed_change (hc : Change cfg q l v v') (hpid : ∀ c, v.slot = some c → c.pid = q)
    (hx : ListedExec cfg q l v) (hs : v.Sound) (h : v.Listed cfg) : v'.Listed cfg := by
  intro p hp hexit hslot
  cases hc with
  | idle hscan => exact (h p hp hexit hslot).imp id (.imp id hscan)
  | @fork _ _ _ lost =>
    cases lost with
    | true => exact .inr (.inr rfl)
    | false => exact .inr (.inl (List.mem_append_right _ (List.mem_singleton_self _)))
  | @exec _ name lost p' hp' =>
    obtain rfl : p = {p' with name := name} := by simpa using hp.symm
    cases lost with
    | true => exact .inr (.inr rfl)
    | false =>
      have hnone : v.slot = none := hslot
      rcases hx name rfl with hb | hsome | hfork | hscan
      · exact .inl hb
      · rw [hnone] at hsome
        cases hsome
      · exact .inr (.inl (List.mem_append_left _ hfork))
      · exact .inr (.inr hscan)
  | exit => simp at hp
  | reparent hp' _ hscan =>
    obtain rfl := Option.some.inj hp
    exact (h _ hp' hexit hslot).imp id (.imp id hscan)
  | @handle _ x w k rest hw hr he =>
    have hlive : v.proc.isSome := by rw [show v.proc = some p from hp]; rfl
    have hproc := hw.trans hp
    cases k with
    | fork =>
      obtain ⟨_, hfor⟩ := Option.or_eq_none_iff.mp hslot
      exact .inl (entryFor_none hproc (hr hlive) (by simpa using hfor))
    | exec =>
      have hexit' : Kind.exit ∉ v.events := by simpa [he] using hexit
      cases hold : v.slot with
      | none => simpa [he] using h p hp hexit' hold
      | some c =>
        have hkept := hs.kept hlive hexit' c hold
        simp only [handle, hold, Option.map_some, updName_live hproc (hr hlive) (hpid c hold)] at hslot
        by_cases hsame : c.entry.getName = p.name
        · simp [hsame, hkept, Option.filter_some] at hslot
        · by_cases hb : isBlacklisted cfg p.name = true
          · exact .inl hb
          · simp [hsame, hb, hkept, Option.filter_some] at hslot
    | exit =>
      rcases hs.renewed hlive with hrenew | hscan
      · rw [he] at hrenew
        exact .inr (.inl (hrenew.1 rfl))
      · exact .inr (.inr hscan)
  | commit =>
    have hlive : v.proc.isSome := by rw [show v.proc = some p from hp]; rfl
    cases hold : v.slot with
    | none => exact h p hp hexit hold
    | some c =>
      rw [commit_kept hold (hs.kept hlive hexit c hold)] at hslot
      cases hslot
  | scan hw hr =>
    have hlive : v.proc.isSome := by rw [show v.proc = some p from hp]; rfl
    simp only [hlive, if_true] at hslot
    obtain ⟨_, hfor⟩ := Option.or_eq_none_iff.mp hslot
    exact .inl (entryFor_none (hw.trans hp) (hr hlive) (by simpa using hfor))
  | lane => exact h p hp hexit (Option.map_eq_none_iff.mp hslot)
  | reply => exact h p hp hexit (Option.map_eq_none_iff.mp hslot)

theorem described_change (hc : Change cfg q l v v') (hpid : ∀ c, v.slot = some c → c.pid = q)
    (hf : FreshFork q l v) (hk : KeptParent l v) (h : v.Described cfg) : v'.Described cfg := by
  intro p c hp hexit hslot
  cases hc with
  | idle => exact h p c hp hexit hslot
  | fork => exact (hf.vacuous hexit (by simpa using hslot)).elim
  | @exec _ name lost p' hp' =>
    obtain rfl : p = {p' with name := name} := by simpa using hp.symm
    have hexit' : Kind.exit ∉ v.events := by
      cases lost with
      | true => exact hexit
      | false => exact fun hm => hexit (List.mem_append_left _ hm)
    have hold := h p' c hp' hexit' (by simpa using hslot)
    exact ⟨hold.ppid, hold.ctxId, hold.unresolved⟩
  | exit => simp at hp
  | reparent hp' hppid =>
    rcases hk _ _ _ _ rfl hp' hppid with hn | hm
    · rw [hn] at hslot
      cases hslot
    · exact absurd hm hexit
  | handle hw hx he =>
    have hr := hx (by rw [show v.proc = some p from hp]; rfl)
    rcases handle_slot hslot with ⟨rfl, hold | ⟨_, e, hfor, rfl⟩⟩ | ⟨rfl, _, c', hold, rfl⟩
    · exact h p c hp (by simpa [he] using hexit) hold
    · exact (entryFor_fresh (hw.trans hp) hr hfor).2
    · exact updName_describes (h p c' hp (by simpa [he] using hexit) hold)
  | commit => exact h p c hp hexit (commit_slot hslot).1
  | scan hw hx =>
    have hlive : v.proc.isSome := by rw [show v.proc = some p from hp]; rfl
    rcases scanned_slot hslot with hold | ⟨_, e, hfor, rfl⟩
    · exact h p c hp hexit hold
    · exact (entryFor_fresh (hw.trans hp) (hx hlive) hfor).2
  | lane hw =>
    obtain ⟨c', hold, rfl⟩ := Option.map_eq_some_iff.mp hslot
    exact updLane_describes (hw.trans hp) (hpid c' hold) _ (h p c' hp hexit hold)
  | reply =>
    obtain ⟨c', hold, rfl⟩ := Option.map_eq_some_iff.mp hslot
    have hdesc := h p c' hp hexit hold
    exact ⟨by simpa using hdesc.ppid, by simpa using hdesc.ctxId, by simpa using hdesc.unresolved⟩

theorem allowed_change (hc : Change cfg q l v v') (h : v.Allowed cfg) : v'.Allowed cfg := by
  intro c hslot
  cases hc with
  | idle => exact h c hslot
  | fork => exact h c (by simpa using hslot)
  | exec => exact h c (by simpa using hslot)
  | exit => exact h c (by simpa using hslot)
  | reparent => exact h c hslot
  | handle =>
    rcases handle_slot hslot with ⟨_, hold | ⟨_, e, hfor, rfl⟩⟩ | ⟨_, hcond, c', hold, rfl⟩
    · exact h c hold
    · exact (entryFor_spec hfor).2.1
    · exact updName_allowed (h c' hold) hcond
  | commit => exact h c (commit_slot hslot).1
  | scan =>
    rcases scanned_slot hslot with hold | ⟨_, e, hfor, rfl⟩
    · exact h c hold
    · exact (entryFor_spec hfor).2.1
  | lane =>
    obtain ⟨c', hold, rfl⟩ := Option.map_eq_some_iff.mp hslot
    rw [updLane_name]
    exact h c' hold
  | reply =>
    obtain ⟨c', hold, rfl⟩ := Option.map_eq_some_iff.mp hslot
    simpa [ProcEntry.getName] using h c' hold

theorem atRest_change (hc : Change cfg q l v v') (h : v.AtRest) : v'.AtRest := by
  intro c hslot
  cases hc with
  | idle => exact h c hslot
  | fork => exact h c (by simpa using hslot)
  | exec => exact h c (by simpa using hslot)
  | exit => exact h c (by simpa using hslot)
  | reparent => exact h c hslot
  | handle =>
    rcases handle_slot hslot with ⟨_, hold | ⟨_, e, hfor, rfl⟩⟩ | ⟨_, _, c', hold, rfl⟩
    · exact h c hold
    · exact ProcEntry.make_updatePending (entryFor_spec hfor).2.2
    · rw [updName_updatePending]
      exact h c' hold
  | commit => exact h c (commit_slot hslot).1
  | scan =>
    rcases scanned_slot hslot with hold | ⟨_, e, hfor, rfl⟩
    · exact h c hold
    · exact ProcEntry.make_updatePending (entryFor_spec hfor).2.2
  | lane =>
    obtain ⟨c', hold, rfl⟩ := Option.map_eq_some_iff.mp hslot
    rw [updLane_updatePending]
    exact h c' hold
  | reply =>
    obtain ⟨c', hold, rfl⟩ := Option.map_eq_some_iff.mp hslot
    simpa using h c' hold

/-- Where nothing is lost, an entry outlives its process until the exit is handled. -/
theorem ended_change (hc : Change cfg q l v v') (hl : l.lost = false) (h : v.Ended) : v'.Ended := by
  intro hp
  cases hc with
  | idle => exact h hp
  | fork => simp at hp
  | exec => simp at hp
  | exit =>
    obtain rfl : _ = false := hl
    exact .inr (by simp [View.deliver])
  | reparent => cases hp
  | @handle _ x w k rest _ _ he =>
    rcases h hp with ⟨hnil, _⟩ | hlast
    · rw [he] at hnil
      cases hnil
    · rw [he] at hlast
      cases rest with
      | nil =>
        obtain rfl : k = .exit := by simpa using hlast
        exact .inl ⟨rfl, rfl⟩
      | cons k' rest' => exact .inr (by simpa using hlast)
  | commit => exact (h hp).imp_left fun hdone => ⟨hdone.1, by simp [View.commit, hdone.2]⟩
  | scan =>
    have hdead : v.proc.isSome = false := by rw [show v.proc = none from hp]; rfl
    refine (h hp).imp_left fun hdone => ⟨hdone.1, ?_⟩
    simpa [hdead] using hdone.2
  | lane => exact (h hp).imp_left fun hdone => ⟨hdone.1, by simp [hdone.2]⟩
  | reply => exact (h hp).imp_left fun hdone => ⟨hdone.1, by simp [hdone.2]⟩

end TaskMonitor.System

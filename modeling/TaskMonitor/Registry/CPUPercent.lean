import TaskMonitor.Registry.Entry
import Mathlib.Data.UInt

/-! CPU percentages of processes (`ProcEntry.cpp`).

The first call of `readProcStat` remembers the ticks and the time; every later one
divides the ticks since then, in 64 bits, by the microseconds since then. Two
calls within a microsecond divide by zero, fewer ticks than before wrap around,
and a quotient is cut to 32 bits. Apart from that a percentage is exact
(`exact_iff`). -/
namespace TaskMonitor

/-- The ticks and the time a call of `readProcStat` reads. -/
structure Reading where
  total : UInt64
  now : Int
deriving Repr, DecidableEq

namespace Reading

def elapsedUs (last r : Reading) : Nat := ((r.now - last.now) / 1000).toNat

/-- The divisor of a call after the first. -/
def durationUs (last r : Reading) : UInt64 := UInt64.ofInt ((r.now - last.now).tdiv 1000)

/-- What a call after the first stores. -/
def percent (last r : Reading) : UInt32 := ((r.total - last.total) * 1000000 / durationUs last r).toUInt32

/-- What a call should store after the last: nothing at first, then the exact quotient; and where
the ticks went down, not the quotient of their wrapped difference. -/
def Exact (r : Reading) (p : UInt32) : Option Reading → Prop
  | none => p = 0
  | some last =>
    (last.total ≤ r.total → p.toNat = (r.total.toNat - last.total.toNat) * 1000000 / elapsedUs last r) ∧
      (r.total < last.total → p ≠ percent last r)

/-- A call that divides by at least a microsecond, by ticks that did not go down and fit. -/
structure Fair (last r : Reading) : Prop where
  elapsed : 1000 ≤ r.now - last.now
  forward : last.total ≤ r.total
  product : (r.total.toNat - last.total.toNat) * 1000000 < 2 ^ 64
  quotient : (r.total.toNat - last.total.toNat) * 1000000 < 2 ^ 32 * elapsedUs last r

variable {last r : Reading}

theorem toNat_durationUs (h : last.now ≤ r.now) (hfit : r.now - last.now < 2 ^ 63) :
    (durationUs last r).toNat = elapsedUs last r := by
  have htdiv : (r.now - last.now).tdiv 1000 = (elapsedUs last r : Int) := by
    rw [Int.tdiv_eq_ediv_of_nonneg (by omega), elapsedUs]
    omega
  have hlt : elapsedUs last r < 2 ^ 63 := by
    unfold elapsedUs
    omega
  have hmod : ((elapsedUs last r : Int) % 2 ^ 64).toNat = elapsedUs last r := by omega
  rw [durationUs, htdiv, UInt64.ofInt, hmod]
  exact UInt64.toNat_ofNat_of_lt' (Nat.lt_trans hlt (by decide))

/-- A quotient of 64 bits cut to 32 is the quotient exactly if nothing is lost. -/
theorem cut_quotient_iff {x d : Nat} (hd : 0 < d) (hd64 : d ≤ 2 ^ 64) :
    x % 2 ^ 64 / d % 2 ^ 32 = x / d ↔ x < 2 ^ 64 ∧ x < 2 ^ 32 * d := by
  constructor
  · intro heq
    have hquot : x / d < 2 ^ 32 := heq ▸ Nat.mod_lt _ (by decide)
    refine ⟨?_, (Nat.div_lt_iff_lt_mul hd).mp hquot⟩
    by_contra hbig
    -- what the product loses is at least one more divisor
    have hlost : (x % 2 ^ 64 + d) / d ≤ x / d := Nat.div_le_div_right (by omega)
    rw [Nat.add_div_right _ hd] at hlost
    have hcut : x % 2 ^ 64 / d % 2 ^ 32 ≤ x % 2 ^ 64 / d := Nat.mod_le _ _
    omega
  · intro ⟨hx, hquot⟩
    rw [Nat.mod_eq_of_lt hx, Nat.mod_eq_of_lt ((Nat.div_lt_iff_lt_mul hd).mpr hquot)]

theorem toNat_percent (hforward : last.total ≤ r.total) :
    (percent last r).toNat =
      (r.total.toNat - last.total.toNat) * 1000000 % 2 ^ 64 / (durationUs last r).toNat % 2 ^ 32 := by
  simp only [percent, UInt64.toNat_toUInt32, UInt64.toNat_div, UInt64.toNat_mul,
    UInt64.toNat_sub_of_le _ _ hforward]
  rfl

/-- **When a call after the first is exact.** -/
theorem exact_iff (h : last.now ≤ r.now) (hfit : r.now - last.now < 2 ^ 63) :
    (durationUs last r ≠ 0 ∧ Exact r (percent last r) (some last)) ↔ Fair last r := by
  have hduration := toNat_durationUs h hfit
  have hd64 : elapsedUs last r ≤ 2 ^ 64 := by
    rw [← hduration]
    exact Nat.le_of_lt (durationUs last r).toNat_lt
  have hzero : durationUs last r = 0 ↔ elapsedUs last r = 0 := by
    rw [← hduration, ← UInt64.toNat_inj]
    rfl
  have helapsed : elapsedUs last r = 0 ↔ r.now - last.now < 1000 := by
    unfold elapsedUs
    omega
  constructor
  · intro ⟨hne, hexact, hwrapped⟩
    have hforward : last.total ≤ r.total := by
      by_contra hback
      exact hwrapped (UInt64.not_le.mp hback) rfl
    have hpos : 0 < elapsedUs last r := Nat.pos_of_ne_zero fun h0 => hne (hzero.mpr h0)
    have hcut := hexact hforward
    rw [toNat_percent hforward, hduration] at hcut
    obtain ⟨hproduct, hquotient⟩ := (cut_quotient_iff hpos hd64).mp hcut
    exact ⟨by omega, hforward, hproduct, hquotient⟩
  · intro ⟨hlong, hforward, hproduct, hquotient⟩
    have hpos : 0 < elapsedUs last r := by omega
    refine ⟨fun h0 => Nat.ne_of_gt hpos (hzero.mp h0), fun _ => ?_,
      fun hback => absurd hforward (UInt64.not_le.mpr hback)⟩
    rw [toNat_percent hforward, hduration]
    exact (cut_quotient_iff hpos hd64).mpr ⟨hproduct, hquotient⟩

end Reading
namespace ProcEntry

/-! ### Calls -/

/-- What a call reads, if the stat line can be. -/
def reading (env : Env) (pid : Pid) : Option Reading :=
  (env.files pid).stat.map fun st => ⟨st.utime + st.stime, env.now⟩

/-- The reading that an entry remembers. -/
def remembered (e : ProcEntry) : Reading := ⟨e.info.cpuTime, e.lastUpdateTime⟩

/-- The divisor of a call, if it divides. -/
def divisor (env : Env) (e : ProcEntry) : Option UInt64 :=
  (reading env e.pid).bind fun r => if e.lastUpdateTime == 0 then none else some (e.remembered.durationUs r)

/-- `readProcStat` with its trap: `none` is a division by zero. -/
def trapProcStat (env : Env) (e : ProcEntry) : Option (ProcEntry × Bool) :=
  if e.divisor env = some 0 then none else some (e.readProcStat env)

/-- The entry with a reading remembered and a percentage stored. -/
def store (r : Reading) (p : UInt32) (e : ProcEntry) : ProcEntry :=
  {e with lastUpdateTime := r.now, info := {e.info with cpuTime := r.total, cpuPercent := p}}

variable {env : Env} {e : ProcEntry} {r : Reading}

theorem trapProcStat_unread (h : reading env e.pid = none) : e.trapProcStat env = some (e, false) := by
  have hstat : (env.files e.pid).stat = none := Option.map_eq_none_iff.mp h
  simp [trapProcStat, divisor, h, readProcStat, hstat]

theorem trapProcStat_first (h : reading env e.pid = some r) (hfirst : e.lastUpdateTime = 0) :
    e.trapProcStat env = some (e.store r 0, true) := by
  obtain ⟨st, hstat, rfl⟩ := Option.map_eq_some_iff.mp h
  simp [trapProcStat, divisor, h, hfirst, readProcStat, hstat, store]

theorem trapProcStat_next (h : reading env e.pid = some r) (hnext : e.lastUpdateTime ≠ 0)
    (hd : e.remembered.durationUs r ≠ 0) :
    e.trapProcStat env = some (e.store r (e.remembered.percent r), true) := by
  obtain ⟨st, hstat, rfl⟩ := Option.map_eq_some_iff.mp h
  have hdivisor : e.divisor env ≠ some 0 := by simpa [divisor, h, hnext] using hd
  rw [trapProcStat, if_neg hdivisor]
  simp [hnext, readProcStat, hstat, store, Reading.percent, Reading.durationUs, remembered]

theorem trapProcStat_zero (h : reading env e.pid = some r) (hnext : e.lastUpdateTime ≠ 0)
    (hd : e.remembered.durationUs r = 0) : e.trapProcStat env = none :=
  if_pos (by simp [divisor, h, hnext, hd])

/-! ### Runs -/

/-- The clock does not go back; it counts nanoseconds in 63 bits. -/
def Clock : Int → List Env → Prop
  | _, [] => True
  | t, env :: rest => t ≤ env.now ∧ env.now < 2 ^ 63 ∧ Clock env.now rest

/-- No call divides by zero, and each stores what it should after the last. -/
def AllExact : Option Reading → ProcEntry → List Env → Prop
  | _, _, [] => True
  | last, e, env :: rest =>
    ∃ e' status, e.trapProcStat env = some (e', status) ∧
      match reading env e.pid with
      | none => AllExact last e' rest
      | some r => r.Exact e'.info.cpuPercent last ∧ AllExact (some r) e' rest

/-- Every call after the first is fair, and the clock of the call before it was not at zero. -/
def AllFair (pid : Pid) : Option Reading → List Env → Prop
  | _, [] => True
  | last, env :: rest =>
    match reading env pid with
    | none => AllFair pid last rest
    | some r => (∀ l, last = some l → l.now ≠ 0 ∧ l.Fair r) ∧ AllFair pid (some r) rest

/-- The entry remembers the last reading. -/
def Remembers (e : ProcEntry) : Option Reading → Prop
  | none => e.lastUpdateTime = 0
  | some l => e.remembered = l

/-- The time of the last reading, or the start. -/
def lastNow : Option Reading → Int
  | none => 0
  | some l => l.now

theorem clock_mono {s t : Int} (h : s ≤ t) {envs : List Env} (hc : Clock t envs) : Clock s envs := by
  cases envs with
  | nil => trivial
  | cons env rest => exact ⟨Int.le_trans h hc.1, hc.2⟩

/-- A call after the first does not divide by zero and is exact exactly if it is fair. -/
theorem next_exact_iff {l : Reading} (hr : reading env e.pid = some r) (hrem : e.remembered = l) (h0 : 0 ≤ l.now)
    (hne : l.now ≠ 0) (hle : l.now ≤ r.now) (hlt : r.now < 2 ^ 63) :
    (∃ e' status, e.trapProcStat env = some (e', status) ∧ r.Exact e'.info.cpuPercent (some l)) ↔ l.Fair r := by
  subst hrem
  rw [← Reading.exact_iff hle (by omega)]
  constructor
  · intro ⟨e', status, htrap, hexact⟩
    by_cases hd : e.remembered.durationUs r = 0
    · cases (trapProcStat_zero hr hne hd).symm.trans htrap
    · obtain ⟨rfl, _⟩ := Prod.mk.inj (Option.some.inj ((trapProcStat_next hr hne hd).symm.trans htrap))
      exact ⟨hd, hexact⟩
  · intro ⟨hd, hexact⟩
    exact ⟨_, true, trapProcStat_next hr hne hd, hexact⟩

/-- What a call that does not trap leaves behind. -/
theorem trapProcStat_some {e' : ProcEntry} {status : Bool} (hr : reading env e.pid = some r)
    (h : e.trapProcStat env = some (e', status)) : e'.pid = e.pid ∧ e'.Remembers (some r) := by
  by_cases hfirst : e.lastUpdateTime = 0
  · obtain ⟨rfl, _⟩ := Prod.mk.inj (Option.some.inj ((trapProcStat_first hr hfirst).symm.trans h))
    exact ⟨rfl, rfl⟩
  · by_cases hd : e.remembered.durationUs r = 0
    · cases (trapProcStat_zero hr hfirst hd).symm.trans h
    · obtain ⟨rfl, _⟩ := Prod.mk.inj (Option.some.inj ((trapProcStat_next hr hfirst hd).symm.trans h))
      exact ⟨rfl, rfl⟩

theorem allExact_of_fair {last : Option Reading} {envs : List Env} (hrem : e.Remembers last) (h0 : 0 ≤ lastNow last)
    (hclock : Clock (lastNow last) envs) (hfair : AllFair e.pid last envs) : AllExact last e envs := by
  induction envs generalizing last e with
  | nil => trivial
  | cons env rest ih =>
    obtain ⟨hle, hlt, hclock⟩ := hclock
    rw [AllFair] at hfair
    rw [AllExact]
    cases hr : reading env e.pid with
    | none =>
      rw [hr] at hfair
      exact ⟨e, false, trapProcStat_unread hr, ih hrem h0 (clock_mono hle hclock) hfair⟩
    | some r =>
      have hnow : r.now = env.now := by
        obtain ⟨st, _, rfl⟩ := Option.map_eq_some_iff.mp hr
        rfl
      rw [hr] at hfair
      obtain ⟨hcall, hfair⟩ := hfair
      obtain ⟨e', status, htrap, hexact⟩ :
          ∃ e' status, e.trapProcStat env = some (e', status) ∧ r.Exact e'.info.cpuPercent last := by
        cases last with
        | none => exact ⟨_, true, trapProcStat_first hr hrem, rfl⟩
        | some l =>
          obtain ⟨hne, hl⟩ := hcall l rfl
          exact (next_exact_iff hr hrem h0 hne (hnow ▸ hle) (hnow ▸ hlt)).mpr hl
      obtain ⟨hpid, hrem'⟩ := trapProcStat_some hr htrap
      have hclock : Clock (lastNow (some r)) rest := by
        rw [lastNow, hnow]
        exact hclock
      refine ⟨e', status, htrap, hexact, ih hrem' ?_ hclock (hpid ▸ hfair)⟩
      show 0 ≤ r.now
      omega

theorem fair_of_allExact {last : Option Reading} {envs : List Env} (hrem : e.Remembers last)
    (hlast : ∀ l, last = some l → 0 < l.now) (hclock : Clock (lastNow last) envs) (hnow : ∀ env ∈ envs, env.now ≠ 0)
    (hexact : AllExact last e envs) : AllFair e.pid last envs := by
  induction envs generalizing last e with
  | nil => trivial
  | cons env rest ih =>
    obtain ⟨hle, hlt, hclock⟩ := hclock
    have hrest : ∀ env ∈ rest, env.now ≠ 0 := fun env' hmem => hnow env' (List.mem_cons_of_mem _ hmem)
    obtain ⟨e', status, htrap, hexact⟩ := hexact
    rw [AllFair]
    cases hr : reading env e.pid with
    | none =>
      rw [hr] at hexact
      obtain ⟨rfl, _⟩ := Prod.mk.inj (Option.some.inj ((trapProcStat_unread hr).symm.trans htrap))
      exact ih hrem hlast (clock_mono hle hclock) hrest hexact
    | some r =>
      have hrnow : r.now = env.now := by
        obtain ⟨st, _, rfl⟩ := Option.map_eq_some_iff.mp hr
        rfl
      rw [hr] at hexact
      obtain ⟨hpid, hrem'⟩ := trapProcStat_some hr htrap
      have h0 : 0 ≤ lastNow last := by
        cases last with
        | none => exact Int.le_refl 0
        | some l => exact Int.le_of_lt (hlast l rfl)
      have henv := hnow env (List.mem_cons_self ..)
      have hclock : Clock (lastNow (some r)) rest := by
        rw [lastNow, hrnow]
        exact hclock
      refine ⟨fun l hl => ?_, hpid ▸ ih hrem' ?_ hclock hrest hexact.2⟩
      · subst hl
        have hpos := hlast l rfl
        refine ⟨by omega, (next_exact_iff hr hrem h0 (by omega) (hrnow ▸ hle) (hrnow ▸ hlt)).mp ?_⟩
        exact ⟨e', status, htrap, hexact.1⟩
      · intro l hl
        obtain rfl := Option.some.inj hl
        omega

theorem make_remembers {cfg : Config} {start : Env} {pid : Pid} {name : Name} (h : make cfg start pid name = some e) :
    e.Remembers none ∧ e.pid = pid := by
  obtain ⟨info, _, rfl⟩ := Option.map_eq_some_iff.mp h
  exact ⟨rfl, rfl⟩

/-- **CPU percentages are exact in a run whose calls are fair**, and in no other where the clock is
never at zero. -/
theorem percents_exact {cfg : Config} {start : Env} {pid : Pid} {name : Name} {envs : List Env}
    (hmake : make cfg start pid name = some e) (hclock : Clock 0 envs) :
    (AllFair pid none envs → AllExact none e envs) ∧
      ((∀ env ∈ envs, env.now ≠ 0) → AllExact none e envs → AllFair pid none envs) := by
  obtain ⟨hrem, rfl⟩ := make_remembers hmake
  refine ⟨fun hfair => allExact_of_fair hrem (Int.le_refl 0) hclock hfair, fun hnow hexact => ?_⟩
  exact fair_of_allExact hrem (fun l hl => by cases hl) hclock hnow hexact

/-- A process with so many ticks at a time. -/
def ticksAt (now : Int) (ticks : UInt64) : Env where
  pids := [5]
  files := fun _ => ⟨some ['p'], some ⟨5, 1, ticks, 0⟩, none, none⟩
  taskstats := fun _ => true
  contextId := fun _ => 0
  containers := []
  now := now
  procAcctCollectorCounter := 0

/-- The entry of the process when it is found. -/
def found : ProcEntry :=
  {pid := 5, info := {pid := 5, ppid := 1, ctxName := genericName, comm := ['p'], cpuTime := 7}}

/-- Three ticks in a second. -/
theorem percents_exact_second :
    AllExact none found [ticksAt 1000000000 7, ticksAt 2000000000 10] := by
  have hmake : make (plainConfig false) (ticksAt 0 7) 5 ['p'] = some found := rfl
  have hclock : Clock 0 [ticksAt 1000000000 7, ticksAt 2000000000 10] :=
    ⟨by decide, by decide, by decide, by decide, trivial⟩
  refine (percents_exact hmake hclock).1 ⟨fun l hl => (by cases hl), fun l hl => ?_, trivial⟩
  obtain rfl := Option.some.inj hl
  exact ⟨by decide, by decide, by decide, by decide, by decide⟩

/-- **Two runs that are not exact**: a second call within a microsecond divides by zero, and a pid
that is used again has fewer ticks than before. -/
theorem percents_garbage :
    make (plainConfig false) (ticksAt 0 7) 5 ['p'] = some found ∧
      ¬AllExact none found [ticksAt 1000000000 7, ticksAt 1000000999 7] ∧
      ¬AllExact none found [ticksAt 1000000000 7, ticksAt 2000000000 3] := by
  have hrem : found.Remembers none := rfl
  refine ⟨rfl, fun h => ?_, fun h => ?_⟩
  · have hclock : Clock 0 [ticksAt 1000000000 7, ticksAt 1000000999 7] :=
      ⟨by decide, by decide, by decide, by decide, trivial⟩
    have hfair := fair_of_allExact hrem (fun l hl => by cases hl) hclock (by decide) h
    exact absurd (hfair.2.1 _ rfl).2.elapsed (by decide)
  · have hclock : Clock 0 [ticksAt 1000000000 7, ticksAt 2000000000 3] :=
      ⟨by decide, by decide, by decide, by decide, trivial⟩
    have hfair := fair_of_allExact hrem (fun l hl => by cases hl) hclock (by decide) h
    exact absurd (hfair.2.1 _ rfl).2.forward (by decide)

end ProcEntry
end TaskMonitor

import TaskMonitor.Lib.Transition
import Mathlib.Data.UInt

/-! CPU percentages (`SysProcStat.cpp`).

Counters are 64-bit, percentages 32-bit. The guard of `updateStats` sums three
truncated quotients in 32 bits; where counters run backwards the sum can wrap
past the bound, and then it publishes what is no percentage. Nothing else can go
wrong: the published values are percentages exactly as long as no sum wraps. -/
namespace TaskMonitor
open Transition

structure CPUStatData where
  userTime : UInt64 := 0
  niceTime : UInt64 := 0
  systemTime : UInt64 := 0
  idleTime : UInt64 := 0
  ioWaitTime : UInt64 := 0
  irqTime : UInt64 := 0
  softIRQTime : UInt64 := 0
  stealTime : UInt64 := 0
  guestTime : UInt64 := 0
  guestNiceTime : UInt64 := 0
deriving Repr, DecidableEq

inductive DataField where
  | userTime | niceTime | systemTime | idleTime | ioWaitTime
  | irqTime | softIRQTime | stealTime | guestTime | guestNiceTime
deriving Repr, DecidableEq

namespace CPUStatData

def getTotalTime (d : CPUStatData) : UInt64 :=
  d.userTime + d.niceTime + d.systemTime + d.idleTime + d.ioWaitTime + d.irqTime + d.softIRQTime +
    d.stealTime + d.guestTime + d.guestNiceTime

def getDiff (d prev : CPUStatData) : CPUStatData where
  userTime := d.userTime - prev.userTime
  niceTime := d.niceTime - prev.niceTime
  systemTime := d.systemTime - prev.systemTime
  idleTime := d.idleTime - prev.idleTime
  ioWaitTime := d.ioWaitTime - prev.ioWaitTime
  irqTime := d.irqTime - prev.irqTime
  softIRQTime := d.softIRQTime - prev.softIRQTime
  stealTime := d.stealTime - prev.stealTime
  guestTime := d.guestTime - prev.guestTime
  guestNiceTime := d.guestNiceTime - prev.guestNiceTime

def field (d : CPUStatData) : DataField → UInt64
  | .userTime => d.userTime
  | .niceTime => d.niceTime
  | .systemTime => d.systemTime
  | .idleTime => d.idleTime
  | .ioWaitTime => d.ioWaitTime
  | .irqTime => d.irqTime
  | .softIRQTime => d.softIRQTime
  | .stealTime => d.stealTime
  | .guestTime => d.guestTime
  | .guestNiceTime => d.guestNiceTime

/-- `none` is a division by zero, which traps. -/
def getPercent (d : CPUStatData) (type : DataField) : Option UInt64 :=
  if d.getTotalTime = 0 then none else some (d.field type * 100 / d.getTotalTime)

/-- The counters, and the tokens they are read from. -/
def values : List (Nat × (CPUStatData → UInt64)) :=
  [(1, (·.userTime)), (2, (·.niceTime)), (3, (·.systemTime)), (4, (·.idleTime)), (5, (·.ioWaitTime)), (6, (·.irqTime)),
    (7, (·.softIRQTime)), (8, (·.stealTime)), (9, (·.guestTime)), (10, (·.guestNiceTime))]

end CPUStatData

structure CPUStat where
  name : List Char
  /-- The published values. -/
  usr : UInt32 := 0
  sys : UInt32 := 0
  iow : UInt32 := 0
  all : UInt32 := 0
  last : CPUStatData := {}
deriving Repr, DecidableEq

namespace CPUStat

/-- The first data, and the first after invalid data, are only remembered. -/
def updateStats (s : CPUStat) (data : CPUStatData) : Option CPUStat :=
  if s.last.getTotalTime = 0 then some {s with last := data}
  else do
    let diffData := data.getDiff s.last
    let usr := (← diffData.getPercent .userTime).toUInt32
    let sys := (← diffData.getPercent .systemTime).toUInt32
    let iow := (← diffData.getPercent .ioWaitTime).toUInt32
    if usr + sys + iow ≤ 100 then
      some {s with last := data, usr := usr, sys := sys, iow := iow, all := usr + sys + iow}
    else some {s with last := {}}

/-- What is published are percentages, and `all` is their sum. -/
structure Valid (s : CPUStat) : Prop where
  usr : s.usr.toNat ≤ 100
  sys : s.sys.toNat ≤ 100
  iow : s.iow.toNat ≤ 100
  all : s.all.toNat ≤ 100
  sum : s.all.toNat = s.usr.toNat + s.sys.toNat + s.iow.toNat

end CPUStat

namespace CPUStatData

/-- The part of a field in the total, as a 32-bit percentage: products wrap at 64 bits and the
quotient is truncated to 32. -/
def part (d : CPUStatData) (type : DataField) : Nat :=
  (d.field type).toNat * 100 % 2 ^ 64 / d.getTotalTime.toNat % 2 ^ 32

/-- The sum of the three parts does not fit in 32 bits, and wraps to at most 100. -/
def Wraps (last data : CPUStatData) : Prop :=
  let d := data.getDiff last
  let sum := d.part .userTime + d.part .systemTime + d.part .ioWaitTime
  last.getTotalTime ≠ 0 ∧ 2 ^ 32 ≤ sum ∧ sum % 2 ^ 32 ≤ 100

/-- The percentage a field has where the total is not zero. -/
def percent (d : CPUStatData) (type : DataField) : UInt32 := (d.field type * 100 / d.getTotalTime).toUInt32

theorem toNat_percent (d : CPUStatData) (type : DataField) : (d.percent type).toNat = d.part type := by
  simp [percent, part, UInt64.toNat_div, UInt64.toNat_mul]

theorem getPercent_some {d : CPUStatData} (h : d.getTotalTime ≠ 0) (type : DataField) :
    d.getPercent type = some (d.field type * 100 / d.getTotalTime) := if_neg h

theorem getPercent_none {d : CPUStatData} (h : d.getTotalTime = 0) (type : DataField) :
    d.getPercent type = none := if_pos h

/-- Three percentages of parts of a whole do not exceed a hundred, each rounded down. -/
theorem floors_le {a b c n : Nat} (h : a + b + c ≤ n) : a * 100 / n + b * 100 / n + c * 100 / n ≤ 100 := by
  refine (Nat.add_le_add_right Nat.div_add_div_le_add_div _).trans
    (Nat.div_add_div_le_add_div.trans (Nat.div_le_of_le_mul ?_))
  omega

/-- Division by zero leaves nothing to wrap. -/
theorem total_of_wraps {last data : CPUStatData} (h : Wraps last data) :
    (data.getDiff last).getTotalTime ≠ 0 := by
  intro hz
  obtain ⟨_, hsum, _⟩ := h
  simp [part, hz] at hsum

end CPUStatData

namespace CPUStat
open CPUStatData

variable {s t : CPUStat} {data : CPUStatData}

theorem toNat_sum (u y w : UInt32) : (u + y + w).toNat = (u.toNat + y.toNat + w.toNat) % 2 ^ 32 := by
  simp only [UInt32.toNat_add]
  omega

/-- The guard is on the sum modulo 2^32. -/
theorem guard_iff (u y w : UInt32) : u + y + w ≤ 100 ↔ (u.toNat + y.toNat + w.toNat) % 2 ^ 32 ≤ 100 := by
  rw [UInt32.le_iff_toNat_le, toNat_sum]
  rfl

/-- What an update after valid data does, where it does not trap. -/
theorem updateStats_diff (hl : s.last.getTotalTime ≠ 0) (hd : (data.getDiff s.last).getTotalTime ≠ 0) :
    s.updateStats data =
      let usr := (data.getDiff s.last).percent .userTime
      let sys := (data.getDiff s.last).percent .systemTime
      let iow := (data.getDiff s.last).percent .ioWaitTime
      if usr + sys + iow ≤ 100 then
        some {s with last := data, usr := usr, sys := sys, iow := iow, all := usr + sys + iow}
      else some {s with last := {}} := by
  simp only [updateStats, if_neg hl, getPercent_some hd, Option.bind_eq_bind, Option.bind_some]
  rfl

theorem updateStats_first (hl : s.last.getTotalTime = 0) : s.updateStats data = some {s with last := data} :=
  if_pos hl

theorem updateStats_trap (hl : s.last.getTotalTime ≠ 0) (hd : (data.getDiff s.last).getTotalTime = 0) :
    s.updateStats data = none := by
  simp only [updateStats, if_neg hl, getPercent_none hd]
  rfl

theorem valid_initial (name : List Char) : Valid {name := name} :=
  ⟨Nat.zero_le _, Nat.zero_le _, Nat.zero_le _, Nat.zero_le _, rfl⟩

/-- What is remembered is not published. -/
theorem Valid.remember (h : s.Valid) (last : CPUStatData) : Valid {s with last := last} :=
  ⟨h.usr, h.sys, h.iow, h.all, h.sum⟩

/-- An update publishes percentages if and only if its sum does not wrap. -/
theorem valid_updateStats_iff (data : CPUStatData) (h : s.Valid) :
    (∀ t, s.updateStats data = some t → t.Valid) ↔ ¬Wraps s.last data := by
  by_cases hl : s.last.getTotalTime = 0
  · refine iff_of_true (fun t ht => ?_) fun hw => hw.1 hl
    rw [updateStats_first hl] at ht
    obtain rfl := Option.some.inj ht
    exact h.remember data
  by_cases hd : (data.getDiff s.last).getTotalTime = 0
  · refine iff_of_true (fun t ht => ?_) fun hw => total_of_wraps hw hd
    rw [updateStats_trap hl hd] at ht
    cases ht
  have hu := toNat_percent (data.getDiff s.last) .userTime
  have hy := toNat_percent (data.getDiff s.last) .systemTime
  have hw := toNat_percent (data.getDiff s.last) .ioWaitTime
  have hsum := toNat_sum ((data.getDiff s.last).percent .userTime) ((data.getDiff s.last).percent .systemTime)
    ((data.getDiff s.last).percent .ioWaitTime)
  by_cases hg : (data.getDiff s.last).percent .userTime + (data.getDiff s.last).percent .systemTime +
      (data.getDiff s.last).percent .ioWaitTime ≤ 100
  · have heq := updateStats_diff hl hd
    simp only [if_pos hg] at heq
    have hmod := (guard_iff _ _ _).mp hg
    constructor
    · intro hv hwraps
      have := (hv _ heq).sum
      obtain ⟨_, hge, _⟩ := hwraps
      simp only at this
      omega
    · intro hnot t ht
      obtain rfl := Option.some.inj (heq.symm.trans ht)
      have hlt : (data.getDiff s.last).part .userTime + (data.getDiff s.last).part .systemTime +
          (data.getDiff s.last).part .ioWaitTime < 2 ^ 32 := by
        by_contra hge
        exact hnot ⟨hl, Nat.le_of_not_lt hge, by rw [hu, hy, hw] at hmod; exact hmod⟩
      constructor <;> simp only <;> omega
  · have heq := updateStats_diff hl hd
    simp only [if_neg hg] at heq
    refine iff_of_true (fun t ht => ?_) fun hwraps => hg ((guard_iff _ _ _).mpr ?_)
    · obtain rfl := Option.some.inj (heq.symm.trans ht)
      exact h.remember _
    · rw [hu, hy, hw]
      exact hwraps.2.2

/-- **Published values are percentages** after every update of a run, exactly if no update's sum
of three parts wraps. -/
theorem published_iff_no_wrap (name : List Char) (samples : List CPUStatData) :
    Meets updateStats (fun s data => ∀ t, s.updateStats data = some t → t.Valid) {name := name} samples ↔
      Meets updateStats (fun s data => ¬Wraps s.last data) {name := name} samples := by
  have main : ∀ (samples : List CPUStatData) (s : CPUStat), s.Valid →
      (Meets updateStats (fun s data => ∀ t, s.updateStats data = some t → t.Valid) s samples ↔
        Meets updateStats (fun s data => ¬Wraps s.last data) s samples) := by
    intro samples
    induction samples with
    | nil => exact fun _ _ => Iff.rfl
    | cons data rest ih =>
      intro s hs
      have hhead := valid_updateStats_iff data hs
      constructor
      · rintro ⟨hv, hrest⟩
        exact ⟨hhead.mp hv, fun t ht => (ih t (hv t ht)).mp (hrest t ht)⟩
      · rintro ⟨hw, hrest⟩
        exact ⟨hhead.mpr hw, fun t ht => (ih t (hhead.mpr hw t ht)).mpr (hrest t ht)⟩
  exact main samples _ (valid_initial name)

/-- Differences whose hundredfold sum fits in 64 bits do not wrap: counters that run forwards. -/
theorem not_wraps_of_forward {last data : CPUStatData}
    (h : ((data.getDiff last).userTime.toNat + (data.getDiff last).niceTime.toNat +
      (data.getDiff last).systemTime.toNat + (data.getDiff last).idleTime.toNat +
      (data.getDiff last).ioWaitTime.toNat + (data.getDiff last).irqTime.toNat +
      (data.getDiff last).softIRQTime.toNat + (data.getDiff last).stealTime.toNat +
      (data.getDiff last).guestTime.toNat + (data.getDiff last).guestNiceTime.toNat) * 100 < 2 ^ 64) :
    ¬Wraps last data := by
  generalize hd : data.getDiff last = d at h
  have htotal : d.userTime.toNat + d.systemTime.toNat + d.ioWaitTime.toNat ≤ d.getTotalTime.toNat := by
    simp only [getTotalTime, UInt64.toNat_add]
    omega
  have hpart (type : DataField) (hf : (d.field type).toNat * 100 < 2 ^ 64) :
      d.part type ≤ (d.field type).toNat * 100 / d.getTotalTime.toNat := by
    rw [part, Nat.mod_eq_of_lt hf]
    exact Nat.mod_le _ _
  have hu := hpart .userTime (by simp only [field]; omega)
  have hy := hpart .systemTime (by simp only [field]; omega)
  have hw := hpart .ioWaitTime (by simp only [field]; omega)
  simp only [field] at hu hy hw
  have hquot := floors_le htotal
  rintro ⟨_, hge, _⟩
  rw [hd] at hge
  omega

/-! ### Counters that run backwards -/

/-- Two parts of 2^31 in a total difference of one tick, which wraps too. -/
def backwards : List CPUStatData :=
  [{idleTime := 1},
    {userTime := 4058283696237576192, systemTime := 4058283696237576192, idleTime := 10330176681234399234}]

/-- **The guard can be passed by a sum that wraps**: 2^31 percent are published twice. -/
theorem wrapped_sum_published :
    ∃ s, run updateStats {name := ['c', 'p', 'u']} backwards = some s ∧ ¬s.Valid := by
  refine ⟨_, rfl, fun h => ?_⟩
  exact absurd h.usr (by decide)

end CPUStat
end TaskMonitor

import TaskMonitor.Stat.CPUStat

/-! Intervals between CPU samples (`SysProcStat.cpp`).

A percentage is a share of an *interval*: of the difference between two samples.
`updateStats` asks whether the stored sample is empty, not whether the interval
is; an interval whose total vanishes divides by zero (`no_trap_iff`). On an
interval of counters that run forwards the percentages are exact, and two of
them after any state at all bring the published values back (`recovers`). -/
namespace TaskMonitor
open Transition

namespace CPUStatData

/-- The total of the counters, as a number that does not wrap. -/
def total (d : CPUStatData) : Nat :=
  d.userTime.toNat + d.niceTime.toNat + d.systemTime.toNat + d.idleTime.toNat + d.ioWaitTime.toNat +
    d.irqTime.toNat + d.softIRQTime.toNat + d.stealTime.toNat + d.guestTime.toNat + d.guestNiceTime.toNat

/-- Counters that run forwards, by a total whose hundredfold fits in 64 bits. -/
structure Interval (prev d : CPUStatData) : Prop where
  forward : ∀ type, (prev.field type).toNat ≤ (d.field type).toNat
  grows : prev.total < d.total
  fits : d.total < 2 ^ 64
  short : 100 * (d.total - prev.total) < 2 ^ 64

/-- The share of a field in an interval, in whole percents. -/
def share (prev d : CPUStatData) (type : DataField) : Nat :=
  100 * ((d.field type).toNat - (prev.field type).toNat) / (d.total - prev.total)

variable {prev d : CPUStatData}

theorem toNat_getTotalTime (d : CPUStatData) : d.getTotalTime.toNat = d.total % 2 ^ 64 := by
  simp only [getTotalTime, total, UInt64.toNat_add]
  omega

/-- The total of a difference is the difference of the totals, as both wrap. -/
theorem getTotalTime_getDiff (d prev : CPUStatData) :
    (d.getDiff prev).getTotalTime = d.getTotalTime - prev.getTotalTime := by
  simp only [getTotalTime, getDiff]
  grind

theorem field_getDiff (d prev : CPUStatData) (type : DataField) :
    (d.getDiff prev).field type = d.field type - prev.field type := by
  cases type <;> rfl

/-- The difference divided by is empty exactly if the totals agree. -/
theorem getDiff_empty_iff (d prev : CPUStatData) :
    (d.getDiff prev).getTotalTime = 0 ↔ d.getTotalTime = prev.getTotalTime := by
  rw [getTotalTime_getDiff, sub_eq_zero]

theorem toNat_field_getDiff (h : Interval prev d) (type : DataField) :
    ((d.getDiff prev).field type).toNat = (d.field type).toNat - (prev.field type).toNat := by
  rw [field_getDiff]
  exact UInt64.toNat_sub_of_le _ _ (UInt64.le_iff_toNat_le.mpr (h.forward type))

theorem toNat_getTotalTime_getDiff (h : Interval prev d) :
    (d.getDiff prev).getTotalTime.toNat = d.total - prev.total := by
  have hgrows := h.grows
  have hfits := h.fits
  have hd : d.getTotalTime.toNat = d.total := (toNat_getTotalTime d).trans (Nat.mod_eq_of_lt hfits)
  have hp : prev.getTotalTime.toNat = prev.total :=
    (toNat_getTotalTime prev).trans (Nat.mod_eq_of_lt (hgrows.trans hfits))
  rw [getTotalTime_getDiff, UInt64.toNat_sub_of_le _ _ (UInt64.le_iff_toNat_le.mpr (by omega)), hd, hp]

/-- An interval is the sum of the advances of its counters. -/
theorem sum_advances (h : Interval prev d) :
    d.total - prev.total = (d.userTime.toNat - prev.userTime.toNat) + (d.niceTime.toNat - prev.niceTime.toNat) +
      (d.systemTime.toNat - prev.systemTime.toNat) + (d.idleTime.toNat - prev.idleTime.toNat) +
      (d.ioWaitTime.toNat - prev.ioWaitTime.toNat) + (d.irqTime.toNat - prev.irqTime.toNat) +
      (d.softIRQTime.toNat - prev.softIRQTime.toNat) + (d.stealTime.toNat - prev.stealTime.toNat) +
      (d.guestTime.toNat - prev.guestTime.toNat) + (d.guestNiceTime.toNat - prev.guestNiceTime.toNat) := by
  have hf := h.forward
  have h₁ := hf .userTime
  have h₂ := hf .niceTime
  have h₃ := hf .systemTime
  have h₄ := hf .idleTime
  have h₅ := hf .ioWaitTime
  have h₆ := hf .irqTime
  have h₇ := hf .softIRQTime
  have h₈ := hf .stealTime
  have h₉ := hf .guestTime
  have h₁₀ := hf .guestNiceTime
  simp only [field] at h₁ h₂ h₃ h₄ h₅ h₆ h₇ h₈ h₉ h₁₀
  simp only [total]
  omega

theorem advance_le (h : Interval prev d) (type : DataField) :
    (d.field type).toNat - (prev.field type).toNat ≤ d.total - prev.total := by
  have hsum := sum_advances h
  cases type <;> simp only [field] <;> omega

theorem share_le (h : Interval prev d) (type : DataField) : share prev d type ≤ 100 :=
  Nat.div_le_of_le_mul ((Nat.mul_le_mul_left 100 (advance_le h type)).trans (Nat.mul_comm ..).le)

theorem shares_le (h : Interval prev d) :
    share prev d .userTime + share prev d .systemTime + share prev d .ioWaitTime ≤ 100 := by
  have hsum := sum_advances h
  simp only [share, Nat.mul_comm 100]
  refine floors_le ?_
  simp only [field]
  omega

/-- On an interval no product wraps and no quotient is truncated. -/
theorem part_getDiff (h : Interval prev d) (type : DataField) : (d.getDiff prev).part type = share prev d type := by
  have hle := advance_le h type
  have hshort := h.short
  have hbound := share_le h type
  have hprod : ((d.field type).toNat - (prev.field type).toNat) * 100 < 2 ^ 64 := by omega
  rw [part, toNat_field_getDiff h, toNat_getTotalTime_getDiff h, Nat.mod_eq_of_lt hprod, Nat.mul_comm]
  exact Nat.mod_eq_of_lt (hbound.trans_lt (by decide))

end CPUStatData

namespace CPUStat
open CPUStatData

variable {s t : CPUStat} {data : CPUStatData}

/-! ### Division by zero -/

/-- Where percentages of a difference are asked for, it has a total to divide by. -/
def Divisible (s : CPUStat) (data : CPUStatData) : Prop :=
  s.last.getTotalTime ≠ 0 → (data.getDiff s.last).getTotalTime ≠ 0

instance (s : CPUStat) (data : CPUStatData) : Decidable (Divisible s data) :=
  inferInstanceAs (Decidable (_ → _))

/-- The sample has another total than the stored one, or none is stored. -/
def Distinct (s : CPUStat) (data : CPUStatData) : Prop :=
  s.last.getTotalTime = 0 ∨ data.getTotalTime ≠ s.last.getTotalTime

theorem divisible_iff (s : CPUStat) (data : CPUStatData) : Divisible s data ↔ Distinct s data := by
  rw [Divisible, Distinct, Ne, Ne, getDiff_empty_iff]
  exact Decidable.imp_iff_not_or.trans (or_congr_left Decidable.not_not)

/-- An update traps on an empty difference and on nothing else. -/
theorem updateStats_isSome_iff (s : CPUStat) (data : CPUStatData) :
    (s.updateStats data).isSome ↔ Divisible s data := by
  by_cases hl : s.last.getTotalTime = 0
  · rw [updateStats_first hl]
    exact iff_of_true rfl fun h => absurd hl h
  by_cases hd : (data.getDiff s.last).getTotalTime = 0
  · rw [updateStats_trap hl hd]
    exact iff_of_false (by simp) fun h => h hl hd
  · rw [updateStats_diff hl hd]
    refine iff_of_true ?_ fun _ => hd
    dsimp only
    split <;> rfl

/-- **No percentage is divided by zero**, and no update of the run traps, exactly if each sample of
the run has another total than the sample then stored. -/
theorem no_trap_iff (s : CPUStat) (samples : List CPUStatData) :
    (Meets updateStats Divisible s samples ↔ Meets updateStats Distinct s samples) ∧
      ((run updateStats s samples).isSome ↔ Meets updateStats Distinct s samples) := by
  have hmeets : Meets updateStats Divisible s samples ↔ Meets updateStats Distinct s samples :=
    Meets.congr divisible_iff s samples
  refine ⟨hmeets, ?_⟩
  rw [run_isSome_iff, ← hmeets]
  exact Meets.congr updateStats_isSome_iff s samples

/-- Two equal samples, and two whose differences cancel, divide by zero. -/
theorem equal_samples_trap :
    ¬Meets updateStats Divisible {name := ['c', 'p', 'u']} [{idleTime := 1}, {idleTime := 1}] ∧
      run updateStats {name := ['c', 'p', 'u']} [{idleTime := 1}, {idleTime := 1}] = none ∧
      ¬Meets updateStats Divisible {name := ['c', 'p', 'u']} [{idleTime := 2}, {userTime := 1, idleTime := 1}] ∧
      run updateStats {name := ['c', 'p', 'u']} [{idleTime := 2}, {userTime := 1, idleTime := 1}] = none := by
  decide

/-! ### Recovery -/

/-- The shares of an interval are what is published. -/
structure Shows (prev d : CPUStatData) (s : CPUStat) : Prop where
  usr : s.usr.toNat = share prev d .userTime
  sys : s.sys.toNat = share prev d .systemTime
  iow : s.iow.toNat = share prev d .ioWaitTime
  all : s.all.toNat = s.usr.toNat + s.sys.toNat + s.iow.toNat
  bound : s.all.toNat ≤ 100

/-- A sample is stored by its update, or nothing is. -/
theorem last_updateStats (h : s.updateStats data = some t) : t.last = data ∨ t.last = {} := by
  by_cases hl : s.last.getTotalTime = 0
  · rw [updateStats_first hl] at h
    obtain rfl := Option.some.inj h
    exact .inl rfl
  by_cases hd : (data.getDiff s.last).getTotalTime = 0
  · rw [updateStats_trap hl hd] at h
    cases h
  rw [updateStats_diff hl hd] at h
  dsimp only at h
  split at h
  · obtain rfl := Option.some.inj h
    exact .inl rfl
  · obtain rfl := Option.some.inj h
    exact .inr rfl

/-- **An interval is accepted** wherever its first sample is stored, and published exactly. -/
theorem updateStats_interval {prev : CPUStatData} (h : Interval prev data) (hs : s.last = prev)
    (hne : prev.total ≠ 0) : ∃ t, s.updateStats data = some t ∧ t.last = data ∧ Shows prev data t := by
  have hgrows := h.grows
  have hprev : s.last.getTotalTime ≠ 0 := by
    intro hz
    have hmod := toNat_getTotalTime prev
    rw [← hs, hz, hs, Nat.mod_eq_of_lt (hgrows.trans h.fits)] at hmod
    exact hne hmod.symm
  have hdiff : (data.getDiff s.last).getTotalTime ≠ 0 := by
    intro hz
    have htotal := toNat_getTotalTime_getDiff h
    rw [← hs, hz, hs] at htotal
    exact absurd htotal (by simp only [UInt64.toNat_zero]; omega)
  have hpart (type : DataField) : ((data.getDiff s.last).percent type).toNat = share prev data type := by
    rw [toNat_percent, hs, part_getDiff h]
  have hsum := shares_le h
  have hguard : (data.getDiff s.last).percent .userTime + (data.getDiff s.last).percent .systemTime +
      (data.getDiff s.last).percent .ioWaitTime ≤ 100 := by
    rw [guard_iff, hpart, hpart, hpart]
    omega
  have heq := updateStats_diff hprev hdiff
  simp only [if_pos hguard] at heq
  have hall := toNat_sum ((data.getDiff s.last).percent .userTime) ((data.getDiff s.last).percent .systemTime)
    ((data.getDiff s.last).percent .ioWaitTime)
  simp only [hpart] at hall
  refine ⟨_, heq, rfl, hpart .userTime, hpart .systemTime, hpart .ioWaitTime, ?_, ?_⟩
  · simp only [hall, hpart]
    omega
  · simp only [hall]
    omega

/-- **The published values recover from any state.** Three samples of two intervals, whose first can be compared
with whatever is stored, publish the second interval; and an interval that starts at the stored sample is published. -/
theorem recovers (s : CPUStat) {s₁ s₂ s₃ : CPUStatData} (hne : s₁.total ≠ 0) (h₁ : Interval s₁ s₂)
    (h₂ : Interval s₂ s₃) (hd : (s₁.getDiff s.last).getTotalTime ≠ 0) :
    (∃ t, run updateStats s [s₁, s₂, s₃] = some t ∧ Shows s₂ s₃ t) ∧
      ∀ u : CPUStat, u.last = s₁ → ∃ t, u.updateStats s₂ = some t ∧ t.last = s₂ ∧ Shows s₁ s₂ t := by
  refine ⟨?_, fun u hu => updateStats_interval h₁ hu hne⟩
  have hne₂ : s₂.total ≠ 0 := by
    have := h₁.grows
    omega
  -- whatever the first sample meets, the second is stored
  obtain ⟨a, ha⟩ := Option.isSome_iff_exists.mp ((updateStats_isSome_iff s s₁).mpr fun _ => hd)
  have hstored : ∃ b, a.updateStats s₂ = some b ∧ b.last = s₂ := by
    rcases last_updateStats ha with hlast | hlast
    · obtain ⟨b, hb, hblast, _⟩ := updateStats_interval h₁ hlast hne
      exact ⟨b, hb, hblast⟩
    · exact ⟨_, updateStats_first (by rw [hlast]; rfl), rfl⟩
  obtain ⟨b, hb, hblast⟩ := hstored
  obtain ⟨t, ht, _, hshows⟩ := updateStats_interval h₂ hblast hne₂
  exact ⟨t, by simp [run, ha, hb, ht], hshows⟩

/-- After an idle time that ran backwards: the first sample is rejected, the second stored, the third published. -/
theorem recovers_after_resume :
    (∃ t, run updateStats {name := ['c', 'p', 'u'], last := {idleTime := 150}}
        [{userTime := 100, idleTime := 100}, {userTime := 130, idleTime := 170}, {userTime := 150, idleTime := 250}] =
          some t ∧
        Shows {userTime := 130, idleTime := 170} {userTime := 150, idleTime := 250} t) ∧
      ∀ u : CPUStat, u.last = {userTime := 100, idleTime := 100} →
        ∃ t, u.updateStats {userTime := 130, idleTime := 170} = some t ∧
          t.last = {userTime := 130, idleTime := 170} ∧
          Shows {userTime := 100, idleTime := 100} {userTime := 130, idleTime := 170} t :=
  recovers {name := ['c', 'p', 'u'], last := {idleTime := 150}} (by decide)
    ⟨fun type => by cases type <;> decide, by decide, by decide, by decide⟩
    ⟨fun type => by cases type <;> decide, by decide, by decide, by decide⟩ (by decide)

end CPUStat
end TaskMonitor

import TaskMonitor.Lib.Transition
import TaskMonitor.Stat.OwnLines

/-! Memory information after two histories (`SysProcMemInfo.cpp`).

A file with every key once sets every counter, whatever was there before. The
percentages are computed only over totals that are not zero; over a total of zero
the percentage of an earlier file stays. So two histories agree after the same
file exactly if each total in it is positive, or the histories had left the same
percentage (`published_iff`). -/
namespace TaskMonitor
open Lines Text Register Transition

namespace SysProcMemInfo

/-- Each key is on one line, with a number below the hundredth part of 2^64. -/
def Complete (lines : List (List Char)) : Prop :=
  ∀ row ∈ table, ∃ n : UInt64, (lines.filter fun line => row.1.isPrefixOf line).map lineNumber = [some n] ∧
    n.toNat * 100 < 2 ^ 64

/-- The number on the line of a key. -/
def fileNumber (key : List Char) (lines : List (List Char)) : Nat :=
  (((lines.find? fun line => key.isPrefixOf line).bind lineNumber).getD 0).toNat

/-- Each percentage is that of its part in its total, rounded down. -/
structure Percents (m : SysProcMemInfo) : Prop where
  mem : 0 < m.memTotal.toNat → m.memAvailable.toNat ≤ m.memTotal.toNat →
    m.memPercent.toNat = 100 * m.memAvailable.toNat / m.memTotal.toNat ∧ m.memPercent.toNat ≤ 100
  swap : 0 < m.swapTotal.toNat → m.swapFree.toNat ≤ m.swapTotal.toNat →
    m.swapPercent.toNat = 100 * m.swapFree.toNat / m.swapTotal.toNat ∧ m.swapPercent.toNat ≤ 100

variable {m m' e e' : SysProcMemInfo} {lines : List (List Char)} {row : List Char × (UInt64 → SysProcMemInfo → SysProcMemInfo)}
  {c : List Char × (SysProcMemInfo → UInt64)}

/-! ### The counters -/

/-- A complete file leaves the number of its line in each counter. -/
theorem Complete.counter (hc : Complete lines) (hp : (row, c) ∈ table.zip counters)
    (hread : read (counterLine table) lines m = .ok true e) :
    (c.2 e).toNat = fileNumber row.1 lines ∧ (c.2 e).toNat * 100 < 2 ^ 64 := by
  obtain ⟨n, hlines, hfits⟩ := hc row (List.of_mem_zip hp).1
  obtain ⟨line, hline, hn⟩ : ∃ line, (lines.filter fun line => row.1.isPrefixOf line) = [line] ∧ lineNumber line = some n := by
    simpa using List.map_eq_singleton_iff.mp hlines
  have honly : ∀ l ∈ lines, row.1.isPrefixOf l = true → l = line := fun l hl hpre =>
    List.mem_singleton.mp (hline ▸ List.mem_filter.mpr ⟨hl, hpre⟩)
  have hmem : line ∈ lines ∧ row.1.isPrefixOf line = true := List.mem_filter.mp (hline ▸ List.mem_singleton_self line)
  have hvalue : c.2 e = n := by
    rw [ledger.counter_read hp hread]
    refine settle_eq (fun l hl k hk => ?_) fun hnone => ?_
    · unfold Ledger.writes at hk
      split at hk
      · rename_i hpre
        rw [honly l hl hpre, hn] at hk
        exact (Option.some.inj hk).symm
      · cases hk
    · have hwrites := hnone line hmem.1
      rw [Ledger.writes, if_pos hmem.2, hn] at hwrites
      cases hwrites
  have hfile : fileNumber row.1 lines = n.toNat := by
    rw [fileNumber, ← List.head?_filter, hline]
    simp [hn]
  rw [hvalue]
  exact ⟨hfile.symm, hfits⟩

/-- A complete file is read to its end. -/
theorem Complete.read (hc : Complete lines) (m : SysProcMemInfo) :
    ∃ e, Lines.read (counterLine table) lines m = .ok true e := by
  refine (read_true_iff lines m).mpr fun line hline hkeyed => ?_
  obtain ⟨row, hrow⟩ := Option.isSome_iff_exists.mp hkeyed
  obtain ⟨hmem, hpre⟩ := keyed_some hrow
  obtain ⟨n, hlines, _⟩ := hc row hmem
  have hin : lineNumber line ∈ (lines.filter fun line => row.1.isPrefixOf line).map lineNumber :=
    List.mem_map_of_mem (List.mem_filter.mpr ⟨hline, List.isPrefixOf_iff_prefix.mpr hpre⟩)
  rw [hlines, List.mem_singleton] at hin
  rw [hin]
  rfl

/-- What a complete file leaves in the counters is the file's alone. -/
theorem Complete.holds (hc : Complete lines) (hread : Lines.read (counterLine table) lines m = .ok true e)
    (hmem : c ∈ counters) : (c.2 e).toNat = fileNumber c.1 lines ∧ (c.2 e).toNat * 100 < 2 ^ 64 := by
  obtain ⟨row, hrow⟩ := ledger.row_of_counter hmem
  have hcounter := hc.counter hrow hread
  rw [bare _ hrow] at hcounter
  exact hcounter

/-! ### The percentages -/

/-- The percentage of a part in a total, or over a total of zero the one from before. -/
def percentOf (part total : UInt64) (old : UInt32) : UInt32 :=
  if total > 0 then (part * 100 / total).toUInt32 else old

theorem memPercent_setPercents (m : SysProcMemInfo) :
    m.setPercents.memPercent = percentOf m.memAvailable m.memTotal m.memPercent := by
  unfold setPercents percentOf
  dsimp only
  split <;> split <;> rfl

theorem swapPercent_setPercents (m : SysProcMemInfo) :
    m.setPercents.swapPercent = percentOf m.swapFree m.swapTotal m.swapPercent := by
  unfold setPercents percentOf
  dsimp only
  split <;> split <;> rfl

theorem pos_iff (n : UInt64) : n > 0 ↔ 0 < n.toNat := UInt64.lt_iff_toNat_lt

/-- A percentage is exact where its product fits. -/
theorem percentOf_exact {part total : UInt64} (old : UInt32) (hpos : 0 < total.toNat)
    (hle : part.toNat ≤ total.toNat) (hfits : part.toNat * 100 < 2 ^ 64) :
    (percentOf part total old).toNat = 100 * part.toNat / total.toNat ∧ (percentOf part total old).toNat ≤ 100 := by
  have hbound : 100 * part.toNat / total.toNat ≤ 100 :=
    Nat.div_le_of_le_mul ((Nat.mul_le_mul_left 100 hle).trans (Nat.mul_comm ..).le)
  have hvalue : (percentOf part total old).toNat = 100 * part.toNat / total.toNat := by
    have hprod : (part * 100).toNat = 100 * part.toNat := by
      rw [UInt64.toNat_mul, Nat.mul_comm 100]
      exact Nat.mod_eq_of_lt hfits
    rw [percentOf, if_pos ((pos_iff total).mpr hpos), UInt64.toNat_toUInt32, UInt64.toNat_div, hprod]
    exact Nat.mod_eq_of_lt (hbound.trans_lt (by decide))
  exact ⟨hvalue, hvalue ▸ hbound⟩

/-- What was there before is forgotten exactly if the total is positive, or there was the same before. -/
theorem percentOf_eq_iff {part total : UInt64} {old old' : UInt32} :
    percentOf part total old = percentOf part total old' ↔ 0 < total.toNat ∨ old = old' := by
  unfold percentOf
  by_cases hpos : total > 0
  · rw [if_pos hpos, if_pos hpos]
    exact iff_of_true rfl (.inl ((pos_iff total).mp hpos))
  · rw [if_neg hpos, if_neg hpos, or_iff_right fun h => hpos ((pos_iff total).mpr h)]

/-- After a complete file the percentages are right wherever their totals are positive. -/
theorem Complete.percents (hc : Complete lines) (hread : Lines.read (counterLine table) lines m = .ok true e) :
    Percents e.setPercents := by
  have hsame (c) (hmem : c ∈ counters) : c.2 e.setPercents = c.2 e := get_setPercents e c hmem
  have hmt := hsame ("MemTotal:".toList, (·.memTotal)) (by simp [counters])
  have hma := hsame ("MemAvailable:".toList, (·.memAvailable)) (by simp [counters])
  have hst := hsame ("SwapTotal:".toList, (·.swapTotal)) (by simp [counters])
  have hsf := hsame ("SwapFree:".toList, (·.swapFree)) (by simp [counters])
  simp only at hmt hma hst hsf
  constructor
  · intro hpos hle
    rw [hmt] at hpos
    rw [hmt, hma] at hle ⊢
    rw [memPercent_setPercents]
    exact percentOf_exact _ hpos hle
      (hc.holds hread (c := ("MemAvailable:".toList, (·.memAvailable))) (by simp [counters])).2
  · intro hpos hle
    rw [hst] at hpos
    rw [hst, hsf] at hle ⊢
    rw [swapPercent_setPercents]
    exact percentOf_exact _ hpos hle (hc.holds hread (c := ("SwapFree:".toList, (·.swapFree))) (by simp [counters])).2

/-- The total is positive in the file, or the same percentages were there before. -/
structure Determined (lines : List (List Char)) (m m' : SysProcMemInfo) : Prop where
  mem : 0 < fileNumber "MemTotal:".toList lines ∨ m.memPercent = m'.memPercent
  swap : 0 < fileNumber "SwapTotal:".toList lines ∨ m.swapPercent = m'.swapPercent

/-- A complete file sets the same counters from any two states, and the same percentages exactly if they are determined. -/
theorem Complete.same_iff (hc : Complete lines) (h : Lines.read (counterLine table) lines m = .ok true e)
    (h' : Lines.read (counterLine table) lines m' = .ok true e') :
    e.setPercents = e'.setPercents ↔ Determined lines m m' := by
  have heq (c) (hmem : c ∈ counters) : c.2 e = c.2 e' :=
    UInt64.toNat_inj.mp ((hc.holds h hmem).1.trans (hc.holds h' hmem).1.symm)
  have hmt : e.memTotal = e'.memTotal := heq ("MemTotal:".toList, (·.memTotal)) (by simp [counters])
  have hma : e.memAvailable = e'.memAvailable := heq ("MemAvailable:".toList, (·.memAvailable)) (by simp [counters])
  have hst : e.swapTotal = e'.swapTotal := heq ("SwapTotal:".toList, (·.swapTotal)) (by simp [counters])
  have hsf : e.swapFree = e'.swapFree := heq ("SwapFree:".toList, (·.swapFree)) (by simp [counters])
  have hmfile := (hc.holds h (c := ("MemTotal:".toList, (·.memTotal))) (by simp [counters])).1
  have hsfile := (hc.holds h (c := ("SwapTotal:".toList, (·.swapTotal))) (by simp [counters])).1
  obtain ⟨hrm, hrs⟩ : e.memPercent = m.memPercent ∧ e.swapPercent = m.swapPercent := by
    simpa using ledger.rest_read h
  obtain ⟨hrm', hrs'⟩ : e'.memPercent = m'.memPercent ∧ e'.swapPercent = m'.swapPercent := by
    simpa using ledger.rest_read h'
  have hmem : e.setPercents.memPercent = e'.setPercents.memPercent ↔
      0 < fileNumber "MemTotal:".toList lines ∨ m.memPercent = m'.memPercent := by
    rw [memPercent_setPercents, memPercent_setPercents, ← hmt, ← hma, hrm, hrm', ← hmfile]
    exact percentOf_eq_iff
  have hswap : e.setPercents.swapPercent = e'.setPercents.swapPercent ↔
      0 < fileNumber "SwapTotal:".toList lines ∨ m.swapPercent = m'.swapPercent := by
    rw [swapPercent_setPercents, swapPercent_setPercents, ← hst, ← hsf, hrs, hrs', ← hsfile]
    exact percentOf_eq_iff
  constructor
  · intro hsame
    exact ⟨hmem.mp (by rw [hsame]), hswap.mp (by rw [hsame])⟩
  · rintro ⟨hm, hs⟩
    refine ledger.ext _ _ (fun c hin => ?_) (Prod.ext (hmem.mpr hm) (hswap.mpr hs))
    rw [get_setPercents e c hin, get_setPercents e' c hin]
    exact heq c hin

/-! ### Histories -/

/-- **What is published after a file depends on the file alone**, with the right percentages, exactly if each total in it
is positive or the two histories left the same percentage. -/
theorem published_iff {before before' : List (Option (List (List Char)))} (h : run kind.updated {} before = some m)
    (h' : run kind.updated {} before' = some m') (hc : Complete lines) :
    ∃ n n', run kind.updated {} (before ++ [some lines]) = some n ∧ run kind.updated {} (before' ++ [some lines]) = some n' ∧
      (kind.collect n = kind.collect n' ∧ Percents n ∧ Percents n' ↔ Determined lines m m') := by
  obtain ⟨e, he⟩ := hc.read m
  obtain ⟨e', he'⟩ := hc.read m'
  refine ⟨e.setPercents, e'.setPercents, ?_, ?_, ?_⟩
  · rw [run_snoc, h]
    exact SourceKind.updated_iff.mpr ((doUpdateStats_true_iff ..).mpr ⟨e, he, rfl⟩)
  · rw [run_snoc, h']
    exact SourceKind.updated_iff.mpr ((doUpdateStats_true_iff ..).mpr ⟨e', he', rfl⟩)
  · rw [← hc.same_iff he he']
    exact ⟨And.left, fun hsame => ⟨hsame, hc.percents he, hc.percents he'⟩⟩

/-! ### Swap turned off -/

/-- A file with every key, where all swap is free. -/
def swapFile (swap : List Char) : List (List Char) :=
  counters.map fun c =>
    c.1 ++ ' ' :: if c.1 = "SwapTotal:".toList ∨ c.1 = "SwapFree:".toList then swap else ['1']

/-- What such a file leaves. -/
def swapState (swap : UInt64) (swapPercent : UInt32) : SysProcMemInfo where
  memTotal := 1
  memFree := 1
  memAvailable := 1
  memCached := 1
  active := 1
  inactive := 1
  slab := 1
  kreclaimable := 1
  sreclaimable := 1
  sunreclaim := 1
  kernelStack := 1
  swapTotal := swap
  swapFree := swap
  swapCached := 1
  cmaTotal := 1
  cmaFree := 1
  memPercent := 100
  swapPercent := swapPercent

theorem complete_swapFile : Complete (swapFile ['0']) := by
  have hall : ∀ row ∈ table, ((swapFile ['0']).filter fun line => row.1.isPrefixOf line).map lineNumber = [some 0] ∨
      ((swapFile ['0']).filter fun line => row.1.isPrefixOf line).map lineNumber = [some 1] := by decide +kernel
  intro row hrow
  rcases hall row hrow with h | h
  · exact ⟨0, h, by decide⟩
  · exact ⟨1, h, by decide⟩

/-- **A percentage outlives its total**: with swap turned off, the file that follows is published with the percentage
of free swap from before. -/
theorem stale_swap_percent :
    Complete (swapFile ['0']) ∧
      run kind.updated {} ([some (swapFile ['8'])] ++ [some (swapFile ['0'])]) = some (swapState 0 100) ∧
      run kind.updated {} ([] ++ [some (swapFile ['0'])]) = some (swapState 0 0) ∧
      kind.collect (swapState 0 100) ≠ kind.collect (swapState 0 0) :=
  ⟨complete_swapFile, by decide +kernel, by decide +kernel, by decide⟩

/-- The same two histories. -/
theorem published_iff_swap :
    ∃ n n', run kind.updated {} ([some (swapFile ['8'])] ++ [some (swapFile ['0'])]) = some n ∧
      run kind.updated {} ([] ++ [some (swapFile ['0'])]) = some n' ∧
      (kind.collect n = kind.collect n' ∧ Percents n ∧ Percents n' ↔
        Determined (swapFile ['0']) (swapState 8 100) {}) :=
  published_iff (by decide +kernel) rfl complete_swapFile

end SysProcMemInfo
end TaskMonitor

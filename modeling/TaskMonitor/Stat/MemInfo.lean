import TaskMonitor.Stat.Source

/-! Memory information (`SysProcMemInfo.cpp`).

A line counts where it starts with a key of the table; the number is its second
token. A line of a key without a second token ends the update with false. -/
namespace TaskMonitor
open Lines Text

/-! ### Files of named counters -/

/-- The row of the first key that the line starts with. -/
def keyed {D : Type} (table : List (List Char × (UInt64 → D → D))) (line : List Char) :
    Option (List Char × (UInt64 → D → D)) :=
  table.find? fun row => row.1.isPrefixOf line

/-- One line of a file of named counters. -/
def counterLine {D : Type} (table : List (List Char × (UInt64 → D → D))) (line : List Char) :
    EStateM Fault D Flow :=
  match keyed table line with
  | none => pure .next
  | some row =>
    let tokens := words line
    if tokens.length < 2 then pure (.stop false)
    else do
      setAll (number stoul) tokens [(1, row.2)]
      pure .next

/-- A line of a key without a number ends the update. -/
def CutShort {D : Type} (table : List (List Char × (UInt64 → D → D))) (line : List Char) : Prop :=
  (keyed table line).isSome = true ∧ (words line).length < 2

/-- The number of a line of a key can be converted, where it has one. -/
def Countable {D : Type} (table : List (List Char × (UInt64 → D → D))) (line : List Char) : Prop :=
  (keyed table line).isSome = true → 2 ≤ (words line).length → Converts (number stoul) (words line) 1

theorem ends_counterLine_iff {D : Type} {table : List (List Char × (UInt64 → D → D))} (line : List Char) (d : D) :
    Ends (counterLine table line) d ↔ Countable table line := by
  unfold counterLine Countable
  cases hk : keyed table line with
  | none => simp
  | some row =>
    by_cases hshort : (words line).length < 2
    · simp only [hshort, if_true, Option.isSome_some, true_implies]
      exact iff_of_true (ends_pure _ _) fun h => absurd h (by omega)
    · simp only [hshort, if_false, Option.isSome_some, true_implies, Nat.le_of_not_lt hshort, ends_bind]
      constructor
      · rintro ⟨_, d', hset, _⟩
        exact (ends_setAll_iff _ d).mp ⟨_, d', hset⟩ _ (List.mem_singleton_self _)
      · intro hconv
        obtain ⟨u, d', hset⟩ := (ends_setAll_iff (D := D) [(1, row.2)] d).mpr fun r hr => by
          obtain rfl := List.mem_singleton.mp hr
          exact hconv
        exact ⟨u, d', hset, ends_pure _ _⟩

theorem counterLine_next {D : Type} {table : List (List Char × (UInt64 → D → D))} {line : List Char} {d e : D}
    {a : Flow} (h : counterLine table line d = .ok a e) : a = .next ↔ ¬CutShort table line := by
  unfold counterLine at h
  unfold CutShort
  cases hk : keyed table line with
  | none =>
    simp only [hk] at h
    obtain ⟨rfl, _⟩ := pure_ok.mp h
    simp
  | some row =>
    simp only [hk] at h
    by_cases hshort : (words line).length < 2
    · simp only [hshort, if_true] at h
      obtain ⟨rfl, _⟩ := pure_ok.mp h
      simp [hshort]
    · simp only [hshort, if_false] at h
      obtain ⟨_, _, _, h⟩ := bind_ok.mp h
      obtain ⟨rfl, _⟩ := pure_ok.mp h
      simp [hshort]

/-! ### `/proc/meminfo` -/

structure SysProcMemInfo where
  memTotal : UInt64 := 0
  memFree : UInt64 := 0
  memAvailable : UInt64 := 0
  memCached : UInt64 := 0
  active : UInt64 := 0
  inactive : UInt64 := 0
  slab : UInt64 := 0
  kreclaimable : UInt64 := 0
  sreclaimable : UInt64 := 0
  sunreclaim : UInt64 := 0
  kernelStack : UInt64 := 0
  swapTotal : UInt64 := 0
  swapFree : UInt64 := 0
  swapCached : UInt64 := 0
  cmaTotal : UInt64 := 0
  cmaFree : UInt64 := 0
  memPercent : UInt32 := 0
  swapPercent : UInt32 := 0
deriving Repr, DecidableEq

namespace SysProcMemInfo

def table : List (List Char × (UInt64 → SysProcMemInfo → SysProcMemInfo)) :=
  [("MemTotal:".toList, fun n m => {m with memTotal := n}),
    ("MemFree:".toList, fun n m => {m with memFree := n}),
    ("MemAvailable:".toList, fun n m => {m with memAvailable := n}),
    ("Cached:".toList, fun n m => {m with memCached := n}),
    ("Active:".toList, fun n m => {m with active := n}),
    ("Inactive:".toList, fun n m => {m with inactive := n}),
    ("Slab:".toList, fun n m => {m with slab := n}),
    ("KReclaimable:".toList, fun n m => {m with kreclaimable := n}),
    ("SReclaimable:".toList, fun n m => {m with sreclaimable := n}),
    ("SUnreclaim:".toList, fun n m => {m with sunreclaim := n}),
    ("KernelStack:".toList, fun n m => {m with kernelStack := n}),
    ("SwapTotal:".toList, fun n m => {m with swapTotal := n}),
    ("SwapFree:".toList, fun n m => {m with swapFree := n}),
    ("SwapCached:".toList, fun n m => {m with swapCached := n}),
    ("CmaTotal:".toList, fun n m => {m with cmaTotal := n}),
    ("CmaFree:".toList, fun n m => {m with cmaFree := n})]

/-- A total of zero leaves its percentage as it was. -/
def setPercents (m : SysProcMemInfo) : SysProcMemInfo :=
  let m :=
    if m.memTotal > 0 then {m with memPercent := (m.memAvailable * 100 / m.memTotal).toUInt32} else m
  if m.swapTotal > 0 then {m with swapPercent := (m.swapFree * 100 / m.swapTotal).toUInt32} else m

def doUpdateStats (file : Option (List (List Char))) : EStateM Fault SysProcMemInfo Bool :=
  match file with
  | none => throw .notOpen
  | some lines => do
    let status ← read (counterLine table) lines
    if status then
      modify setPercents
      pure true
    else pure false

def kind : SourceKind (Option (List (List Char))) SysProcMemInfo SysProcMemInfo where
  doUpdateStats := doUpdateStats
  collect := id

/-- The update ends with a status exactly if the number of every line of a key that is reached
can be converted. -/
theorem ends_doUpdateStats_iff (lines : List (List Char)) (m : SysProcMemInfo) :
    Ends (doUpdateStats (some lines)) m ↔ Reached (Countable table) (CutShort table) lines := by
  have hread : Ends (read (counterLine table) lines) m ↔ Reached (Countable table) (CutShort table) lines :=
    ends_read_iff ends_counterLine_iff (fun _ _ _ _ => counterLine_next) lines m
  rw [← hread]
  unfold doUpdateStats
  rw [ends_bind]
  constructor
  · rintro ⟨status, m', hread, _⟩
    exact ⟨status, m', hread⟩
  · rintro ⟨status, m', hread⟩
    refine ⟨status, m', hread, ?_⟩
    cases status with
    | true => exact ends_bind.mpr ⟨(), setPercents m', rfl, ends_pure _ _⟩
    | false => exact ends_pure _ _

end SysProcMemInfo
end TaskMonitor

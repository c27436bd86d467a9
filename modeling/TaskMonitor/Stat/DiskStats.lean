import TaskMonitor.Lib.Roster
import TaskMonitor.Stat.Source

/-! Disk statistics (`SysProcDiskStats.cpp`).

One line a disk, which is known by its major and minor number. A disk not yet
listed is listed before its line is read to the end. -/
namespace TaskMonitor
open Lines Text

structure DiskStat where
  nodeMajor : UInt32
  nodeMinor : UInt32
  name : List Char
  readsCompleted : UInt64 := 0
  readsMerged : UInt64 := 0
  readsSpentMs : UInt64 := 0
  writesCompleted : UInt64 := 0
  writesMerged : UInt64 := 0
  writesSpentMs : UInt64 := 0
  ioInProgress : UInt64 := 0
  ioSpentMs : UInt64 := 0
  ioWeightedMs : UInt64 := 0
deriving Repr, DecidableEq

namespace DiskStat

/-- What a disk is known by. -/
def node (d : DiskStat) : UInt32 × UInt32 := (d.nodeMajor, d.nodeMinor)

/-- The counters, and the tokens they are read from. -/
def counters : List (Nat × (UInt64 → DiskStat → DiskStat)) :=
  [(3, fun n d => {d with readsCompleted := n}),
    (4, fun n d => {d with readsMerged := n}),
    (6, fun n d => {d with readsSpentMs := n}),
    (7, fun n d => {d with writesCompleted := n}),
    (8, fun n d => {d with writesMerged := n}),
    (10, fun n d => {d with writesSpentMs := n}),
    (11, fun n d => {d with ioInProgress := n}),
    (12, fun n d => {d with ioSpentMs := n}),
    (13, fun n d => {d with ioWeightedMs := n})]

/-- The values of the counters, and the tokens they are read from. -/
def values : List (Nat × (DiskStat → UInt64)) :=
  [(3, (·.readsCompleted)), (4, (·.readsMerged)), (6, (·.readsSpentMs)), (7, (·.writesCompleted)),
    (8, (·.writesMerged)), (10, (·.writesSpentMs)), (11, (·.ioInProgress)), (12, (·.ioSpentMs)),
    (13, (·.ioWeightedMs))]

end DiskStat

namespace SysProcDiskStats

/-- `updateDiskStatEntry` -/
def updateDiskStatEntry (tokens : List (List Char)) (major minor : UInt32) : EStateM Fault DiskStat Unit := do
  modify fun d => {d with nodeMajor := major, nodeMinor := minor}
  let name ← attempt (tokenAt tokens 2)
  modify fun d => {d with name := name}
  setAll (number stoul) tokens DiskStat.counters

def diskLine (line : List Char) : EStateM Fault (List DiskStat) Flow := do
  let tokens := words line
  if tokens.length < 20 then pure (.stop false)
  else do
    let major ← attempt (tokenAt tokens 0 >>= number stoul)
    let minor ← attempt (tokenAt tokens 1 >>= number stoul)
    let name ← attempt (tokenAt tokens 2)
    Roster.upsert (fun d => decide (d.node = (major.toUInt32, minor.toUInt32)))
      (updateDiskStatEntry tokens major.toUInt32 minor.toUInt32)
      {nodeMajor := major.toUInt32, nodeMinor := minor.toUInt32, name := name}
    pure .next

def doUpdateStats (file : Option (List (List Char))) : EStateM Fault (List DiskStat) Bool :=
  match file with
  | none => throw .notOpen
  | some lines => read diskLine lines

def kind : SourceKind (Option (List (List Char))) (List DiskStat) (List DiskStat) where
  doUpdateStats := doUpdateStats
  collect := id

/-- A line too short ends the update. -/
def CutShort (line : List Char) : Prop := (words line).length < 20

/-- The numbers of a line can be converted, where it is long enough. -/
def Countable (line : List Char) : Prop :=
  20 ≤ (words line).length →
    Converts (number stoul) (words line) 0 ∧ Converts (number stoul) (words line) 1 ∧
      ∀ row ∈ DiskStat.counters, Converts (number stoul) (words line) row.1

theorem ends_updateDiskStatEntry_iff {tokens : List (List Char)} (hlen : 20 ≤ tokens.length) (major minor : UInt32)
    (d : DiskStat) :
    Ends (updateDiskStatEntry tokens major minor) d ↔
      ∀ row ∈ DiskStat.counters, Converts (number stoul) tokens row.1 := by
  have hname : tokenAt tokens 2 = .ok tokens[2] := tokenAt_ok.mpr (List.getElem?_eq_getElem (by omega))
  unfold updateDiskStatEntry
  constructor
  · intro h
    obtain ⟨_, _, _, h⟩ := ends_bind.mp h
    obtain ⟨_, _, h⟩ := ends_attempt_bind.mp h
    obtain ⟨_, d', _, h⟩ := ends_bind.mp h
    exact (ends_setAll_iff _ d').mp h
  · intro hconv
    refine ends_bind.mpr ⟨(), _, rfl, ends_attempt_bind.mpr ⟨_, hname, ends_bind.mpr ⟨(), _, rfl, ?_⟩⟩⟩
    exact (ends_setAll_iff _ _).mpr hconv

theorem ends_diskLine_iff (line : List Char) (disks : List DiskStat) :
    Ends (diskLine line) disks ↔ Countable line := by
  unfold diskLine Countable
  by_cases hshort : (words line).length < 20
  · simp only [hshort, if_true]
    exact iff_of_true (ends_pure _ _) fun h => absurd h (by omega)
  · have hlen := Nat.le_of_not_lt hshort
    have hname : tokenAt (words line) 2 = .ok (words line)[2] :=
      tokenAt_ok.mpr (List.getElem?_eq_getElem (by omega))
    simp only [hshort, if_false, hlen, true_implies, ends_attempt_bind, converts_iff]
    constructor
    · rintro ⟨major, hmajor, minor, hminor, name, _, hrest⟩
      obtain ⟨_, _, hups, _⟩ := ends_bind.mp hrest
      have hentry := ends_updateDiskStatEntry_iff hlen major.toUInt32 minor.toUInt32
      exact ⟨⟨major, hmajor⟩, ⟨minor, hminor⟩, fun row hrow =>
        converts_iff.mp ((Roster.ends_upsert_iff hentry disks).mp ⟨_, _, hups⟩ row hrow)⟩
    · rintro ⟨⟨major, hmajor⟩, ⟨minor, hminor⟩, hrows⟩
      have hentry := ends_updateDiskStatEntry_iff hlen major.toUInt32 minor.toUInt32
      refine ⟨major, hmajor, minor, hminor, _, hname, ?_⟩
      obtain ⟨_, disks', hups⟩ := (Roster.ends_upsert_iff hentry disks).mpr fun row hrow =>
        converts_iff.mpr (hrows row hrow)
      exact ends_bind.mpr ⟨_, disks', hups, ends_pure _ _⟩

theorem diskLine_next {line : List Char} {disks disks' : List DiskStat} {a : Flow}
    (h : diskLine line disks = .ok a disks') : a = .next ↔ ¬CutShort line := by
  unfold diskLine at h
  unfold CutShort
  by_cases hshort : (words line).length < 20
  · simp only [hshort, if_true] at h
    obtain ⟨rfl, _⟩ := pure_ok.mp h
    simp [hshort]
  · simp only [hshort, if_false] at h
    obtain ⟨_, _, _, h⟩ := bind_ok.mp h
    obtain ⟨_, _, _, h⟩ := bind_ok.mp h
    obtain ⟨_, _, _, h⟩ := bind_ok.mp h
    obtain ⟨_, _, _, h⟩ := bind_ok.mp h
    obtain ⟨rfl, _⟩ := pure_ok.mp h
    simp [hshort]

/-- The update ends with a status exactly if the numbers of every line that is reached can be
converted. -/
theorem ends_doUpdateStats_iff (lines : List (List Char)) (disks : List DiskStat) :
    Ends (doUpdateStats (some lines)) disks ↔ Reached Countable CutShort lines :=
  ends_read_iff ends_diskLine_iff (fun _ _ _ _ => diskLine_next) lines disks

/-! ### Disks of lines -/

/-- The disk of a line. -/
def nodeOf (line : List Char) : UInt32 × UInt32 :=
  (((numberAt line 0).getD 0).toUInt32, ((numberAt line 1).getD 0).toUInt32)

/-- The new entry of a line. -/
def newDisk (line : List Char) : DiskStat :=
  {nodeMajor := (nodeOf line).1, nodeMinor := (nodeOf line).2, name := ((words line)[2]?).getD []}

def updateOf (line : List Char) : EStateM Fault DiskStat Unit :=
  updateDiskStatEntry (words line) (nodeOf line).1 (nodeOf line).2

/-- A line that can be read is an upsert of its disk. -/
theorem diskLine_upserts {line : List Char} {disks disks' : List DiskStat}
    (h : diskLine line disks = .ok .next disks') :
    Roster.upsert (fun d => decide (d.node = nodeOf line)) (updateOf line) (newDisk line) disks = .ok () disks' := by
  unfold diskLine at h
  by_cases hshort : (words line).length < 20
  · simp only [hshort, if_true] at h
    obtain ⟨h, _⟩ := pure_ok.mp h
    cases h
  · simp only [hshort, if_false] at h
    obtain ⟨major, _, hm, h⟩ := bind_ok.mp h
    obtain ⟨hmajor, rfl⟩ := attempt_ok.mp hm
    obtain ⟨minor, _, hm, h⟩ := bind_ok.mp h
    obtain ⟨hminor, rfl⟩ := attempt_ok.mp hm
    obtain ⟨name, _, hm, h⟩ := bind_ok.mp h
    obtain ⟨hname, rfl⟩ := attempt_ok.mp hm
    obtain ⟨_, _, hups, h⟩ := bind_ok.mp h
    obtain ⟨_, rfl⟩ := pure_ok.mp h
    have hread {i : Nat} {n : UInt64} (hn : tokenAt (words line) i >>= number stoul = .ok n) :
        numberAt line i = some n := by
      obtain ⟨t, ht, hconv⟩ := tokenAt_bind_ok.mp hn
      rw [numberAt, ht]
      exact number_ok.mp hconv
    have hnode : nodeOf line = (major.toUInt32, minor.toUInt32) := by
      simp [nodeOf, hread hmajor, hread hminor]
    rw [updateOf, newDisk, hnode, tokenAt_ok.mp hname]
    exact hups

theorem diskLine_stop {line : List Char} {disks disks' : List DiskStat} {status : Bool}
    (h : diskLine line disks = .ok (.stop status) disks') : disks' = disks ∧ status = false := by
  unfold diskLine at h
  by_cases hshort : (words line).length < 20
  · simp only [hshort, if_true] at h
    obtain ⟨hflow, rfl⟩ := pure_ok.mp h
    exact ⟨rfl, (Flow.stop.inj hflow).symm⟩
  · simp only [hshort, if_false] at h
    obtain ⟨_, _, _, h⟩ := bind_ok.mp h
    obtain ⟨_, _, _, h⟩ := bind_ok.mp h
    obtain ⟨_, _, _, h⟩ := bind_ok.mp h
    obtain ⟨_, _, _, h⟩ := bind_ok.mp h
    obtain ⟨hflow, _⟩ := pure_ok.mp h
    cases hflow

/-- What an update makes of an entry depends on the line alone. -/
theorem updateOf_ok {line : List Char} {d d' : DiskStat} (h : updateOf line d = .ok () d') :
    d'.node = nodeOf line ∧ ∀ e, updateOf line e = .ok () d' := by
  obtain ⟨_, d₁, hmod, h⟩ := bind_ok.mp h
  cases hmod
  obtain ⟨name, _, hread, h⟩ := bind_ok.mp h
  obtain ⟨hname, rfl⟩ := attempt_ok.mp hread
  obtain ⟨_, d₂, hmod, h⟩ := bind_ok.mp h
  cases hmod
  obtain ⟨ns, hns, rfl⟩ := (setAll_ok_iff _ _ _).mp h
  have hlen : ns.length = 9 := length_of_map_ok hns
  obtain ⟨a, b, c, d, e, f, g, i, j, rfl⟩ : ∃ a b c d e f g i j, ns = [a, b, c, d, e, f, g, i, j] :=
    match ns, hlen with
    | [a, b, c, d, e, f, g, i, j], _ => ⟨a, b, c, d, e, f, g, i, j, rfl⟩
  refine ⟨rfl, fun e => ?_⟩
  refine bind_ok.mpr ⟨(), _, rfl, bind_ok.mpr ⟨name, _, attempt_ok.mpr ⟨hname, rfl⟩, bind_ok.mpr ⟨(), _, rfl, ?_⟩⟩⟩
  exact (setAll_ok_iff _ _ _).mpr ⟨_, hns, rfl⟩

/-- The disk is the one of the line, and has its values. -/
structure Carries (d : DiskStat) (line : List Char) : Prop where
  node : d.node = nodeOf line
  name : (words line)[2]? = some d.name
  values : ∀ v ∈ DiskStat.values, numberAt line v.1 = some (v.2 d)

/-- What an update makes of an entry has the values of the line. -/
theorem carries_of_updateOf {line : List Char} {d d' : DiskStat} (h : updateOf line d = .ok () d') : Carries d' line := by
  have hnode := (updateOf_ok h).1
  obtain ⟨_, d₁, hmod, h⟩ := bind_ok.mp h
  cases hmod
  obtain ⟨name, _, hread, h⟩ := bind_ok.mp h
  obtain ⟨hname, rfl⟩ := attempt_ok.mp hread
  obtain ⟨_, d₂, hmod, h⟩ := bind_ok.mp h
  cases hmod
  obtain ⟨ns, hns, rfl⟩ := (setAll_ok_iff _ _ _).mp h
  have hread := assigned (fun _ _ _ hn => number_ok.mp hn) hns
  obtain ⟨a, b, c, d, e, f, g, i, j, rfl⟩ : ∃ a b c d e f g i j, ns = [a, b, c, d, e, f, g, i, j] :=
    match ns, length_of_map_ok hns with
    | [a, b, c, d, e, f, g, i, j], _ => ⟨a, b, c, d, e, f, g, i, j, rfl⟩
  refine ⟨hnode, tokenAt_ok.mp hname, ?_⟩
  simpa [DiskStat.values, DiskStat.counters, assign, numberAt] using hread

end SysProcDiskStats
end TaskMonitor

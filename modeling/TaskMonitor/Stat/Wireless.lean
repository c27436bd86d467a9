import TaskMonitor.Lib.Roster
import TaskMonitor.Stat.Source

/-! Wireless interfaces (`SysProcWireless.cpp`).

Two header lines are skipped; every other line is an interface, which is known by
its name. A quality may end in a point, which is dropped before it is converted
and would not matter if it stayed (`quality_eq`). -/
namespace TaskMonitor
open Lines Text

structure WlanInterface where
  name : List Char
  status : List Char := []
  qualityLink : Int := 0
  qualityLevel : Int := 0
  qualityNoise : Int := 0
  discardedNwid : UInt32 := 0
  discardedCrypt : UInt32 := 0
  discardedFrag : UInt32 := 0
  discardedRetry : UInt32 := 0
  discardedMisc : UInt32 := 0
  missedBeacon : UInt32 := 0
deriving Repr, DecidableEq

namespace WlanInterface

/-- The qualities, and the tokens they are read from. -/
def qualities : List (Nat × (Int → WlanInterface → WlanInterface)) :=
  [(2, fun n w => {w with qualityLink := n}),
    (3, fun n w => {w with qualityLevel := n}),
    (4, fun n w => {w with qualityNoise := n})]

/-- The counters, and the tokens they are read from. -/
def counters : List (Nat × (UInt64 → WlanInterface → WlanInterface)) :=
  [(5, fun n w => {w with discardedNwid := n.toUInt32}),
    (6, fun n w => {w with discardedCrypt := n.toUInt32}),
    (7, fun n w => {w with discardedFrag := n.toUInt32}),
    (8, fun n w => {w with discardedRetry := n.toUInt32}),
    (9, fun n w => {w with discardedMisc := n.toUInt32}),
    (10, fun n w => {w with missedBeacon := n.toUInt32})]

/-- The values of the qualities, and the tokens they are read from. -/
def qualityValues : List (Nat × (WlanInterface → Int)) :=
  [(2, (·.qualityLink)), (3, (·.qualityLevel)), (4, (·.qualityNoise))]

/-- The values of the counters, and the tokens they are read from. -/
def values : List (Nat × (WlanInterface → UInt32)) :=
  [(5, (·.discardedNwid)), (6, (·.discardedCrypt)), (7, (·.discardedFrag)), (8, (·.discardedRetry)),
    (9, (·.discardedMisc)), (10, (·.missedBeacon))]

end WlanInterface

namespace SysProcWireless

/-- A quality, without a point at its end. -/
def quality (t : List Char) : Except Fault Int :=
  match t.getLast? with
  | none => .error .emptyToken
  | some c => number stoi (if c = '.' then t.dropLast else t)

/-- `updateWlanInterfaceEntry` -/
def updateWlanInterfaceEntry (tokens : List (List Char)) : EStateM Fault WlanInterface Unit := do
  let status ← attempt (tokenAt tokens 1)
  modify fun w => {w with status := status}
  setAll quality tokens WlanInterface.qualities
  setAll (number stoul) tokens WlanInterface.counters

def wlanLine (line : List Char) : EStateM Fault (List WlanInterface) Flow := do
  let tokens := words line
  if tokens.length < 11 then pure (.stop false)
  else do
    -- the colon after the name
    let name := (← attempt (tokenAt tokens 0)).dropLast
    Roster.upsert (fun w => decide (w.name = name)) (updateWlanInterfaceEntry tokens) {name := name}
    pure .next

def doUpdateStats (file : Option (List (List Char))) : EStateM Fault (List WlanInterface) Bool :=
  match file with
  | none => throw .notOpen
  | some lines => read wlanLine (lines.drop 2)

def kind : SourceKind (Option (List (List Char))) (List WlanInterface) (List WlanInterface) where
  doUpdateStats := doUpdateStats
  collect := id

/-- A line too short ends the update. -/
def CutShort (line : List Char) : Prop := (words line).length < 11

/-- The numbers of a line can be converted, where it is long enough. -/
def Countable (line : List Char) : Prop :=
  11 ≤ (words line).length →
    (∀ row ∈ WlanInterface.qualities, Converts (number stoi) (words line) row.1) ∧
      ∀ row ∈ WlanInterface.counters, Converts (number stoul) (words line) row.1

theorem stoi_append_point (t : List Char) : stoi (t ++ ['.']) = stoi t := by
  unfold stoi
  rw [integer_append_single (by decide) (by decide) (by decide) (by decide)]

/-- The point makes no difference, and no token is empty. -/
theorem quality_eq {t : List Char} (h : t ≠ []) : quality t = number stoi t := by
  have hlast : t.getLast? = some (t.getLast h) := List.getLast?_eq_some_getLast h
  simp only [quality, hlast]
  split
  · rename_i hpoint
    have happ : t = t.dropLast ++ ['.'] := by
      rw [← hpoint]
      exact (List.dropLast_concat_getLast h).symm
    have hstoi : stoi t = stoi t.dropLast := by
      conv_lhs => rw [happ]
      exact stoi_append_point _
    rw [number, number, hstoi]
  · rfl

theorem converts_quality_iff {line : List Char} {i : Nat} :
    Converts quality (words line) i ↔ Converts (number stoi) (words line) i := by
  unfold Converts
  constructor
  · rintro ⟨t, n, ht, hn⟩
    have hne := words_ne_nil (List.mem_of_getElem? ht)
    exact ⟨t, n, ht, quality_eq hne ▸ hn⟩
  · rintro ⟨t, n, ht, hn⟩
    have hne := words_ne_nil (List.mem_of_getElem? ht)
    exact ⟨t, n, ht, (quality_eq hne).trans hn⟩

theorem ends_updateWlanInterfaceEntry_iff {line : List Char} (hlen : 11 ≤ (words line).length) (w : WlanInterface) :
    Ends (updateWlanInterfaceEntry (words line)) w ↔
      (∀ row ∈ WlanInterface.qualities, Converts (number stoi) (words line) row.1) ∧
        ∀ row ∈ WlanInterface.counters, Converts (number stoul) (words line) row.1 := by
  have hstatus : tokenAt (words line) 1 = .ok (words line)[1] := tokenAt_ok.mpr (List.getElem?_eq_getElem (by omega))
  unfold updateWlanInterfaceEntry
  simp only [← converts_quality_iff]
  constructor
  · intro h
    obtain ⟨_, _, h⟩ := ends_attempt_bind.mp h
    obtain ⟨_, w₁, _, h⟩ := ends_bind.mp h
    obtain ⟨_, w₂, hset, h⟩ := ends_bind.mp h
    exact ⟨(ends_setAll_iff _ w₁).mp ⟨_, _, hset⟩, (ends_setAll_iff _ w₂).mp h⟩
  · rintro ⟨hqualities, hcounters⟩
    refine ends_attempt_bind.mpr ⟨_, hstatus, ends_bind.mpr ⟨(), _, rfl, ?_⟩⟩
    obtain ⟨_, w', hset⟩ := (ends_setAll_iff WlanInterface.qualities _).mpr hqualities
    exact ends_bind.mpr ⟨_, w', hset, (ends_setAll_iff _ _).mpr hcounters⟩

theorem ends_wlanLine_iff (line : List Char) (nodes : List WlanInterface) :
    Ends (wlanLine line) nodes ↔ Countable line := by
  unfold wlanLine Countable
  by_cases hshort : (words line).length < 11
  · simp only [hshort, if_true]
    exact iff_of_true (ends_pure _ _) fun h => absurd h (by omega)
  · have hlen := Nat.le_of_not_lt hshort
    have hentry := ends_updateWlanInterfaceEntry_iff hlen
    have hname : tokenAt (words line) 0 = .ok (words line)[0] := tokenAt_ok.mpr (List.getElem?_eq_getElem (by omega))
    simp only [hshort, if_false, hlen, true_implies, ends_attempt_bind]
    constructor
    · rintro ⟨_, _, hrest⟩
      obtain ⟨_, _, hups, _⟩ := ends_bind.mp hrest
      exact (Roster.ends_upsert_iff hentry nodes).mp ⟨_, _, hups⟩
    · intro hrows
      obtain ⟨_, nodes', hups⟩ := (Roster.ends_upsert_iff hentry nodes).mpr hrows
      exact ⟨_, hname, ends_bind.mpr ⟨_, nodes', hups, ends_pure _ _⟩⟩

theorem wlanLine_next {line : List Char} {nodes nodes' : List WlanInterface} {a : Flow}
    (h : wlanLine line nodes = .ok a nodes') : a = .next ↔ ¬CutShort line := by
  unfold wlanLine at h
  unfold CutShort
  by_cases hshort : (words line).length < 11
  · simp only [hshort, if_true] at h
    obtain ⟨rfl, _⟩ := pure_ok.mp h
    simp [hshort]
  · simp only [hshort, if_false] at h
    obtain ⟨_, _, _, h⟩ := bind_ok.mp h
    obtain ⟨_, _, _, h⟩ := bind_ok.mp h
    obtain ⟨rfl, _⟩ := pure_ok.mp h
    simp [hshort]

/-- The update ends with a status exactly if the numbers of every line that is reached can be
converted. -/
theorem ends_doUpdateStats_iff (lines : List (List Char)) (nodes : List WlanInterface) :
    Ends (doUpdateStats (some lines)) nodes ↔ Reached Countable CutShort (lines.drop 2) :=
  ends_read_iff ends_wlanLine_iff (fun _ _ _ _ => wlanLine_next) (lines.drop 2) nodes

/-! ### Interfaces of lines -/

/-- The interface of a line. -/
def nameOf (line : List Char) : List Char := (((words line)[0]?).getD []).dropLast

/-- A line that can be read is an upsert of its interface. -/
theorem wlanLine_upserts {line : List Char} {nodes nodes' : List WlanInterface}
    (h : wlanLine line nodes = .ok .next nodes') :
    Roster.upsert (fun w => decide (w.name = nameOf line)) (updateWlanInterfaceEntry (words line))
      {name := nameOf line} nodes = .ok () nodes' := by
  unfold wlanLine at h
  by_cases hshort : (words line).length < 11
  · simp only [hshort, if_true] at h
    obtain ⟨hflow, _⟩ := pure_ok.mp h
    cases hflow
  · simp only [hshort, if_false] at h
    obtain ⟨name, _, hread, h⟩ := bind_ok.mp h
    obtain ⟨hname, rfl⟩ := attempt_ok.mp hread
    obtain ⟨_, _, hups, h⟩ := bind_ok.mp h
    obtain ⟨_, rfl⟩ := pure_ok.mp h
    have hnameOf : nameOf line = name.dropLast := by simp [nameOf, tokenAt_ok.mp hname]
    rw [hnameOf]
    exact hups

theorem wlanLine_stop {line : List Char} {nodes nodes' : List WlanInterface} {status : Bool}
    (h : wlanLine line nodes = .ok (.stop status) nodes') : nodes' = nodes ∧ status = false := by
  unfold wlanLine at h
  by_cases hshort : (words line).length < 11
  · simp only [hshort, if_true] at h
    obtain ⟨hflow, rfl⟩ := pure_ok.mp h
    exact ⟨rfl, (Flow.stop.inj hflow).symm⟩
  · simp only [hshort, if_false] at h
    obtain ⟨_, _, _, h⟩ := bind_ok.mp h
    obtain ⟨_, _, _, h⟩ := bind_ok.mp h
    obtain ⟨hflow, _⟩ := pure_ok.mp h
    cases hflow

/-- What an update makes of an entry depends on its name and the line alone. -/
theorem updateWlanInterfaceEntry_ok {tokens : List (List Char)} {w w' : WlanInterface}
    (h : updateWlanInterfaceEntry tokens w = .ok () w') :
    w'.name = w.name ∧ ∀ v, v.name = w.name → updateWlanInterfaceEntry tokens v = .ok () w' := by
  obtain ⟨status, _, hread, h⟩ := bind_ok.mp h
  obtain ⟨hstatus, rfl⟩ := attempt_ok.mp hread
  obtain ⟨_, w₁, hmod, h⟩ := bind_ok.mp h
  cases hmod
  obtain ⟨_, w₂, hset, h⟩ := bind_ok.mp h
  obtain ⟨qs, hqs, rfl⟩ := (setAll_ok_iff _ _ _).mp hset
  obtain ⟨ns, hns, rfl⟩ := (setAll_ok_iff _ _ _).mp h
  have hqlen : qs.length = 3 := length_of_map_ok hqs
  have hlen : ns.length = 6 := length_of_map_ok hns
  obtain ⟨a, b, c, rfl⟩ : ∃ a b c, qs = [a, b, c] :=
    match qs, hqlen with
    | [a, b, c], _ => ⟨a, b, c, rfl⟩
  obtain ⟨d, e, f, g, i, j, rfl⟩ : ∃ d e f g i j, ns = [d, e, f, g, i, j] :=
    match ns, hlen with
    | [d, e, f, g, i, j], _ => ⟨d, e, f, g, i, j, rfl⟩
  refine ⟨rfl, fun v hv => ?_⟩
  refine bind_ok.mpr ⟨status, _, attempt_ok.mpr ⟨hstatus, rfl⟩, bind_ok.mpr ⟨(), _, rfl, bind_ok.mpr ⟨(), _,
    (setAll_ok_iff _ _ _).mpr ⟨_, hqs, rfl⟩, (setAll_ok_iff _ _ _).mpr ⟨_, hns, ?_⟩⟩⟩⟩
  simp [assign, WlanInterface.qualities, WlanInterface.counters, hv]

/-- The interface is the one of the line, and has its values. -/
structure Carries (w : WlanInterface) (line : List Char) : Prop where
  name : w.name = nameOf line
  status : (words line)[1]? = some w.status
  qualities : ∀ v ∈ WlanInterface.qualityValues, (words line)[v.1]?.bind stoi = some (v.2 w)
  values : ∀ v ∈ WlanInterface.values, (numberAt line v.1).map UInt64.toUInt32 = some (v.2 w)

/-- What an update makes of the line's interface has the values of the line. -/
theorem carries_of_update {line : List Char} {w w' : WlanInterface} (hw : w.name = nameOf line)
    (h : updateWlanInterfaceEntry (words line) w = .ok () w') : Carries w' line := by
  have hname := (updateWlanInterfaceEntry_ok h).1.trans hw
  obtain ⟨status, _, hread, h⟩ := bind_ok.mp h
  obtain ⟨hstatus, rfl⟩ := attempt_ok.mp hread
  obtain ⟨_, w₁, hmod, h⟩ := bind_ok.mp h
  cases hmod
  obtain ⟨_, w₂, hset, h⟩ := bind_ok.mp h
  obtain ⟨qs, hqs, rfl⟩ := (setAll_ok_iff _ _ _).mp hset
  obtain ⟨ns, hns, rfl⟩ := (setAll_ok_iff _ _ _).mp h
  have hread := assigned (fun _ _ _ hn => number_ok.mp hn) hns
  obtain ⟨a, b, c, rfl⟩ : ∃ a b c, qs = [a, b, c] :=
    match qs, length_of_map_ok hqs with
    | [a, b, c], _ => ⟨a, b, c, rfl⟩
  have hqread : WlanInterface.qualities.map (fun row => (words line)[row.1]?.bind stoi) = [a, b, c].map some :=
    assigned (fun t ht n hn => number_ok.mp (quality_eq (words_ne_nil ht) ▸ hn)) hqs
  obtain ⟨d, e, f, g, i, j, rfl⟩ : ∃ d e f g i j, ns = [d, e, f, g, i, j] :=
    match ns, length_of_map_ok hns with
    | [d, e, f, g, i, j], _ => ⟨d, e, f, g, i, j, rfl⟩
  refine ⟨hname, tokenAt_ok.mp hstatus, ?_, ?_⟩
  · simpa [WlanInterface.qualityValues, WlanInterface.qualities, WlanInterface.counters, assign] using hqread
  · have hcounters := congrArg (List.map (Option.map UInt64.toUInt32)) hread
    simpa [WlanInterface.values, WlanInterface.counters, assign, numberAt] using hcounters

end SysProcWireless
end TaskMonitor

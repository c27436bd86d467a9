import TaskMonitor.Stat.DiskStats
import TaskMonitor.Stat.Pressure
import TaskMonitor.Stat.Wireless
import TaskMonitor.Stat.MemInfo

/-! Handlers that throw.

A line too short is answered with false, but a number that cannot be converted
throws out of the handler, and so does a pressure line without a token. What is
thrown goes past the mark of the source, which then is never updated again. -/
namespace TaskMonitor
open Lines Transition Source

section
variable {F C : Type} [Zero F]

/-- **An update ends with a status exactly if what it reads can be converted**: the number of every
line of a key that is reached, every number of a disk or an interface that is reached, the values of
every pressure line, which is not blank. -/
theorem handlers_end_iff (stof : List Char → Option F) (mem : Source SysProcMemInfo C SysProcMemInfo)
    (disk : Source (List DiskStat) C (List DiskStat)) (wireless : Source (List WlanInterface) C (List WlanInterface))
    (pressure : Source (SysProcPressure F) C (PressureData F)) (meminfo diskstats wlan : List (List Char))
    (files : String → Option (List (List Char))) :
    (Ends (requestHandler SysProcMemInfo.kind (some meminfo) .updateStats) mem ↔
      Reached (Countable SysProcMemInfo.table) (CutShort SysProcMemInfo.table) meminfo) ∧
    (Ends (requestHandler SysProcDiskStats.kind (some diskstats) .updateStats) disk ↔
      Reached SysProcDiskStats.Countable SysProcDiskStats.CutShort diskstats) ∧
    (Ends (requestHandler SysProcWireless.kind (some wlan) .updateStats) wireless ↔
      Reached SysProcWireless.Countable SysProcWireless.CutShort (wlan.drop 2)) ∧
    (Ends (requestHandler (SysProcPressure.kind stof) files .updateStats) pressure ↔
      ∀ entry ∈ pressure.data.entries, ∀ lines, files entry.name = some lines →
        ∀ line ∈ lines, PressureStat.Readable stof line) :=
  ⟨ends_requestHandler_iff.trans (SysProcMemInfo.ends_doUpdateStats_iff meminfo mem.data),
    ends_requestHandler_iff.trans (SysProcDiskStats.ends_doUpdateStats_iff diskstats disk.data),
    ends_requestHandler_iff.trans (SysProcWireless.ends_doUpdateStats_iff wlan wireless.data),
    ends_requestHandler_iff.trans (SysProcPressure.ends_doUpdateStats_iff files pressure.data)⟩

end

/-- **Five updates that throw**: a total that is no number, a counter out of range, an interface with
a point for a quality, a pressure total out of range, a blank pressure line. -/
theorem handlers_throw :
    ¬Ends (requestHandler SysProcMemInfo.kind (some ["MemTotal: many kB".toList]) .updateStats)
      ({data := {}} : Source SysProcMemInfo Unit SysProcMemInfo) ∧
    ¬Ends (requestHandler SysProcDiskStats.kind
      (some ["8 0 sda 18446744073709551616 0 0 0 0 0 0 0 0 0 0 0 0 0 0 0 0".toList]) .updateStats)
      ({data := []} : Source (List DiskStat) Unit (List DiskStat)) ∧
    ¬Ends (requestHandler SysProcWireless.kind
      (some ["Inter-".toList, "face".toList, "wlan0: 0000 . 0 0 0 0 0 0 0 0".toList]) .updateStats)
      ({data := []} : Source (List WlanInterface) Unit (List WlanInterface)) ∧
    ¬Ends (requestHandler (SysProcPressure.kind fun _ => some 0)
      (fun _ => some ["some total=18446744073709551616".toList]) .updateStats)
      ({data := {entries := [{name := "cpu"}]}} : Source (SysProcPressure Nat) Unit (PressureData Nat)) ∧
    ¬Ends (requestHandler (SysProcPressure.kind fun _ => some 0) (fun _ => some [[]]) .updateStats)
      ({data := {entries := [{name := "cpu"}]}} : Source (SysProcPressure Nat) Unit (PressureData Nat)) := by
  decide +kernel

/-! ### The mark of a source -/

variable {E D C M : Type}

/-- **A source is not wedged by its mark exactly as long as no update threw.** -/
theorem notWedged_iff {k : SourceKind E D M} {d : D} {t : Source D C M} {labels : List (Source.Label E C)}
    (h : run (step k) {data := d} labels = some t) :
    t.NotWedged ↔ Meets (step k) (Returns k) {data := d} labels :=
  notWedged_run_iff (by simp [Tracked, queued]) h

/-- After an update of an empty file the disks are not wedged. -/
theorem notWedged_empty :
    run (step SysProcDiskStats.kind) ({data := []} : Source (List DiskStat) Unit (List DiskStat))
        [.update true, .dispatch (some [])] = some {data := []} ∧
      ({data := []} : Source (List DiskStat) Unit (List DiskStat)).NotWedged := by
  have hrun : run (step SysProcDiskStats.kind) ({data := []} : Source (List DiskStat) Unit (List DiskStat))
      [.update true, .dispatch (some [])] = some {data := []} := rfl
  refine ⟨hrun, (notWedged_iff hrun).mpr ⟨trivial, fun t ht => ?_⟩⟩
  obtain rfl := Option.some.inj ht
  exact ⟨fun _ => ⟨true, [], rfl⟩, fun _ _ => trivial⟩

/-- **A wedged source**: the disks could not be read once, and are never read again. -/
theorem diskStats_wedged :
    ∃ t, run (step SysProcDiskStats.kind) ({data := []} : Source (List DiskStat) Unit (List DiskStat))
        [.update true, .dispatch none] = some t ∧ ¬t.NotWedged ∧ t.update true = (t, true) ∧ t.queue = [] := by
  refine ⟨{data := [], updatePending := true}, rfl, ?_, rfl, rfl⟩
  exact Wedged.not_notWedged ⟨rfl, rfl⟩

end TaskMonitor

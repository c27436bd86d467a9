import TaskMonitor.Registry.Basic

/-! Delay accounting (`ProcAcct.cpp`).

Of each resource an entry keeps how often and how long its process waited, and
the average. The total kept for the CPU is that of the virtual run time, while its
average is of the delay (`consistent_iff`). -/
namespace TaskMonitor
open DeferredList

/-- What is kept of a resource are the count and the total of the record, and their average. -/
structure Delay (count total keptCount keptTotal keptAverage : UInt64) : Prop where
  count : keptCount = count
  total : keptTotal = total
  average : keptAverage.toNat = keptTotal.toNat / (1000000 * max keptCount.toNat 1)

/-- The accounting data of an entry agree with the record and with each other. -/
structure Consistent (t : Taskstats) (a : ProcAcct) : Prop where
  cpu : Delay t.cpuCount t.cpuDelayTotal a.cpu.cpuCount a.cpu.cpuDelayTotal a.cpu.cpuDelayAverage
  blkio : Delay t.blkioCount t.blkioDelayTotal a.io.blkioCount a.io.blkioDelayTotal a.io.blkioDelayAverage
  swapin : Delay t.swapinCount t.swapinDelayTotal a.swp.swapinCount a.swp.swapinDelayTotal a.swp.swapinDelayAverage
  freepages : Delay t.freepagesCount t.freepagesDelayTotal a.reclaim.freepagesCount a.reclaim.freepagesDelayTotal
    a.reclaim.freepagesDelayAverage
  thrashing : Delay t.thrashingCount t.thrashingDelayTotal a.thrashing.thrashingCount a.thrashing.thrashingDelayTotal
    a.thrashing.thrashingDelayAverage
  process : (a.acComm, a.acUid, a.acGid, a.acPid, a.acPpid) = (t.acComm, t.acUid, t.acGid, t.acPid, t.acPpid)
  times : (a.acUtime, a.acStime, a.cpu.cpuRunRealTotal, a.cpu.cpuRunVirtualTotal) =
    (t.acUtime, t.acStime, t.cpuRunRealTotal, t.cpuRunVirtualTotal)
  mem : a.mem = ⟨t.coremem, t.virtmem, t.hiwaterRss, t.hiwaterVm⟩
  ctx : a.ctx = ⟨t.nvcsw, t.nivcsw⟩
  io : (a.io.readBytes, a.io.writeBytes, a.io.readChar, a.io.writeChar, a.io.readSyscalls, a.io.writeSyscalls) =
    (t.readBytes, t.writeBytes, t.readChar, t.writeChar, t.readSyscalls, t.writeSyscalls)

/-- A total that is kept as it is goes with its average. -/
theorem delay_averageMs (count total : UInt64) : Delay count total count total (averageMs total count) :=
  ⟨rfl, rfl, toNat_averageMs total count⟩

/-- The CPU's total is the one that is not its own. -/
theorem consistent_ofTaskstats_iff (t : Taskstats) :
    Consistent t (.ofTaskstats t) ↔ t.cpuRunVirtualTotal = t.cpuDelayTotal := by
  constructor
  · intro h
    exact h.cpu.total
  · intro h
    have hcpu : Delay t.cpuCount t.cpuDelayTotal t.cpuCount t.cpuRunVirtualTotal
        (averageMs t.cpuDelayTotal t.cpuCount) := h ▸ delay_averageMs t.cpuCount t.cpuDelayTotal
    exact ⟨hcpu, delay_averageMs _ _, delay_averageMs _ _, delay_averageMs _ _, delay_averageMs _ _,
      rfl, rfl, rfl, rfl, rfl⟩

namespace Registry

variable {L : Type → Type} [DeferredList L] {r : Registry L}

/-- Nothing but the entry behind the pointer differs. -/
structure OnlyEntry (p : Ptr) (r r' : Registry L) : Prop where
  procs : ∀ q, q ≠ p → r'.procs q = r.procs q
  procList : r'.procList = r.procList
  contexts : r'.contexts = r.contexts
  contextList : r'.contextList = r.contextList

/-- **A reply is kept consistently exactly where the virtual run time is the delay of the CPU**; no
other entry is changed. -/
theorem consistent_iff {t : Taskstats} {p : Ptr} (h : r.getProcEntry t.acPid.toNat = some p) :
    (Consistent t ((r.processDelayAcct t).procs p).acct ∧ OnlyEntry p r (r.processDelayAcct t)) ↔
      t.cpuRunVirtualTotal = t.cpuDelayTotal := by
  have hreply : r.processDelayAcct t =
      r.setProc p (((r.procs p).setAcct (.ofTaskstats t)).setUpdateProcAcctPending false) := by
    simp only [processDelayAcct, h]
  have hacct : ((r.processDelayAcct t).procs p).acct = .ofTaskstats t := by
    rw [hreply]
    simp [setProc, ProcEntry.setAcct, ProcEntry.setUpdateProcAcctPending]
  have honly : OnlyEntry p r (r.processDelayAcct t) := by
    rw [hreply]
    exact ⟨fun q hq => Function.update_of_ne hq _ _, rfl, rfl, rfl⟩
  rw [hacct, consistent_ofTaskstats_iff]
  exact and_iff_left honly

/-- A registry of the process 5. -/
def oneProcess : Registry Recorded := (empty : Registry Recorded).insertProc {pid := 5, info := {pid := 5}}

/-- A record without delays is kept consistently. -/
theorem consistent_idle :
    Consistent {acPid := 5} ((oneProcess.processDelayAcct {acPid := 5}).procs 0).acct ∧
      OnlyEntry 0 oneProcess (oneProcess.processDelayAcct {acPid := 5}) :=
  (consistent_iff (r := oneProcess) (t := {acPid := 5}) (p := 0) rfl).mpr rfl

/-- **A reply that is not kept consistently**: three seconds of run time become the delay of the CPU. -/
theorem run_time_kept_as_delay :
    oneProcess.getProcEntry 5 = some 0 ∧
      ¬Consistent {acPid := 5, cpuCount := 2, cpuRunVirtualTotal := 3000000000, cpuDelayTotal := 4000000}
        ((oneProcess.processDelayAcct
          {acPid := 5, cpuCount := 2, cpuRunVirtualTotal := 3000000000, cpuDelayTotal := 4000000}).procs 0).acct := by
  refine ⟨rfl, fun h => ?_⟩
  have htotal := h.cpu.total
  revert htotal
  decide +kernel

end Registry
end TaskMonitor

import Mathlib.Data.UInt

/-! Accounting records (`ProcAcct.cpp`).

`Taskstats` is what the kernel sends about a process, as far as it is read, and
`ProcAcct` what an entry keeps of it, setter by setter. -/
namespace TaskMonitor

structure Taskstats where
  acComm : List Char := []
  acUid : UInt32 := 0
  acGid : UInt32 := 0
  acPid : UInt32 := 0
  acPpid : UInt32 := 0
  acUtime : UInt64 := 0
  acStime : UInt64 := 0
  cpuCount : UInt64 := 0
  cpuRunRealTotal : UInt64 := 0
  cpuRunVirtualTotal : UInt64 := 0
  cpuDelayTotal : UInt64 := 0
  coremem : UInt64 := 0
  virtmem : UInt64 := 0
  hiwaterRss : UInt64 := 0
  hiwaterVm : UInt64 := 0
  nvcsw : UInt64 := 0
  nivcsw : UInt64 := 0
  blkioCount : UInt64 := 0
  blkioDelayTotal : UInt64 := 0
  readBytes : UInt64 := 0
  writeBytes : UInt64 := 0
  readChar : UInt64 := 0
  writeChar : UInt64 := 0
  readSyscalls : UInt64 := 0
  writeSyscalls : UInt64 := 0
  swapinCount : UInt64 := 0
  swapinDelayTotal : UInt64 := 0
  freepagesCount : UInt64 := 0
  freepagesDelayTotal : UInt64 := 0
  thrashingCount : UInt64 := 0
  thrashingDelayTotal : UInt64 := 0
deriving Repr, DecidableEq

namespace ProcAcct

structure CPU where
  cpuCount : UInt64 := 0
  cpuRunRealTotal : UInt64 := 0
  cpuRunVirtualTotal : UInt64 := 0
  cpuDelayTotal : UInt64 := 0
  cpuDelayAverage : UInt64 := 0
deriving Repr, DecidableEq

structure Mem where
  coremem : UInt64 := 0
  virtmem : UInt64 := 0
  hiwaterRss : UInt64 := 0
  hiwaterVm : UInt64 := 0
deriving Repr, DecidableEq

structure Ctx where
  nvcsw : UInt64 := 0
  nivcsw : UInt64 := 0
deriving Repr, DecidableEq

structure Io where
  blkioCount : UInt64 := 0
  blkioDelayTotal : UInt64 := 0
  blkioDelayAverage : UInt64 := 0
  readBytes : UInt64 := 0
  writeBytes : UInt64 := 0
  readChar : UInt64 := 0
  writeChar : UInt64 := 0
  readSyscalls : UInt64 := 0
  writeSyscalls : UInt64 := 0
deriving Repr, DecidableEq

structure Swp where
  swapinCount : UInt64 := 0
  swapinDelayTotal : UInt64 := 0
  swapinDelayAverage : UInt64 := 0
deriving Repr, DecidableEq

structure Reclaim where
  freepagesCount : UInt64 := 0
  freepagesDelayTotal : UInt64 := 0
  freepagesDelayAverage : UInt64 := 0
deriving Repr, DecidableEq

structure Thrashing where
  thrashingCount : UInt64 := 0
  thrashingDelayTotal : UInt64 := 0
  thrashingDelayAverage : UInt64 := 0
deriving Repr, DecidableEq

end ProcAcct

structure ProcAcct where
  acComm : List Char := []
  acUid : UInt32 := 0
  acGid : UInt32 := 0
  acPid : UInt32 := 0
  acPpid : UInt32 := 0
  acUtime : UInt64 := 0
  acStime : UInt64 := 0
  cpu : ProcAcct.CPU := {}
  mem : ProcAcct.Mem := {}
  ctx : ProcAcct.Ctx := {}
  io : ProcAcct.Io := {}
  swp : ProcAcct.Swp := {}
  reclaim : ProcAcct.Reclaim := {}
  thrashing : ProcAcct.Thrashing := {}
deriving Repr, DecidableEq

/-- `average_ms` -/
def averageMs (t c : UInt64) : UInt64 := t / 1000000 / (if c ≠ 0 then c else 1)

/-- What `processDelayAcct` sets. -/
def ProcAcct.ofTaskstats (t : Taskstats) : ProcAcct where
  acComm := t.acComm
  acUid := t.acUid
  acGid := t.acGid
  acPid := t.acPid
  acPpid := t.acPpid
  acUtime := t.acUtime
  acStime := t.acStime
  cpu :=
    {cpuCount := t.cpuCount
     cpuRunRealTotal := t.cpuRunRealTotal
     cpuRunVirtualTotal := t.cpuRunVirtualTotal
     -- the total of the run time, not of the delay
     cpuDelayTotal := t.cpuRunVirtualTotal
     cpuDelayAverage := averageMs t.cpuDelayTotal t.cpuCount}
  mem :=
    {coremem := t.coremem
     virtmem := t.virtmem
     hiwaterRss := t.hiwaterRss
     hiwaterVm := t.hiwaterVm}
  ctx :=
    {nvcsw := t.nvcsw
     nivcsw := t.nivcsw}
  io :=
    {blkioCount := t.blkioCount
     blkioDelayTotal := t.blkioDelayTotal
     blkioDelayAverage := averageMs t.blkioDelayTotal t.blkioCount
     readBytes := t.readBytes
     writeBytes := t.writeBytes
     readChar := t.readChar
     writeChar := t.writeChar
     readSyscalls := t.readSyscalls
     writeSyscalls := t.writeSyscalls}
  swp :=
    {swapinCount := t.swapinCount
     swapinDelayTotal := t.swapinDelayTotal
     swapinDelayAverage := averageMs t.swapinDelayTotal t.swapinCount}
  reclaim :=
    {freepagesCount := t.freepagesCount
     freepagesDelayTotal := t.freepagesDelayTotal
     freepagesDelayAverage := averageMs t.freepagesDelayTotal t.freepagesCount}
  thrashing :=
    {thrashingCount := t.thrashingCount
     thrashingDelayTotal := t.thrashingDelayTotal
     thrashingDelayAverage := averageMs t.thrashingDelayTotal t.thrashingCount}

theorem toNat_averageMs (t c : UInt64) : (averageMs t c).toNat = t.toNat / (1000000 * max c.toNat 1) := by
  have hc : (if c ≠ 0 then c else 1).toNat = max c.toNat 1 := by
    by_cases h0 : c = 0
    · subst h0
      rfl
    · have hpos : 0 < c.toNat := Nat.pos_of_ne_zero fun h => h0 (UInt64.toNat_inj.mp h)
      rw [if_pos h0]
      omega
  rw [averageMs, UInt64.toNat_div, hc, UInt64.toNat_div, Nat.div_div_eq_div_mul]
  rfl

end TaskMonitor

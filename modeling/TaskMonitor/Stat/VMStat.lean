import TaskMonitor.Stat.MemInfo

/-! Virtual memory statistics (`SysProcVMStat.cpp`).

Read as the memory information is. A key is followed by the blank before its
number, but for the first. -/
namespace TaskMonitor
open Lines Text

structure SysProcVMStat where
  pgpgin : UInt64 := 0
  pgpgout : UInt64 := 0
  pswpin : UInt64 := 0
  pswpout : UInt64 := 0
  pgmajfault : UInt64 := 0
  pgreuse : UInt64 := 0
  pgstealKswapd : UInt64 := 0
  pgstealDirect : UInt64 := 0
  pgstealKhugepaged : UInt64 := 0
  pgstealAnon : UInt64 := 0
  pgstealFile : UInt64 := 0
  pgscanKswapd : UInt64 := 0
  pgscanDirect : UInt64 := 0
  pgscanKhugepaged : UInt64 := 0
  pgscanDirectThrottle : UInt64 := 0
  pgscanAnon : UInt64 := 0
  pgscanFile : UInt64 := 0
  oomKill : UInt64 := 0
  compactStall : UInt64 := 0
  compactFail : UInt64 := 0
  compactSuccess : UInt64 := 0
  thpFaultAlloc : UInt64 := 0
  thpCollapseAlloc : UInt64 := 0
  thpCollapseAllocFailed : UInt64 := 0
  thpFileAlloc : UInt64 := 0
  thpFileMapped : UInt64 := 0
  thpSplitPage : UInt64 := 0
  thpSplitPageFailed : UInt64 := 0
  thpZeroPageAlloc : UInt64 := 0
  thpZeroPageAllocFailed : UInt64 := 0
  thpSwpout : UInt64 := 0
  thpSwpoutFallback : UInt64 := 0
deriving Repr, DecidableEq

namespace SysProcVMStat

def table : List (List Char × (UInt64 → SysProcVMStat → SysProcVMStat)) :=
  [("pgpgin".toList, fun n v => {v with pgpgin := n}),
    ("pgpgout ".toList, fun n v => {v with pgpgout := n}),
    ("pswpin ".toList, fun n v => {v with pswpin := n}),
    ("pswpout ".toList, fun n v => {v with pswpout := n}),
    ("pgmajfault ".toList, fun n v => {v with pgmajfault := n}),
    ("pgreuse ".toList, fun n v => {v with pgreuse := n}),
    ("pgsteal_kswapd ".toList, fun n v => {v with pgstealKswapd := n}),
    ("pgsteal_direct ".toList, fun n v => {v with pgstealDirect := n}),
    ("pgsteal_khugepaged ".toList, fun n v => {v with pgstealKhugepaged := n}),
    ("pgsteal_anon ".toList, fun n v => {v with pgstealAnon := n}),
    ("pgsteal_file ".toList, fun n v => {v with pgstealFile := n}),
    ("pgscan_kswapd ".toList, fun n v => {v with pgscanKswapd := n}),
    ("pgscan_direct ".toList, fun n v => {v with pgscanDirect := n}),
    ("pgscan_khugepaged ".toList, fun n v => {v with pgscanKhugepaged := n}),
    ("pgscan_direct_throttle ".toList, fun n v => {v with pgscanDirectThrottle := n}),
    ("pgscan_anon ".toList, fun n v => {v with pgscanAnon := n}),
    ("pgscan_file ".toList, fun n v => {v with pgscanFile := n}),
    ("oom_kill ".toList, fun n v => {v with oomKill := n}),
    ("compact_stall ".toList, fun n v => {v with compactStall := n}),
    ("compact_fail ".toList, fun n v => {v with compactFail := n}),
    ("compact_success ".toList, fun n v => {v with compactSuccess := n}),
    ("thp_fault_alloc ".toList, fun n v => {v with thpFaultAlloc := n}),
    ("thp_collapse_alloc ".toList, fun n v => {v with thpCollapseAlloc := n}),
    ("thp_collapse_alloc_failed ".toList, fun n v => {v with thpCollapseAllocFailed := n}),
    ("thp_file_alloc ".toList, fun n v => {v with thpFileAlloc := n}),
    ("thp_file_mapped ".toList, fun n v => {v with thpFileMapped := n}),
    ("thp_split_page ".toList, fun n v => {v with thpSplitPage := n}),
    ("thp_split_page_failed ".toList, fun n v => {v with thpSplitPageFailed := n}),
    ("thp_zero_page_alloc ".toList, fun n v => {v with thpZeroPageAlloc := n}),
    ("thp_zero_page_alloc_failed ".toList, fun n v => {v with thpZeroPageAllocFailed := n}),
    ("thp_swpout ".toList, fun n v => {v with thpSwpout := n}),
    ("thp_swpout_fallback ".toList, fun n v => {v with thpSwpoutFallback := n})]

def doUpdateStats (file : Option (List (List Char))) : EStateM Fault SysProcVMStat Bool :=
  match file with
  | none => throw .notOpen
  | some lines => read (counterLine table) lines

def kind : SourceKind (Option (List (List Char))) SysProcVMStat SysProcVMStat where
  doUpdateStats := doUpdateStats
  collect := id

/-- The update ends with a status exactly if the number of every line of a key that is reached
can be converted. -/
theorem ends_doUpdateStats_iff (lines : List (List Char)) (v : SysProcVMStat) :
    Ends (doUpdateStats (some lines)) v ↔ Reached (Countable table) (CutShort table) lines :=
  ends_read_iff ends_counterLine_iff (fun _ _ _ _ => counterLine_next) lines v

end SysProcVMStat
end TaskMonitor

import TaskMonitor.Stat.DiskStats
import TaskMonitor.Stat.SysProcStat
import TaskMonitor.Stat.Wireless

/-! Devices that are gone.

The lists of CPUs, disks and interfaces only grow: a device that was read once is
sent with every collection, with the values of the last line it had. What is sent
is what occurred in any content since the start (`sent_since_start`). -/
namespace TaskMonitor
open Lines Text Roster Transition Source

abbrev File := Option (List (List Char))

/-! ### What a list is built from -/

namespace SysProcDiskStats

/-- The lines of the contents. -/
def linesRead (contents : List File) : List (List Char) := contents.flatMap fun file => file.getD []

theorem doUpdateStats_built {history : List (List Char)} {file : File} {disks disks' : List DiskStat}
    (h : Built DiskStat.node nodeOf newDisk updateOf history disks) (hok : doUpdateStats file disks = .ok true disks') :
    Built DiskStat.node nodeOf newDisk updateOf (history ++ file.getD []) disks' := by
  cases file with
  | none => exact absurd hok throw_ok
  | some lines =>
    exact read_all_built h hok (fun _ => rfl) (fun _ _ _ _ _ hupd => (updateOf_ok hupd).1)
      (fun _ _ _ hline => diskLine_upserts hline) (fun _ _ _ _ hline => diskLine_stop hline)

/-- A line overwrites all of a disk. -/
theorem outcome_updateOf (line : List Char) (d e : DiskStat) : outcome (updateOf line) d = outcome (updateOf line) e :=
  outcome_congr (fun _ hu => (updateOf_ok hu).2 e) fun _ hu => (updateOf_ok hu).2 d

/-- A listed disk has the values of its most recent line. -/
theorem carried_of_built {history : List (List Char)} {disks : List DiskStat}
    (h : Built DiskStat.node nodeOf newDisk updateOf history disks) :
    Latest nodeOf DiskStat.node Carries history disks := by
  apply h.latest
  · exact fun _ => rfl
  · exact fun _ _ _ _ _ hupd => (updateOf_ok hupd).1
  · exact fun line d _ => outcome_updateOf line d (newDisk line)
  · exact fun _ _ _ => Iff.rfl
  · exact fun _ _ heq => heq
  · intro line _ d hd
    obtain ⟨_, hupd⟩ := outcome_eq_some.mp hd
    exact carries_of_updateOf hupd

end SysProcDiskStats

namespace SysProcWireless

/-- The lines of the contents, without the headers. -/
def linesRead (contents : List File) : List (List Char) := contents.flatMap fun file => (file.getD []).drop 2

def newInterface (line : List Char) : WlanInterface := {name := nameOf line}

def updateOf (line : List Char) : EStateM Fault WlanInterface Unit := updateWlanInterfaceEntry (Text.words line)

theorem updateOf_name {line : List Char} {w w' : WlanInterface} {u : Unit} (hw : w.name = nameOf line)
    (h : updateOf line w = .ok u w') : w'.name = nameOf line :=
  (updateWlanInterfaceEntry_ok h).1.trans hw

theorem doUpdateStats_built {history : List (List Char)} {file : File} {nodes nodes' : List WlanInterface}
    (h : Built WlanInterface.name nameOf newInterface updateOf history nodes)
    (hok : doUpdateStats file nodes = .ok true nodes') :
    Built WlanInterface.name nameOf newInterface updateOf (history ++ (file.getD []).drop 2) nodes' := by
  cases file with
  | none => exact absurd hok throw_ok
  | some lines =>
    exact read_all_built h hok (fun _ => rfl) (fun _ _ _ _ hw hupd => updateOf_name hw hupd)
      (fun _ _ _ hline => wlanLine_upserts hline) (fun _ _ _ _ hline => wlanLine_stop hline)

/-- A line overwrites all of an interface but its name. -/
theorem outcome_updateOf (line : List Char) {w v : WlanInterface} (hname : w.name = v.name) :
    outcome (updateOf line) w = outcome (updateOf line) v :=
  outcome_congr (fun _ hu => (updateWlanInterfaceEntry_ok hu).2 v hname.symm)
    fun _ hu => (updateWlanInterfaceEntry_ok hu).2 w hname

/-- A listed interface has the values of its most recent line. -/
theorem carried_of_built {history : List (List Char)} {nodes : List WlanInterface}
    (h : Built WlanInterface.name nameOf newInterface updateOf history nodes) :
    Latest nameOf WlanInterface.name Carries history nodes := by
  apply h.latest
  · exact fun _ => rfl
  · exact fun _ _ _ _ hw hupd => updateOf_name hw hupd
  · exact fun line w hw => outcome_updateOf line hw
  · exact fun _ _ _ => Iff.rfl
  · exact fun _ _ heq => heq
  · intro line _ w hw
    obtain ⟨_, hupd⟩ := outcome_eq_some.mp hw
    exact carries_of_update rfl hupd

end SysProcWireless

namespace SysProcStat

/-- The lines of CPUs of the contents. -/
def linesRead (contents : List File) : List (List Char) :=
  contents.flatMap fun file => (file.getD []).takeWhile fun line => decide ("cpu".toList <:+: line)

def newCPU (line : List Char) : CPUStat := {name := nameOf line}

def updateOf (line : List Char) : EStateM Fault CPUStat Unit := CPUStat.feed (dataOf line)

/-- A list of CPUs that was built from lines, each of which was scanned. -/
structure Scanned (history : List (List Char)) (cpus : List CPUStat) : Prop where
  built : Built CPUStat.name nameOf newCPU updateOf history cpus
  scanned : ∀ line ∈ history, (scan line).isSome = true

theorem scanned_nil : Scanned [] [] := ⟨built_nil, by simp⟩

theorem doUpdateStats_scanned {history : List (List Char)} {file : File} {cpus cpus' : List CPUStat}
    (h : Scanned history cpus) (hok : doUpdateStats file cpus = .ok true cpus') :
    Scanned (history ++ linesRead [file]) cpus' := by
  cases file with
  | none => exact absurd hok throw_ok
  | some lines =>
    obtain ⟨taken, rest, hlines, hgood, hbuilt, hend⟩ :=
      read_built h.built hok (fun _ => rfl) (fun _ _ _ _ hname hupd => (feed_name hupd).trans hname)
        (fun _ _ _ hline => statLine_upserts hline) (fun _ _ _ _ hline => statLine_stop hline)
    have htaken : linesRead [some lines] = taken := by
      have hall : ∀ line ∈ taken, decide ("cpu".toList <:+: line) = true := fun line hline =>
        decide_eq_true (hgood line hline).1
      simp only [linesRead, List.flatMap_singleton, Option.getD_some]
      rw [hlines, List.takeWhile_append_of_pos hall]
      rcases hend with rfl | ⟨line, rest', rfl, hnot⟩
      · simp
      · rw [List.takeWhile_cons_of_neg (by simpa only [decide_eq_true_eq] using hnot), List.append_nil]
    rw [htaken]
    refine ⟨hbuilt, fun line hline => ?_⟩
    rcases List.mem_append.mp hline with hline | hline
    · exact h.scanned line hline
    · exact (hgood line hline).2

/-- The lines of a CPU. -/
def own (name : List Char) (lines : List (List Char)) : List (List Char) :=
  lines.filter fun line => decide (nameOf line = name)

/-- The samples of a CPU's own lines, in order. -/
def samplesOf (name : List Char) (lines : List (List Char)) : List CPUStatData := (own name lines).map dataOf

/-- The updates that the samples of a CPU's own lines make, in order; what a sample is of its line is given. -/
def Grew (sample : List Char → CPUStatData → Prop) (lines : List (List Char)) (name : List Char)
    (outcome : Option CPUStat) : Prop :=
  ∃ samples, List.Forall₂ sample (own name lines) samples ∧ run CPUStat.updateStats {name := name} samples = outcome

/-- One entry for each CPU of the lines, which was fed the samples of its own lines. -/
structure Fed (sample : List Char → CPUStatData → Prop) (lines : List (List Char)) (cpus : List CPUStat) : Prop where
  nodup : (cpus.map CPUStat.name).Nodup
  listed : ∀ name, name ∈ cpus.map CPUStat.name ↔ ∃ line ∈ lines, nameOf line = name
  fed : ∀ s ∈ cpus, Grew sample lines s.name (some s)

theorem outcome_feed (data : CPUStatData) (s : CPUStat) : outcome (CPUStat.feed data) s = s.updateStats data := by
  unfold outcome CPUStat.feed
  cases s.updateStats data <;> rfl

theorem foldlM_feed (lines : List (List Char)) (s : CPUStat) :
    lines.foldlM (fun s line => outcome (updateOf line) s) s = run CPUStat.updateStats s (lines.map dataOf) := by
  induction lines generalizing s with
  | nil => rfl
  | cons line rest ih =>
    rw [List.foldlM_cons, List.map_cons, run, updateOf, outcome_feed]
    exact congrArg (Option.bind _) (funext fun t => ih t)

/-- What the lines of one CPU make of its entry is the run of their samples. -/
theorem grown_eq_run {name : List Char} {lines : List (List Char)} (hne : lines ≠ [])
    (hall : ∀ line ∈ lines, nameOf line = name) :
    grown newCPU updateOf lines = run CPUStat.updateStats {name := name} (lines.map dataOf) := by
  obtain ⟨line, rest, rfl⟩ := List.exists_cons_of_ne_nil hne
  have hnew : newCPU line = {name := name} := by rw [newCPU, hall line (List.mem_cons_self ..)]
  rw [grown, foldlM_feed, hnew]

variable {history : List (List Char)} {cpus : List CPUStat}

theorem run_own (h : Built CPUStat.name nameOf newCPU updateOf history cpus) {s : CPUStat} (hs : s ∈ cpus) :
    run CPUStat.updateStats {name := s.name} (samplesOf s.name history) = some s := by
  obtain ⟨line, hline, hname⟩ := (h.seen.listed s.name).mp (List.mem_map_of_mem hs)
  have hown : line ∈ own s.name history := List.mem_filter.mpr ⟨hline, decide_eq_true hname⟩
  rw [samplesOf, ← grown_eq_run (List.ne_nil_of_mem hown) fun l hl => of_decide_eq_true (List.mem_filter.mp hl).2]
  exact h.grown_of_mem hs

/-- The samples of scanned lines are what is taken from them. -/
theorem taken_own (hscan : ∀ line ∈ history, (scan line).isSome = true) (name : List Char) :
    List.Forall₂ Taken (own name history) (samplesOf name history) :=
  List.forall₂_map_right_iff.mpr <| List.forall₂_same.mpr fun line hline =>
    taken_dataOf (hscan line (List.mem_of_mem_filter hline))

theorem Scanned.fed (h : Scanned history cpus) : Fed Taken history cpus :=
  ⟨h.built.nodup, h.built.seen.listed, fun s hs => ⟨_, taken_own h.scanned s.name, run_own h.built hs⟩⟩

/-- Each CPU of the lines is sent once, as what the samples of its own lines made of it. -/
structure Sent (lines : List (List Char)) (items : List CPUStatItem) : Prop where
  nodup : (items.map CPUStatItem.name).Nodup
  listed : ∀ name, name ∈ items.map CPUStatItem.name ↔ ∃ line ∈ lines, nameOf line = name
  made : ∀ item ∈ items, ∃ s, Grew Taken lines item.name (some s) ∧ item = s.getData

theorem Fed.sent (h : Fed Taken history cpus) : Sent history (collect cpus).items := by
  have hperm := collect_items_perm h.nodup
  have hnames : ((collect cpus).items.map CPUStatItem.name).Perm (cpus.map CPUStat.name) := by
    have := hperm.map CPUStatItem.name
    rwa [List.map_map] at this
  refine ⟨hnames.nodup_iff.mpr h.nodup, fun name => ?_, fun item hitem => ?_⟩
  · rw [hnames.mem_iff]
    exact h.listed name
  · obtain ⟨s, hs, rfl⟩ := List.mem_map.mp (hperm.mem_iff.mp hitem)
    exact ⟨s, h.fed s hs, rfl⟩

end SysProcStat

/-! ### What is sent -/

/-- The next collection sends a message with the property. -/
def Source.Sends {E D C M : Type} (k : SourceKind E D M) (s : Source D C M) (P : M → Prop) : Prop :=
  ∀ env collector, ∃ m,
    requestHandler k env (.collectAndSend collector) s = .ok true {s with sent := s.sent ++ [(collector, m)]} ∧ P m

theorem Source.Sends.collect {E D C M : Type} {k : SourceKind E D M} {s : Source D C M} {P : M → Prop}
    (h : Sends k s P) (env : E) (collector : C) : P (k.collect s.data) := by
  obtain ⟨m, hm, hP⟩ := h env collector
  have hsent : s.sent ++ [(collector, k.collect s.data)] = s.sent ++ [(collector, m)] :=
    congrArg Source.sent (EStateM.Result.ok.inj hm).2
  obtain rfl : k.collect s.data = m := by simpa using hsent
  exact hP

section
variable {C : Type} {cpus : Source (List CPUStat) C StatEvent} {disks : Source (List DiskStat) C (List DiskStat)}
  {nodes : Source (List WlanInterface) C (List WlanInterface)}

/-- **What is sent is what occurred since the start**: after successful updates, a collection sends
the CPUs, disks and interfaces of all contents read, once each; a disk or interface with the values
of its most recent line, a CPU with what its own samples made of it. -/
theorem sent_since_start {cpuLabels diskLabels nodeLabels : List (Source.Label File C)}
    (hcpus : run (step SysProcStat.kind) {data := []} cpuLabels = some cpus)
    (hcpusOk : Meets (step SysProcStat.kind) (Succeeds SysProcStat.kind) ({data := []} : Source _ C _) cpuLabels)
    (hdisks : run (step SysProcDiskStats.kind) {data := []} diskLabels = some disks)
    (hdisksOk :
      Meets (step SysProcDiskStats.kind) (Succeeds SysProcDiskStats.kind) ({data := []} : Source _ C _) diskLabels)
    (hnodes : run (step SysProcWireless.kind) {data := []} nodeLabels = some nodes)
    (hnodesOk :
      Meets (step SysProcWireless.kind) (Succeeds SysProcWireless.kind) ({data := []} : Source _ C _) nodeLabels) :
    (Sends SysProcStat.kind cpus fun m =>
      SysProcStat.Sent (SysProcStat.linesRead (contents SysProcStat.kind {data := []} cpuLabels)) m.items) ∧
    (Sends SysProcDiskStats.kind disks fun m =>
      Latest SysProcDiskStats.nodeOf DiskStat.node SysProcDiskStats.Carries
        (SysProcDiskStats.linesRead (contents SysProcDiskStats.kind {data := []} diskLabels)) m) ∧
    (Sends SysProcWireless.kind nodes fun m =>
      Latest SysProcWireless.nameOf WlanInterface.name SysProcWireless.Carries
        (SysProcWireless.linesRead (contents SysProcWireless.kind {data := []} nodeLabels)) m) := by
  refine ⟨fun env collector => ⟨_, rfl, ?_⟩, fun env collector => ⟨_, rfl, ?_⟩, fun env collector => ⟨_, rfl, ?_⟩⟩
  · have hscanned : SysProcStat.Scanned (SysProcStat.linesRead (contents SysProcStat.kind {data := []} cpuLabels)) cpus.data := by
      refine history_start (P := fun read => SysProcStat.Scanned (SysProcStat.linesRead read)) ?_
        SysProcStat.scanned_nil hcpusOk hcpus
      intro before env d d' hb hok
      have := SysProcStat.doUpdateStats_scanned hb hok
      simpa [SysProcStat.linesRead] using this
    exact hscanned.fed.sent
  · refine SysProcDiskStats.carried_of_built ?_
    refine history_start (P := fun read => Built DiskStat.node SysProcDiskStats.nodeOf SysProcDiskStats.newDisk
      SysProcDiskStats.updateOf (SysProcDiskStats.linesRead read)) ?_ built_nil hdisksOk hdisks
    intro before env d d' hb hok
    have := SysProcDiskStats.doUpdateStats_built hb hok
    simpa [SysProcDiskStats.linesRead] using this
  · refine SysProcWireless.carried_of_built ?_
    refine history_start (P := fun read => Built WlanInterface.name SysProcWireless.nameOf SysProcWireless.newInterface
      SysProcWireless.updateOf (SysProcWireless.linesRead read)) ?_ built_nil hnodesOk hnodes
    intro before env d d' hb hok
    have := SysProcWireless.doUpdateStats_built hb hok
    simpa [SysProcWireless.linesRead] using this

end

/-- A line of a disk. -/
def diskText (minor name : String) : List Char :=
  ("8 " ++ minor ++ " " ++ name ++ " 1 2 3 4 5 6 7 8 9 10 11 12 13 14 15 16 17").toList

/-- Two updates of the disks: the second disk is gone in the second. -/
def goneLabels : List (Source.Label File Unit) :=
  [.update true, .dispatch (some [diskText "0" "sda", diskText "16" "sdb"]), .update true,
    .dispatch (some [diskText "0" "sda"])]

/-- The two disks after the two updates. -/
def goneDisks : Source (List DiskStat) Unit (List DiskStat) where
  data :=
    [{nodeMajor := 8, nodeMinor := 0, name := "sda".toList, readsCompleted := 1, readsMerged := 2, readsSpentMs := 4,
        writesCompleted := 5, writesMerged := 6, writesSpentMs := 8, ioInProgress := 9, ioSpentMs := 10,
        ioWeightedMs := 11},
      {nodeMajor := 8, nodeMinor := 16, name := "sdb".toList, readsCompleted := 1, readsMerged := 2, readsSpentMs := 4,
        writesCompleted := 5, writesMerged := 6, writesSpentMs := 8, ioInProgress := 9, ioSpentMs := 10,
        ioWeightedMs := 11}]

/-- An update of the CPUs, with one CPU. -/
def cpuLabels : List (Source.Label File Unit) :=
  [.update true, .dispatch (some ["cpu 1 2 3 4 5 6 7 8 9 10".toList, "intr 5".toList])]

/-- The CPU after its first line. -/
def firstCPU : Source (List CPUStat) Unit StatEvent where
  data := [{name := "cpu".toList, last := ⟨1, 2, 3, 4, 5, 6, 7, 8, 9, 10⟩}]

/-- An update of the interfaces: the two header lines. -/
def nodeLabels : List (Source.Label File Unit) := [.update true, .dispatch (some [[], []])]

/-- What is sent of the CPU, of the two disks, and of no interface. -/
theorem sent_since_updates :
    (Sends SysProcStat.kind firstCPU fun m =>
      SysProcStat.Sent (SysProcStat.linesRead (contents SysProcStat.kind {data := []} cpuLabels)) m.items) ∧
    (Sends SysProcDiskStats.kind goneDisks fun m =>
      Latest SysProcDiskStats.nodeOf DiskStat.node SysProcDiskStats.Carries
        (SysProcDiskStats.linesRead (contents SysProcDiskStats.kind {data := []} goneLabels)) m) ∧
    (Sends SysProcWireless.kind ({data := []} : Source (List WlanInterface) Unit (List WlanInterface)) fun m =>
      Latest SysProcWireless.nameOf WlanInterface.name SysProcWireless.Carries
        (SysProcWireless.linesRead (contents SysProcWireless.kind {data := []} nodeLabels)) m) :=
  sent_since_start (by decide +kernel) (by decide +kernel) (by decide +kernel) (by decide +kernel) (by decide +kernel)
    (by decide +kernel)

/-- **A disk that is gone is sent**: it is not in the content last read. -/
theorem gone_disk_sent :
    run (step SysProcDiskStats.kind) {data := []} goneLabels = some goneDisks ∧
      Meets (step SysProcDiskStats.kind) (Succeeds SysProcDiskStats.kind)
        ({data := []} : Source (List DiskStat) Unit (List DiskStat)) goneLabels ∧
      ¬Sends SysProcDiskStats.kind goneDisks fun m =>
        ∀ node, node ∈ m.map DiskStat.node ↔ ∃ line ∈ [diskText "0" "sda"], SysProcDiskStats.nodeOf line = node := by
  refine ⟨by decide +kernel, by decide +kernel, fun h => ?_⟩
  have hgone := (h.collect none () (8, 16)).mp (by decide)
  revert hgone
  decide +kernel

end TaskMonitor

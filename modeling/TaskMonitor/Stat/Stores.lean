import TaskMonitor.Stat.Devices

/-! Stores with one entry for each key (`SysProcDiskStats.cpp`, `SysProcWireless.cpp`, `SysProcStat.cpp`).

Each line looks for the entry of its key and lists a new one if there is none.
Whatever lines were read, in whatever order and repeated as they may be, a store
has one entry for each key that occurred: of a disk or an interface with the values
of its most recent line (`Latest`), of a CPU with what the samples of its own lines
made of it (`Fed`). The last alone can be stopped, by a sample that traps. -/
namespace TaskMonitor
open Lines Text Roster Transition

/-! ### Disks -/

/-- What a disk is known by, as numbers. -/
def DiskStat.key (d : DiskStat) : Nat × Nat := (d.nodeMajor.toNat, d.nodeMinor.toNat)

namespace SysProcDiskStats

/-- A line with all its tokens, numbers where numbers are read, and the numbers of a node below 2^32. -/
structure WellFormed (line : List Char) : Prop where
  long : 20 ≤ (words line).length
  major : ∃ n, numberAt line 0 = some n ∧ n.toNat < 2 ^ 32
  minor : ∃ n, numberAt line 1 = some n ∧ n.toNat < 2 ^ 32
  counted : ∀ row ∈ DiskStat.counters, (numberAt line row.1).isSome = true

/-- The major and minor number of a line. -/
def keyOf (line : List Char) : Nat × Nat := (((numberAt line 0).getD 0).toNat, ((numberAt line 1).getD 0).toNat)

/-- The entry has the key and the values of the line. -/
structure Holds (d : DiskStat) (line : List Char) : Prop where
  key : d.key = keyOf line
  carries : Carries d line

variable {line : List Char} {disks disks' : List DiskStat}

theorem WellFormed.keyOf_eq (h : WellFormed line) : keyOf line = ((nodeOf line).1.toNat, (nodeOf line).2.toNat) := by
  obtain ⟨major, hmajor, hmajorlt⟩ := h.major
  obtain ⟨minor, hminor, hminorlt⟩ := h.minor
  have hnode : nodeOf line = (major.toUInt32, minor.toUInt32) := by
    show (((numberAt line 0).getD 0).toUInt32, ((numberAt line 1).getD 0).toUInt32) = _
    rw [hmajor, hminor]
    rfl
  rw [keyOf, hnode, hmajor, hminor, UInt64.toNat_toUInt32, UInt64.toNat_toUInt32, Nat.mod_eq_of_lt hmajorlt,
    Nat.mod_eq_of_lt hminorlt]
  rfl

theorem key_eq_iff {d e : DiskStat} : d.key = e.key ↔ d.node = e.node := by
  simp [DiskStat.key, DiskStat.node, UInt32.toNat_inj]

/-- Below 2^32 the two kinds of key are one. -/
theorem WellFormed.key_iff (h : WellFormed line) (d : DiskStat) : keyOf line = d.key ↔ nodeOf line = d.node := by
  rw [h.keyOf_eq]
  simp [DiskStat.key, DiskStat.node, Prod.ext_iff, UInt32.toNat_inj]

/-- A well-formed line goes on, and is an upsert. -/
theorem WellFormed.next (h : WellFormed line) (disks : List DiskStat) :
    ∃ disks', diskLine line disks = .ok .next disks' ∧
      Roster.upsert (fun d => decide (d.node = nodeOf line)) (updateOf line) (newDisk line) disks = .ok () disks' := by
  obtain ⟨major, hmajor, _⟩ := h.major
  obtain ⟨minor, hminor, _⟩ := h.minor
  obtain ⟨flow, disks', hline⟩ := (ends_diskLine_iff line disks).mpr fun _ =>
    ⟨converts_stoul_iff.mpr (by rw [hmajor]; rfl), converts_stoul_iff.mpr (by rw [hminor]; rfl),
      fun row hrow => converts_stoul_iff.mpr (h.counted row hrow)⟩
  obtain rfl := (diskLine_next hline).mpr (Nat.not_lt.mpr h.long)
  exact ⟨disks', hline, diskLine_upserts hline⟩

/-- A line makes an entry of its values. -/
theorem WellFormed.holds (h : WellFormed line) {d : DiskStat} (hd : outcome (updateOf line) (newDisk line) = some d) :
    Holds d line := by
  obtain ⟨_, hupd⟩ := outcome_eq_some.mp hd
  have hcarries := carries_of_updateOf hupd
  exact ⟨((h.key_iff d).mpr hcarries.node.symm).symm, hcarries⟩

/-- After well-formed lines the store is up to date. -/
theorem latest_of_built {history : List (List Char)} (hwell : ∀ line ∈ history, WellFormed line)
    (h : Built DiskStat.node nodeOf newDisk updateOf history disks) : Latest keyOf DiskStat.key Holds history disks := by
  apply h.latest
  · exact fun _ => rfl
  · exact fun _ _ _ _ _ hupd => (updateOf_ok hupd).1
  · exact fun line d _ => outcome_updateOf line d (newDisk line)
  · exact fun l hl d => (hwell l hl).key_iff d
  · exact fun _ _ => key_eq_iff.mp
  · exact fun l hl d hd => (hwell l hl).holds hd

/-- **The disks after any well-formed contents.** -/
theorem latest_disks {contents : List (List (List Char))} (hwell : ∀ file ∈ contents, ∀ line ∈ file, WellFormed line) :
    ∃ disks, run kind.updated [] (contents.map some) = some disks ∧
      Latest keyOf DiskStat.key Holds contents.flatten disks := by
  have hfile : ∀ file ∈ contents, ∀ history disks, Built DiskStat.node nodeOf newDisk updateOf history disks →
      ∃ disks', kind.updated disks (some file) = some disks' ∧
        Built DiskStat.node nodeOf newDisk updateOf (history ++ id file) disks' := by
    intro file hfile history disks h
    obtain ⟨disks', hread, hbuilt⟩ := read_items h (fun _ => rfl) (fun _ _ _ _ _ hupd => (updateOf_ok hupd).1)
      fun line hline => (hwell file hfile line hline).next
    rw [List.map_id'] at hread
    exact ⟨disks', SourceKind.updated_iff.mpr hread, hbuilt⟩
  obtain ⟨disks, hrun, hbuilt⟩ := run_built hfile
  rw [← List.flatten_eq_flatMap] at hbuilt
  refine ⟨disks, hrun, latest_of_built (fun line hline => ?_) hbuilt⟩
  obtain ⟨file, hfile, hmem⟩ := List.mem_flatten.mp hline
  exact hwell file hfile line hmem

/-- A line changes no disk of another key. -/
theorem frame_disk (h : WellFormed line) (hn : (disks.map DiskStat.key).Nodup)
    (hline : diskLine line disks = .ok .next disks') {d : DiskStat} (hd : d.key ≠ keyOf line) :
    d ∈ disks' ↔ d ∈ disks := by
  have hnode : (disks.map DiskStat.node).Nodup :=
    List.pairwise_map.mpr ((List.pairwise_map.mp hn).imp fun hne heq => hne (key_eq_iff.mpr heq))
  have hups := upsert_ok (fun _ _ _ _ hupd => (updateOf_ok hupd).1) rfl hnode (diskLine_upserts hline)
  exact hups.mem_iff hnode fun heq => hd ((h.key_iff d).mpr heq.symm).symm

end SysProcDiskStats

/-! ### Interfaces -/

namespace SysProcWireless

/-- A line with all its tokens, the first a name and its colon, and numbers where numbers are read. -/
structure WellFormed (line : List Char) : Prop where
  long : 11 ≤ (words line).length
  named : ∃ name, (words line)[0]? = some (name ++ [':'])
  qualities : ∀ row ∈ WlanInterface.qualities, ((words line)[row.1]?.bind stoi).isSome = true
  counted : ∀ row ∈ WlanInterface.counters, (numberAt line row.1).isSome = true

/-- The entry has the name and the values of the line. -/
structure Holds (w : WlanInterface) (line : List Char) : Prop where
  name : (words line)[0]? = some (w.name ++ [':'])
  carries : Carries w line

variable {line : List Char} {nodes nodes' : List WlanInterface}

/-- A well-formed line goes on, and is an upsert. -/
theorem WellFormed.next (h : WellFormed line) (nodes : List WlanInterface) :
    ∃ nodes', wlanLine line nodes = .ok .next nodes' ∧
      Roster.upsert (fun w => decide (w.name = nameOf line)) (updateOf line) (newInterface line) nodes = .ok () nodes' := by
  obtain ⟨flow, nodes', hline⟩ := (ends_wlanLine_iff line nodes).mpr fun _ => by
    refine ⟨fun row hrow => ?_, fun row hrow => converts_stoul_iff.mpr (h.counted row hrow)⟩
    obtain ⟨n, hn⟩ := Option.isSome_iff_exists.mp (h.qualities row hrow)
    obtain ⟨t, ht, hconv⟩ := Option.bind_eq_some_iff.mp hn
    exact ⟨t, n, ht, number_ok.mpr hconv⟩
  obtain rfl := (wlanLine_next hline).mpr (Nat.not_lt.mpr h.long)
  exact ⟨nodes', hline, wlanLine_upserts hline⟩

/-- A line makes an entry of its values. -/
theorem WellFormed.holds (h : WellFormed line) {w : WlanInterface}
    (hw : outcome (updateOf line) (newInterface line) = some w) : Holds w line := by
  obtain ⟨_, hupd⟩ := outcome_eq_some.mp hw
  have hcarries := carries_of_update rfl hupd
  obtain ⟨name, hfirst⟩ := h.named
  refine ⟨?_, hcarries⟩
  rw [hcarries.name, nameOf, hfirst]
  simp

/-- After well-formed lines the store is up to date. -/
theorem latest_of_built {history : List (List Char)} (hwell : ∀ line ∈ history, WellFormed line)
    (h : Built WlanInterface.name nameOf newInterface updateOf history nodes) :
    Latest nameOf WlanInterface.name Holds history nodes := by
  apply h.latest
  · exact fun _ => rfl
  · exact fun _ _ _ _ hw hupd => updateOf_name hw hupd
  · exact fun line w hw => outcome_updateOf line hw
  · exact fun _ _ _ => Iff.rfl
  · exact fun _ _ heq => heq
  · exact fun l hl w hw => (hwell l hl).holds hw

/-- **The interfaces after any well-formed contents**, of which two lines each are headers. -/
theorem latest_nodes {contents : List (List (List Char))}
    (hwell : ∀ file ∈ contents, ∀ line ∈ file.drop 2, WellFormed line) :
    ∃ nodes, run kind.updated [] (contents.map some) = some nodes ∧
      Latest nameOf WlanInterface.name Holds (contents.flatMap (List.drop 2)) nodes := by
  have hfile : ∀ file ∈ contents, ∀ history nodes, Built WlanInterface.name nameOf newInterface updateOf history nodes →
      ∃ nodes', kind.updated nodes (some file) = some nodes' ∧
        Built WlanInterface.name nameOf newInterface updateOf (history ++ file.drop 2) nodes' := by
    intro file hfile history nodes h
    obtain ⟨nodes', hread, hbuilt⟩ := read_items h (fun _ => rfl) (fun _ _ _ _ hw hupd => updateOf_name hw hupd)
      fun line hline => (hwell file hfile line hline).next
    rw [List.map_id'] at hread
    exact ⟨nodes', SourceKind.updated_iff.mpr hread, hbuilt⟩
  obtain ⟨nodes, hrun, hbuilt⟩ := run_built hfile
  refine ⟨nodes, hrun, latest_of_built (fun line hline => ?_) hbuilt⟩
  obtain ⟨file, hfile, hmem⟩ := List.mem_flatMap.mp hline
  exact hwell file hfile line hmem

/-- A line changes no interface of another name. -/
theorem frame_node (hn : (nodes.map WlanInterface.name).Nodup) (hline : wlanLine line nodes = .ok .next nodes')
    {w : WlanInterface} (hw : w.name ≠ nameOf line) : w ∈ nodes' ↔ w ∈ nodes := by
  have hups := upsert_ok (fun _ _ _ hw hupd => updateOf_name hw hupd) rfl hn (wlanLine_upserts hline)
  exact hups.mem_iff hn hw

end SysProcWireless

/-! ### CPUs -/

namespace SysProcStat

/-- A line of a CPU: a name that fits its buffer, and ten decimal numbers. -/
structure WellFormed (line : List Char) : Prop where
  plain : Plain line
  named : ∃ name, (words line)[0]? = some name ∧ name.length < 64

/-- The lines of CPUs at the start of a file. -/
def cpuLines (file : List (List Char)) : List (List Char) :=
  file.takeWhile fun line => decide ("cpu".toList <:+: line)

variable {line : List Char} {lines history : List (List Char)} {cpus cpus' : List CPUStat}

theorem WellFormed.fits (h : WellFormed line) : fits line = true := by
  obtain ⟨name, hname, hlen⟩ := h.named
  have hwords := words_text h.plain.named
  rw [h.plain.text_eq] at hwords
  rw [hwords] at hname
  rw [SysProcStat.fits, h.plain.text_eq, Option.some.inj hname]
  exact decide_eq_true hlen

/-- A well-formed line is scanned. -/
theorem WellFormed.scanned (h : WellFormed line) : (scan line).isSome = true := by
  obtain ⟨data, hdata⟩ := h.plain.sampled
  rw [scan_eq_some_iff.mpr ⟨rfl, hdata⟩]
  rfl

/-- The samples of well-formed lines are the numbers of their tokens. -/
theorem counts_own (hwell : ∀ line ∈ lines, WellFormed line) (name : List Char) :
    List.Forall₂ Counts (own name lines) (samplesOf name lines) :=
  List.forall₂_map_right_iff.mpr <| List.forall₂_same.mpr fun line hline =>
    have hline := hwell line (List.mem_of_mem_filter hline)
    (taken_dataOf hline.scanned).plain hline.plain

theorem grew_of_run (hwell : ∀ line ∈ lines, WellFormed line) {name : List Char} {outcome : Option CPUStat}
    (h : run CPUStat.updateStats {name := name} (samplesOf name lines) = outcome) : Grew Counts lines name outcome :=
  ⟨_, counts_own hwell name, h⟩

theorem fed_of_built (hwell : ∀ line ∈ history, WellFormed line)
    (h : Built CPUStat.name nameOf newCPU updateOf history cpus) : Fed Counts history cpus :=
  ⟨h.nodup, h.seen.listed, fun _ hs => grew_of_run hwell (run_own h hs)⟩

theorem samplesOf_append (name : List Char) (a b : List (List Char)) :
    samplesOf name (a ++ b) = samplesOf name a ++ samplesOf name b := by
  rw [samplesOf, own, List.filter_append, List.map_append]
  rfl

/-- The entry that a line finds, or makes, is what the samples of its CPU made so far. -/
theorem run_entry (h : Built CPUStat.name nameOf newCPU updateOf history cpus) (name : List Char) :
    run CPUStat.updateStats {name := name} (samplesOf name history) =
      some ((Keyed.lookup CPUStat.name name cpus).getD {name := name}) := by
  cases hlookup : Keyed.lookup CPUStat.name name cpus with
  | some s =>
    obtain ⟨hmem, rfl⟩ := Keyed.lookup_some hlookup
    exact run_own h hmem
  | none =>
    have hnone : own name history = [] := by
      refine List.filter_eq_nil_iff.mpr fun line hline hname => ?_
      have hsome := h.listed line hline
      rw [of_decide_eq_true hname, hlookup] at hsome
      cases hsome
    rw [samplesOf, hnone]
    rfl

theorem updateOf_name {s t : CPUStat} {u : Unit} (hs : s.name = nameOf line) (h : updateOf line s = .ok u t) :
    t.name = nameOf line :=
  (feed_name h).trans hs

/-- A line of a CPU goes on, or its sample traps. -/
theorem statLine_next_or_trap (h : Built CPUStat.name nameOf newCPU updateOf history cpus) (hwell : WellFormed line)
    (hcpu : "cpu".toList <:+: line) :
    (∃ cpus', statLine line cpus = .ok .next cpus' ∧
        Built CPUStat.name nameOf newCPU updateOf (history ++ [line]) cpus') ∨
      ¬Ends (statLine line) cpus ∧
        run CPUStat.updateStats {name := nameOf line} (samplesOf (nameOf line) (history ++ [line])) = none := by
  have hline : statLine line = (do
      Roster.upsert (fun s => decide (s.name = nameOf line)) (updateOf line) (newCPU line)
      pure .next) := by
    obtain ⟨scanned, hscan⟩ := Option.isSome_iff_exists.mp hwell.scanned
    rw [statLine, if_neg (not_not_intro hcpu), if_neg (by simp [hwell.fits])]
    obtain ⟨name, data⟩ := scanned
    have hname := (scan_eq_some_iff.mp hscan).1
    simp only [hscan, updateOf, newCPU, ← hname, dataOf, Option.map_some, Option.getD_some]
  by_cases hends : Ends (Roster.upsert (fun s => decide (s.name = nameOf line)) (updateOf line) (newCPU line)) cpus
  · obtain ⟨_, cpus', hups⟩ := hends
    refine .inl ⟨cpus', by rw [hline]; exact bind_ok.mpr ⟨(), cpus', hups, rfl⟩, ?_⟩
    exact h.snoc (upsert_ok (fun _ _ _ => updateOf_name) rfl h.nodup hups)
  · refine .inr ⟨fun hend => ?_, ?_⟩
    · rw [hline] at hend
      obtain ⟨_, cpus', hups, _⟩ := ends_bind.mp hend
      exact hends ⟨_, cpus', hups⟩
    · have hown : samplesOf (nameOf line) [line] = [dataOf line] := by simp [samplesOf, own]
      rw [samplesOf_append, hown, run_snoc, run_entry h, Option.bind_some]
      have htrap : ¬Ends (updateOf line) ((Keyed.lookup CPUStat.name (nameOf line) cpus).getD (newCPU line)) :=
        fun hend => hends ((ends_upsert_entry_iff h.nodup).mpr hend)
      rw [updateOf, newCPU] at htrap
      cases hupd : ((Keyed.lookup CPUStat.name (nameOf line) cpus).getD {name := nameOf line}).updateStats (dataOf line) with
      | none => rfl
      | some t => exact absurd ⟨(), t, by rw [CPUStat.feed, hupd]⟩ htrap

/-- A file of well-formed lines is read, or a sample traps. -/
theorem read_or_trap (h : Built CPUStat.name nameOf newCPU updateOf history cpus)
    (hwell : ∀ line ∈ cpuLines lines, WellFormed line) :
    (∃ cpus', read statLine lines cpus = .ok true cpus' ∧
        Built CPUStat.name nameOf newCPU updateOf (history ++ cpuLines lines) cpus') ∨
      ¬Ends (read statLine lines) cpus ∧
        ∃ name, run CPUStat.updateStats {name := name} (samplesOf name (history ++ cpuLines lines)) = none := by
  induction lines generalizing history cpus with
  | nil => exact .inl ⟨cpus, rfl, by simpa [cpuLines] using h⟩
  | cons line rest ih =>
    by_cases hcpu : "cpu".toList <:+: line
    · have hlines : cpuLines (line :: rest) = line :: cpuLines rest := List.takeWhile_cons_of_pos (decide_eq_true hcpu)
      rw [hlines] at hwell ⊢
      obtain ⟨hfirst, hrest⟩ := List.forall_mem_cons.mp hwell
      have happend : history ++ line :: cpuLines rest = history ++ [line] ++ cpuLines rest := by simp
      rw [happend]
      rcases statLine_next_or_trap h hfirst hcpu with ⟨m, hline, hbuilt⟩ | ⟨hends, htrap⟩
      · rcases ih hbuilt hrest with ⟨cpus', hread, hbuilt'⟩ | ⟨hends, htrap⟩
        · exact .inl ⟨cpus', bind_ok.mpr ⟨.next, m, hline, hread⟩, hbuilt'⟩
        · refine .inr ⟨fun hend => hends ?_, htrap⟩
          obtain ⟨_, m', hline', hend⟩ := ends_bind.mp hend
          obtain ⟨rfl, rfl⟩ := EStateM.Result.ok.inj (hline.symm.trans hline')
          exact hend
      · refine .inr ⟨fun hend => hends ?_, nameOf line, ?_⟩
        · obtain ⟨_, m, hline, _⟩ := ends_bind.mp hend
          exact ⟨_, m, hline⟩
        · rw [samplesOf_append]
          exact run_append_none htrap _
    · have hlines : cpuLines (line :: rest) = [] := List.takeWhile_cons_of_neg (by simpa using hcpu)
      rw [hlines, List.append_nil]
      refine .inl ⟨cpus, bind_ok.mpr ⟨.stop true, cpus, ?_, rfl⟩, h⟩
      rw [statLine, if_pos hcpu]
      rfl

/-- **The CPUs after any well-formed contents**, unless a CPU's own samples trap. -/
theorem fed_cpus {contents : List (List (List Char))} (hwell : ∀ file ∈ contents, ∀ line ∈ cpuLines file, WellFormed line) :
    (∃ cpus, run kind.updated [] (contents.map some) = some cpus ∧ Fed Counts (contents.flatMap cpuLines) cpus) ∨
      run kind.updated [] (contents.map some) = none ∧ ∃ name, Grew Counts (contents.flatMap cpuLines) name none := by
  have main : ∀ (contents : List (List (List Char))) (history : List (List Char)) (cpus : List CPUStat),
      (∀ file ∈ contents, ∀ line ∈ cpuLines file, WellFormed line) →
      Built CPUStat.name nameOf newCPU updateOf history cpus →
      (∃ cpus', run kind.updated cpus (contents.map some) = some cpus' ∧
          Built CPUStat.name nameOf newCPU updateOf (history ++ contents.flatMap cpuLines) cpus') ∨
        run kind.updated cpus (contents.map some) = none ∧
          ∃ name, run CPUStat.updateStats {name := name} (samplesOf name (history ++ contents.flatMap cpuLines)) = none := by
    intro contents
    induction contents with
    | nil => exact fun history cpus _ hb => .inl ⟨cpus, rfl, by simpa using hb⟩
    | cons file rest ih =>
      intro history cpus hwell hb
      obtain ⟨hfile, hrest⟩ := List.forall_mem_cons.mp hwell
      rw [List.map_cons, List.flatMap_cons, ← List.append_assoc]
      rcases read_or_trap hb hfile with ⟨m, hread, hbuilt⟩ | ⟨hends, name, htrap⟩
      · have hstep : kind.updated cpus (some file) = some m := SourceKind.updated_iff.mpr hread
        rw [run, hstep, Option.bind_some]
        exact ih _ m hrest hbuilt
      · have hstep : kind.updated cpus (some file) = none := by
          cases hupd : kind.updated cpus (some file) with
          | none => rfl
          | some m => exact absurd ⟨_, m, SourceKind.updated_iff.mp hupd⟩ hends
        refine .inr ⟨by rw [run, hstep]; rfl, name, ?_⟩
        rw [samplesOf_append]
        exact run_append_none htrap _
  have hlines : ∀ line ∈ contents.flatMap cpuLines, WellFormed line := fun line hline => by
    obtain ⟨file, hfile, hline⟩ := List.mem_flatMap.mp hline
    exact hwell file hfile line hline
  rcases main contents [] [] hwell built_nil with ⟨cpus, hrun, hbuilt⟩ | ⟨hnone, name, htrap⟩
  · rw [List.nil_append] at hbuilt
    exact .inl ⟨cpus, hrun, fed_of_built hlines hbuilt⟩
  · rw [List.nil_append] at htrap
    exact .inr ⟨hnone, name, grew_of_run hlines htrap⟩

/-- A line changes no CPU of another name. -/
theorem frame_cpu (hn : (cpus.map CPUStat.name).Nodup) (hline : statLine line cpus = .ok .next cpus') {s : CPUStat}
    (hs : s.name ≠ nameOf line) : s ∈ cpus' ↔ s ∈ cpus := by
  have hups : Upserted CPUStat.name (nameOf line) (updateOf line) (newCPU line) cpus cpus' :=
    upsert_ok (fun _ _ _ => updateOf_name) rfl hn (statLine_upserts hline).2
  exact hups.mem_iff hn hs

end SysProcStat
/-! ### The three stores -/

/-- **Each store has one entry for each key seen**, whatever well-formed contents it was updated from: a disk or an
interface with the values of its most recent line, a CPU that was fed the samples of its own lines, unless these trap.
And no line changes an entry of another key. -/
theorem stores_current {diskFiles nodeFiles cpuFiles : List (List (List Char))}
    (hdisks : ∀ file ∈ diskFiles, ∀ line ∈ file, SysProcDiskStats.WellFormed line)
    (hnodes : ∀ file ∈ nodeFiles, ∀ line ∈ file.drop 2, SysProcWireless.WellFormed line)
    (hcpus : ∀ file ∈ cpuFiles, ∀ line ∈ SysProcStat.cpuLines file, SysProcStat.WellFormed line) :
    (∃ disks, run SysProcDiskStats.kind.updated [] (diskFiles.map some) = some disks ∧
      Latest SysProcDiskStats.keyOf DiskStat.key SysProcDiskStats.Holds diskFiles.flatten disks) ∧
    (∃ nodes, run SysProcWireless.kind.updated [] (nodeFiles.map some) = some nodes ∧
      Latest SysProcWireless.nameOf WlanInterface.name SysProcWireless.Holds (nodeFiles.flatMap (List.drop 2)) nodes) ∧
    ((∃ cpus, run SysProcStat.kind.updated [] (cpuFiles.map some) = some cpus ∧
        SysProcStat.Fed SysProcStat.Counts (cpuFiles.flatMap SysProcStat.cpuLines) cpus) ∨
      run SysProcStat.kind.updated [] (cpuFiles.map some) = none ∧
        ∃ name, SysProcStat.Grew SysProcStat.Counts (cpuFiles.flatMap SysProcStat.cpuLines) name none) ∧
    (∀ line disks disks', SysProcDiskStats.WellFormed line → (disks.map DiskStat.key).Nodup →
      SysProcDiskStats.diskLine line disks = .ok .next disks' →
        ∀ d, d.key ≠ SysProcDiskStats.keyOf line → (d ∈ disks' ↔ d ∈ disks)) ∧
    (∀ line nodes nodes', (nodes.map WlanInterface.name).Nodup → SysProcWireless.wlanLine line nodes = .ok .next nodes' →
      ∀ w, w.name ≠ SysProcWireless.nameOf line → (w ∈ nodes' ↔ w ∈ nodes)) ∧
    (∀ line cpus cpus', (cpus.map CPUStat.name).Nodup → SysProcStat.statLine line cpus = .ok .next cpus' →
      ∀ s, s.name ≠ SysProcStat.nameOf line → (s ∈ cpus' ↔ s ∈ cpus)) :=
  ⟨SysProcDiskStats.latest_disks hdisks, SysProcWireless.latest_nodes hnodes, SysProcStat.fed_cpus hcpus,
    fun _ _ _ hwell hn hline _ hd => SysProcDiskStats.frame_disk hwell hn hline hd,
    fun _ _ _ hn hline _ hw => SysProcWireless.frame_node hn hline hw,
    fun _ _ _ hn hline _ hs => SysProcStat.frame_cpu hn hline hs⟩

/-- An interface. -/
def wlanText : List Char := "wlan0: 0000   70.  -40.  -256        0      0      0      1      2        3".toList

def cpuText : List Char := "cpu  1 2 3 4 5 6 7 8 9 10".toList

theorem wellFormed_diskText : SysProcDiskStats.WellFormed (diskText "16" "sdb") where
  long := by decide +kernel
  major := ⟨8, by decide +kernel, by decide⟩
  minor := ⟨16, by decide +kernel, by decide⟩
  counted := by decide +kernel

theorem wellFormed_wlanText : SysProcWireless.WellFormed wlanText where
  long := by decide +kernel
  named := ⟨"wlan0".toList, by decide +kernel⟩
  qualities := by decide +kernel
  counted := by decide +kernel

theorem wellFormed_cpuText : SysProcStat.WellFormed cpuText where
  plain.noNull := by decide
  plain.decimal v hv := by
    have hw : ((words cpuText)[v.1]?).isSome = true ∧ IsDecimal ((words cpuText)[v.1]?.getD []) ∧
        ofDigits ((words cpuText)[v.1]?.getD []) < 2 ^ 64 := by
      revert v
      decide +kernel
    obtain ⟨w, hget⟩ := Option.isSome_iff_exists.mp hw.1
    rw [hget] at hw
    exact ⟨w, hget, hw.2⟩
  named := ⟨"cpu".toList, by decide +kernel, by decide⟩

/-- A disk on two lines, an interface behind its headers, and a CPU. -/
theorem stores_current_usual :
    (∃ disks, run SysProcDiskStats.kind.updated [] ([[diskText "16" "sdb", diskText "16" "sdb"]].map some) = some disks ∧
      Latest SysProcDiskStats.keyOf DiskStat.key SysProcDiskStats.Holds
        [[diskText "16" "sdb", diskText "16" "sdb"]].flatten disks) ∧
    (∃ nodes, run SysProcWireless.kind.updated [] ([[[], [], wlanText]].map some) = some nodes ∧
      Latest SysProcWireless.nameOf WlanInterface.name SysProcWireless.Holds
        ([[[], [], wlanText]].flatMap (List.drop 2)) nodes) ∧
    ((∃ cpus, run SysProcStat.kind.updated [] ([[cpuText]].map some) = some cpus ∧
        SysProcStat.Fed SysProcStat.Counts ([[cpuText]].flatMap SysProcStat.cpuLines) cpus) ∨
      run SysProcStat.kind.updated [] ([[cpuText]].map some) = none ∧
        ∃ name, SysProcStat.Grew SysProcStat.Counts ([[cpuText]].flatMap SysProcStat.cpuLines) name none) := by
  have hdisks : ∀ file ∈ [[diskText "16" "sdb", diskText "16" "sdb"]], ∀ line ∈ file, SysProcDiskStats.WellFormed line := by
    intro file hfile line hline
    obtain rfl := List.mem_singleton.mp hfile
    obtain rfl : line = diskText "16" "sdb" := by simpa using hline
    exact wellFormed_diskText
  have hnodes : ∀ file ∈ [[[], [], wlanText]], ∀ line ∈ file.drop 2, SysProcWireless.WellFormed line := by
    intro file hfile line hline
    obtain rfl := List.mem_singleton.mp hfile
    obtain rfl : line = wlanText := by simpa using hline
    exact wellFormed_wlanText
  have hcpus : ∀ file ∈ [[cpuText]], ∀ line ∈ SysProcStat.cpuLines file, SysProcStat.WellFormed line := by
    intro file hfile line hline
    obtain rfl := List.mem_singleton.mp hfile
    obtain rfl := List.mem_singleton.mp ((List.takeWhile_sublist _).mem hline)
    exact wellFormed_cpuText
  have h := stores_current hdisks hnodes hcpus
  exact ⟨h.1, h.2.1, h.2.2.1⟩

end TaskMonitor

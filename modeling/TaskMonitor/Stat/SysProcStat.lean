import TaskMonitor.Lib.Roster
import TaskMonitor.Lib.Words
import TaskMonitor.Stat.CPUStat
import TaskMonitor.Stat.Source

/-! CPU statistics (`SysProcStat.cpp`).

The lines of CPUs are at the start of the file, and the first without `cpu` ends
it. Each is scanned in one go: a name, which is the first word, and ten counters,
which are the next ten words where these are decimal numbers (`Plain.counts_iff`). -/
namespace TaskMonitor
open Lines Text

/-- What is published of a CPU. -/
structure CPUStatItem where
  name : List Char
  usr : UInt32
  sys : UInt32
  iow : UInt32
  all : UInt32
deriving Repr, DecidableEq

namespace CPUStat

inductive StatType where
  | cpu | core
deriving Repr, DecidableEq

def getType (s : CPUStat) : StatType := if s.name = "cpu".toList then .cpu else .core

def getData (s : CPUStat) : CPUStatItem :=
  {name := s.name, usr := s.usr, sys := s.sys, iow := s.iow, all := s.all}

/-- An update, as a step that can trap. -/
def feed (data : CPUStatData) : EStateM Fault CPUStat Unit := fun s =>
  match s.updateStats data with
  | some s => .ok () s
  | none => .error .divisionByZero s

end CPUStat

/-- The message that is sent. -/
structure StatEvent where
  cpu : Option CPUStatItem := none
  core : List CPUStatItem := []
deriving Repr, DecidableEq

def StatEvent.items (e : StatEvent) : List CPUStatItem := e.cpu.toList ++ e.core

/-- The whole of the machine has a place of its own. -/
def StatEvent.add (e : StatEvent) (s : CPUStat) : StatEvent :=
  match s.getType with
  | .cpu => {e with cpu := some s.getData}
  | .core => {e with core := e.core ++ [s.getData]}

namespace SysProcStat

/-- The text of a line as `sscanf` sees it, which ends at a null character. -/
def text (line : List Char) : List Char := line.takeWhile fun c => c != '\x00'

/-- The name and the ten counters that `sscanf` takes from a line, if it takes all eleven. -/
def scan (line : List Char) : Option (List Char × CPUStatData) :=
  let s := (text line).dropWhile isSpace
  match scanLus 10 (s.dropWhile fun c => !isSpace c) with
  | [userTime, niceTime, systemTime, idleTime, ioWaitTime, irqTime, softIRQTime, stealTime, guestTime, guestNiceTime] =>
    some (s.takeWhile fun c => !isSpace c, ⟨userTime, niceTime, systemTime, idleTime, ioWaitTime, irqTime, softIRQTime,
      stealTime, guestTime, guestNiceTime⟩)
  | _ => none

/-- The name that is scanned fits its buffer. -/
def fits (line : List Char) : Bool :=
  (((text line).dropWhile isSpace).takeWhile fun c => !isSpace c).length < 64

def statLine (line : List Char) : EStateM Fault (List CPUStat) Flow :=
  if ¬"cpu".toList <:+: line then pure (.stop true)
  else if ¬fits line then throw .overrun
  else
    match scan line with
    | none => pure (.stop false)
    | some (name, data) => do
      -- a new CPU only remembers its data, so it can be listed first
      Roster.upsert (fun s => decide (s.name = name)) (CPUStat.feed data) {name := name}
      pure .next

def doUpdateStats (file : Option (List (List Char))) : EStateM Fault (List CPUStat) Bool :=
  match file with
  | none => throw .notOpen
  | some lines => read statLine lines

/-- `doCollectAndSend` -/
def collect (cpus : List CPUStat) : StatEvent := cpus.foldl StatEvent.add {}

def kind : SourceKind (Option (List (List Char))) (List CPUStat) StatEvent where
  doUpdateStats := doUpdateStats
  collect := collect

/-! ### CPUs of lines -/

/-- The CPU of a line is its first word. -/
def nameOf (line : List Char) : List Char := ((words (text line))[0]?).getD []

/-- What is behind the name. -/
def behindName (line : List Char) : List Char :=
  ((text line).dropWhile isSpace).dropWhile fun c => !isSpace c

/-- The data is the ten counters that are behind the name. -/
def Sampled (line : List Char) (data : CPUStatData) : Prop :=
  scanLus 10 (behindName line) = CPUStatData.values.map fun v => v.2 data

theorem words_text {line : List Char} (h : (text line).dropWhile isSpace ≠ []) :
    words (text line) =
      ((text line).dropWhile isSpace).takeWhile (fun c => !isSpace c) :: words (behindName line) :=
  words_eq_cons h

/-- Behind no name there are no counters. -/
theorem named_of_scanLus {line : List Char} (h : scanLus 10 (behindName line) ≠ []) :
    (text line).dropWhile isSpace ≠ [] := by
  intro hnil
  rw [behindName, hnil] at h
  exact h rfl

/-- **What is scanned is the first word and ten counters.** -/
theorem scan_eq_some_iff {line name : List Char} {data : CPUStatData} :
    scan line = some (name, data) ↔ name = nameOf line ∧ Sampled line data := by
  have hname (hne : scanLus 10 (behindName line) ≠ []) :
      nameOf line = ((text line).dropWhile isSpace).takeWhile fun c => !isSpace c := by
    rw [nameOf, words_text (named_of_scanLus hne)]
    rfl
  constructor
  · intro h
    simp only [scan] at h
    split at h
    · rename_i hcounters
      obtain ⟨rfl, rfl⟩ := Prod.mk.inj (Option.some.inj h)
      refine ⟨(hname ?_).symm, hcounters⟩
      rw [behindName, hcounters]
      exact List.cons_ne_nil _ _
    · cases h
  · rintro ⟨rfl, hsampled⟩
    have hcounters := hsampled
    rw [Sampled, behindName] at hcounters
    simp only [scan, hcounters, CPUStatData.values, List.map_cons, List.map_nil]
    rw [hname (by rw [hsampled]; exact List.cons_ne_nil _ _)]

/-- The data is the numbers of the ten tokens after the name. -/
def Counts (line : List Char) (data : CPUStatData) : Prop :=
  ∀ v ∈ CPUStatData.values, numberAt line v.1 = some (v.2 data)

/-- A line without null characters, and with ten decimal numbers after its name. -/
structure Plain (line : List Char) : Prop where
  noNull : '\x00' ∉ line
  decimal : ∀ v ∈ CPUStatData.values, ∃ w, (words line)[v.1]? = some w ∧ IsDecimal w ∧ ofDigits w < 2 ^ 64

/-- The data is what is taken from the line: from a plain line, the numbers of its tokens. -/
structure Taken (line : List Char) (data : CPUStatData) : Prop where
  scanned : Sampled line data
  plain : Plain line → Counts line data

section
variable {line : List Char}

theorem Plain.text_eq (h : Plain line) : text line = line := by
  rw [text, List.takeWhile_eq_self_iff]
  exact fun c hc => bne_iff_ne.mpr fun heq => h.noNull (heq ▸ hc)

theorem Plain.named (h : Plain line) : (text line).dropWhile isSpace ≠ [] := by
  intro hnil
  obtain ⟨w, hw, _⟩ := h.decimal (1, (·.userTime)) (List.mem_cons_self ..)
  rw [h.text_eq, List.dropWhile_eq_nil_iff] at hnil
  rw [words_blank hnil] at hw
  cases hw

/-- The words of the line are the name and those behind it. -/
theorem Plain.words_getElem? (h : Plain line) (i : Nat) : (words line)[i + 1]? = (words (behindName line))[i]? := by
  have hwords := words_text h.named
  rw [h.text_eq] at hwords
  rw [hwords, List.getElem?_cons_succ]

/-- A counter is behind the name. -/
theorem Plain.behind (h : Plain line) {i : Nat} (hi : i < 10) :
    ∃ w, (words (behindName line))[i]? = some w ∧ IsDecimal w ∧ ofDigits w < 2 ^ 64 := by
  have hmem : i + 1 ∈ CPUStatData.values.map Prod.fst := by
    simp only [CPUStatData.values, List.map_cons, List.map_nil, List.mem_cons, List.not_mem_nil]
    omega
  obtain ⟨v, hv, hvi⟩ := List.mem_map.mp hmem
  rw [← h.words_getElem?, ← hvi]
  exact h.decimal v hv

/-- **The counters of a plain line are the numbers of its tokens.** -/
theorem Plain.scanLus_eq (h : Plain line) :
    (scanLus 10 (behindName line)).map some = CPUStatData.values.map fun v => numberAt line v.1 := by
  have hlen : 10 ≤ (words (behindName line)).length := by
    obtain ⟨w, hw, _⟩ := h.behind (i := 9) (by omega)
    exact (List.getElem?_eq_some_iff.mp hw).1
  have htake : ∀ w ∈ (words (behindName line)).take 10, IsDecimal w ∧ ofDigits w < 2 ^ 64 := by
    intro w hw
    obtain ⟨i, hi, rfl⟩ := List.mem_take_iff_getElem.mp hw
    obtain ⟨w, hw, hdec⟩ := h.behind (i := i) (by omega)
    rw [List.getElem?_eq_getElem (by omega)] at hw
    exact Option.some.inj hw ▸ hdec
  have hnumbers : CPUStatData.values.map (fun v => numberAt line v.1) =
      (List.range 10).map fun i => (words (behindName line))[i]?.bind stoul := by
    simp only [CPUStatData.values, List.map_cons, List.map_nil, numberAt, h.words_getElem?]
    rfl
  rw [hnumbers, scanLus_words htake, List.map_map]
  refine List.ext_getElem (by simpa using hlen) fun i hi hi' => ?_
  have hi : i < 10 := by simpa using hi'
  obtain ⟨w, hw, hdec, hfits⟩ := h.behind hi
  have hget : (words (behindName line))[i] = w := by
    rw [List.getElem?_eq_getElem (by omega)] at hw
    exact Option.some.inj hw
  simpa [hget, hw, stoul_decimal hdec] using hfits

/-- A plain line has data. -/
theorem Plain.sampled (h : Plain line) : ∃ data, Sampled line data := by
  have hlen : (scanLus 10 (behindName line)).length = 10 := by
    simpa [CPUStatData.values] using congrArg List.length h.scanLus_eq
  unfold Sampled
  match scanLus 10 (behindName line), hlen with
  | [a, b, c, d, e, f, g, i, j, k], _ => exact ⟨⟨a, b, c, d, e, f, g, i, j, k⟩, rfl⟩

/-- The data of a plain line is the numbers of its tokens. -/
theorem Plain.counts_iff (h : Plain line) (data : CPUStatData) : Sampled line data ↔ Counts line data := by
  rw [Sampled, ← List.map_inj_right (f := some) (fun _ _ => Option.some.inj), h.scanLus_eq, List.map_map]
  exact List.map_inj_left

end

/-- The data of a line. -/
def dataOf (line : List Char) : CPUStatData := ((scan line).map Prod.snd).getD {}

theorem taken_dataOf {line : List Char} (h : (scan line).isSome = true) : Taken line (dataOf line) := by
  obtain ⟨⟨name, data⟩, hscan⟩ := Option.isSome_iff_exists.mp h
  have hsampled := (scan_eq_some_iff.mp hscan).2
  rw [dataOf, hscan]
  exact ⟨hsampled, fun hplain => (hplain.counts_iff data).mp hsampled⟩

/-- A line that can be read is of a CPU, and an upsert of it. -/
theorem statLine_upserts {line : List Char} {cpus cpus' : List CPUStat} (h : statLine line cpus = .ok .next cpus') :
    ("cpu".toList <:+: line ∧ (scan line).isSome = true) ∧
      Roster.upsert (fun s => decide (s.name = nameOf line)) (CPUStat.feed (dataOf line)) {name := nameOf line} cpus =
        .ok () cpus' := by
  unfold statLine at h
  split at h
  · obtain ⟨hflow, _⟩ := pure_ok.mp h
    cases hflow
  · rename_i hcpu
    split at h
    · exact absurd h throw_ok
    · cases hscan : scan line with
      | none =>
        rw [hscan] at h
        obtain ⟨hflow, _⟩ := pure_ok.mp h
        cases hflow
      | some scanned =>
        obtain ⟨name, data⟩ := scanned
        rw [hscan] at h
        obtain ⟨_, _, hups, h⟩ := bind_ok.mp h
        obtain ⟨_, rfl⟩ := pure_ok.mp h
        have hname := (scan_eq_some_iff.mp hscan).1
        have hdata : dataOf line = data := by simp [dataOf, hscan]
        refine ⟨⟨not_not.mp hcpu, rfl⟩, ?_⟩
        rw [← hname, hdata]
        exact hups

theorem statLine_stop {line : List Char} {cpus cpus' : List CPUStat} {status : Bool}
    (h : statLine line cpus = .ok (.stop status) cpus') :
    cpus' = cpus ∧ (status = true → ¬"cpu".toList <:+: line) := by
  unfold statLine at h
  split at h
  · rename_i hcpu
    obtain ⟨_, rfl⟩ := pure_ok.mp h
    exact ⟨rfl, fun _ => hcpu⟩
  · split at h
    · exact absurd h throw_ok
    · cases hscan : scan line with
      | none =>
        rw [hscan] at h
        obtain ⟨hflow, rfl⟩ := pure_ok.mp h
        obtain rfl := Flow.stop.inj hflow
        exact ⟨rfl, fun hs => by cases hs⟩
      | some scanned =>
        rw [hscan] at h
        obtain ⟨_, _, _, h⟩ := bind_ok.mp h
        obtain ⟨hflow, _⟩ := pure_ok.mp h
        cases hflow

theorem feed_name {data : CPUStatData} {s t : CPUStat} (h : CPUStat.feed data s = .ok () t) : t.name = s.name := by
  have hupdate : s.updateStats data = some t := by
    unfold CPUStat.feed at h
    cases hu : s.updateStats data with
    | none => simp [hu] at h
    | some t' =>
      simp only [hu, EStateM.Result.ok.injEq, true_and] at h
      rw [h]
  by_cases hl : s.last.getTotalTime = 0
  · obtain rfl := Option.some.inj ((CPUStat.updateStats_first hl).symm.trans hupdate)
    rfl
  · by_cases hd : (data.getDiff s.last).getTotalTime = 0
    · cases (CPUStat.updateStats_trap hl hd).symm.trans hupdate
    · rw [CPUStat.updateStats_diff hl hd] at hupdate
      simp only at hupdate
      split at hupdate
      · obtain rfl := Option.some.inj hupdate
        rfl
      · obtain rfl := Option.some.inj hupdate
        rfl

/-! ### What is sent -/

/-- With distinct names every CPU is sent. -/
theorem foldl_items_perm (cpus : List CPUStat) (e : StatEvent) (hn : (cpus.map CPUStat.name).Nodup)
    (he : ∀ s ∈ cpus, s.getType = .cpu → e.cpu = none) :
    (cpus.foldl StatEvent.add e).items.Perm (e.items ++ cpus.map CPUStat.getData) := by
  induction cpus generalizing e with
  | nil => simp
  | cons s rest ih =>
    rw [List.map_cons, List.nodup_cons] at hn
    rw [List.foldl_cons, StatEvent.add]
    cases ht : s.getType with
    | core =>
      have hrest : ∀ c ∈ rest, c.getType = .cpu → e.cpu = none := fun c hc => he c (List.mem_cons_of_mem _ hc)
      refine (ih {e with core := e.core ++ [s.getData]} hn.2 hrest).trans ?_
      simp [StatEvent.items]
    | cpu =>
      have hnone := he s (List.mem_cons_self ..) ht
      have hname {c : CPUStat} (h : c.getType = .cpu) : c.name = "cpu".toList := by
        by_contra hne
        rw [CPUStat.getType, if_neg hne] at h
        cases h
      have hrest : ∀ c ∈ rest, c.getType = .cpu → (some s.getData : Option CPUStatItem) = none := by
        intro c hc htc
        have hsame : c.name = s.name := (hname htc).trans (hname ht).symm
        exact absurd (hsame ▸ List.mem_map_of_mem hc) hn.1
      refine (ih {e with cpu := some s.getData} hn.2 hrest).trans ?_
      simp only [StatEvent.items, hnone, Option.toList_some, Option.toList_none, List.nil_append, List.map_cons]
      exact List.perm_middle.symm

theorem collect_items_perm {cpus : List CPUStat} (hn : (cpus.map CPUStat.name).Nodup) :
    (collect cpus).items.Perm (cpus.map CPUStat.getData) :=
  foldl_items_perm cpus {} hn fun _ _ _ => rfl

end SysProcStat
end TaskMonitor

import TaskMonitor.Lib.Words
import TaskMonitor.Stat.Pressure
import Mathlib.Algebra.Field.Rat

/-! The records of `/proc/pressure` (`SysProcPressure.cpp`).

A line of the kernel says which record it is, `some` or `full`, and gives its four
figures as pairs. Whatever files are read one after the other, some of which may not
open, the message shows for each resource the figures of its most recent lines, and
zeros before there is one, and for a resource that had no file at the start
(`pressure_current`). -/
namespace TaskMonitor
open Lines Text Transition

variable {F : Type} [Zero F] {stof : List Char → Option F}

/-- What the message shows for a resource. -/
def PressureData.shown (d : PressureData F) (name : String) : PSIData F × PSIData F :=
  if name = "cpu" then (d.cpuSome, d.cpuFull)
  else if name = "memory" then (d.memSome, d.memFull)
  else if name = "io" then (d.ioSome, d.ioFull)
  else ({}, {})

namespace SysProcPressure

/-- The files that are looked for. -/
def resources : List String := ["cpu", "memory", "io"]

/-- The constructor; `fileExists` says which files of `/proc/pressure` there are. -/
def make (fileExists : String → Bool) : SysProcPressure F :=
  {entries := (resources.filter fileExists).map fun name => {name := name}}

end SysProcPressure

/-- A line as the kernel writes it. -/
structure PressureLine where
  kind : List Char
  avg10 : List Char
  avg60 : List Char
  avg300 : List Char
  total : List Char
  isWord : IsWord kind
  averages : ∀ v ∈ [avg10, avg60, avg300], IsWord v ∧ '=' ∉ v
  isDecimal : IsDecimal total

namespace PressureLine

/-- A key and a value. -/
def pair (key val : List Char) : List Char := key ++ '=' :: val

def pairs (l : PressureLine) : List (List Char) :=
  [pair "avg10".toList l.avg10, pair "avg60".toList l.avg60, pair "avg300".toList l.avg300,
    pair "total".toList l.total]

def text (l : PressureLine) : List Char := unwords (l.kind :: l.pairs)

/-- The averages can be converted, and the total fits. -/
def Fits (stof : List Char → Option F) (l : PressureLine) : Prop :=
  (∀ v ∈ [l.avg10, l.avg60, l.avg300], (stof v).isSome = true) ∧ ofDigits l.total < 2 ^ 64

/-- The figures of the line. -/
def data (stof : List Char → Option F) (l : PressureLine) : PSIData F where
  avg10 := (stof l.avg10).getD 0
  avg60 := (stof l.avg60).getD 0
  avg300 := (stof l.avg300).getD 0
  total := UInt64.ofNat (ofDigits l.total)

def isSome (l : PressureLine) : Bool := decide (l.kind = "some".toList)

theorem isWord_pair {key val : List Char} (hkey : IsWord key) (hval : IsWord val) : IsWord (pair key val) := by
  refine ⟨by simp [pair], fun c hc => ?_⟩
  rcases List.mem_append.mp hc with hc | hc
  · exact hkey.2 c hc
  · rcases List.mem_cons.mp hc with rfl | hc
    · rfl
    · exact hval.2 c hc

theorem words_text (l : PressureLine) : words l.text = l.kind :: l.pairs := by
  refine words_unwords fun w hw => ?_
  have hval (v : List Char) (hv : v ∈ [l.avg10, l.avg60, l.avg300]) : IsWord v := (l.averages v hv).1
  simp only [pairs, List.mem_cons, List.not_mem_nil, or_false] at hw
  rcases hw with rfl | rfl | rfl | rfl | rfl
  · exact l.isWord
  · exact isWord_pair (by decide) (hval _ (by simp))
  · exact isWord_pair (by decide) (hval _ (by simp))
  · exact isWord_pair (by decide) (hval _ (by simp))
  · exact isWord_pair (by decide) (isWord_of_isDecimal l.isDecimal)

end PressureLine

namespace SysProcPressure
open PressureLine

theorem tokenize_pair (key val : List Char) (hkey : key ≠ []) (hkey' : '=' ∉ key) (hval : val ≠ [])
    (hval' : '=' ∉ val) : tokenize (pair key val) '=' = [key, val] := by
  have hsolid {s : List Char} (h : '=' ∉ s) : ∀ c ∈ s, (c == '=') = false := fun c hc =>
    beq_eq_false_iff_ne.mpr fun heq => h (heq ▸ hc)
  rw [tokenize, pair, stretches_append_sep (by simp), stretches_solid (hsolid hkey'), stretches_solid (hsolid hval'),
    List.nil_append, List.nil_append, if_neg (by simpa using hkey), if_neg (by simpa using hval)]
  rfl

/-- The pairs of a line set its figures, whatever the record held. -/
theorem setPair_pairs {l : PressureLine} (h : l.Fits stof) (d : PSIData F) :
    l.pairs.foldlM (PSIData.setPair stof) d = .ok (l.data stof) := by
  have htoken (key val : List Char) (hkey : key ≠ [] ∧ '=' ∉ key) (hval : val ∈ [l.avg10, l.avg60, l.avg300]) :
      tokenize (pair key val) '=' = [key, val] :=
    tokenize_pair key val hkey.1 hkey.2 (l.averages val hval).1.1 (l.averages val hval).2
  have hdecimal : l.total ≠ [] ∧ '=' ∉ l.total := ⟨l.isDecimal.1, fun hmem => by cases l.isDecimal.2 '=' hmem⟩
  have htotal : stoul l.total = some (UInt64.ofNat (ofDigits l.total)) :=
    (stoul_decimal l.isDecimal).trans (if_pos h.2)
  obtain ⟨a, ha⟩ := Option.isSome_iff_exists.mp (h.1 l.avg10 (by simp))
  obtain ⟨b, hb⟩ := Option.isSome_iff_exists.mp (h.1 l.avg60 (by simp))
  obtain ⟨c, hc⟩ := Option.isSome_iff_exists.mp (h.1 l.avg300 (by simp))
  have h10 := htoken "avg10".toList l.avg10 (by decide) (by simp)
  have h60 := htoken "avg60".toList l.avg60 (by decide) (by simp)
  have h300 := htoken "avg300".toList l.avg300 (by decide) (by simp)
  have hlast := tokenize_pair "total".toList l.total (by decide) (by decide) hdecimal.1 hdecimal.2
  have hs10 (d : PSIData F) : PSIData.setPair stof d (pair "avg10".toList l.avg10) = .ok {d with avg10 := a} := by
    simp only [PSIData.setPair, h10, if_true, number, ha]
    rfl
  have hs60 (d : PSIData F) : PSIData.setPair stof d (pair "avg60".toList l.avg60) = .ok {d with avg60 := b} := by
    simp only [PSIData.setPair, h60, number, hb]
    rfl
  have hs300 (d : PSIData F) : PSIData.setPair stof d (pair "avg300".toList l.avg300) = .ok {d with avg300 := c} := by
    simp only [PSIData.setPair, h300, number, hc]
    rfl
  have hstotal (d : PSIData F) : PSIData.setPair stof d (pair "total".toList l.total) =
      .ok {d with total := UInt64.ofNat (ofDigits l.total)} := by
    simp only [PSIData.setPair, hlast, number, htotal]
    rfl
  simp only [PressureLine.pairs, List.foldlM_cons, List.foldlM_nil, hs10, hs60, hs300, hstotal, Except.bind, bind,
    PressureLine.data, ha, hb, hc, Option.getD_some]
  rfl

/-! ### One record -/

/-- The figures of the last of the lines, and zeros where there is none. -/
def lastOf (stof : List Char → Option F) (lines : List PressureLine) : PSIData F :=
  (lines.getLast?.map (PressureLine.data stof)).getD {}

/-- The figures of the last `some` line and of the last other line. -/
def latestOf (stof : List Char → Option F) (history : List PressureLine) : PSIData F × PSIData F :=
  (lastOf stof (history.filter PressureLine.isSome), lastOf stof (history.filter fun l => !l.isSome))

/-- The record of a resource after the lines. -/
def recordOf (stof : List Char → Option F) (name : String) (history : List PressureLine) : PressureStat F where
  name := name
  dataSome := (latestOf stof history).1
  dataFull := (latestOf stof history).2

theorem pressureLine_text {l : PressureLine} (h : l.Fits stof) (name : String) (history : List PressureLine) :
    PressureStat.pressureLine stof l.text (recordOf stof name history) =
      .ok .next (recordOf stof name (history ++ [l])) := by
  have hdata : ((words l.text).drop 1).foldlM (PSIData.setPair stof) {} = .ok (l.data stof) := by
    rw [PressureLine.words_text]
    exact setPair_pairs h {}
  have hkind : tokenAt (words l.text) 0 = .ok l.kind := by
    rw [PressureLine.words_text]
    rfl
  refine bind_ok.mpr ⟨_, _, attempt_ok.mpr ⟨hdata, rfl⟩, bind_ok.mpr ⟨_, _, attempt_ok.mpr ⟨hkind, rfl⟩, ?_⟩⟩
  refine bind_ok.mpr ⟨(), _, rfl, pure_ok.mpr ⟨rfl, ?_⟩⟩
  by_cases hsome : l.kind = "some".toList
  · have his : l.isSome = true := decide_eq_true hsome
    simp [recordOf, latestOf, lastOf, hsome, his, List.filter_append]
  · have his : l.isSome = false := decide_eq_false hsome
    simp only [recordOf, latestOf, lastOf, if_neg hsome, List.filter_append]
    simp [his]

theorem read_lines {lines : List PressureLine} (h : ∀ l ∈ lines, l.Fits stof) (name : String)
    (history : List PressureLine) :
    read (PressureStat.pressureLine stof) (lines.map PressureLine.text) (recordOf stof name history) =
      .ok true (recordOf stof name (history ++ lines)) := by
  induction lines generalizing history with
  | nil =>
    rw [List.append_nil]
    rfl
  | cons l rest ih =>
    have hrest := ih (fun l' hl' => h l' (List.mem_cons_of_mem l hl')) (history ++ [l])
    rw [List.append_assoc, List.singleton_append] at hrest
    exact bind_ok.mpr ⟨.next, _, pressureLine_text (h l (List.mem_cons_self ..)) name history, hrest⟩

/-- A file that does not open is one without lines. -/
theorem updateStats_lines {file : Option (List PressureLine)}
    (h : ∀ lines, file = some lines → ∀ l ∈ lines, l.Fits stof) (name : String) (history : List PressureLine) :
    PressureStat.updateStats stof (file.map (List.map PressureLine.text)) (recordOf stof name history) =
      .ok () (recordOf stof name (history ++ file.getD [])) := by
  cases file with
  | none =>
    rw [Option.getD_none, List.append_nil]
    rfl
  | some lines => exact bind_ok.mpr ⟨true, _, read_lines (h lines rfl) name history, rfl⟩

/-! ### The message -/

theorem shown_copyFrom {name : String} (hname : name ∈ resources) (d : PressureData F) (entry : PressureStat F) :
    (d.copyFrom entry).shown name = if entry.name = name then (entry.dataSome, entry.dataFull) else d.shown name := by
  simp only [resources, List.mem_cons, List.not_mem_nil, or_false] at hname
  unfold PressureData.copyFrom
  by_cases hcpu : entry.name = "cpu"
  · rcases hname with rfl | rfl | rfl <;> simp [PressureData.shown, hcpu]
  · by_cases hmemory : entry.name = "memory"
    · rcases hname with rfl | rfl | rfl <;> simp [PressureData.shown, hmemory]
    · by_cases hio : entry.name = "io"
      · rcases hname with rfl | rfl | rfl <;> simp [PressureData.shown, hio]
      · rcases hname with rfl | rfl | rfl <;> simp [hcpu, hmemory, hio]

/-- The entries are updated in order, and each is copied behind its update. -/
theorem updateEntries_lines {files : String → Option (List PressureLine)}
    (h : ∀ name lines, files name = some lines → ∀ l ∈ lines, l.Fits stof) (history : String → List PressureLine)
    (names : List String) (s : SysProcPressure F) :
    updateEntries stof (fun name => (files name).map (List.map PressureLine.text))
        (names.map fun name => recordOf stof name (history name)) s =
      .ok () {entries := s.entries ++ names.map fun name => recordOf stof name (history name ++ (files name).getD [])
              psiData := (names.map fun name => recordOf stof name (history name ++ (files name).getD [])).foldl
                PressureData.copyFrom s.psiData} := by
  induction names generalizing s with
  | nil => simp [updateEntries, pure, EStateM.pure]
  | cons name rest ih =>
    have hentry := updateStats_lines (h name) name (history name)
    have hstep : updateEntries stof (fun name => (files name).map (List.map PressureLine.text))
          ((name :: rest).map fun name => recordOf stof name (history name)) s =
        updateEntries stof (fun name => (files name).map (List.map PressureLine.text))
          (rest.map fun name => recordOf stof name (history name))
          {entries := s.entries ++ [recordOf stof name (history name ++ (files name).getD [])]
           psiData := s.psiData.copyFrom (recordOf stof name (history name ++ (files name).getD []))} := by
      simp only [List.map_cons, updateEntries]
      rw [show (recordOf stof name (history name)).name = name from rfl, hentry]
    rw [hstep, ih]
    simp

/-- The message shows each resource as its entry has it. -/
theorem shown_foldl {name : String} (hname : name ∈ resources) (record : String → PressureStat F)
    (hrecord : ∀ n, (record n).name = n) (names : List String) (d : PressureData F) :
    ((names.map record).foldl PressureData.copyFrom d).shown name =
      if name ∈ names then ((record name).dataSome, (record name).dataFull) else d.shown name := by
  induction names generalizing d with
  | nil => rfl
  | cons n rest ih =>
    rw [List.map_cons, List.foldl_cons, ih, shown_copyFrom hname, hrecord]
    by_cases hrest : name ∈ rest
    · simp [hrest]
    · by_cases hn : n = name
      · subst hn
        simp [hrest]
      · have hn' : ¬name = n := fun heq => hn heq.symm
        simp [hrest, hn, hn']

/-! ### Any files -/

/-- The lines read of a resource so far. -/
def historyOf (contents : List (String → Option (List PressureLine))) (name : String) : List PressureLine :=
  contents.flatMap fun files => (files name).getD []

/-- The state after the files. -/
structure Read (stof : List Char → Option F) (fileExists : String → Bool)
    (contents : List (String → Option (List PressureLine))) (s : SysProcPressure F) : Prop where
  entries : s.entries = (resources.filter fileExists).map fun name => recordOf stof name (historyOf contents name)
  shown : ∀ name ∈ resources, s.psiData.shown name =
    if fileExists name then latestOf stof (historyOf contents name) else ({}, {})

/-- **Pressure is decoded faithfully**: after any files, which may not open each time, the message
shows for each resource the figures of its last `some` line and of its last other line. -/
theorem pressure_current {fileExists : String → Bool} {contents : List (String → Option (List PressureLine))}
    (h : ∀ files ∈ contents, ∀ name lines, files name = some lines → ∀ l ∈ lines, l.Fits stof) :
    ∃ s, run (kind stof).updated (make fileExists)
        (contents.map fun files name => (files name).map (List.map PressureLine.text)) = some s ∧
      ∀ name ∈ resources, s.psiData.shown name =
        if fileExists name then latestOf stof (historyOf contents name) else ({}, {}) := by
  have hstart : Read stof fileExists [] (make fileExists : SysProcPressure F) := by
    refine ⟨rfl, fun name hname => ?_⟩
    simp only [resources, List.mem_cons, List.not_mem_nil, or_false] at hname
    rcases hname with rfl | rfl | rfl <;> simp [PressureData.shown, make, latestOf, lastOf, historyOf]
  have hstep : ∀ files ∈ contents, ∀ before s, Read stof fileExists before s →
      ∃ t, (kind stof).updated s (fun name => (files name).map (List.map PressureLine.text)) = some t ∧
        Read stof fileExists (before ++ [files]) t := by
    intro files hfiles before s hs
    have hhistory (name : String) : historyOf (before ++ [files]) name =
        historyOf before name ++ (files name).getD [] := by
      simp [historyOf]
    have hupdate := updateEntries_lines (h files hfiles) (historyOf before) (resources.filter fileExists)
      {s with entries := []}
    rw [← hs.entries] at hupdate
    refine ⟨_, SourceKind.updated_iff.mpr (bind_ok.mpr ⟨s, s, rfl, bind_ok.mpr ⟨(), _, rfl,
      bind_ok.mpr ⟨(), _, hupdate, rfl⟩⟩⟩), ?_, fun name hname => ?_⟩
    · simp only [hhistory, List.nil_append]
    · show PressureData.shown (List.foldl PressureData.copyFrom s.psiData _) name = _
      rw [shown_foldl hname (fun n => recordOf stof n (historyOf before n ++ (files n).getD [])) (fun _ => rfl),
        hs.shown name hname, hhistory]
      by_cases hexists : fileExists name = true
      · rw [if_pos (List.mem_filter.mpr ⟨hname, hexists⟩), if_pos hexists]
        rfl
      · rw [if_neg fun hmem => hexists (List.mem_filter.mp hmem).2, if_neg hexists, if_neg hexists]
  obtain ⟨s, hrun, hs⟩ := run_items hstep hstart
  exact ⟨s, hrun, hs.shown⟩

/-! ### Two reads of the file of one resource -/

/-- `std::stof` on digits, a point and digits. -/
def decimal (s : List Char) : Option ℚ :=
  let whole := s.takeWhile Char.isDigit
  match s.dropWhile Char.isDigit with
  | '.' :: fraction =>
    if whole ≠ [] ∧ fraction.all Char.isDigit = true then
      some (ofDigits whole + ofDigits fraction / 10 ^ fraction.length)
    else none
  | _ => none

def someLine : PressureLine where
  kind := "some".toList
  avg10 := "1.50".toList
  avg60 := "0.25".toList
  avg300 := "0.00".toList
  total := ['7']
  isWord := by decide
  averages := by decide
  isDecimal := by decide

def fullLine : PressureLine :=
  {someLine with kind := "full".toList, total := ['3'], isWord := by decide, isDecimal := by decide}

def laterLine : PressureLine := {someLine with total := ['9'], isDecimal := by decide}

/-- The file of the memory opens twice, that of the processor once, and there is no third. -/
def pressureFiles : List (String → Option (List PressureLine)) :=
  [fun name => if name = "io" then none else some [someLine, fullLine],
    fun name => if name = "memory" then some [laterLine] else none]

theorem pressure_current_twice :
    ∃ s, run (kind decimal).updated (make fun name => decide (name ≠ "io"))
        (pressureFiles.map fun files name => (files name).map (List.map PressureLine.text)) = some s ∧
      ∀ name ∈ resources, s.psiData.shown name =
        if decide (name ≠ "io") then latestOf decimal (historyOf pressureFiles name) else ({}, {}) := by
  refine pressure_current fun files hfiles name lines hlines l hl => ?_
  have hfits : ∀ l ∈ [someLine, fullLine, laterLine], l.Fits decimal := by
    intro l hl
    simp only [List.mem_cons, List.not_mem_nil, or_false] at hl
    rcases hl with rfl | rfl | rfl <;> exact ⟨by decide, by decide⟩
  simp only [pressureFiles, List.mem_cons, List.not_mem_nil, or_false] at hfiles
  rcases hfiles with rfl | rfl <;> dsimp only at hlines <;> split at hlines
  · cases hlines
  · obtain rfl := Option.some.inj hlines
    exact hfits l (List.mem_append_left [laterLine] hl)
  · obtain rfl := Option.some.inj hlines
    exact hfits l (List.mem_append_right [someLine, fullLine] hl)
  · cases hlines

end SysProcPressure
end TaskMonitor

import TaskMonitor.Registry.Context
import TaskMonitor.Stat.OwnLines

/-! The lines of a `smaps_rollup` file (`ProcEntry.cpp`).

Two lines of the file are wanted, and the reading stops once it has seen two that
begin like one of them. The colon is part of what is looked for, so the lines of
longer keys (`Pss_Dirty:`, `SwapPss:`) are passed over, whatever they hold, and
each figure is that of its own line (`smaps_read`). -/
namespace TaskMonitor
open Lines Text

inductive LineMemData where
  | ign | rss | pss
deriving Repr, DecidableEq

/-- Which figure the line holds, by how it begins. -/
def lineMemData (line : List Char) : LineMemData :=
  if "Rss:".toList.isPrefixOf line then .rss
  else if "Pss:".toList.isPrefixOf line then .pss
  else .ign

def LineMemData.set : LineMemData → UInt64 → Smaps → Smaps
  | .ign, _, m => m
  | .rss, n, m => {m with rss := some n}
  | .pss, n, m => {m with pss := some n}

namespace ProcEntry

/-- The loop over the lines; `m` is what was set so far, and `complete` how many are to come. A line
with too few tokens ends the read, as a number that cannot be converted does. -/
def readSmapsLines (complete : Nat) (m : Smaps) : List (List Char) → Smaps
  | [] => m
  | line :: rest =>
    let lineData := lineMemData line
    if lineData = .ign then readSmapsLines complete m rest
    else
      let tokens := words line
      if tokens.length < 3 then {m with parsed := false}
      else
        match tokens[1]?.bind stoul with
        | none => {m with parsed := false}
        | some n =>
          let complete := complete - 1
          if complete = 0 then lineData.set n m else readSmapsLines complete (lineData.set n m) rest

/-- What `readProcSmapsRollup` takes from a file that it could open. -/
def readSmaps (lines : List (List Char)) : Smaps := readSmapsLines 2 ⟨none, none, true⟩ lines

end ProcEntry

open ProcEntry

/-! ### The wanted lines -/

/-- The line is one of the two that are wanted. -/
def isMemLine (line : List Char) : Bool := decide (lineMemData line ≠ .ign)

/-- The other lines are passed over. -/
theorem readSmapsLines_filter (complete : Nat) (m : Smaps) (lines : List (List Char)) :
    readSmapsLines complete m lines = readSmapsLines complete m (lines.filter isMemLine) := by
  induction lines generalizing complete m with
  | nil => rfl
  | cons line rest ih =>
    by_cases h : lineMemData line = .ign
    · rw [List.filter_cons_of_neg (by simp [isMemLine, h]), ← ih]
      simp only [readSmapsLines, h, if_true]
    · rw [List.filter_cons_of_pos (by simp [isMemLine, h])]
      simp only [readSmapsLines, h, if_false]
      split
      · rfl
      · cases (words line)[1]?.bind stoul with
        | none => rfl
        | some n =>
          simp only
          split
          · rfl
          · exact ih _ _

/-- The line has its three tokens, and the second is a number that fits. -/
def GoodMemLine (line : List Char) : Prop := 3 ≤ (words line).length ∧ ((words line)[1]?.bind stoul).isSome = true

/-- The file is read to its end, or to the second wanted line, exactly if the wanted lines up to
there are good. -/
theorem parsed_iff (complete : Nat) (hc : 0 < complete) (m : Smaps) (hm : m.parsed = true) (lines : List (List Char)) :
    (readSmapsLines complete m lines).parsed = true ↔
      ∀ line ∈ (lines.filter isMemLine).take complete, GoodMemLine line := by
  induction lines generalizing complete m with
  | nil => simpa [readSmapsLines] using hm
  | cons line rest ih =>
    by_cases h : lineMemData line = .ign
    · rw [List.filter_cons_of_neg (by simp [isMemLine, h]), ← ih complete hc m hm]
      simp only [readSmapsLines, h, if_true]
    · obtain ⟨n, rfl⟩ := Nat.exists_eq_succ_of_ne_zero (Nat.ne_of_gt hc)
      rw [List.filter_cons_of_pos (by simp [isMemLine, h]), List.take_succ_cons, List.forall_mem_cons]
      have hset (d : LineMemData) (v : UInt64) : (d.set v m).parsed = true := by cases d <;> exact hm
      simp only [readSmapsLines, h, if_false, GoodMemLine, Nat.succ_eq_add_one, Nat.add_sub_cancel]
      by_cases htokens : (words line).length < 3
      · simp only [htokens, if_true]
        exact iff_of_false (by simp) fun hgood => absurd hgood.1.1 (Nat.not_le.mpr htokens)
      · rw [if_neg htokens]
        cases (words line)[1]?.bind stoul with
        | none => exact iff_of_false (by simp) fun hgood => absurd hgood.1.2 (by simp)
        | some v =>
          have hthis : 3 ≤ (words line).length ∧ (some v).isSome = true := ⟨Nat.not_lt.mp htokens, rfl⟩
          simp only [hthis, true_and]
          by_cases hn : n = 0
          · subst hn
            simpa using hset _ v
          · rw [if_neg hn]
            exact ih n (Nat.pos_of_ne_zero hn) _ (hset _ v)

/-! ### The file as the kernel writes it -/

/-- The number of the line with the key. -/
def figureOf (key : List Char) (content : List CounterLine) : Option UInt64 :=
  (content.find? fun l => decide (l.key = key)).map fun l => UInt64.ofNat l.number

/-- A line of a key that ends at its only colon is told by its key. -/
theorem prefix_key_iff (key : List Char) (hkey : IsWord (key ++ [':'])) {l : CounterLine} (hl : ':' ∉ l.key.dropLast) :
    (key ++ [':']).isPrefixOf l.text = true ↔ l.key = key ++ [':'] := by
  rw [List.isPrefixOf_iff_prefix, CounterLine.prefix_text_iff hkey]
  constructor
  · intro h
    obtain ⟨tail, htail⟩ := h
    by_contra hne
    have htailne : tail ≠ [] := by
      rintro rfl
      exact hne (by rw [← htail, List.append_nil])
    refine hl ?_
    rw [← htail, List.dropLast_append_of_ne_nil htailne]
    simp
  · intro h
    rw [h]

theorem lineMemData_text {l : CounterLine} (hl : ':' ∉ l.key.dropLast) :
    lineMemData l.text =
      if l.key = "Rss:".toList then .rss else if l.key = "Pss:".toList then .pss else .ign := by
  have hrss := prefix_key_iff "Rss".toList (by decide) hl
  have hpss := prefix_key_iff "Pss".toList (by decide) hl
  unfold lineMemData
  exact if_congr hrss rfl (if_congr hpss rfl rfl)

/-- A wanted line sets its figure. -/
theorem readSmapsLines_text {l : CounterLine} (hunit : words l.unit ≠ []) (hfits : l.number < 2 ^ 64)
    (hmem : lineMemData l.text ≠ .ign) (complete : Nat) (m : Smaps) (rest : List (List Char)) :
    readSmapsLines complete m (l.text :: rest) =
      if complete - 1 = 0 then (lineMemData l.text).set (UInt64.ofNat l.number) m
      else readSmapsLines (complete - 1) ((lineMemData l.text).set (UInt64.ofNat l.number) m) rest := by
  have hlength : ¬(words l.text).length < 3 := by
    have hpos := List.length_pos_iff.mpr hunit
    rw [CounterLine.words_text, List.length_cons, List.length_cons]
    omega
  have hnumber : (words l.text)[1]?.bind stoul = some (UInt64.ofNat l.number) := by
    have hline := l.lineNumber_text
    rw [if_pos hfits] at hline
    exact hline
  simp only [readSmapsLines, hmem, if_false, hlength, hnumber]

/-- The keys of the two lines. -/
def memKeys : List (List Char) := ["Rss:".toList, "Pss:".toList]

/-- The lines of the content: each key once and with its colon at its end, a number that fits, and a unit. -/
structure Rollup (content : List CounterLine) : Prop where
  keys : (content.map CounterLine.key).Nodup
  colon : ∀ l ∈ content, ':' ∉ l.key.dropLast
  unit : ∀ l ∈ content, words l.unit ≠ []
  fits : ∀ l ∈ content, l.number < 2 ^ 64

theorem isMemLine_text {l : CounterLine} (hl : ':' ∉ l.key.dropLast) :
    isMemLine l.text = decide (l.key ∈ memKeys) := by
  rw [isMemLine, lineMemData_text hl, decide_eq_decide]
  by_cases hrss : l.key = "Rss:".toList
  · simp [hrss, memKeys]
  · by_cases hpss : l.key = "Pss:".toList
    · simp [hpss, memKeys]
    · rw [if_neg hrss, if_neg hpss]
      exact iff_of_false (fun h => h rfl) (by
        simp only [memKeys, List.mem_cons, List.not_mem_nil, or_false]
        exact fun h => h.elim hrss hpss)

/-- The wanted lines of a content, of which there are at most two. -/
theorem Rollup.filter_text {content : List CounterLine} (h : Rollup content) :
    (content.map CounterLine.text).filter isMemLine =
      (content.filter fun l => decide (l.key ∈ memKeys)).map CounterLine.text := by
  rw [List.filter_map]
  refine congrArg (List.map CounterLine.text) (List.filter_congr fun l hl => ?_)
  exact isMemLine_text (h.colon l hl)

theorem figureOf_filter {key : List Char} (hkey : key ∈ memKeys) (content : List CounterLine) :
    figureOf key (content.filter fun l => decide (l.key ∈ memKeys)) = figureOf key content := by
  have hboth : (fun l : CounterLine => decide (decide (l.key ∈ memKeys) = true ∧ decide (l.key = key) = true)) =
      fun l => decide (l.key = key) := by
    funext l
    by_cases hl : l.key = key
    · simp [hl, hkey]
    · simp [hl]
  rw [figureOf, List.find?_filter, hboth, figureOf]

theorem Rollup.filter {content : List CounterLine} (h : Rollup content) (p : CounterLine → Bool) :
    Rollup (content.filter p) where
  keys := Keyed.nodup_filter p h.keys
  colon l hl := h.colon l (List.mem_of_mem_filter hl)
  unit l hl := h.unit l (List.mem_of_mem_filter hl)
  fits l hl := h.fits l (List.mem_of_mem_filter hl)

/-- Distinct wanted lines each set their figure. -/
theorem readSmaps_wanted {content : List CounterLine} (h : Rollup content) (hall : ∀ l ∈ content, l.key ∈ memKeys) :
    readSmaps (content.map CounterLine.text) =
      ⟨figureOf "Rss:".toList content, figureOf "Pss:".toList content, true⟩ := by
  have hread {l : CounterLine} (hl : l ∈ content) (complete : Nat) (m : Smaps) (rest : List (List Char)) :=
    have hmem : lineMemData l.text ≠ .ign := by simpa [isMemLine, hall l hl] using isMemLine_text (h.colon l hl)
    readSmapsLines_text (h.unit l hl) (h.fits l hl) hmem complete m rest
  have hdata {l : CounterLine} (hl : l ∈ content) := lineMemData_text (h.colon l hl)
  cases content with
  | nil => rfl
  | cons a content =>
    have ha := List.mem_cons_self (a := a) (l := content)
    have hakey := hall a ha
    simp only [memKeys, List.mem_cons, List.not_mem_nil, or_false] at hakey
    cases content with
    | nil =>
      rcases hakey with hakey | hakey <;>
        simp [readSmaps, hread ha, hdata ha, hakey, readSmapsLines, LineMemData.set, figureOf]
    | cons b content =>
      have hb := List.mem_cons_of_mem a (List.mem_cons_self (a := b) (l := content))
      have hbkey := hall b hb
      simp only [memKeys, List.mem_cons, List.not_mem_nil, or_false] at hbkey
      -- Two keys, so no third line.
      have hlength : ((a :: b :: content).map CounterLine.key).length ≤ memKeys.length :=
        (List.subperm_of_subset h.keys fun k hk => by
          obtain ⟨l, hl, rfl⟩ := List.mem_map.mp hk
          exact hall l hl).length_le
      obtain rfl : content = [] := by
        refine List.length_eq_zero_iff.mp ?_
        simp only [List.map_cons, List.length_cons, List.length_map, memKeys, List.length_nil] at hlength
        omega
      have hne : a.key ≠ b.key := by simpa using h.keys
      rcases hakey with hakey | hakey <;> rcases hbkey with hbkey | hbkey
      · exact absurd (hakey.trans hbkey.symm) hne
      · simp [readSmaps, hread ha, hread hb, hdata ha, hdata hb, hakey, hbkey, LineMemData.set, figureOf]
      · simp [readSmaps, hread ha, hread hb, hdata ha, hdata hb, hakey, hbkey, LineMemData.set, figureOf]
      · exact absurd (hakey.trans hbkey.symm) hne

/-- What an entry takes from the file. -/
structure TakenAs (content : List CounterLine) (env : Env) (p : Pid) : Prop where
  /-- The file never ends an update. -/
  status : ∀ e : ProcEntry, e.pid = p → (e.readProcSmapsRollup env).2 = true
  own : ∀ e : ProcEntry, e.pid = p → ∀ l ∈ content,
    (l.key = "Rss:".toList → (e.readProcSmapsRollup env).1.info.memRss.toNat = l.number) ∧
      (l.key = "Pss:".toList → (e.readProcSmapsRollup env).1.info.memPss.toNat = l.number)
  /-- A figure without a line stays, as all else does. -/
  other : ∀ e : ProcEntry, e.pid = p →
    ((∀ l ∈ content, l.key ≠ "Rss:".toList) → (e.readProcSmapsRollup env).1.info.memRss = e.info.memRss) ∧
      ((∀ l ∈ content, l.key ≠ "Pss:".toList) → (e.readProcSmapsRollup env).1.info.memPss = e.info.memPss)

theorem figureOf_own {content : List CounterLine} (h : Rollup content) {l : CounterLine} (hl : l ∈ content) :
    figureOf l.key content = some (UInt64.ofNat l.number) := by
  rw [figureOf, show (content.find? fun l' => decide (l'.key = l.key)) = some l from Keyed.lookup_of_mem h.keys hl]
  rfl

theorem figureOf_none {content : List CounterLine} {key : List Char} (h : ∀ l ∈ content, l.key ≠ key) :
    figureOf key content = none := by
  rw [figureOf, show (content.find? fun l => decide (l.key = key)) = none from Keyed.lookup_eq_none.mpr h]
  rfl

/-- **The memory of a process is what its own lines say**, wherever they stand in the file, and
whatever the lines of other keys hold. -/
theorem smaps_read {header : List Char} (hheader : lineMemData header = .ign) {content : List CounterLine}
    (h : Rollup content) {env : Env} {p : Pid}
    (hfile : (env.files p).smapsRollup = some (readSmaps (header :: content.map CounterLine.text))) :
    TakenAs content env p := by
  have hread : readSmaps (header :: content.map CounterLine.text) =
      ⟨figureOf "Rss:".toList content, figureOf "Pss:".toList content, true⟩ := by
    rw [readSmaps, readSmapsLines_filter, List.filter_cons_of_neg (by simp [isMemLine, hheader]), h.filter_text]
    refine (readSmaps_wanted (h.filter _) fun l hl => ?_).trans ?_
    · simpa using (List.mem_filter.mp hl).2
    · rw [figureOf_filter (List.mem_cons_self ..), figureOf_filter (by simp [memKeys])]
  have hfits {l : CounterLine} (hl : l ∈ content) : (UInt64.ofNat l.number).toNat = l.number :=
    UInt64.toNat_ofNat_of_lt' (h.fits l hl)
  rw [hread] at hfile
  refine ⟨fun e he => ?_, fun e he l hl => ⟨fun hkey => ?_, fun hkey => ?_⟩, fun e he => ⟨fun hnone => ?_, fun hnone => ?_⟩⟩
  · subst he
    simp only [readProcSmapsRollup, hfile]
  · subst he
    simp only [readProcSmapsRollup, hfile]
    rw [← hkey, figureOf_own h hl, Option.getD_some, hfits hl]
  · subst he
    simp only [readProcSmapsRollup, hfile]
    rw [← hkey, figureOf_own h hl, Option.getD_some, hfits hl]
  · subst he
    simp only [readProcSmapsRollup, hfile]
    rw [figureOf_none hnone, Option.getD_none]
  · subst he
    simp only [readProcSmapsRollup, hfile]
    rw [figureOf_none hnone, Option.getD_none]

/-! ### A file, and one without a number -/

/-- A line as the kernel writes it. -/
def memLine (key digits : List Char) (hkey : IsWord key) (hdigits : IsDecimal digits) : CounterLine where
  key := key
  gap := [' ', ' ']
  digits := digits
  unit := " kB".toList
  isWord := hkey
  blank := by decide
  apart := List.cons_ne_nil _ _
  isDecimal := hdigits
  unit_apart c hc := by
    obtain rfl := Option.some.inj hc
    rfl

/-- The wanted lines among two that only look like them. -/
def rollupLines : List CounterLine :=
  [memLine "Pss_Dirty:".toList "512".toList (by decide) (by decide), memLine "Pss:".toList "768".toList (by decide) (by decide),
    memLine "SwapPss:".toList "64".toList (by decide) (by decide), memLine "Rss:".toList "1024".toList (by decide) (by decide)]

def rollupHeader : List Char := "55e2-7ffd ---p 00000000 00:00 0 [rollup]".toList

theorem rollup_rollupLines : Rollup rollupLines where
  keys := by decide
  colon := by decide
  unit := by decide
  fits := by decide

/-- Every process has the memory file. -/
def rollupEnv (lines : List (List Char)) : Env where
  pids := [7]
  files := fun _ => ⟨none, some ⟨7, 1, 0, 0⟩, some (readSmaps lines), some 0⟩
  taskstats := fun _ => true
  contextId := fun _ => 0
  containers := []
  now := 0
  procAcctCollectorCounter := 0

theorem smaps_read_usual :
    TakenAs rollupLines (rollupEnv (rollupHeader :: rollupLines.map CounterLine.text)) 7 :=
  smaps_read (by decide) rollup_rollupLines rfl

namespace Registry
open DeferredList

variable {L : Type → Type} [DeferredList L] {cfg : Config} {env : Env} {r : Registry L}

/-- **What drops a process for its memory file**: a line among the first two wanted that has too
few tokens, or no number that fits. Nothing else in a file does. -/
theorem dropped_iff (h : WF r) {p : Ptr} (hp : p ∈ items r.procList) (hpending : (r.procs p).updatePending = false)
    (hstat : (env.files (r.procs p).pid).stat.isSome = true)
    (hfd : cfg.enableProcFDCount = true → (env.files (r.procs p).pid).fd.isSome = true)
    {lines : List (List Char)} (hfile : (env.files (r.procs p).pid).smapsRollup = some (readSmaps lines)) :
    p ∈ recorded (updateProcInfo cfg env r p).procList ↔
      p ∈ recorded r.procList ∨ ∃ line ∈ (lines.filter isMemLine).take 2, ¬GoodMemLine line := by
  have hacts : Acts (updateProcInfo (L := L) cfg env) (Cell.updInfo cfg env) := acts_updateProcInfo
  have hcell := hacts.cell r p h hp p hp
  rw [if_pos rfl] at hcell
  have hcond : ((updateProcInfo cfg env r p).cell p).condemned =
      ((r.cell p).condemned || !((r.procs p).updateProcInfo cfg env).2) := by
    rw [hcell]
    rfl
  have hstatus : ((r.procs p).updateProcInfo cfg env).2 = (readSmaps lines).parsed := by
    rw [(ProcEntry.updateProcInfo_spec cfg env (r.procs p)).status, hpending, Bool.false_or, ProcEntry.readable, hstat,
      hfile]
    cases hc : cfg.enableProcFDCount with
    | true => simp [hfd hc]
    | false => simp
  have hparsed := parsed_iff 2 (by decide) ⟨none, none, true⟩ rfl lines
  rw [hstatus] at hcond
  simp only [cell] at hcond
  rw [← decide_eq_true_iff (p := p ∈ recorded (updateProcInfo cfg env r p).procList), hcond, Bool.or_eq_true,
    decide_eq_true_iff, Bool.not_eq_true', ← Bool.not_eq_true, readSmaps, hparsed]
  simp only [not_forall, exists_prop]

/-- A process whose memory file ends in a line without its number. -/
def halfWritten : Registry Recorded where
  procList := ⟨[0], []⟩
  contextList := ⟨[], []⟩
  procs := fun _ => {pid := 7, info := {}}
  contexts := fun _ => {}
  next := 1
  queue := []

theorem dropped_iff_halfWritten :
    0 ∈ recorded (updateProcInfo contextConfig (rollupEnv ["Rss:".toList]) halfWritten 0).procList ↔
      0 ∈ recorded halfWritten.procList ∨
        ∃ line ∈ (["Rss:".toList].filter isMemLine).take 2, ¬GoodMemLine line :=
  dropped_iff ⟨by decide, by decide, by decide⟩ (by decide) rfl rfl (fun _ => rfl) rfl

end Registry
end TaskMonitor

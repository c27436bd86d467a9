import TaskMonitor.Lib.Words
import TaskMonitor.Registry.Entry

/-! The line of a stat file (`ProcEntry.cpp`).

The second field is the name of the process in parentheses, which can hold
blanks and parentheses of its own, so it is any number of tokens from one on. The
fields behind it are found by counting from the end of the line, where the name
makes no difference (`stat_line_read`). -/
namespace TaskMonitor
open Text

namespace ProcEntry

/-- The tokens of a stat file, and how many of them are more than its fields; `none` where the file cannot be read or has
too few. -/
def statTokens (content : List Char) : Option (List (List Char) × Nat) :=
  (getline content).bind fun line =>
    let tokens := words line
    if tokens.length < 52 then none else some (tokens, tokens.length - 52)

/-- What `initInfoData` takes from a stat file; `none` where it throws. -/
def readStat (content : List Char) : Option Stat := do
  let (tokens, afterNameOffset) ← statTokens content
  let pid ← tokens[0]?.bind stoul
  let ppid ← tokens[3 + afterNameOffset]?.bind stoul
  let utime ← tokens[13 + afterNameOffset]?.bind stoul
  let stime ← tokens[14 + afterNameOffset]?.bind stoul
  pure {pid := pid.toUInt32, ppid := ppid.toUInt32, utime := utime, stime := stime}

/-- What `readProcStat` takes from a stat file: the new cpu time. -/
def readCPUTime (content : List Char) : Option UInt64 := do
  let (tokens, afterNameOffset) ← statTokens content
  let utime ← tokens[13 + afterNameOffset]?.bind stoul
  let stime ← tokens[14 + afterNameOffset]?.bind stoul
  pure (utime + stime)

/-- `readProcStat` reads nothing that `initInfoData` does not. -/
theorem readCPUTime_of_readStat {content : List Char} {st : Stat} (h : readStat content = some st) :
    readCPUTime content = some (st.utime + st.stime) := by
  obtain ⟨⟨tokens, offset⟩, htokens, h⟩ := Option.bind_eq_some_iff.mp h
  obtain ⟨_, _, h⟩ := Option.bind_eq_some_iff.mp h
  obtain ⟨_, _, h⟩ := Option.bind_eq_some_iff.mp h
  obtain ⟨utime, hutime, h⟩ := Option.bind_eq_some_iff.mp h
  obtain ⟨stime, hstime, h⟩ := Option.bind_eq_some_iff.mp h
  obtain rfl := Option.some.inj h
  exact Option.bind_eq_some_iff.mpr ⟨_, htokens, Option.bind_eq_some_iff.mpr ⟨utime, hutime,
    Option.bind_eq_some_iff.mpr ⟨stime, hstime, rfl⟩⟩⟩

end ProcEntry

/-! ### The line as the kernel writes it -/

/-- The pid, the name in parentheses, and the fields from the third on. -/
def statText (pid name : List Char) (fields : List (List Char)) : List Char :=
  pid ++ ' ' :: (('(' :: name ++ [')']) ++ ' ' :: unwords fields)

variable {pid name : List Char} {fields : List (List Char)}

/-- A name in parentheses is not blank, whatever it is. -/
theorem words_parentheses (name : List Char) : words ('(' :: name ++ [')']) ≠ [] := by
  intro h
  have hblank := (words_eq_nil_iff _).mp h '(' (by simp)
  cases hblank

/-- The tokens of the line: the pid, those of the name, and the fields. -/
theorem words_statText (hpid : IsWord pid) (hfields : ∀ w ∈ fields, IsWord w) :
    words (statText pid name fields) = pid :: (words ('(' :: name ++ [')']) ++ fields) := by
  rw [statText, words_append_blank rfl, words_append_blank rfl, words_word hpid, words_unwords hfields]
  rfl

theorem newline_statText (hpid : IsWord pid) (hname : '\n' ∉ name) (hfields : ∀ w ∈ fields, IsWord w) :
    '\n' ∉ statText pid name fields := by
  have hword {w : List Char} (h : IsWord w) : '\n' ∉ w := fun hmem => by cases h.2 '\n' hmem
  intro h
  simp only [statText, List.mem_append, List.mem_cons, List.cons_append] at h
  rcases h with h | h | h | (h | h) | h | h
  · exact hword hpid h
  · cases h
  · cases h
  · exact hname h
  · simp at h
  · cases h
  · rcases mem_unwords h with h | ⟨w, hw, hmem⟩
    · cases h
    · exact hword (hfields w hw) hmem

/-! ### The fields that are read -/

/-- A field of the line behind the name, which are counted from the third. -/
def statField (fields : List (List Char)) (n : Nat) : Option (List Char) := fields[n - 3]?

/-- The number in a field. -/
def fieldNumber (fields : List (List Char)) (n : Nat) : Nat := ofDigits ((statField fields n).getD [])

/-- The fields are words, fifty of them behind the name, and those that are read are numbers that fit: the pid and the
parent's, and the times with their sum. -/
structure Fields (pid : List Char) (fields : List (List Char)) : Prop where
  pid : IsDecimal pid ∧ ofDigits pid < 2 ^ 32
  length : fields.length = 50
  words : ∀ w ∈ fields, IsWord w
  ppid : ∀ w, statField fields 4 = some w → IsDecimal w ∧ ofDigits w < 2 ^ 32
  utime : ∀ w, statField fields 14 = some w → IsDecimal w
  stime : ∀ w, statField fields 15 = some w → IsDecimal w
  sum : ∀ u s, statField fields 14 = some u → statField fields 15 = some s → ofDigits u + ofDigits s < 2 ^ 64

theorem stoul_fits {w : List Char} (h : IsDecimal w) (hlt : ofDigits w < 2 ^ 64) :
    stoul w = some (UInt64.ofNat (ofDigits w)) :=
  (stoul_decimal h).trans (if_pos hlt)

/-- The tokens of the stat file, and the name's excess, which cancels behind the name. -/
theorem statTokens_statText (h : Fields pid fields) (hname : '\n' ∉ name) :
    ∃ offset, ProcEntry.statTokens (statText pid name fields ++ ['\n']) =
        some (pid :: (words ('(' :: name ++ [')']) ++ fields), offset) ∧
      ∀ i, (pid :: (words ('(' :: name ++ [')']) ++ fields))[i + 2 + offset]? = fields[i]? := by
  have hpid := isWord_of_isDecimal h.pid.1
  have hlength := h.length
  have hsome := List.length_pos_iff.mpr (words_parentheses name)
  refine ⟨(words ('(' :: name ++ [')'])).length - 1, ?_, fun i => ?_⟩
  · rw [ProcEntry.statTokens, getline_line (newline_statText hpid hname h.words), Option.bind_some,
      words_statText hpid h.words]
    have hcount : (pid :: (words ('(' :: name ++ [')']) ++ fields)).length =
        52 + ((words ('(' :: name ++ [')'])).length - 1) := by
      rw [List.length_cons, List.length_append, hlength]
      omega
    simp only [hcount, Nat.add_sub_cancel_left, if_neg (Nat.not_lt.mpr (Nat.le_add_right 52 _))]
  · have hindex : i + 2 + ((words ('(' :: name ++ [')'])).length - 1) = (words ('(' :: name ++ [')'])).length + i + 1 := by
      omega
    rw [hindex, List.getElem?_cons_succ, List.getElem?_append_right (Nat.le_add_right _ i), Nat.add_sub_cancel_left]

theorem Fields.field_some (h : Fields pid fields) {n : Nat} (hn : 3 ≤ n) (hle : n ≤ 52) : ∃ w, statField fields n = some w :=
  ⟨_, List.getElem?_eq_getElem (by rw [h.length]; omega)⟩

theorem fieldNumber_some {n : Nat} {w : List Char} (h : statField fields n = some w) : fieldNumber fields n = ofDigits w := by
  rw [fieldNumber, h, Option.getD_some]

theorem toNat_ofDigits {w : List Char} (h : ofDigits w < 2 ^ 64) : (UInt64.ofNat (ofDigits w)).toNat = ofDigits w :=
  UInt64.toNat_ofNat_of_lt' h

/-- What is taken from the stat file, whatever the name is. -/
theorem readStat_statText (h : Fields pid fields) (hname : '\n' ∉ name) :
    ∃ st, ProcEntry.readStat (statText pid name fields ++ ['\n']) = some st ∧ st.pid.toNat = ofDigits pid ∧
      st.ppid.toNat = fieldNumber fields 4 ∧ st.utime.toNat = fieldNumber fields 14 ∧
      st.stime.toNat = fieldNumber fields 15 ∧
      (st.utime + st.stime).toNat = fieldNumber fields 14 + fieldNumber fields 15 := by
  obtain ⟨offset, htokens, hfield⟩ := statTokens_statText h hname
  obtain ⟨p, hp⟩ := h.field_some (n := 4) (by decide) (by decide)
  obtain ⟨u, hu⟩ := h.field_some (n := 14) (by decide) (by decide)
  obtain ⟨s, hs⟩ := h.field_some (n := 15) (by decide) (by decide)
  have hsum := h.sum u s hu hs
  have hpid := h.pid
  have hppid := h.ppid p hp
  have hult : ofDigits u < 2 ^ 64 := by omega
  have hslt : ofDigits s < 2 ^ 64 := by omega
  have hread {i : Nat} {w : List Char} (hw : fields[i]? = some w) (hdec : IsDecimal w) (hlt : ofDigits w < 2 ^ 64) :
      (pid :: (words ('(' :: name ++ [')']) ++ fields))[i + 2 + offset]?.bind stoul =
        some (UInt64.ofNat (ofDigits w)) := by
    rw [hfield, hw, Option.bind_some, stoul_fits hdec hlt]
  refine ⟨⟨(UInt64.ofNat (ofDigits pid)).toUInt32, (UInt64.ofNat (ofDigits p)).toUInt32, UInt64.ofNat (ofDigits u),
    UInt64.ofNat (ofDigits s)⟩, ?_, ?_, ?_, ?_, ?_, ?_⟩
  · refine Option.bind_eq_some_iff.mpr ⟨_, htokens, ?_⟩
    refine Option.bind_eq_some_iff.mpr ⟨_, stoul_fits hpid.1 (by omega), ?_⟩
    refine Option.bind_eq_some_iff.mpr ⟨_, hread hp hppid.1 (by omega), ?_⟩
    refine Option.bind_eq_some_iff.mpr ⟨_, hread hu (h.utime u hu) hult, ?_⟩
    exact Option.bind_eq_some_iff.mpr ⟨_, hread hs (h.stime s hs) hslt, rfl⟩
  · rw [UInt64.toNat_toUInt32, toNat_ofDigits (by omega)]
    exact Nat.mod_eq_of_lt hpid.2
  · rw [UInt64.toNat_toUInt32, toNat_ofDigits (by omega), fieldNumber_some hp]
    exact Nat.mod_eq_of_lt hppid.2
  · rw [toNat_ofDigits hult, fieldNumber_some hu]
  · rw [toNat_ofDigits hslt, fieldNumber_some hs]
  · rw [UInt64.toNat_add, toNat_ofDigits hult, toNat_ofDigits hslt, fieldNumber_some hu, fieldNumber_some hs]
    exact Nat.mod_eq_of_lt hsum

/-- What both readers make of the line: no name makes them reject it, or read other fields. -/
structure ReadAs (content : List Char) (pid : List Char) (fields : List (List Char)) (env : Env) (p : Pid) : Prop where
  /-- The fields taken are the line's. -/
  stat : ∃ st, ProcEntry.readStat content = some st ∧ ProcEntry.readCPUTime content = some (st.utime + st.stime) ∧
    st.ppid.toNat = fieldNumber fields 4 ∧ st.utime.toNat = fieldNumber fields 14 ∧ st.stime.toNat = fieldNumber fields 15
  init : ∀ cfg info, ∃ info', ProcEntry.initInfoData cfg env p info = some info' ∧ info'.pid.toNat = ofDigits pid ∧
    info'.ppid.toNat = fieldNumber fields 4 ∧ info'.cpuTime.toNat = fieldNumber fields 14 + fieldNumber fields 15
  update : ∀ e : ProcEntry, e.pid = p → (e.readProcStat env).2 = true ∧
    (e.readProcStat env).1.info.cpuTime.toNat = fieldNumber fields 14 + fieldNumber fields 15

theorem initContext_keeps (cfg : Config) (env : Env) (p : Pid) (info : ProcInfoEntry) :
    (ProcEntry.initContext cfg env p info).pid = info.pid ∧ (ProcEntry.initContext cfg env p info).ppid = info.ppid ∧
      (ProcEntry.initContext cfg env p info).cpuTime = info.cpuTime := by
  unfold ProcEntry.initContext
  split <;> exact ⟨rfl, rfl, rfl⟩

/-- **The fields of a stat line are read whatever the name is.** -/
theorem stat_line_read (h : Fields pid fields) (hname : '\n' ∉ name) {env : Env} {p : Pid}
    (hfile : (env.files p).stat = ProcEntry.readStat (statText pid name fields ++ ['\n'])) :
    ReadAs (statText pid name fields ++ ['\n']) pid fields env p := by
  obtain ⟨st, hst, hpid, hppid, hutime, hstime, hsum⟩ := readStat_statText h hname
  have hstat := hfile.trans hst
  refine ⟨⟨st, hst, ProcEntry.readCPUTime_of_readStat hst, hppid, hutime, hstime⟩, fun cfg info => ?_, ?_⟩
  · obtain ⟨hkpid, hkppid, hkcpu⟩ := initContext_keeps cfg env p
      {info with pid := st.pid, ppid := st.ppid, cpuTime := st.utime + st.stime}
    refine ⟨_, by rw [ProcEntry.initInfoData, hstat]; rfl, ?_, ?_, ?_⟩
    · rw [hkpid, hpid]
    · rw [hkppid, hppid]
    · rw [hkcpu, hsum]
  · rintro e rfl
    unfold ProcEntry.readProcStat
    rw [hstat]
    dsimp only
    split <;> exact ⟨rfl, hsum⟩

/-- A name that looks like the end of a name, and fields. -/
def oddName : List Char := ") R 1 (x ".toList

def ones : List (List Char) := List.replicate 50 ['1']

theorem fields_ones : Fields ['7'] ones := by
  have hfield (n : Nat) (w : List Char) (hw : statField ones n = some w) : w = ['1'] :=
    List.eq_of_mem_replicate (List.mem_of_getElem? hw)
  refine ⟨by decide, by decide, fun w hw => ?_, fun w hw => ?_, fun w hw => ?_, fun w hw => ?_, fun u s hu hs => ?_⟩
  · obtain rfl := List.eq_of_mem_replicate hw
    decide
  · obtain rfl := hfield 4 w hw
    decide
  · obtain rfl := hfield 14 w hw
    decide
  · obtain rfl := hfield 15 w hw
    decide
  · obtain rfl := hfield 14 u hu
    obtain rfl := hfield 15 s hs
    decide

/-- A process of that name. -/
def oddEnv : Env where
  pids := [7]
  files := fun _ => ⟨none, ProcEntry.readStat (statText ['7'] oddName ones ++ ['\n']), none, none⟩
  taskstats := fun _ => true
  contextId := fun _ => 0
  containers := []
  now := 0
  procAcctCollectorCounter := 0

theorem stat_line_read_odd : ReadAs (statText ['7'] oddName ones ++ ['\n']) ['7'] ones oddEnv 7 :=
  stat_line_read fields_ones (by decide) rfl

end TaskMonitor

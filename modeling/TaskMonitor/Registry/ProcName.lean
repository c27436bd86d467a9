import TaskMonitor.Lib.Words
import TaskMonitor.Registry.Slots

/-! The name of a process (`ProcRegistry.cpp`).

The first line of a status file is `Name:`, a tab and the name. It is split on
blanks, and the tokens behind the first are put together with single spaces: a
name comes back as it is if its only blanks are single spaces between words. A
name without words leaves one token, which is taken for a line that cannot be
parsed, and the process gets no entry (`shown_iff`). -/
namespace TaskMonitor.Registry
open DeferredList Text

/-- `getProcNameForPID` on what the status file holds; `none` where it throws. No line but the first is read, as every
round of the loop leaves it. -/
def readName (content : List Char) : Option Name :=
  (getline content).bind fun line =>
    if ¬"Name".toList <:+: line then none
    else
      let tokens := words line
      if tokens.length < 2 then none
      else some ((tokens.drop 2).foldl (fun name token => name ++ ' ' :: token) (tokens.getD 1 []))

/-- A status file, which starts with the name. -/
def statusText (name rest : List Char) : List Char := "Name:".toList ++ '\t' :: name ++ '\n' :: rest

/-- The process is there: its status file starts with the name, and its stat file can be parsed. -/
structure Live (env : Env) (pid : Pid) (name rest : List Char) : Prop where
  status : (env.files pid).status = readName (statusText name rest)
  stat : (env.files pid).stat.isSome = true

/-- The name is read as it is, and a process of that name gets an entry, at start and when it is added. -/
structure Shown (L : Type → Type) [DeferredList L] (name rest : List Char) : Prop where
  read : readName (statusText name rest) = some name
  init : ∀ cfg env pid, Live env pid name rest → env.pids.Nodup → pid ∈ env.pids → isBlacklisted cfg name = false →
    (pid, name) ∈ (initFromProc cfg env (empty : Registry L)).tracked
  add : ∀ cfg env pid (r : Registry L), Live env pid name rest → isBlacklisted cfg name = false →
    r.hasProc pid = false → (pid, name) ∈ (r.addProcEntry cfg env pid).tracked

variable {L : Type → Type} [DeferredList L] {cfg : Config} {env : Env} {pid : Pid} {name rest : List Char}

/-- What is read is the words of the name. -/
theorem readName_statusText (h : '\n' ∉ name) (rest : List Char) :
    readName (statusText name rest) = if words name = [] then none else some (unwords (words name)) := by
  have hnewline : '\n' ∉ "Name:".toList ++ '\t' :: name := by
    intro hmem
    rcases List.mem_append.mp hmem with hmem | hmem
    · exact absurd hmem (by decide)
    · rcases List.mem_cons.mp hmem with hmem | hmem
      · cases hmem
      · exact h hmem
  have hwords : words ("Name:".toList ++ '\t' :: name) = "Name:".toList :: words name := by
    rw [words_append_blank rfl, words_word (by decide)]
    rfl
  have hfound : "Name".toList <:+: "Name:".toList ++ '\t' :: name := ⟨[], ':' :: '\t' :: name, rfl⟩
  rw [readName, statusText, getline_line hnewline, Option.bind_some, if_neg (not_not_intro hfound)]
  simp only [hwords]
  cases words name with
  | nil => rfl
  | cons w ws =>
    rw [if_neg (by simp), if_neg (by simp)]
    exact congrArg some (foldl_space w ws)

/-- A name without words is not read. -/
theorem readName_eq_none_iff (h : '\n' ∉ name) : readName (statusText name rest) = none ↔ Blank name := by
  rw [readName_statusText h, ← words_eq_nil_iff]
  simp

/-- A name is read as it is exactly if it has a word, and no blanks but single spaces between words. -/
theorem readName_eq_iff (h : '\n' ∉ name) : readName (statusText name rest) = some name ↔ name ≠ [] ∧ Tight name := by
  rw [readName_statusText h, ← unwords_words_iff]
  constructor
  · intro hread
    by_cases hnil : words name = []
    · rw [if_pos hnil] at hread
      cases hread
    · rw [if_neg hnil, Option.some_inj] at hread
      refine ⟨fun hname => hnil ?_, hread⟩
      rw [hname, words_nil]
  · rintro ⟨hne, htight⟩
    have hwords : words name ≠ [] := fun hnil => hne (by rw [← htight, hnil]; rfl)
    rw [if_neg hwords, htight]

/-! ### Entries -/

/-- A live process whose name has no word gets no entry. -/
theorem Live.hidden (h : Live env pid name rest) (hn : '\n' ∉ name) (hblank : Blank name) (cfg : Config) (r : Registry L) :
    initEntry cfg env r pid = r := by
  have hname : getProcNameForPID env pid = none := h.status.trans ((readName_eq_none_iff hn).mpr hblank)
  rw [initEntry, hname]

/-- A new object is listed. -/
theorem mem_tracked_createProcessEntry {e : ProcEntry} (h : ProcEntry.make cfg env pid name = some e) (r : Registry L) :
    (pid, name) ∈ (r.createProcessEntry cfg env pid name).tracked := by
  obtain ⟨hpid, hname, _⟩ := ProcEntry.make_spec h
  have hinsert : (pid, name) ∈ (r.insertProc e).tracked := by
    refine List.mem_map.mpr ⟨r.next, ?_, ?_⟩
    · simp [insertProc]
    · simp [insertProc, ProcEntry.getName, hpid, hname]
  rw [createProcessEntry, h]
  simp only
  split
  · exact hinsert
  · exact hinsert

theorem Live.make (h : Live env pid name rest) (cfg : Config) : ∃ e, ProcEntry.make cfg env pid name = some e :=
  Option.isSome_iff_exists.mp (ProcEntry.make_isSome.trans h.stat)

/-- Adding a live process whose name is read lists it. -/
theorem Live.mem_tracked_addProcEntry (h : Live env pid name rest) (hread : readName (statusText name rest) = some name)
    (hallowed : isBlacklisted cfg name = false) {r : Registry L} (hnone : r.hasProc pid = false) :
    (pid, name) ∈ (r.addProcEntry cfg env pid).tracked := by
  have hname : getProcNameForPID env pid = some name := h.status.trans hread
  obtain ⟨e, he⟩ := h.make cfg
  rw [addProcEntry, if_neg (by simp [hnone]), initEntry, hname]
  simp only [hallowed]
  exact mem_tracked_createProcessEntry he r

/-- So does reading procfs at start. -/
theorem Live.mem_tracked_initFromProc (h : Live env pid name rest) (hread : readName (statusText name rest) = some name)
    (hallowed : isBlacklisted cfg name = false) (hnodup : env.pids.Nodup) (hpid : pid ∈ env.pids) :
    (pid, name) ∈ (initFromProc cfg env (empty : Registry L)).tracked := by
  have hname : getProcNameForPID env pid = some name := h.status.trans hread
  obtain ⟨e, he⟩ := h.make cfg
  obtain ⟨hwf, hslot⟩ := initFromProc_spec (L := L) cfg hnodup
  refine (hwf.mem_tracked pid name).mpr ⟨Cell.fresh e, ?_, (ProcEntry.make_spec he).2.1⟩
  rw [hslot, if_pos hpid, entryFor, hname, Option.bind_some, if_neg (by simp [hallowed]), he]
  rfl

/-- **A name is shown** exactly if it has a word, and no blanks but single spaces between words. -/
theorem shown_iff (h : '\n' ∉ name) (rest : List Char) : Shown L name rest ↔ name ≠ [] ∧ Tight name := by
  constructor
  · intro hshown
    exact (readName_eq_iff h).mp hshown.read
  · intro hname
    have hread : readName (statusText name rest) = some name := (readName_eq_iff h).mpr hname
    constructor
    · exact hread
    · intro cfg env pid hlive hnodup hpid hallowed
      exact hlive.mem_tracked_initFromProc hread hallowed hnodup hpid
    · intro cfg env pid r hlive hallowed hnone
      exact hlive.mem_tracked_addProcEntry hread hallowed hnone

/-- One process, of the name. -/
def envOf (name : Name) : Env where
  pids := [7]
  files := fun _ => ⟨readName (statusText name []), some ⟨7, 1, 0, 0⟩, none, none⟩
  taskstats := fun _ => true
  contextId := fun _ => 0
  containers := []
  now := 0
  procAcctCollectorCounter := 0

theorem live_envOf (name : Name) : Live (envOf name) 7 name [] := ⟨rfl, rfl⟩

theorem shown_twoWords : Shown Recorded "my task".toList [] :=
  (shown_iff (by decide) []).mpr ⟨by decide, (unwords_words_iff _).mp (by decide +kernel)⟩

/-- A process without a name has no entry, whichever way it is looked for; and two spaces in a name become one. -/
theorem nameless_hidden :
    (¬Shown Recorded [] [] ∧ Live (envOf []) 7 [] [] ∧ isBlacklisted (plainConfig true) [] = false ∧
      (initFromProc (plainConfig true) (envOf []) (empty : Registry Recorded)).tracked = [] ∧
      ((empty : Registry Recorded).addProcEntry (plainConfig true) (envOf []) 7).tracked = []) ∧
    ¬Shown Recorded "a  b".toList [] ∧ readName (statusText "a  b".toList []) = some "a b".toList := by
  have hread : readName (statusText "a  b".toList []) = some "a b".toList := by decide +kernel
  have hnone : initEntry (plainConfig true) (envOf []) (empty : Registry Recorded) 7 = empty :=
    (live_envOf []).hidden (by decide) (by decide) _ _
  have hstart : initFromProc (plainConfig true) (envOf []) (empty : Registry Recorded) = empty := hnone
  have hadded : (empty : Registry Recorded).addProcEntry (plainConfig true) (envOf []) 7 = empty := hnone
  refine ⟨⟨fun h => ?_, live_envOf [], rfl, by rw [hstart]; rfl, by rw [hadded]; rfl⟩, fun h => ?_, hread⟩
  · exact absurd h.read (by decide +kernel)
  · exact absurd (hread.symm.trans h.read) (by decide)

end TaskMonitor.Registry

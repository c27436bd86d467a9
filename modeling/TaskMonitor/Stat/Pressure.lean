import TaskMonitor.Stat.Source

/-! Pressure stall information (`SysProcPressure.cpp`).

Every line counts: its first token says which record its pairs go to, and a line
without a token has none (`pressureLine`). A file that cannot be opened leaves
its record as it was.

What `std::stof` makes of a text is a parameter. Which texts it takes hangs on its
float: hexadecimals, infinities and NaN are numbers, and a decimal is out of range
or not by how it is rounded. Whatever texts it takes, what is proved holds. -/
namespace TaskMonitor
open Lines Text

variable {F : Type} [Zero F]

/-- `tokenize` -/
def tokenize (str : List Char) (ch : Char) : List (List Char) := stretches (fun c => c == ch) [] str

structure PSIData (F : Type) [Zero F] where
  avg10 : F := 0
  avg60 : F := 0
  avg300 : F := 0
  total : UInt64 := 0
deriving Repr, DecidableEq

/-- A key and a value, which may set a field. -/
def PSIData.setPair (stof : List Char → Option F) (data : PSIData F) (token : List Char) : Except Fault (PSIData F) :=
  match tokenize token '=' with
  | [key, val] =>
    if key = "avg10".toList then do
      let n ← number stof val
      pure {data with avg10 := n}
    else if key = "avg60".toList then do
      let n ← number stof val
      pure {data with avg60 := n}
    else if key = "avg300".toList then do
      let n ← number stof val
      pure {data with avg300 := n}
    else if key = "total".toList then do
      let n ← number stoul val
      pure {data with total := n}
    else pure data
  | _ => pure data

structure PressureStat (F : Type) [Zero F] where
  name : String
  dataSome : PSIData F := {}
  dataFull : PSIData F := {}
deriving Repr, DecidableEq

namespace PressureStat

def pressureLine (stof : List Char → Option F) (line : List Char) : EStateM Fault (PressureStat F) Flow := do
  let tokens := words line
  let data ← attempt ((tokens.drop 1).foldlM (PSIData.setPair stof) {})
  let kind ← attempt (tokenAt tokens 0)
  modify fun p => if kind = "some".toList then {p with dataSome := data} else {p with dataFull := data}
  pure .next

def updateStats (stof : List Char → Option F) (file : Option (List (List Char))) :
    EStateM Fault (PressureStat F) Unit :=
  match file with
  | none => pure ()
  | some lines => do
    let _ ← read (pressureLine stof) lines
    pure ()

/-- The value of the token can be converted, where its key is one of the four. -/
def PairConverts (stof : List Char → Option F) (token : List Char) : Prop :=
  ∀ key val, tokenize token '=' = [key, val] →
    (key ∈ ["avg10".toList, "avg60".toList, "avg300".toList] → (stof val).isSome = true) ∧
      (key = "total".toList → (stoul val).isSome = true)

/-- The line has a first token, and the values of its pairs can be converted. -/
def Readable (stof : List Char → Option F) (line : List Char) : Prop :=
  words line ≠ [] ∧ ∀ t ∈ (words line).drop 1, PairConverts stof t

end PressureStat

open PressureStat

theorem setPair_ok_iff {stof : List Char → Option F} {data : PSIData F} {token : List Char} :
    (∃ d, PSIData.setPair stof data token = .ok d) ↔ PairConverts stof token := by
  unfold PSIData.setPair PairConverts
  split
  · rename_i key val hpair
    have hconv {A : Type} (conv : List Char → Option A) (f : A → PSIData F) :
        (∃ d, (number conv val >>= fun n => pure (f n)) = Except.ok d) ↔ (conv val).isSome = true := by
      unfold number
      cases conv val with
      | none => exact iff_of_false (by rintro ⟨d, hd⟩; cases hd) (by simp)
      | some n => exact iff_of_true ⟨f n, rfl⟩ rfl
    simp only [hpair, List.cons.injEq, and_true, and_imp, List.mem_cons, List.not_mem_nil, or_false]
    rw [show (∀ a b, key = a → val = b → (a = "avg10".toList ∨ a = "avg60".toList ∨ a = "avg300".toList →
        (stof b).isSome = true) ∧ (a = "total".toList → (stoul b).isSome = true)) ↔ _ from
      ⟨fun h => h key val rfl rfl, fun h a b ha hb => ha ▸ hb ▸ h⟩]
    by_cases h10 : key = "avg10".toList
    · subst h10
      simp only [if_true, hconv, true_or, true_implies]
      exact (and_iff_left (fun h => absurd h (by decide))).symm
    · by_cases h60 : key = "avg60".toList
      · subst h60
        simp only [h10, if_false, if_true, hconv, true_or, or_true, true_implies]
        exact (and_iff_left (fun h => absurd h (by decide))).symm
      · by_cases h300 : key = "avg300".toList
        · subst h300
          simp only [h10, h60, if_false, if_true, hconv, or_true, true_implies]
          exact (and_iff_left (fun h => absurd h (by decide))).symm
        · by_cases htotal : key = "total".toList
          · subst htotal
            simp only [h10, h60, h300, if_false, if_true, hconv, false_or, false_implies, true_and, true_implies]
          · simp only [h10, h60, h300, htotal, if_false, false_or, false_implies, and_true]
            exact iff_of_true ⟨data, rfl⟩ trivial
  · rename_i hnot
    exact iff_of_true ⟨data, rfl⟩ fun key val h => absurd h (hnot key val)

theorem foldlM_setPair_ok_iff {stof : List Char → Option F} (tokens : List (List Char)) (data : PSIData F) :
    (∃ d, tokens.foldlM (PSIData.setPair stof) data = .ok d) ↔ ∀ t ∈ tokens, PairConverts stof t := by
  induction tokens generalizing data with
  | nil => exact iff_of_true ⟨data, rfl⟩ (by simp)
  | cons t rest ih =>
    have hpair : (∃ d, PSIData.setPair stof data t = .ok d) ↔ PairConverts stof t := setPair_ok_iff
    rw [List.foldlM_cons, List.forall_mem_cons, ← hpair]
    cases ht : PSIData.setPair stof data t with
    | error e =>
      refine iff_of_false ?_ ?_
      · rintro ⟨d, hd⟩
        cases hd
      · rintro ⟨⟨d, hd⟩, _⟩
        cases hd
    | ok d =>
      refine (ih d).trans ?_
      simp

namespace PressureStat

theorem ends_pressureLine_iff {stof : List Char → Option F} (line : List Char) (p : PressureStat F) :
    Ends (pressureLine stof line) p ↔ Readable stof line := by
  unfold pressureLine Readable
  simp only [ends_attempt_bind, tokenAt_ok]
  rw [← foldlM_setPair_ok_iff (F := F) _ {}]
  constructor
  · rintro ⟨data, hdata, kind, hkind, _⟩
    refine ⟨?_, data, hdata⟩
    intro hnil
    rw [hnil] at hkind
    cases hkind
  · rintro ⟨hne, data, hdata⟩
    have hkind := List.getElem?_eq_getElem (List.length_pos_iff.mpr hne)
    exact ⟨data, hdata, _, hkind, ends_bind.mpr ⟨(), _, rfl, ends_pure _ _⟩⟩

theorem pressureLine_next {stof : List Char → Option F} {line : List Char} {p p' : PressureStat F} {a : Flow}
    (h : pressureLine stof line p = .ok a p') : a = .next := by
  obtain ⟨_, _, _, h⟩ := bind_ok.mp h
  obtain ⟨_, _, _, h⟩ := bind_ok.mp h
  obtain ⟨_, _, _, h⟩ := bind_ok.mp h
  exact (pure_ok.mp h).1.symm

/-- The update ends exactly if every line can be read, where the file can. -/
theorem ends_updateStats_iff {stof : List Char → Option F} (file : Option (List (List Char))) (p : PressureStat F) :
    Ends (updateStats stof file) p ↔ ∀ lines, file = some lines → ∀ line ∈ lines, Readable stof line := by
  cases file with
  | none => exact iff_of_true (ends_pure _ _) (by simp)
  | some lines =>
    have hread : Ends (read (pressureLine stof) lines) p ↔ Reached (Readable stof) (fun _ => False) lines :=
      ends_read_iff ends_pressureLine_iff (fun _ _ _ _ h => by simp [pressureLine_next h]) lines p
    rw [reached_all] at hread
    simp only [Option.some.injEq, forall_eq', ← hread, updateStats, ends_bind]
    exact ⟨fun ⟨b, q, h, _⟩ => ⟨b, q, h⟩, fun ⟨b, q, h⟩ => ⟨b, q, h, ends_pure _ _⟩⟩

end PressureStat

/-! ### The three files -/

/-- The message that is sent. -/
structure PressureData (F : Type) [Zero F] where
  cpuSome : PSIData F := {}
  cpuFull : PSIData F := {}
  memSome : PSIData F := {}
  memFull : PSIData F := {}
  ioSome : PSIData F := {}
  ioFull : PSIData F := {}
deriving Repr, DecidableEq

/-- The message takes over the record. -/
def PressureData.copyFrom (d : PressureData F) (entry : PressureStat F) : PressureData F :=
  if entry.name = "cpu" then {d with cpuSome := entry.dataSome, cpuFull := entry.dataFull}
  else if entry.name = "memory" then {d with memSome := entry.dataSome, memFull := entry.dataFull}
  else if entry.name = "io" then {d with ioSome := entry.dataSome, ioFull := entry.dataFull}
  else d

structure SysProcPressure (F : Type) [Zero F] where
  /-- A record for each file there was at the start. -/
  entries : List (PressureStat F) := []
  psiData : PressureData F := {}
deriving Repr, DecidableEq

namespace SysProcPressure

/-- The entries of the list are updated in order; `s.entries` are those before them. -/
def updateEntries (stof : List Char → Option F) (files : String → Option (List (List Char))) :
    List (PressureStat F) → EStateM Fault (SysProcPressure F) Unit
  | [] => pure ()
  | entry :: rest => fun s =>
    match PressureStat.updateStats stof (files entry.name) entry with
    | .error e entry => .error e {s with entries := s.entries ++ entry :: rest}
    | .ok _ entry =>
      updateEntries stof files rest {s with entries := s.entries ++ [entry], psiData := s.psiData.copyFrom entry}

def doUpdateStats (stof : List Char → Option F) (files : String → Option (List (List Char))) :
    EStateM Fault (SysProcPressure F) Bool := do
  let s ← get
  set {s with entries := []}
  updateEntries stof files s.entries
  pure true

def kind (stof : List Char → Option F) :
    SourceKind (String → Option (List (List Char))) (SysProcPressure F) (PressureData F) where
  doUpdateStats := doUpdateStats stof
  collect := psiData

theorem ends_updateEntries_iff {stof : List Char → Option F} {files : String → Option (List (List Char))}
    (entries : List (PressureStat F)) (s : SysProcPressure F) :
    Ends (updateEntries stof files entries) s ↔
      ∀ entry ∈ entries, ∀ lines, files entry.name = some lines → ∀ line ∈ lines, Readable stof line := by
  induction entries generalizing s with
  | nil => exact iff_of_true (ends_pure _ _) (by simp)
  | cons entry rest ih =>
    rw [List.forall_mem_cons, ← ends_updateStats_iff (files entry.name) entry]
    unfold Ends updateEntries
    cases hu : PressureStat.updateStats stof (files entry.name) entry with
    | error e entry' =>
      refine iff_of_false ?_ ?_
      · rintro ⟨_, _, h⟩
        cases h
      · rintro ⟨⟨_, _, h⟩, _⟩
        cases h
    | ok u entry' =>
      exact (ih _).trans (and_iff_right ⟨u, entry', rfl⟩).symm

/-- The update ends with a status exactly if every line of the files can be read. -/
theorem ends_doUpdateStats_iff {stof : List Char → Option F} (files : String → Option (List (List Char)))
    (s : SysProcPressure F) :
    Ends (doUpdateStats stof files) s ↔
      ∀ entry ∈ s.entries, ∀ lines, files entry.name = some lines → ∀ line ∈ lines, Readable stof line := by
  rw [← ends_updateEntries_iff s.entries {s with entries := []}]
  constructor
  · intro h
    obtain ⟨_, _, hget, h⟩ := ends_bind.mp h
    cases hget
    obtain ⟨_, _, hset, h⟩ := ends_bind.mp h
    cases hset
    obtain ⟨_, t, h, _⟩ := ends_bind.mp h
    exact ⟨_, t, h⟩
  · rintro ⟨_, t, h⟩
    exact ends_bind.mpr ⟨s, s, rfl, ends_bind.mpr ⟨(), _, rfl, ends_bind.mpr ⟨_, t, h, ends_pure _ _⟩⟩⟩

end SysProcPressure
end TaskMonitor

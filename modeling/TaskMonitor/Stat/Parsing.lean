import TaskMonitor.Lib.Lines
import TaskMonitor.Lib.Text

/-! What the parsers of system files share.

A `Fault` is a way out of a handler other than a status: an exception, or an
access that the language leaves undefined. `setAll` is a row of assignments, each
of the number in one token. -/
namespace TaskMonitor
open Lines Text

inductive Fault where
  /-- The file cannot be opened, which throws. -/
  | notOpen
  /-- A number conversion throws. -/
  | conversion
  /-- A token past the last of its line is read. -/
  | pastTokens
  /-- The last character of an empty token is read. -/
  | emptyToken
  /-- A name is longer than its buffer. -/
  | overrun
  | divisionByZero
deriving Repr, DecidableEq

/-- A fatal fault ends the process, or leaves undefined what it goes on to do; the others are exceptions. -/
def Fault.fatal : Fault → Bool
  | .notOpen | .conversion => false
  | .pastTokens | .emptyToken | .overrun | .divisionByZero => true

/-- `tokens[i]` -/
def tokenAt (tokens : List (List Char)) (i : Nat) : Except Fault (List Char) :=
  match tokens[i]? with
  | some t => .ok t
  | none => .error .pastTokens

/-- A conversion by `std::stoul` and its like. -/
def number {A : Type} (conv : List Char → Option A) (t : List Char) : Except Fault A :=
  match conv t with
  | some n => .ok n
  | none => .error .conversion

theorem tokenAt_ok {tokens : List (List Char)} {i : Nat} {t : List Char} :
    tokenAt tokens i = .ok t ↔ tokens[i]? = some t := by
  unfold tokenAt
  cases tokens[i]? <;> simp

theorem number_ok {A : Type} {conv : List Char → Option A} {t : List Char} {n : A} :
    number conv t = .ok n ↔ conv t = some n := by
  unfold number
  cases conv t <;> simp

theorem tokenAt_bind_ok {A : Type} {conv : List Char → Except Fault A} {tokens : List (List Char)} {i : Nat} {n : A} :
    tokenAt tokens i >>= conv = .ok n ↔ ∃ t, tokens[i]? = some t ∧ conv t = .ok n := by
  unfold tokenAt
  cases tokens[i]? <;> simp [bind, Except.bind]

/-- The token can be converted. -/
def Converts {A : Type} (conv : List Char → Except Fault A) (tokens : List (List Char)) (i : Nat) : Prop :=
  ∃ t n, tokens[i]? = some t ∧ conv t = .ok n

theorem converts_iff {A : Type} {conv : List Char → Except Fault A} {tokens : List (List Char)} {i : Nat} :
    Converts conv tokens i ↔ ∃ n, tokenAt tokens i >>= conv = .ok n := by
  simp only [tokenAt_bind_ok]
  exact exists_comm

/-- Each number goes into its field, in order. -/
def setAll {A D : Type} (conv : List Char → Except Fault A) (tokens : List (List Char)) :
    List (Nat × (A → D → D)) → EStateM Fault D Unit
  | [] => pure ()
  | (i, set) :: rest => do
    let t ← attempt (tokenAt tokens i)
    let n ← attempt (conv t)
    modify (set n)
    setAll conv tokens rest

theorem ends_setAll_iff {A D : Type} {conv : List Char → Except Fault A} {tokens : List (List Char)}
    (rows : List (Nat × (A → D → D))) (d : D) :
    Ends (setAll conv tokens rows) d ↔ ∀ row ∈ rows, Converts conv tokens row.1 := by
  induction rows generalizing d with
  | nil => simp [setAll]
  | cons row rest ih =>
    obtain ⟨i, set⟩ := row
    simp only [setAll, ends_attempt_bind, tokenAt_ok, List.forall_mem_cons, Converts]
    constructor
    · rintro ⟨t, ht, n, hn, hrest⟩
      obtain ⟨_, d', hmod, hrest⟩ := ends_bind.mp hrest
      exact ⟨⟨t, n, ht, hn⟩, (ih d').mp hrest⟩
    · rintro ⟨⟨t, n, ht, hn⟩, hrest⟩
      exact ⟨t, ht, n, hn, ends_bind.mpr ⟨(), set n d, rfl, (ih _).mpr hrest⟩⟩

/-- What the assignments do, where every number is there. -/
def assign {A D : Type} (rows : List (Nat × (A → D → D))) (ns : List A) (d : D) : D :=
  (rows.zip ns).foldl (fun d p => p.1.2 p.2 d) d

theorem setAll_ok_iff {A D : Type} {conv : List Char → Except Fault A} {tokens : List (List Char)}
    (rows : List (Nat × (A → D → D))) (d d' : D) :
    setAll conv tokens rows d = .ok () d' ↔
      ∃ ns, rows.map (fun row => tokenAt tokens row.1 >>= conv) = ns.map .ok ∧ d' = assign rows ns d := by
  induction rows generalizing d with
  | nil =>
    rw [setAll, pure_ok]
    constructor
    · rintro ⟨_, rfl⟩
      exact ⟨[], rfl, rfl⟩
    · rintro ⟨ns, hns, rfl⟩
      obtain rfl : ns = [] := by simpa using hns.symm
      exact ⟨rfl, rfl⟩
  | cons row rest ih =>
    obtain ⟨i, set⟩ := row
    constructor
    · intro h
      obtain ⟨t, _, hread, h⟩ := bind_ok.mp h
      obtain ⟨ht, rfl⟩ := attempt_ok.mp hread
      obtain ⟨n, _, hconv, h⟩ := bind_ok.mp h
      obtain ⟨hn, rfl⟩ := attempt_ok.mp hconv
      obtain ⟨_, _, hmod, h⟩ := bind_ok.mp h
      cases hmod
      obtain ⟨ns, hns, rfl⟩ := (ih (set n d)).mp h
      refine ⟨n :: ns, ?_, rfl⟩
      rw [List.map_cons, List.map_cons, hns]
      exact congrArg (· :: _) (tokenAt_bind_ok.mpr ⟨t, tokenAt_ok.mp ht, hn⟩)
    · rintro ⟨ns, hns, rfl⟩
      cases ns with
      | nil => simp at hns
      | cons n ns =>
        obtain ⟨hn, hns⟩ := List.cons.inj hns
        obtain ⟨t, ht, hn⟩ := tokenAt_bind_ok.mp hn
        have hrest := (ih (set n d)).mpr ⟨ns, hns, rfl⟩
        exact bind_ok.mpr ⟨t, d, attempt_ok.mpr ⟨tokenAt_ok.mpr ht, rfl⟩, bind_ok.mpr ⟨n, d, attempt_ok.mpr ⟨hn, rfl⟩,
          bind_ok.mpr ⟨(), set n d, rfl, hrest⟩⟩⟩

/-! ### The numbers of a line -/

/-- The number of a token. -/
def numberAt (line : List Char) (i : Nat) : Option UInt64 := (words line)[i]?.bind stoul

theorem converts_stoul_iff {line : List Char} {i : Nat} :
    Converts (number stoul) (words line) i ↔ (numberAt line i).isSome = true := by
  rw [converts_iff, numberAt, Option.isSome_iff_exists]
  refine exists_congr fun n => ?_
  rw [tokenAt_bind_ok, Option.bind_eq_some_iff]
  simp only [number_ok]

/-- Row by row, what was read. -/
theorem assigned {A : Type} {conv : List Char → Except Fault A} {conv' : List Char → Option A}
    {tokens : List (List Char)} {D : Type} {rows : List (Nat × (A → D → D))} {ns : List A}
    (hconv : ∀ t ∈ tokens, ∀ n, conv t = .ok n → conv' t = some n)
    (h : rows.map (fun row => tokenAt tokens row.1 >>= conv) = ns.map .ok) :
    rows.map (fun row => tokens[row.1]?.bind conv') = ns.map some := by
  induction rows generalizing ns with
  | nil =>
    obtain rfl : ns = [] := by simpa using h.symm
    rfl
  | cons row rest ih =>
    cases ns with
    | nil => simp at h
    | cons n ns =>
      obtain ⟨hn, hrest⟩ := List.cons.inj h
      obtain ⟨t, ht, hok⟩ := tokenAt_bind_ok.mp hn
      rw [List.map_cons, List.map_cons, ih hrest, ht, Option.bind_some, hconv t (List.mem_of_getElem? ht) n hok]

/-- As many numbers as assignments. -/
theorem length_of_map_ok {A B : Type} {l : List B} {f : B → Except Fault A} {ns : List A}
    (h : l.map f = ns.map .ok) : ns.length = l.length := by
  simpa using (congrArg List.length h).symm

end TaskMonitor

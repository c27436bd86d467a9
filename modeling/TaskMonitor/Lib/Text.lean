import Mathlib.Data.UInt

/-! Text as C and C++ read it in the C locale.

`words` is what `>>` takes from a line one after the other. `stoul`, `stoi` and `stol`
read a number as the functions of that name do: blanks, a sign, digits, and
whatever follows is passed over; `none` is the exception, for a text without
digits there or for a number out of range. -/
namespace Text

/-- `isspace` in the C locale. -/
def isSpace (c : Char) : Bool :=
  c == ' ' || c == '\t' || c == '\n' || c == '\x0b' || c == '\x0c' || c == '\r'

/-! ### Stretches between separators -/

/-- The non-empty stretches between separators; `next` is what was read of the current one. -/
def stretches (sep : Char → Bool) (next : List Char) : List Char → List (List Char)
  | [] => if next.isEmpty then [] else [next]
  | c :: rest =>
    if sep c then
      if next.isEmpty then stretches sep [] rest else next :: stretches sep [] rest
    else stretches sep (next ++ [c]) rest

/-- What `>>` into strings takes from the line. -/
def words (line : List Char) : List (List Char) := stretches isSpace [] line

theorem stretches_ne_nil (sep : Char → Bool) (next s : List Char) : ∀ w ∈ stretches sep next s, w ≠ [] := by
  induction s generalizing next with
  | nil =>
    intro w hw
    rw [stretches] at hw
    split at hw
    · cases hw
    · rename_i hne
      obtain rfl := List.mem_singleton.mp hw
      simpa using hne
  | cons c rest ih =>
    intro w hw
    rw [stretches] at hw
    split at hw
    · split at hw
      · exact ih [] w hw
      · rename_i hne
        rcases List.mem_cons.mp hw with rfl | hw
        · simpa using hne
        · exact ih [] w hw
    · exact ih (next ++ [c]) w hw

theorem words_ne_nil {line w : List Char} (h : w ∈ words line) : w ≠ [] :=
  stretches_ne_nil isSpace [] line w h

/-! ### Numbers -/

/-- The number that decimal digits write. -/
def ofDigits (ds : List Char) : Nat := ds.foldl (fun n c => n * 10 + (c.toNat - '0'.toNat)) 0

/-- The sign of a number, and what follows it. -/
def signed : List Char → Bool × List Char
  | '-' :: rest => (true, rest)
  | '+' :: rest => (false, rest)
  | s => (false, s)

/-- Whether the number at the start of the text is negative, and its magnitude. -/
def integer (s : List Char) : Option (Bool × Nat) :=
  let (negative, s) := signed (s.dropWhile isSpace)
  let digits := s.takeWhile Char.isDigit
  if digits.isEmpty then none else some (negative, ofDigits digits)

/-- `std::stoul` and `std::stoull` at 64 bits: a negative number is taken modulo 2^64. -/
def stoul (s : List Char) : Option UInt64 :=
  (integer s).bind fun (negative, n) =>
    if n < 2 ^ 64 then some (if negative then -UInt64.ofNat n else UInt64.ofNat n) else none

/-- `std::stoi` at 32 bits. -/
def stoi (s : List Char) : Option Int :=
  (integer s).bind fun (negative, n) =>
    let i : Int := if negative then -n else n
    if -2 ^ 31 ≤ i ∧ i < 2 ^ 31 then some i else none

/-- `std::stol` at 64 bits. -/
def stol (s : List Char) : Option Int :=
  (integer s).bind fun (negative, n) =>
    let i : Int := if negative then -n else n
    if -2 ^ 63 ≤ i ∧ i < 2 ^ 63 then some i else none

/-- `%lu` of `scanf`, and what follows it: a number out of range is the largest. -/
def scanLu (s : List Char) : Option (UInt64 × List Char) :=
  let (negative, s) := signed (s.dropWhile isSpace)
  let digits := s.takeWhile Char.isDigit
  if digits.isEmpty then none
  else
    let n := ofDigits digits
    let value := if n < 2 ^ 64 then (if negative then -UInt64.ofNat n else UInt64.ofNat n) else 18446744073709551615
    some (value, s.dropWhile Char.isDigit)

/-- What `%lu` takes from the text, one after the other and `n` times at most. -/
def scanLus : Nat → List Char → List UInt64
  | 0, _ => []
  | n + 1, s =>
    match scanLu s with
    | none => []
    | some (value, rest) => value :: scanLus n rest

/-- The whole text is a non-negative decimal number. -/
def IsDecimal (s : List Char) : Prop := s ≠ [] ∧ ∀ c ∈ s, c.isDigit = true

instance (s : List Char) : Decidable (IsDecimal s) :=
  decidable_of_iff (s ≠ [] ∧ s.all Char.isDigit = true) (by simp [IsDecimal])

theorem isSpace_of_isDigit {c : Char} (h : c.isDigit = true) : isSpace c = false := by
  by_contra hs
  simp only [isSpace, Bool.not_eq_false, Bool.or_eq_true, beq_iff_eq] at hs
  rcases hs with (((((rfl | rfl) | rfl) | rfl) | rfl) | rfl) <;> revert h <;> decide

/-- A letter is no digit: it comes behind the digits. -/
theorem isDigit_of_isAlpha {c : Char} (h : c.isAlpha = true) : c.isDigit = false := by
  have hbehind : 65 ≤ c.toNat := by
    rcases (Bool.or_eq_true _ _).mp h with hupper | hlower
    · have hfirst : 65 ≤ c.val ∧ c.val ≤ 90 := of_decide_eq_true hupper
      exact UInt32.le_iff_toNat_le.mp hfirst.1
    · have hfirst : 97 ≤ c.val := of_decide_eq_true ((Bool.and_eq_true _ _).mp hlower).1
      exact Nat.le_trans (by decide) (UInt32.le_iff_toNat_le.mp hfirst)
  refine Bool.eq_false_iff.mpr fun hdigit => ?_
  have hlast : c.toNat ≤ 57 := (Char.isDigit_iff_toNat.mp hdigit).2
  omega

theorem signed_of_isDigit {c : Char} (h : c.isDigit = true) (rest : List Char) :
    signed (c :: rest) = (false, c :: rest) := by
  have hminus : c ≠ '-' := by
    rintro rfl
    exact absurd h (by decide)
  have hplus : c ≠ '+' := by
    rintro rfl
    exact absurd h (by decide)
  simp [signed, hminus, hplus]

theorem takeWhile_digits {s : List Char} (h : ∀ c ∈ s, c.isDigit = true) : s.takeWhile Char.isDigit = s := by
  have happend : (s ++ []).takeWhile Char.isDigit = s ++ [].takeWhile Char.isDigit := List.takeWhile_append_of_pos h
  simpa using happend

/-- A decimal number is read as the number it writes. -/
theorem integer_decimal {s : List Char} (h : IsDecimal s) : integer s = some (false, ofDigits s) := by
  obtain ⟨hne, hall⟩ := h
  cases s with
  | nil => exact absurd rfl hne
  | cons c rest =>
    have hc := hall c (List.mem_cons_self ..)
    have hspace : (c :: rest).dropWhile isSpace = c :: rest :=
      List.dropWhile_cons_of_neg (by simp [isSpace_of_isDigit hc])
    simp only [integer, hspace, signed_of_isDigit hc, takeWhile_digits hall]
    rfl

theorem stoul_decimal {s : List Char} (h : IsDecimal s) :
    stoul s = if ofDigits s < 2 ^ 64 then some (UInt64.ofNat (ofDigits s)) else none := by
  simp [stoul, integer_decimal h]

theorem dropWhile_append_single {p : Char → Bool} {c : Char} (h : p c = false) (s : List Char) :
    (s ++ [c]).dropWhile p = s.dropWhile p ++ [c] := by
  rw [List.dropWhile_append]
  split
  · rename_i hnil
    rw [List.isEmpty_iff.mp hnil, List.dropWhile_cons_of_neg (by simp [h])]
    rfl
  · rfl

theorem takeWhile_append_single {p : Char → Bool} {c : Char} (h : p c = false) (s : List Char) :
    (s ++ [c]).takeWhile p = s.takeWhile p := by
  induction s with
  | nil => simp [h]
  | cons a rest ih => simp [List.takeWhile_cons, ih]

theorem signed_append_single {c : Char} (hminus : c ≠ '-') (hplus : c ≠ '+') (s : List Char) :
    signed (s ++ [c]) = ((signed s).1, (signed s).2 ++ [c]) := by
  cases s with
  | nil => simp [signed, hminus, hplus]
  | cons a rest =>
    by_cases hm : a = '-'
    · subst hm
      rfl
    · by_cases hp : a = '+'
      · subst hp
        rfl
      · simp [signed, hm, hp]

/-- A last character that is no part of a number does not change what is read. -/
theorem integer_append_single {c : Char} (hspace : isSpace c = false) (hdigit : c.isDigit = false)
    (hminus : c ≠ '-') (hplus : c ≠ '+') (s : List Char) : integer (s ++ [c]) = integer s := by
  simp only [integer, dropWhile_append_single hspace, signed_append_single hminus hplus,
    takeWhile_append_single hdigit]

end Text

import Mathlib.Logic.Basic

/-! Reading a file line by line, where a line can fault.

Programs keep what they did to the state when they fault, as code does that
throws half way (`EStateM`). `read` hands the lines to a reader, which goes on,
ends the file with a status, or faults. Where the line alone decides which,
reading ends without a fault exactly if every line that is reached is good
(`ends_read_iff`). -/
namespace Lines

variable {ε σ α β : Type}

/-! ### Programs that can fault -/

/-- The program ends without a fault. -/
def Ends (m : EStateM ε σ α) (s : σ) : Prop := ∃ a t, m s = .ok a t

instance (m : EStateM ε σ α) (s : σ) : Decidable (Ends m s) :=
  match h : m s with
  | .ok a t => .isTrue ⟨a, t, h⟩
  | .error e t => .isFalse fun ⟨_, _, h'⟩ => by
    rw [h] at h'
    cases h'

/-- The program ends with the value. -/
def Yields (m : EStateM ε σ α) (s : σ) (a : α) : Prop := ∃ t, m s = .ok a t

instance [DecidableEq α] (m : EStateM ε σ α) (s : σ) (a : α) : Decidable (Yields m s a) :=
  match h : m s with
  | .ok b t =>
    if hb : b = a then .isTrue ⟨t, by rw [h, hb]⟩
    else .isFalse fun ⟨_, h'⟩ => by
      rw [h] at h'
      exact hb (EStateM.Result.ok.inj h').1
  | .error e t => .isFalse fun ⟨_, h'⟩ => by
    rw [h] at h'
    cases h'

theorem bind_ok {m : EStateM ε σ α} {f : α → EStateM ε σ β} {s u : σ} {b : β} :
    (m >>= f) s = .ok b u ↔ ∃ a t, m s = .ok a t ∧ f a t = .ok b u := by
  show (match m s with | .ok a t => f a t | .error e t => .error e t) = .ok b u ↔ _
  cases m s with
  | ok a t => exact ⟨fun h => ⟨a, t, rfl, h⟩, fun ⟨_, _, hm, h⟩ => by cases hm; exact h⟩
  | error e t => exact ⟨fun h => (by cases h), fun ⟨_, _, hm, _⟩ => (by cases hm)⟩

@[simp] theorem pure_ok {a b : α} {s t : σ} : (pure a : EStateM ε σ α) s = .ok b t ↔ a = b ∧ s = t := by
  show EStateM.Result.ok a s = .ok b t ↔ _
  exact EStateM.Result.ok.injEq .. ▸ Iff.rfl

@[simp] theorem throw_ok {e : ε} {a : α} {s t : σ} : ¬(throw e : EStateM ε σ α) s = .ok a t := by
  intro h
  cases h

/-- A computation without state, as a step of a program. -/
def attempt : Except ε α → EStateM ε σ α
  | .ok a => pure a
  | .error e => throw e

@[simp] theorem attempt_ok {r : Except ε α} {a : α} {s t : σ} :
    (attempt r : EStateM ε σ α) s = .ok a t ↔ r = .ok a ∧ s = t := by
  cases r with
  | error e => simp [attempt]
  | ok b => simp [attempt]

theorem ends_bind {m : EStateM ε σ α} {f : α → EStateM ε σ β} {s : σ} :
    Ends (m >>= f) s ↔ ∃ a t, m s = .ok a t ∧ Ends (f a) t := by
  constructor
  · rintro ⟨b, u, h⟩
    obtain ⟨a, t, hm, hf⟩ := bind_ok.mp h
    exact ⟨a, t, hm, b, u, hf⟩
  · rintro ⟨a, t, hm, b, u, hf⟩
    exact ⟨b, u, bind_ok.mpr ⟨a, t, hm, hf⟩⟩

@[simp] theorem ends_pure (a : α) (s : σ) : Ends (pure a : EStateM ε σ α) s := ⟨a, s, rfl⟩

@[simp] theorem ends_throw (e : ε) (s : σ) : ¬Ends (throw e : EStateM ε σ α) s := fun ⟨_, _, h⟩ => throw_ok h

/-- An attempt faults exactly if its computation fails. -/
theorem ends_attempt_bind {r : Except ε α} {f : α → EStateM ε σ β} {s : σ} :
    Ends (attempt r >>= f) s ↔ ∃ a, r = .ok a ∧ Ends (f a) s := by
  simp only [ends_bind, attempt_ok]
  exact ⟨fun ⟨a, _, ⟨hr, rfl⟩, h⟩ => ⟨a, hr, h⟩, fun ⟨a, hr, h⟩ => ⟨a, s, ⟨hr, rfl⟩, h⟩⟩

/-! ### Files -/

/-- What a line does to the reading of its file. -/
inductive Flow where
  | next
  | stop (status : Bool)
deriving Repr, DecidableEq

/-- The lines are read in order, up to one that ends the file or faults. -/
def read (body : List Char → EStateM ε σ Flow) : List (List Char) → EStateM ε σ Bool
  | [] => pure true
  | line :: rest => do
    match ← body line with
    | .next => read body rest
    | .stop status => pure status

/-- Every line is good, up to one that ends the file. -/
def Reached (good stops : List Char → Prop) : List (List Char) → Prop
  | [] => True
  | line :: rest => good line ∧ (¬stops line → Reached good stops rest)

/-- Where no line ends the file, every line is reached. -/
theorem reached_all {good : List Char → Prop} (lines : List (List Char)) :
    Reached good (fun _ => False) lines ↔ ∀ line ∈ lines, good line := by
  induction lines with
  | nil => simp [Reached]
  | cons line rest ih => simp [Reached, ih]

/-- **Reading ends without a fault exactly if every line that is reached is good**, where the line
alone decides whether it is, and whether it ends the file. -/
theorem ends_read_iff {body : List Char → EStateM ε σ Flow} {good stops : List Char → Prop}
    (hgood : ∀ line s, Ends (body line) s ↔ good line)
    (hstops : ∀ line s a t, body line s = .ok a t → (a = .next ↔ ¬stops line)) (lines : List (List Char)) (s : σ) :
    Ends (read body lines) s ↔ Reached good stops lines := by
  induction lines generalizing s with
  | nil => exact iff_of_true (ends_pure _ _) trivial
  | cons line rest ih =>
    rw [read, ends_bind]
    constructor
    · rintro ⟨a, t, hbody, hrest⟩
      refine ⟨(hgood line s).mp ⟨a, t, hbody⟩, fun hnot => ?_⟩
      obtain rfl := (hstops line s a t hbody).mpr hnot
      exact (ih t).mp hrest
    · rintro ⟨hline, hrest⟩
      obtain ⟨a, t, hbody⟩ := (hgood line s).mpr hline
      refine ⟨a, t, hbody, ?_⟩
      cases a with
      | next => exact (ih t).mpr (hrest ((hstops line s _ t hbody).mp rfl))
      | stop status => exact ends_pure _ _

/-- **What holds of the lines read so far** where it holds at first and each line that goes on keeps
it: a file read without a fault was read up to its end, or to a line that ended it. -/
theorem read_history {body : List Char → EStateM ε σ Flow} {P : List (List Char) → σ → Prop}
    (hnext : ∀ before line s t, P before s → body line s = .ok .next t → P (before ++ [line]) t)
    (hstop : ∀ line s status t, body line s = .ok (.stop status) t → t = s)
    {before lines : List (List Char)} {s t : σ} {status : Bool} (hs : P before s)
    (h : read body lines s = .ok status t) :
    ∃ taken rest, lines = taken ++ rest ∧ P (before ++ taken) t ∧
      (rest = [] ∧ status = true ∨ ∃ line rest', rest = line :: rest' ∧ body line t = .ok (.stop status) t) := by
  induction lines generalizing before s with
  | nil =>
    obtain ⟨rfl, rfl⟩ := pure_ok.mp h
    exact ⟨[], [], rfl, by simpa using hs, .inl ⟨rfl, rfl⟩⟩
  | cons line rest ih =>
    obtain ⟨a, u, hline, hrest⟩ := bind_ok.mp h
    cases a with
    | next =>
      obtain ⟨taken, rest', rfl, hp, hend⟩ := ih (hnext before line s u hs hline) hrest
      exact ⟨line :: taken, rest', rfl, by simpa using hp, hend⟩
    | stop status' =>
      obtain ⟨rfl, rfl⟩ := pure_ok.mp hrest
      obtain rfl := hstop line s status' u hline
      exact ⟨[], line :: rest, rfl, by simpa using hs, .inr ⟨line, rest, rfl, hline⟩⟩

end Lines

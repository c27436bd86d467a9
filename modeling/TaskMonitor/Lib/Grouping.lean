import Mathlib.Algebra.BigOperators.Group.List.Basic
import Mathlib.Algebra.GroupWithZero.Nat

/-! Sums over the groups of a list.

Elements are grouped by a key. The sums over the groups of distinct keys add up to
the sum over the list where every element has a group (`sum_groups`), and sums
that wrap at a width can be added before or after they wrap (`sum_mod`). -/
namespace Grouping

variable {α κ σ : Type} [DecidableEq κ] {key : α → κ} {f : α → Nat}

/-- The elements of a key. -/
def group (key : α → κ) (l : List α) (k : κ) : List α := l.filter fun a => k = key a

/-- One group takes an element's share, the others nothing. -/
theorem sum_single {ks : List κ} (hn : ks.Nodup) {k : κ} (hk : k ∈ ks) (n : Nat) :
    (ks.map fun k' => if k' = k then n else 0).sum = n := by
  induction ks with
  | nil => cases hk
  | cons k' rest ih =>
    obtain ⟨hnot, hrest⟩ := List.nodup_cons.mp hn
    rw [List.map_cons, List.sum_cons]
    by_cases h : k' = k
    · subst h
      have hzero : (rest.map fun k'' => if k'' = k' then n else 0).sum = 0 := by
        refine List.sum_eq_zero fun x hx => ?_
        obtain ⟨k'', hmem, rfl⟩ := List.mem_map.mp hx
        have hne : k'' ≠ k' := fun heq => hnot (heq ▸ hmem)
        exact if_neg hne
      rw [if_pos rfl, hzero, Nat.add_zero]
    · have hmem : k ∈ rest := (List.mem_cons.mp hk).resolve_left fun heq => h heq.symm
      rw [if_neg h, ih hrest hmem, Nat.zero_add]

/-- **The sums over all groups are the sum over the list**, where every element has a group. -/
theorem sum_groups {ks : List κ} (hn : ks.Nodup) {l : List α} (hcover : ∀ a ∈ l, key a ∈ ks) :
    (ks.map fun k => ((group key l k).map f).sum).sum = (l.map f).sum := by
  induction l with
  | nil => simp [group]
  | cons a rest ih =>
    have hgroup (k : κ) : ((group key (a :: rest) k).map f).sum =
        (if k = key a then f a else 0) + ((group key rest k).map f).sum := by
      by_cases h : k = key a <;> simp [group, h]
    have hsum := ih fun x hx => hcover x (List.mem_cons_of_mem a hx)
    simp only [hgroup, List.sum_map_add, hsum, sum_single hn (hcover a (List.mem_cons_self ..)), List.map_cons,
      List.sum_cons]

theorem group_perm {l l' : List α} (h : l.Perm l') (k : κ) : (group key l k).Perm (group key l' k) := h.filter _

/-- Sums that have wrapped add up, as they wrap, to the sum of what they were. -/
theorem sum_mod (w : Nat) (ns : List Nat) : (ns.map fun n => n % w).sum % w = ns.sum % w := by
  induction ns with
  | nil => rfl
  | cons n rest ih => rw [List.map_cons, List.sum_cons, List.sum_cons, Nat.mod_add_mod, Nat.add_mod, ih, ← Nat.add_mod]

/-- An accumulator that wraps holds the sum. -/
theorem foldl_mod {step : σ → α → σ} {get : σ → Nat} {w : Nat} (hstep : ∀ s a, get (step s a) = (get s + f a) % w)
    (l : List α) {s : σ} (hs : get s < w) : get (l.foldl step s) = (get s + (l.map f).sum) % w := by
  induction l generalizing s with
  | nil => simpa using (Nat.mod_eq_of_lt hs).symm
  | cons a rest ih =>
    have hlt : get (step s a) < w := hstep s a ▸ Nat.mod_lt _ (Nat.zero_lt_of_lt hs)
    rw [List.foldl_cons, ih hlt, hstep, List.map_cons, List.sum_cons, Nat.mod_add_mod, Nat.add_assoc]

end Grouping

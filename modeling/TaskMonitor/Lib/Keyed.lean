import Mathlib.Data.List.Nodup
import Mathlib.Data.List.Perm.Lattice

/-! Lists whose elements carry a key.

`lookup` finds the first element with a key. Where the keys are distinct it finds
the only one, and looking up commutes with maps that keep keys, with filters and
with appending. -/
namespace Keyed

variable {α κ : Type} {key : α → κ}

theorem nodup_map {f : α → α} (hf : ∀ x, key (f x) = key x) {l : List α} (hn : (l.map key).Nodup) :
    ((l.map f).map key).Nodup := by
  have : key ∘ f = key := funext hf
  rwa [List.map_map, this]

theorem nodup_filter (p : α → Bool) {l : List α} (hn : (l.map key).Nodup) :
    ((l.filter p).map key).Nodup :=
  hn.sublist (List.filter_sublist.map key)

variable [DecidableEq κ]

/-- The first element with the key. -/
def lookup (key : α → κ) (k : κ) (l : List α) : Option α := l.find? fun x => decide (key x = k)

@[simp] theorem lookup_nil (k : κ) : lookup key k [] = none := rfl

theorem lookup_cons (k : κ) (x : α) (l : List α) :
    lookup key k (x :: l) = if key x = k then some x else lookup key k l := by
  by_cases h : key x = k <;> simp [lookup, h]

theorem lookup_some {k : κ} {x : α} {l : List α} (h : lookup key k l = some x) :
    x ∈ l ∧ key x = k :=
  ⟨List.mem_of_find?_eq_some h, by simpa using List.find?_some h⟩

theorem lookup_eq_none {k : κ} {l : List α} : lookup key k l = none ↔ ∀ x ∈ l, key x ≠ k := by
  simp [lookup]

/-- With distinct keys an element is what its key finds. -/
theorem lookup_of_mem {x : α} {l : List α} (hn : (l.map key).Nodup) (hx : x ∈ l) :
    lookup key (key x) l = some x := by
  induction l with
  | nil => cases hx
  | cons y rest ih =>
    rw [List.map_cons, List.nodup_cons] at hn
    rw [lookup_cons]
    rcases List.mem_cons.mp hx with rfl | hx
    · rw [if_pos rfl]
    · have hne : key y ≠ key x := fun he => hn.1 (he ▸ List.mem_map_of_mem hx)
      rw [if_neg hne, ih hn.2 hx]

theorem lookup_eq_some {k : κ} {x : α} {l : List α} (hn : (l.map key).Nodup) :
    lookup key k l = some x ↔ x ∈ l ∧ key x = k :=
  ⟨lookup_some, fun ⟨hx, hk⟩ => hk ▸ lookup_of_mem hn hx⟩

theorem lookup_map (f : α → α) (hf : ∀ x, key (f x) = key x) (k : κ) (l : List α) :
    lookup key k (l.map f) = (lookup key k l).map f := by
  have : ((fun x => decide (key x = k)) ∘ f) = fun x => decide (key x = k) := by
    funext x
    simp [hf]
  rw [lookup, List.find?_map, this]
  rfl

theorem lookup_filter (p : α → Bool) {l : List α} (hn : (l.map key).Nodup) (k : κ) :
    lookup key k (l.filter p) = (lookup key k l).filter p := by
  induction l with
  | nil => rfl
  | cons y rest ih =>
    rw [List.map_cons, List.nodup_cons] at hn
    by_cases hk : key y = k
    · have hrest : lookup key k rest = none :=
        lookup_eq_none.mpr fun x hx he => hn.1 (hk ▸ he ▸ List.mem_map_of_mem hx)
      by_cases hp : p y = true
      · simp [lookup_cons, Option.filter_some, hp, hk]
      · have := ih hn.2
        rw [hrest] at this
        simpa [lookup_cons, Option.filter_some, hp, hk] using this
    · by_cases hp : p y = true <;> simp [lookup_cons, hp, hk, ih hn.2]

theorem lookup_append (l : List α) (x : α) (k : κ) :
    lookup key k (l ++ [x]) = (lookup key k l).or (if key x = k then some x else none) := by
  rw [lookup, List.find?_append]
  by_cases h : key x = k <;> simp [lookup, h]

theorem nodup_append {l : List α} {x : α} (hn : (l.map key).Nodup) (hx : lookup key (key x) l = none) :
    ((l ++ [x]).map key).Nodup := by
  rw [List.map_append, List.nodup_append]
  refine ⟨hn, List.nodup_singleton _, ?_⟩
  intro a ha b hb
  obtain ⟨y, hy, rfl⟩ := List.mem_map.mp ha
  obtain rfl : b = key x := by simpa using hb
  exact lookup_eq_none.mp hx y hy

end Keyed

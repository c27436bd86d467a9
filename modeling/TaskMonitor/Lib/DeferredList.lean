import Mathlib.Data.List.Basic
import Mathlib.Data.List.Nodup

/-! Lists whose removals are deferred.

`append` takes effect at once. `remove` only records an element; the next
`commit` takes every recorded element out. `items` is what a traversal visits:
the committed elements, those recorded for removal included. `DeferredList` is
the interface with its laws, so that a development can be carried out for every
implementation that keeps them; `Recorded` is one that computes. -/

/-- An implementation of lists with deferred removals. -/
class DeferredList (L : Type → Type) where
  empty : {α : Type} → L α
  /-- The elements a traversal visits, in order. -/
  items : {α : Type} → L α → List α
  /-- The elements the next commit takes out. -/
  recorded : {α : Type} → L α → List α
  append : {α : Type} → L α → α → L α
  remove : {α : Type} → L α → α → L α
  commit : {α : Type} → [DecidableEq α] → L α → L α
  items_empty : ∀ {α : Type}, items (empty : L α) = []
  recorded_empty : ∀ {α : Type}, recorded (empty : L α) = []
  items_append : ∀ {α : Type} (l : L α) (x : α), items (append l x) = items l ++ [x]
  recorded_append : ∀ {α : Type} (l : L α) (x : α), recorded (append l x) = recorded l
  items_remove : ∀ {α : Type} (l : L α) (x : α), items (remove l x) = items l
  mem_recorded_remove : ∀ {α : Type} (l : L α) (x y : α),
    y ∈ recorded (remove l x) ↔ y = x ∨ y ∈ recorded l
  items_commit : ∀ {α : Type} [DecidableEq α] (l : L α),
    items (commit l) = (items l).filter (fun x => decide (x ∉ recorded l))
  recorded_commit : ∀ {α : Type} [DecidableEq α] (l : L α), recorded (commit l) = []

namespace DeferredList

attribute [simp] items_empty recorded_empty items_append recorded_append items_remove
  mem_recorded_remove items_commit recorded_commit

variable {L : Type → Type} [DeferredList L] {α β : Type}

/-- A traversal: the body is run on each committed element in order. -/
def foreach (l : L α) (body : β → α → β) (b : β) : β := (items l).foldl body b

/-- A removal that takes effect at once, with everything recorded before it. -/
def removeNow [DecidableEq α] (l : L α) (x : α) : L α := commit (remove l x)

theorem mem_items_commit [DecidableEq α] (l : L α) (x : α) :
    x ∈ items (commit l) ↔ x ∈ items l ∧ x ∉ recorded l := by
  simp

@[simp] theorem recorded_removeNow [DecidableEq α] (l : L α) (x : α) :
    recorded (removeNow l x) = [] := by
  simp [removeNow]

/-- With nothing recorded, a removal takes out its element and no other. -/
theorem items_removeNow [DecidableEq α] (l : L α) (x : α) (h : recorded l = []) :
    items (removeNow l x) = (items l).filter (fun y => decide (y ≠ x)) := by
  simp [removeNow, h]

end DeferredList

/-- The committed elements beside the recorded ones. -/
structure Recorded (α : Type) where
  items : List α := []
  recorded : List α := []
deriving Repr, DecidableEq

instance : DeferredList Recorded where
  empty := {}
  items := Recorded.items
  recorded := Recorded.recorded
  append := fun l x => {l with items := l.items ++ [x]}
  remove := fun l x => {l with recorded := l.recorded ++ [x]}
  commit := fun l => ⟨l.items.filter (fun x => decide (x ∉ l.recorded)), []⟩
  items_empty := rfl
  recorded_empty := rfl
  items_append := fun _ _ => rfl
  recorded_append := fun _ _ => rfl
  items_remove := fun _ _ => rfl
  mem_recorded_remove := fun l x y => by simp [or_comm]
  items_commit := fun _ => rfl
  recorded_commit := fun _ => rfl

import TaskMonitor.Lib.Register
import TaskMonitor.Lib.Words
import TaskMonitor.Stat.MemInfo

/-! Files of named counters, read to their end.

A table of rows is a *ledger* of its counters where each row sets the counter at
its own place and no text of a row starts with that of another. Then each counter
is a register, written by the lines that start with the text of its row
(`counter_read`), and what a file leaves in it is what the last of them writes. -/
namespace TaskMonitor
open Lines Text Register

/-! ### One line -/

/-- The number of a line of a key. -/
def lineNumber (line : List Char) : Option UInt64 := (words line)[1]?.bind stoul

theorem setAll_one_ok {D : Type} {tokens : List (List Char)} {set : UInt64 → D → D} {d d' : D} :
    setAll (number stoul) tokens [(1, set)] d = .ok () d' ↔ ∃ n, tokens[1]?.bind stoul = some n ∧ d' = set n d := by
  rw [setAll_ok_iff]
  constructor
  · rintro ⟨ns, hns, rfl⟩
    obtain ⟨n, rfl⟩ := List.length_eq_one_iff.mp (length_of_map_ok hns)
    obtain ⟨t, ht, hn⟩ := tokenAt_bind_ok.mp (List.cons.inj hns).1
    exact ⟨n, by rw [ht]; exact number_ok.mp hn, rfl⟩
  · rintro ⟨n, hn, rfl⟩
    obtain ⟨t, ht, hn⟩ := Option.bind_eq_some_iff.mp hn
    exact ⟨[n], congrArg (· :: _) (tokenAt_bind_ok.mpr ⟨t, ht, number_ok.mpr hn⟩), rfl⟩

/-- A line goes on where it is of no key, and where its number can be converted. -/
theorem counterLine_next_iff {D : Type} {table : List (List Char × (UInt64 → D → D))} {line : List Char} {d d' : D} :
    counterLine table line d = .ok .next d' ↔
      match keyed table line with
      | none => d' = d
      | some row => ∃ n, lineNumber line = some n ∧ d' = row.2 n d := by
  unfold counterLine lineNumber
  cases keyed table line with
  | none => exact ⟨fun h => (pure_ok.mp h).2.symm, fun h => pure_ok.mpr ⟨rfl, h.symm⟩⟩
  | some row =>
    by_cases hshort : (words line).length < 2
    · have hnone : (words line)[1]? = none := List.getElem?_eq_none (by omega)
      simp only [hshort, if_true, hnone, Option.bind_none]
      exact iff_of_false (fun h => by cases (pure_ok.mp h).1) (by simp)
    · simp only [hshort, if_false]
      rw [← setAll_one_ok]
      constructor
      · intro h
        obtain ⟨_, _, hset, h⟩ := bind_ok.mp h
        obtain ⟨_, rfl⟩ := pure_ok.mp h
        exact hset
      · exact fun h => bind_ok.mpr ⟨(), d', h, rfl⟩

theorem keyed_some {D : Type} {table : List (List Char × (UInt64 → D → D))} {line : List Char}
    {row : List Char × (UInt64 → D → D)} (h : keyed table line = some row) : row ∈ table ∧ row.1 <+: line := by
  have hfind : table.find? (fun row => row.1.isPrefixOf line) = some row := h
  have hfound := List.find?_some hfind
  exact ⟨List.mem_of_find?_eq_some hfind, List.isPrefixOf_iff_prefix.mp hfound⟩

/-! ### Ledgers -/

/-- The rows of the table set the counters, each its own; `rest` is the part of the record that no row sets. -/
structure Ledger {D R : Type} (table : List (List Char × (UInt64 → D → D)))
    (counters : List (List Char × (D → UInt64))) (rest : D → R) : Prop where
  length_eq : counters.length = table.length
  set : ∀ n d, table.map (fun row => counters.map fun c => c.2 (row.2 n d)) =
    (List.range table.length).map fun i => (counters.map fun c => c.2 d).set i n
  rest_set : ∀ row ∈ table, ∀ n d, rest (row.2 n d) = rest d
  ext : ∀ d e, (∀ c ∈ counters, c.2 d = c.2 e) → rest d = rest e → d = e
  /-- A row is recognised by its key, or by its key and a space. -/
  text : ∀ p ∈ table.zip counters, p.1.1 = p.2.1 ∨ p.1.1 = p.2.1 ++ [' ']
  key : ∀ c ∈ counters, IsWord c.1
  apart : (table.map Prod.fst).Pairwise fun a b => ¬a <+: b ∧ ¬b <+: a

namespace Ledger

variable {D R : Type} {table : List (List Char × (UInt64 → D → D))} {counters : List (List Char × (D → UInt64))}
  {rest : D → R} {row row' : List Char × (UInt64 → D → D)} {c : List Char × (D → UInt64)} {line : List Char}
  {lines : List (List Char)} {d d' : D}

/-- Rows that are recognised on the same line are one. -/
theorem row_unique (h : Ledger table counters rest) {i j : Nat} (hi : table[i]? = some row)
    (hj : table[j]? = some row') (hrow : row.1 <+: line) (hrow' : row'.1 <+: line) : i = j := by
  have hi' : (table.map Prod.fst)[i]? = some row.1 := by rw [List.getElem?_map, hi]; rfl
  have hj' : (table.map Prod.fst)[j]? = some row'.1 := by rw [List.getElem?_map, hj]; rfl
  obtain ⟨hilt, hieq⟩ := List.getElem?_eq_some_iff.mp hi'
  obtain ⟨hjlt, hjeq⟩ := List.getElem?_eq_some_iff.mp hj'
  have hpair := List.pairwise_iff_getElem.mp h.apart
  have hprefix := List.prefix_or_prefix_of_prefix hrow hrow'
  rcases Nat.lt_trichotomy i j with hlt | heq | hgt
  · have hap := hpair i j hilt hjlt hlt
    rw [hieq, hjeq] at hap
    rcases hprefix with hp | hp
    · exact absurd hp hap.1
    · exact absurd hp hap.2
  · exact heq
  · have hap := hpair j i hjlt hilt hgt
    rw [hieq, hjeq] at hap
    rcases hprefix with hp | hp
    · exact absurd hp hap.2
    · exact absurd hp hap.1

/-- A row sets the counter at its own place and no other. -/
theorem get_set (h : Ledger table counters rest) {i j : Nat} (hi : table[i]? = some row) (hj : counters[j]? = some c)
    (n : UInt64) (d : D) : c.2 (row.2 n d) = if i = j then n else c.2 d := by
  have hrow := congrArg (fun l => l[i]?) (h.set n d)
  simp only [List.getElem?_map, hi, Option.map_some] at hrow
  obtain ⟨hilt, _⟩ := List.getElem?_eq_some_iff.mp hi
  obtain ⟨hjlt, _⟩ := List.getElem?_eq_some_iff.mp hj
  rw [List.getElem?_range hilt, Option.map_some] at hrow
  have hcell := congrArg (fun l => l[j]?) (Option.some.inj hrow)
  simp only [List.getElem?_map, hj, Option.map_some, List.getElem?_set, List.length_map] at hcell
  by_cases hij : i = j
  · subst hij
    simpa [hjlt] using hcell
  · simpa [hij] using hcell

/-- What a line writes to the counter whose row has the text. -/
def writes (text line : List Char) : Option UInt64 := if text.isPrefixOf line then lineNumber line else none

theorem counter_line (h : Ledger table counters rest) (hp : (row, c) ∈ table.zip counters)
    (hline : counterLine table line d = .ok .next d') : c.2 d' = (writes row.1 line).getD (c.2 d) := by
  obtain ⟨j, hj⟩ := List.mem_iff_getElem?.mp hp
  obtain ⟨hrow, hc⟩ := List.getElem?_zip_eq_some.mp hj
  have hnext := counterLine_next_iff.mp hline
  unfold writes
  cases hk : keyed table line with
  | none =>
    rw [hk] at hnext
    have hnot := List.find?_eq_none.mp hk row (List.mem_of_getElem? hrow)
    rw [if_neg hnot, Option.getD_none, hnext]
  | some row' =>
    rw [hk] at hnext
    obtain ⟨n, hn, rfl⟩ := hnext
    obtain ⟨hmem, hfound⟩ := keyed_some hk
    obtain ⟨i, hi⟩ := List.mem_iff_getElem?.mp hmem
    rw [h.get_set hi hc, hn]
    by_cases hpre : row.1.isPrefixOf line = true
    · rw [if_pos hpre, if_pos (h.row_unique hi hrow hfound (List.isPrefixOf_iff_prefix.mp hpre))]
      rfl
    · have hne : i ≠ j := by
        rintro rfl
        obtain rfl := Option.some.inj (hi.symm.trans hrow)
        exact hpre (List.isPrefixOf_iff_prefix.mpr hfound)
      rw [if_neg hpre, if_neg hne]
      rfl

theorem rest_line (h : Ledger table counters rest) (hline : counterLine table line d = .ok .next d') :
    rest d' = rest d := by
  have hnext := counterLine_next_iff.mp hline
  cases hk : keyed table line with
  | none =>
    rw [hk] at hnext
    rw [hnext]
  | some row =>
    rw [hk] at hnext
    obtain ⟨n, _, rfl⟩ := hnext
    exact h.rest_set row (keyed_some hk).1 n d

end Ledger

/-! ### Whole files -/

section Files

variable {D : Type} {table : List (List Char × (UInt64 → D → D))} {line : List Char} {lines : List (List Char)}
  {d d' : D}

/-- A line that ends a file of counters ends it with false. -/
theorem counterLine_stop {status : Bool} (h : counterLine table line d = .ok (.stop status) d') : status = false := by
  unfold counterLine at h
  cases hk : keyed table line with
  | none =>
    rw [hk] at h
    cases (pure_ok.mp h).1
  | some row =>
    simp only [hk] at h
    by_cases hshort : (words line).length < 2
    · simp only [hshort, if_true] at h
      cases (pure_ok.mp h).1
      rfl
    · simp only [hshort, if_false] at h
      obtain ⟨_, _, _, h⟩ := bind_ok.mp h
      cases (pure_ok.mp h).1

/-- A file that is read with true is read to its end. -/
theorem read_cons_true {rest : List (List Char)} (h : read (counterLine table) (line :: rest) d = .ok true d') :
    ∃ m, counterLine table line d = .ok .next m ∧ read (counterLine table) rest m = .ok true d' := by
  obtain ⟨a, m, hline, hrest⟩ := bind_ok.mp h
  cases a with
  | next => exact ⟨m, hline, hrest⟩
  | stop status =>
    obtain ⟨rfl, _⟩ := pure_ok.mp hrest
    cases counterLine_stop hline

/-- A file is read with true exactly if the number of every line of a key can be converted. -/
theorem read_true_iff (lines : List (List Char)) (d : D) :
    (∃ d', read (counterLine table) lines d = .ok true d') ↔
      ∀ line ∈ lines, (keyed table line).isSome = true → (lineNumber line).isSome = true := by
  induction lines generalizing d with
  | nil => exact iff_of_true ⟨d, rfl⟩ (by simp)
  | cons line rest ih =>
    rw [List.forall_mem_cons]
    constructor
    · rintro ⟨d', h⟩
      obtain ⟨m, hline, hrest⟩ := read_cons_true h
      refine ⟨fun hk => ?_, (ih m).mp ⟨d', hrest⟩⟩
      have hnext := counterLine_next_iff.mp hline
      obtain ⟨row, hrow⟩ := Option.isSome_iff_exists.mp hk
      rw [hrow] at hnext
      obtain ⟨n, hn, _⟩ := hnext
      rw [hn]
      rfl
    · rintro ⟨hline, hrest⟩
      have hnext : ∃ m, counterLine table line d = .ok .next m := by
        simp only [counterLine_next_iff]
        cases hk : keyed table line with
        | none => exact ⟨d, rfl⟩
        | some row =>
          obtain ⟨n, hn⟩ := Option.isSome_iff_exists.mp (hline (by rw [hk]; rfl))
          exact ⟨row.2 n d, n, hn, rfl⟩
      obtain ⟨m, hm⟩ := hnext
      obtain ⟨d', hd'⟩ := (ih m).mpr hrest
      exact ⟨d', bind_ok.mpr ⟨.next, m, hm, hd'⟩⟩

variable {R : Type} {counters : List (List Char × (D → UInt64))} {rest : D → R}
  {row : List Char × (UInt64 → D → D)} {c : List Char × (D → UInt64)}

/-- **A counter is a register**, written by the lines that start with the text of its row. -/
theorem Ledger.counter_read (h : Ledger table counters rest) (hp : (row, c) ∈ table.zip counters)
    (hread : read (counterLine table) lines d = .ok true d') :
    c.2 d' = settle (writes row.1) (c.2 d) lines := by
  induction lines generalizing d with
  | nil => rw [settle_nil, (pure_ok.mp hread).2]
  | cons line lines ih =>
    obtain ⟨m, hline, hrest⟩ := read_cons_true hread
    rw [settle_cons, ih hrest, h.counter_line hp hline]

theorem Ledger.rest_read (h : Ledger table counters rest) (hread : read (counterLine table) lines d = .ok true d') :
    rest d' = rest d := by
  induction lines generalizing d with
  | nil => rw [(pure_ok.mp hread).2]
  | cons line lines ih =>
    obtain ⟨m, hline, hrest⟩ := read_cons_true hread
    rw [ih hrest, h.rest_line hline]

end Files
end TaskMonitor

import TaskMonitor.Lib.Keyed
import TaskMonitor.Lib.Lines
import TaskMonitor.Lib.Transition
import Mathlib.Data.List.Induction

/-! Rosters: lists with one entry for each key, which only grow.

`upsert` updates the entry with a key, or appends a new one and updates that. An
update may fault half way, and what was done to the roster stays done. -/
namespace Roster
open Lines Keyed Transition

variable {ε α κ : Type}

/-- Every entry that satisfies `which` is updated, in order; whether there was one. -/
def updateAll (which : α → Bool) (upd : EStateM ε α Unit) : EStateM ε (List α) Bool
  | [] => .ok false []
  | a :: rest =>
    if which a then
      match upd a with
      | .error e b => .error e (b :: rest)
      | .ok _ b =>
        match updateAll which upd rest with
        | .error e rest' => .error e (b :: rest')
        | .ok _ rest' => .ok true (b :: rest')
    else
      match updateAll which upd rest with
      | .error e rest' => .error e (a :: rest')
      | .ok found rest' => .ok found (a :: rest')

/-- The new entry is listed before it is updated. -/
def append (new : α) (upd : EStateM ε α Unit) : EStateM ε (List α) Unit := fun l =>
  match upd new with
  | .error e b => .error e (l ++ [b])
  | .ok _ b => .ok () (l ++ [b])

def upsert (which : α → Bool) (upd : EStateM ε α Unit) (new : α) : EStateM ε (List α) Unit := do
  let found ← updateAll which upd
  if found then pure () else append new upd

variable {which : α → Bool} {upd : EStateM ε α Unit} {new : α}

/-! ### Faults -/

theorem ends_updateAll_iff (l : List α) :
    Ends (updateAll which upd) l ↔ ∀ a ∈ l, which a = true → Ends upd a := by
  induction l with
  | nil => exact iff_of_true ⟨false, [], rfl⟩ (by simp)
  | cons a rest ih =>
    rw [List.forall_mem_cons, ← ih]
    simp only [Ends, updateAll]
    by_cases ha : which a = true
    · cases hu : upd a <;> cases hr : updateAll which upd rest <;> simp [ha]
    · cases hr : updateAll which upd rest <;> simp [ha]

theorem ends_append_iff (l : List α) : Ends (append new upd) l ↔ Ends upd new := by
  simp only [Ends, append]
  cases hu : upd new <;> simp

theorem updateAll_found {l l' : List α} {found : Bool} (h : updateAll which upd l = .ok found l') :
    found = l.any which := by
  induction l generalizing l' found with
  | nil =>
    cases h
    rfl
  | cons a rest ih =>
    simp only [updateAll] at h
    by_cases ha : which a = true
    · cases hu : upd a with
      | error e b => simp [ha, hu] at h
      | ok u b =>
        cases hr : updateAll which upd rest with
        | error e rest' => simp [ha, hu, hr] at h
        | ok found' rest' =>
          simp only [ha, hu, hr, if_true, EStateM.Result.ok.injEq] at h
          simp [← h.1, ha]
    · cases hr : updateAll which upd rest with
      | error e rest' => simp [ha, hr] at h
      | ok found' rest' =>
        simp only [ha, hr, if_false, Bool.false_eq_true, EStateM.Result.ok.injEq] at h
        simp [← h.1, ih hr, ha]

/-- Where the update faults on every entry or on none, so does the upsert. -/
theorem ends_upsert_iff {good : Prop} (hu : ∀ a, Ends upd a ↔ good) (l : List α) :
    Ends (upsert which upd new) l ↔ good := by
  rw [upsert, ends_bind]
  constructor
  · rintro ⟨found, l', hall, hend⟩
    cases found with
    | true =>
      have hany := updateAll_found hall
      obtain ⟨a, ha, hw⟩ := List.any_eq_true.mp hany.symm
      exact (hu a).mp ((ends_updateAll_iff l).mp ⟨_, _, hall⟩ a ha hw)
    | false => exact (hu new).mp ((ends_append_iff l').mp hend)
  · intro hgood
    have hends : Ends (updateAll which upd) l := (ends_updateAll_iff l).mpr fun a _ _ => (hu a).mpr hgood
    obtain ⟨found, l', hall⟩ := hends
    refine ⟨found, l', hall, ?_⟩
    cases found with
    | true => exact ends_pure _ _
    | false => exact (ends_append_iff l').mpr ((hu new).mpr hgood)

/-! ### Keys -/

section
variable [DecidableEq κ] {key : α → κ} {k : κ}

/-- The update acts on the entry of the key and no other. -/
theorem updateAll_ok (hkey : ∀ a u b, key a = k → upd a = .ok u b → key b = k) {l l' : List α} {found : Bool}
    (hn : (l.map key).Nodup) (h : updateAll (fun a => decide (key a = k)) upd l = .ok found l') :
    l'.map key = l.map key ∧ (∀ k', k' ≠ k → lookup key k' l' = lookup key k' l) ∧
      ∀ a, lookup key k l = some a → ∃ u b, upd a = .ok u b ∧ lookup key k l' = some b := by
  induction l generalizing l' found with
  | nil =>
    cases h
    exact ⟨rfl, fun _ _ => rfl, fun a ha => by cases ha⟩
  | cons a rest ih =>
    rw [List.map_cons, List.nodup_cons] at hn
    simp only [updateAll] at h
    by_cases ha : key a = k
    · cases hu : upd a with
      | error e b => simp [ha, hu] at h
      | ok u b =>
        cases hr : updateAll (fun a => decide (key a = k)) upd rest with
        | error e rest' => simp [ha, hu, hr] at h
        | ok found' rest' =>
          simp only [ha, hu, hr, decide_true, if_true, EStateM.Result.ok.injEq] at h
          obtain ⟨_, rfl⟩ := h
          obtain ⟨hkeys, hothers, _⟩ := ih hn.2 hr
          have hb := hkey a u b ha hu
          refine ⟨by simp [hkeys, ha, hb], fun k' hk' => ?_, fun a' ha' => ?_⟩
          · simp [lookup_cons, ha, hb, hk'.symm, hothers k' hk']
          · rw [lookup_cons, if_pos ha] at ha'
            obtain rfl := Option.some.inj ha'
            exact ⟨u, b, hu, by rw [lookup_cons, if_pos hb]⟩
    · cases hr : updateAll (fun a => decide (key a = k)) upd rest with
      | error e rest' => simp [ha, hr] at h
      | ok found' rest' =>
        simp only [ha, hr, decide_false, Bool.false_eq_true, if_false, EStateM.Result.ok.injEq] at h
        obtain ⟨_, rfl⟩ := h
        obtain ⟨hkeys, hothers, hsome⟩ := ih hn.2 hr
        refine ⟨by simp [hkeys], fun k' hk' => by simp [lookup_cons, hothers k' hk'], fun a' ha' => ?_⟩
        rw [lookup_cons, if_neg ha] at ha'
        obtain ⟨u, b, hub, hb⟩ := hsome a' ha'
        exact ⟨u, b, hub, by rw [lookup_cons, if_neg ha, hb]⟩

/-- What an upsert makes of a roster: the entry of the key, or the new one, updated. -/
structure Upserted (key : α → κ) (k : κ) (upd : EStateM ε α Unit) (new : α) (l l' : List α) : Prop where
  nodup : (l'.map key).Nodup
  entry : ∃ u b, upd ((lookup key k l).getD new) = .ok u b ∧ lookup key k l' = some b
  others : ∀ k', k' ≠ k → lookup key k' l' = lookup key k' l

theorem upsert_ok (hkey : ∀ a u b, key a = k → upd a = .ok u b → key b = k) (hnew : key new = k) {l l' : List α}
    {u : Unit} (hn : (l.map key).Nodup) (h : upsert (fun a => decide (key a = k)) upd new l = .ok u l') :
    Upserted key k upd new l l' := by
  obtain ⟨found, m, hall, hend⟩ := bind_ok.mp h
  obtain ⟨hkeys, hothers, hsome⟩ := updateAll_ok hkey hn hall
  have hfound := updateAll_found hall
  have hm : (m.map key).Nodup := hkeys ▸ hn
  cases found with
  | true =>
    obtain ⟨_, rfl⟩ := pure_ok.mp hend
    obtain ⟨a, ha, hk⟩ := List.any_eq_true.mp hfound.symm
    have hk : key a = k := by simpa using hk
    have hlookup : lookup key k l = some a := hk ▸ lookup_of_mem hn ha
    obtain ⟨u, b, hub, hb⟩ := hsome a hlookup
    exact ⟨hm, ⟨u, b, by rw [hlookup]; exact hub, hb⟩, hothers⟩
  | false =>
    have hnone : lookup key k l = none := by
      refine lookup_eq_none.mpr fun a ha hk => ?_
      have := List.any_eq_false.mp hfound.symm a ha
      simp [hk] at this
    have hnone' : lookup key k m = none := by
      refine lookup_eq_none.mpr fun a ha hk => ?_
      have hmem : key a ∈ l.map key := hkeys ▸ List.mem_map_of_mem ha
      obtain ⟨a', ha', he⟩ := List.mem_map.mp hmem
      exact lookup_eq_none.mp hnone a' ha' (he.trans hk)
    have hend : append new upd m = .ok u l' := hend
    cases hu : upd new with
    | error e b => simp [append, hu] at hend
    | ok u b =>
      simp only [append, hu, EStateM.Result.ok.injEq] at hend
      obtain ⟨_, rfl⟩ := hend
      have hb := hkey new u b hnew hu
      refine ⟨nodup_append hm (by rw [hb]; exact hnone'), ⟨u, b, by rw [hnone]; exact hu, ?_⟩, fun k' hk' => ?_⟩
      · rw [lookup_append, hnone', hb, if_pos rfl]
        rfl
      · rw [lookup_append, hb, if_neg hk'.symm, Option.or_none, hothers k' hk']

/-- An upsert ends exactly if the update of its entry does. -/
theorem ends_upsert_entry_iff {l : List α} (hn : (l.map key).Nodup) :
    Ends (upsert (fun a => decide (key a = k)) upd new) l ↔ Ends upd ((lookup key k l).getD new) := by
  have hall : Ends (updateAll (fun a => decide (key a = k)) upd) l ↔ ∀ a, lookup key k l = some a → Ends upd a := by
    rw [ends_updateAll_iff]
    constructor
    · intro h a ha
      obtain ⟨hmem, hk⟩ := lookup_some ha
      exact h a hmem (decide_eq_true hk)
    · intro h a ha hk
      exact h a (of_decide_eq_true hk ▸ lookup_of_mem hn ha)
  rw [upsert, ends_bind]
  cases hlookup : lookup key k l with
  | some a =>
    obtain ⟨hmem, hk⟩ := lookup_some hlookup
    have hany : l.any (fun a => decide (key a = k)) = true := List.any_eq_true.mpr ⟨a, hmem, decide_eq_true hk⟩
    constructor
    · rintro ⟨found, l', hupd, _⟩
      exact hall.mp ⟨found, l', hupd⟩ a hlookup
    · intro hend
      obtain ⟨found, l', hupd⟩ := hall.mpr fun b hb => by
        obtain rfl := Option.some.inj (hlookup.symm.trans hb)
        exact hend
      have hfound := (updateAll_found hupd).trans hany
      subst hfound
      exact ⟨true, l', hupd, ends_pure _ _⟩
  | none =>
    have hany : l.any (fun a => decide (key a = k)) = false :=
      List.any_eq_false.mpr fun a ha => by simpa using lookup_eq_none.mp hlookup a ha
    obtain ⟨found, l', hupd⟩ := hall.mpr fun b hb => by cases hlookup.symm.trans hb
    have hfound := (updateAll_found hupd).trans hany
    subst hfound
    constructor
    · rintro ⟨found', m, hupd', hend⟩
      obtain ⟨rfl, rfl⟩ := EStateM.Result.ok.inj (hupd.symm.trans hupd')
      exact (ends_append_iff l').mp hend
    · exact fun hend => ⟨false, l', hupd, (ends_append_iff l').mpr hend⟩

/-! ### History

A roster that was built by upserts, one for each item of a history: `fresh` and `upd` are the new
entry of an item and the update by it. -/

variable {β : Type} {keyOf : β → κ} {fresh : β → α} {upd : β → EStateM ε α Unit}

/-- The entry after an update that does not fault. -/
def outcome (m : EStateM ε α Unit) (a : α) : Option α :=
  match m a with
  | .ok _ b => some b
  | .error _ _ => none

theorem outcome_eq_some {m : EStateM ε α Unit} {a b : α} : outcome m a = some b ↔ ∃ u, m a = .ok u b := by
  unfold outcome
  cases m a <;> simp

/-- An update that makes the same of two entries, where it does not fault, has one outcome. -/
theorem outcome_congr {m : EStateM ε α Unit} {a a' : α} (h : ∀ b, m a = .ok () b → m a' = .ok () b)
    (h' : ∀ b, m a' = .ok () b → m a = .ok () b) : outcome m a = outcome m a' := by
  apply Option.ext
  intro b
  simp only [outcome_eq_some]
  constructor
  · intro ⟨u, hu⟩
    exact ⟨u, h b hu⟩
  · intro ⟨u, hu⟩
    exact ⟨u, h' b hu⟩

/-- What items of one key make of an entry, the first a new one. -/
def grown (fresh : β → α) (upd : β → EStateM ε α Unit) : List β → Option α
  | [] => none
  | b :: rest => (b :: rest).foldlM (fun a b => outcome (upd b) a) (fresh b)

theorem grown_single (b : β) : grown fresh upd [b] = outcome (upd b) (fresh b) := by
  simp [grown]

theorem grown_snoc {items : List β} (h : items ≠ []) (b : β) :
    grown fresh upd (items ++ [b]) = (grown fresh upd items).bind (outcome (upd b)) := by
  cases items with
  | nil => exact absurd rfl h
  | cons c rest =>
    show List.foldlM (fun a b => outcome (upd b) a) (fresh c) (c :: rest ++ [b]) = _
    rw [List.foldlM_append]
    refine congrArg (Option.bind _) (funext fun a => ?_)
    simp

/-- A roster is what the history of its keys makes of it. -/
structure Built (key : α → κ) (keyOf : β → κ) (fresh : β → α) (upd : β → EStateM ε α Unit) (history : List β)
    (l : List α) : Prop where
  nodup : (l.map key).Nodup
  entry : ∀ k, lookup key k l = grown fresh upd (history.filter fun b => decide (keyOf b = k))
  listed : ∀ b ∈ history, (lookup key (keyOf b) l).isSome = true

theorem built_nil : Built key keyOf fresh upd [] [] := ⟨List.nodup_nil, fun _ => rfl, by simp⟩

theorem Built.snoc {history : List β} {b : β} {l l' : List α} (h : Built key keyOf fresh upd history l)
    (hu : Upserted key (keyOf b) (upd b) (fresh b) l l') : Built key keyOf fresh upd (history ++ [b]) l' := by
  obtain ⟨u, e, hupd, he⟩ := hu.entry
  refine ⟨hu.nodup, fun k => ?_, fun c hc => ?_⟩
  · rw [List.filter_append]
    by_cases hk : keyOf b = k
    · subst hk
      rw [he, List.filter_cons_of_pos (by simp), List.filter_nil]
      have hentry := h.entry (keyOf b)
      rw [hentry] at hupd
      cases hitems : history.filter (fun c => decide (keyOf c = keyOf b)) with
      | nil =>
        rw [hitems] at hupd
        rw [List.nil_append, grown_single]
        exact (outcome_eq_some.mpr ⟨u, hupd⟩).symm
      | cons c rest =>
        have hc : c ∈ history.filter fun c => decide (keyOf c = keyOf b) := hitems ▸ List.mem_cons_self ..
        obtain ⟨hmem, hkey⟩ := List.mem_filter.mp hc
        have hsome := h.listed c hmem
        rw [of_decide_eq_true hkey, hentry] at hsome
        obtain ⟨a, ha⟩ := Option.isSome_iff_exists.mp hsome
        rw [ha] at hupd
        rw [← hitems, grown_snoc (by rw [hitems]; exact List.cons_ne_nil _ _), ha]
        exact (outcome_eq_some.mpr ⟨u, hupd⟩).symm
    · rw [List.filter_cons_of_neg (by simpa using hk), List.filter_nil, List.append_nil, hu.others k (Ne.symm hk)]
      exact h.entry k
  · rcases List.mem_append.mp hc with hc | hc
    · by_cases hk : keyOf c = keyOf b
      · rw [hk, he]
        rfl
      · rw [hu.others _ hk]
        exact h.listed c hc
    · obtain rfl := List.mem_singleton.mp hc
      rw [he]
      rfl

/-- Where an update overwrites all of an entry but its key, an entry is what its last item says. -/
theorem Built.entry_last {history : List β} {l : List α} (h : Built key keyOf fresh upd history l)
    (hfresh : ∀ b, key (fresh b) = keyOf b)
    (hkey : ∀ b a u a', key a = keyOf b → upd b a = .ok u a' → key a' = keyOf b)
    (hover : ∀ b a, key a = keyOf b → outcome (upd b) a = outcome (upd b) (fresh b)) (k : κ) :
    lookup key k l =
      (history.filter fun b => decide (keyOf b = k)).getLast?.bind fun b => outcome (upd b) (fresh b) := by
  have hgrown (items : List β) (hall : ∀ b ∈ items, keyOf b = k) (a : α) (ha : grown fresh upd items = some a) :
      key a = k ∧ (items.getLast?.bind fun b => outcome (upd b) (fresh b)) = some a := by
    induction items using List.reverseRecOn generalizing a with
    | nil => cases ha
    | append_singleton items b ih =>
      have hb : keyOf b = k := hall b (by simp)
      have hlast : outcome (upd b) (fresh b) = some a → key a = k ∧
          ((items ++ [b]).getLast?.bind fun b => outcome (upd b) (fresh b)) = some a := by
        intro hout
        obtain ⟨u, hupd⟩ := outcome_eq_some.mp hout
        exact ⟨(hkey b _ u a (hfresh b) hupd).trans hb, by simp [hout]⟩
      by_cases hnil : items = []
      · subst hnil
        exact hlast (grown_single b ▸ ha)
      · rw [grown_snoc hnil] at ha
        obtain ⟨c, hc, hout⟩ := Option.bind_eq_some_iff.mp ha
        obtain ⟨hck, _⟩ := ih (fun b hb => hall b (by simp [hb])) c hc
        exact hlast (hover b c (hck.trans hb.symm) ▸ hout)
  have hitems : ∀ b ∈ history.filter (fun b => decide (keyOf b = k)), b ∈ history ∧ keyOf b = k := fun b hb =>
    ⟨(List.mem_filter.mp hb).1, of_decide_eq_true (List.mem_filter.mp hb).2⟩
  rw [h.entry k]
  cases hg : grown fresh upd (history.filter fun b => decide (keyOf b = k)) with
  | some a => exact (hgrown _ (fun b hb => (hitems b hb).2) a hg).2.symm
  | none =>
    cases hf : history.filter fun b => decide (keyOf b = k) with
    | nil => rfl
    | cons c rest =>
      obtain ⟨hmem, hck⟩ := hitems c (hf ▸ List.mem_cons_self ..)
      have hsome := h.listed c hmem
      rw [hck, h.entry k, hg] at hsome
      cases hsome

/-- A file each of whose lines is an upsert: a successful reading is of the lines up to one that
ends the file. -/
theorem read_built {keyOf : List Char → κ} {fresh : List Char → α} {upd : List Char → EStateM ε α Unit}
    {body : List Char → EStateM ε (List α) Flow} {good ended : List Char → Prop} {history lines : List (List Char)}
    {l l' : List α} (hs : Built key keyOf fresh upd history l) (h : read body lines l = .ok true l')
    (hfresh : ∀ line, key (fresh line) = keyOf line)
    (hkey : ∀ line a u a', key a = keyOf line → upd line a = .ok u a' → key a' = keyOf line)
    (hnext : ∀ line s t, body line s = .ok .next t →
      good line ∧ upsert (fun a => decide (key a = keyOf line)) (upd line) (fresh line) s = .ok () t)
    (hstop : ∀ line s status t, body line s = .ok (.stop status) t → t = s ∧ (status = true → ended line)) :
    ∃ taken rest, lines = taken ++ rest ∧ (∀ line ∈ taken, good line) ∧
      Built key keyOf fresh upd (history ++ taken) l' ∧
        (rest = [] ∨ ∃ line rest', rest = line :: rest' ∧ ended line) := by
  let P (before : List (List Char)) (l : List α) : Prop :=
    (∃ taken, before = history ++ taken ∧ ∀ line ∈ taken, good line) ∧ Built key keyOf fresh upd before l
  have hP : ∀ before line s t, P before s → body line s = .ok .next t → P (before ++ [line]) t := by
    intro before line s t ⟨⟨taken, hbefore, hgood⟩, hbuilt⟩ hbody
    obtain ⟨hline, hups⟩ := hnext line s t hbody
    refine ⟨⟨taken ++ [line], by simp [hbefore], fun c hc => ?_⟩,
      hbuilt.snoc (upsert_ok (hkey line) (hfresh line) hbuilt.nodup hups)⟩
    rcases List.mem_append.mp hc with hc | hc
    · exact hgood c hc
    · exact List.mem_singleton.mp hc ▸ hline
  obtain ⟨taken, rest, hlines, ⟨⟨taken', htaken, hgood⟩, hbuilt⟩, hend⟩ :=
    read_history hP (fun line s status t hb => (hstop line s status t hb).1) ⟨⟨[], by simp, by simp⟩, hs⟩ h
  obtain rfl := List.append_cancel_left htaken
  refine ⟨taken, rest, hlines, hgood, hbuilt, hend.imp And.left ?_⟩
  intro ⟨line, rest', hrest, hbody⟩
  exact ⟨line, rest', hrest, (hstop line l' true l' hbody).2 rfl⟩

/-- Where only a failure ends the file, a successful reading is of all its lines. -/
theorem read_all_built {keyOf : List Char → κ} {fresh : List Char → α} {upd : List Char → EStateM ε α Unit}
    {body : List Char → EStateM ε (List α) Flow} {history lines : List (List Char)} {l l' : List α}
    (hs : Built key keyOf fresh upd history l) (h : read body lines l = .ok true l')
    (hfresh : ∀ line, key (fresh line) = keyOf line)
    (hkey : ∀ line a u a', key a = keyOf line → upd line a = .ok u a' → key a' = keyOf line)
    (hnext : ∀ line s t, body line s = .ok .next t →
      upsert (fun a => decide (key a = keyOf line)) (upd line) (fresh line) s = .ok () t)
    (hstop : ∀ line s status t, body line s = .ok (.stop status) t → t = s ∧ status = false) :
    Built key keyOf fresh upd (history ++ lines) l' := by
  have hnext' : ∀ line s t, body line s = .ok .next t →
      True ∧ upsert (fun a => decide (key a = keyOf line)) (upd line) (fresh line) s = .ok () t :=
    fun line s t hb => ⟨trivial, hnext line s t hb⟩
  have hstop' : ∀ line s status t, body line s = .ok (.stop status) t → t = s ∧ (status = true → False) := by
    intro line s status t hb
    obtain ⟨hsame, rfl⟩ := hstop line s status t hb
    exact ⟨hsame, fun hs => by cases hs⟩
  obtain ⟨taken, rest, rfl, _, hbuilt, hend⟩ := read_built hs h hfresh hkey hnext' hstop'
  rcases hend with rfl | ⟨_, _, _, hfalse⟩
  · rwa [List.append_nil]
  · exact hfalse.elim

/-- What is listed is exactly what occurs in the lines, once each, with the value its own lines give it. -/
structure Seen {ι : Type} (keyOf : β → κ) (value : List β → Option ι) (key : ι → κ) (history : List β)
    (items : List ι) : Prop where
  nodup : (items.map key).Nodup
  listed : ∀ k, k ∈ items.map key ↔ ∃ b ∈ history, keyOf b = k
  value : ∀ k, lookup key k items = value (history.filter fun b => decide (keyOf b = k))

theorem Built.seen {history : List β} {l : List α} (h : Built key keyOf fresh upd history l) :
    Seen keyOf (grown fresh upd) key history l := by
  refine ⟨h.nodup, fun k => ?_, h.entry⟩
  constructor
  · intro hk
    obtain ⟨a, ha, rfl⟩ := List.mem_map.mp hk
    have hentry := h.entry (key a)
    rw [lookup_of_mem h.nodup ha] at hentry
    cases hf : history.filter fun b => decide (keyOf b = key a) with
    | nil =>
      rw [hf] at hentry
      cases hentry
    | cons b rest =>
      have hb := List.mem_filter.mp (hf ▸ List.mem_cons_self (a := b) (l := rest))
      exact ⟨b, hb.1, of_decide_eq_true hb.2⟩
  · intro ⟨b, hb, hk⟩
    obtain ⟨a, ha⟩ := Option.isSome_iff_exists.mp (h.listed b hb)
    obtain ⟨hmem, hkey⟩ := lookup_some ha
    exact List.mem_map.mpr ⟨a, hmem, hkey.trans hk⟩

/-- One entry for each key of the lines, and what it holds is of the most recent line of its key. -/
structure Latest (keyOf : β → κ) (key : α → κ) (holds : α → β → Prop) (lines : List β) (l : List α) : Prop where
  nodup : (l.map key).Nodup
  listed : ∀ k, k ∈ l.map key ↔ ∃ b ∈ lines, keyOf b = k
  latest : ∀ a ∈ l, ∃ b, (lines.filter fun b => decide (keyOf b = key a)).getLast? = some b ∧ holds a b

/-- A roster each of whose entries is of the most recent item of its key is up to date, also under other keys that tell
the same entries apart. -/
theorem Built.latest_of {ι : Type} [DecidableEq ι] {history : List β} {l : List α} {key' : α → ι} {keyOf' : β → ι}
    {holds : α → β → Prop} (h : Built key keyOf fresh upd history l)
    (hsame : ∀ b ∈ history, ∀ a ∈ l, keyOf' b = key' a ↔ keyOf b = key a)
    (hinj : ∀ a ∈ l, ∀ a' ∈ l, key' a = key' a' → key a = key a')
    (hlast : ∀ a ∈ l, ∃ b, (history.filter fun b => decide (keyOf b = key a)).getLast? = some b ∧ holds a b) :
    Latest keyOf' key' holds history l := by
  obtain ⟨hnodup, hlisted, _⟩ := h.seen
  constructor
  · refine List.pairwise_map.mpr ((List.pairwise_map.mp hnodup).imp_of_mem fun ha ha' hne heq => ?_)
    exact hne (hinj _ ha _ ha' heq)
  · intro k
    constructor
    · intro hk
      obtain ⟨a, ha, rfl⟩ := List.mem_map.mp hk
      obtain ⟨b, hb, hba⟩ := (hlisted (key a)).mp (List.mem_map_of_mem ha)
      exact ⟨b, hb, (hsame b hb a ha).mpr hba⟩
    · intro ⟨b, hb, hbk⟩
      obtain ⟨a, ha, hab⟩ := List.mem_map.mp ((hlisted (keyOf b)).mpr ⟨b, hb, rfl⟩)
      rw [← hbk, (hsame b hb a ha).mpr hab.symm]
      exact List.mem_map_of_mem ha
  · intro a ha
    obtain ⟨b, hb, hholds⟩ := hlast a ha
    have hfilter : (history.filter fun b => decide (keyOf' b = key' a)) =
        history.filter fun b => decide (keyOf b = key a) :=
      List.filter_congr fun b hb => decide_eq_decide.mpr (hsame b hb a ha)
    exact ⟨b, hfilter ▸ hb, hholds⟩

/-- A roster whose updates overwrite all of an entry but its key is up to date. -/
theorem Built.latest {ι : Type} [DecidableEq ι] {history : List β} {l : List α} {key' : α → ι} {keyOf' : β → ι}
    {holds : α → β → Prop} (h : Built key keyOf fresh upd history l) (hfresh : ∀ b, key (fresh b) = keyOf b)
    (hkey : ∀ b a u a', key a = keyOf b → upd b a = .ok u a' → key a' = keyOf b)
    (hover : ∀ b a, key a = keyOf b → outcome (upd b) a = outcome (upd b) (fresh b))
    (hsame : ∀ b ∈ history, ∀ a, keyOf' b = key' a ↔ keyOf b = key a) (hinj : ∀ a a', key' a = key' a' → key a = key a')
    (hholds : ∀ b ∈ history, ∀ a, outcome (upd b) (fresh b) = some a → holds a b) :
    Latest keyOf' key' holds history l := by
  refine h.latest_of (fun b hb a _ => hsame b hb a) (fun a _ a' _ => hinj a a') fun a ha => ?_
  have hentry := h.entry_last hfresh hkey hover (key a)
  rw [lookup_of_mem h.nodup ha] at hentry
  obtain ⟨b, hb, hout⟩ := Option.bind_eq_some_iff.mp hentry.symm
  exact ⟨b, hb, hholds b (List.mem_of_mem_filter (List.mem_of_getLast? hb)) a hout⟩

/-- What is listed, its items made of a new entry. -/
theorem Built.grown_of_mem {history : List β} {l : List α} (h : Built key keyOf fresh upd history l) {a : α} (ha : a ∈ l) :
    grown fresh upd (history.filter fun b => decide (keyOf b = key a)) = some a := by
  rw [← h.entry, lookup_of_mem h.nodup ha]

/-- A file of lines that go on, each an upsert by an item. -/
theorem read_items {text : β → List Char} {body : List Char → EStateM ε (List α) Flow} {history items : List β}
    {l : List α} (hs : Built key keyOf fresh upd history l) (hfresh : ∀ b, key (fresh b) = keyOf b)
    (hkey : ∀ b a u a', key a = keyOf b → upd b a = .ok u a' → key a' = keyOf b)
    (hline : ∀ b ∈ items, ∀ s, ∃ t, body (text b) s = .ok .next t ∧
      upsert (fun a => decide (key a = keyOf b)) (upd b) (fresh b) s = .ok () t) :
    ∃ l', read body (items.map text) l = .ok true l' ∧ Built key keyOf fresh upd (history ++ items) l' := by
  induction items generalizing history l with
  | nil => exact ⟨l, rfl, by rwa [List.append_nil]⟩
  | cons b rest ih =>
    obtain ⟨m, hbody, hups⟩ := hline b (List.mem_cons_self ..) l
    have hm := hs.snoc (upsert_ok (hkey b) (hfresh b) hs.nodup hups)
    obtain ⟨l', hread, hbuilt⟩ := ih hm fun c hc => hline c (List.mem_cons_of_mem b hc)
    refine ⟨l', bind_ok.mpr ⟨.next, m, hbody, hread⟩, ?_⟩
    rwa [List.append_assoc, List.singleton_append] at hbuilt

/-- A run over files, each of which is read to its end. -/
theorem run_built {ι ℓ : Type} {step : List α → ℓ → Option (List α)} {f : ι → ℓ} {itemsOf : ι → List β} {files : List ι}
    (hfile : ∀ file ∈ files, ∀ history l, Built key keyOf fresh upd history l →
      ∃ l', step l (f file) = some l' ∧ Built key keyOf fresh upd (history ++ itemsOf file) l') :
    ∃ l, run step [] (files.map f) = some l ∧ Built key keyOf fresh upd (files.flatMap itemsOf) l := by
  have hstart : Built key keyOf fresh upd ([].flatMap itemsOf) [] := built_nil
  have hstep : ∀ file ∈ files, ∀ before l, Built key keyOf fresh upd (before.flatMap itemsOf) l →
      ∃ l', step l (f file) = some l' ∧ Built key keyOf fresh upd ((before ++ [file]).flatMap itemsOf) l' := by
    intro file hmem before l h
    rw [List.flatMap_append, List.flatMap_singleton]
    exact hfile file hmem _ l h
  exact run_items (P := fun files => Built key keyOf fresh upd (files.flatMap itemsOf)) hstep hstart

/-- An upsert leaves the entries of other keys as they are. -/
theorem Upserted.mem_iff {l l' : List α} {new : α} {upd : EStateM ε α Unit} (h : Upserted key k upd new l l')
    (hn : (l.map key).Nodup) {a : α} (ha : key a ≠ k) : a ∈ l' ↔ a ∈ l := by
  have hothers := h.others (key a) ha
  have hbefore := lookup_eq_some (x := a) hn (k := key a)
  have hafter := lookup_eq_some (x := a) h.nodup (k := key a)
  rw [hothers, hbefore] at hafter
  simpa using hafter.symm

end
end Roster

import TaskMonitor.Stat.Counters
import TaskMonitor.Stat.VMStat

/-! Counters and the lines of their own keys (`SysProcVMStat.cpp`, `SysProcMemInfo.cpp`).

A row whose text is a bare key is recognised on every line whose key starts with it;
a row whose text ends in a space, only on lines that have a space right behind the key. So a
longer key can write to a counter that is not its own, and a tab behind a key hides
the line. Of `/proc/vmstat` the row of `pgpgin` alone is bare, where the other
thirty-one have the space; the keys of `/proc/meminfo` end in their colon. -/
namespace TaskMonitor
open Lines Text Register

/-- A line of a key, blanks and a number, perhaps with a unit behind a blank. -/
structure CounterLine where
  key : List Char
  gap : List Char
  digits : List Char
  unit : List Char := []
  isWord : IsWord key
  blank : Blank gap
  apart : gap ≠ []
  isDecimal : IsDecimal digits
  unit_apart : ∀ c, unit.head? = some c → isSpace c = true

namespace CounterLine

def text (l : CounterLine) : List Char := l.key ++ (l.gap ++ (l.digits ++ l.unit))

def number (l : CounterLine) : Nat := ofDigits l.digits

theorem words_text (l : CounterLine) : words l.text = l.key :: l.digits :: words l.unit := by
  rw [text, words_word_gap l.isWord l.blank l.apart, words_word_apart (isWord_of_isDecimal l.isDecimal) l.unit_apart]

theorem lineNumber_text (l : CounterLine) :
    lineNumber l.text = if l.number < 2 ^ 64 then some (UInt64.ofNat l.number) else none := by
  rw [lineNumber, words_text]
  exact stoul_decimal l.isDecimal

/-- Behind the key comes a blank. -/
theorem text_eq (l : CounterLine) : ∃ c rest, l.gap.head? = some c ∧ isSpace c = true ∧ l.text = l.key ++ c :: rest := by
  obtain ⟨c, gap, hgap⟩ := List.exists_cons_of_ne_nil l.apart
  refine ⟨c, gap ++ (l.digits ++ l.unit), by rw [hgap]; rfl, l.blank c (by simp [hgap]), ?_⟩
  rw [text, hgap, List.cons_append]

/-- A bare key is recognised on the lines of its extensions. -/
theorem prefix_text_iff {key : List Char} (h : IsWord key) (l : CounterLine) : key <+: l.text ↔ key <+: l.key := by
  obtain ⟨c, rest, _, hc, htext⟩ := l.text_eq
  rw [htext]
  refine ⟨fun hp => ?_, fun hp => hp.trans (List.prefix_append ..)⟩
  rcases List.prefix_or_prefix_of_prefix hp (List.prefix_append l.key (c :: rest)) with hk | ⟨tail, rfl⟩
  · exact hk
  · have htail := (List.prefix_append_right_inj l.key).mp hp
    cases tail with
    | nil => exact List.prefix_rfl.trans (by rw [List.append_nil])
    | cons x tail =>
      obtain rfl := (List.cons_prefix_cons.mp htail).1
      exact absurd hc (by simp [h.2 x (by simp)])

/-- A key with a space is recognised on its own line, where the space comes first. -/
theorem prefix_space_iff {key : List Char} (h : IsWord key) (l : CounterLine) :
    key ++ [' '] <+: l.text ↔ l.key = key ∧ l.gap.head? = some ' ' := by
  obtain ⟨c, rest, hgap, hc, htext⟩ := l.text_eq
  have hword := l.isWord.2
  rw [htext, hgap, Option.some_inj]
  obtain ⟨-, hkey⟩ := h
  generalize l.key = k at hword
  induction key generalizing k with
  | nil =>
    cases k with
    | nil => simp [List.cons_prefix_cons, eq_comm]
    | cons x k =>
      have hx := hword x (List.mem_cons_self ..)
      refine iff_of_false (fun hp => ?_) (by simp)
      obtain rfl := (List.cons_prefix_cons.mp hp).1
      cases hx
  | cons a key ih =>
    have ha := hkey a (List.mem_cons_self ..)
    cases k with
    | nil =>
      refine iff_of_false (fun hp => ?_) (by simp)
      obtain rfl := (List.cons_prefix_cons.mp hp).1
      exact absurd hc (by simp [ha])
    | cons x k =>
      have htail := ih (fun y hy => hkey y (List.mem_cons_of_mem a hy)) k fun y hy => hword y (List.mem_cons_of_mem x hy)
      simp only [List.cons_append, List.cons_prefix_cons, List.cons.injEq, htail]
      constructor
      · rintro ⟨rfl, rfl, rfl⟩
        exact ⟨⟨rfl, rfl⟩, rfl⟩
      · rintro ⟨⟨rfl, rfl⟩, rfl⟩
        exact ⟨rfl, rfl, rfl⟩

end CounterLine

/-! ### What a file leaves in the counters -/

section Own

variable {D R : Type} {table : List (List Char × (UInt64 → D → D))} {counters : List (List Char × (D → UInt64))}
  {rest : D → R} {row : List Char × (UInt64 → D → D)} {c : List Char × (D → UInt64)} {content : List CounterLine}
  {d d' : D}

/-- Each counter holds the number of its own line, and without one what it held before. -/
structure Owned (counters : List (List Char × (D → UInt64))) (content : List CounterLine) (d d' : D) : Prop where
  own : ∀ c ∈ counters, ∀ l ∈ content, l.key = c.1 → (c.2 d').toNat = l.number
  other : ∀ c ∈ counters, (∀ l ∈ content, l.key ≠ c.1) → c.2 d' = c.2 d

/-- Counters are set by their own lines: whatever the order of the lines, and to the same record. -/
def SetByOwnLines (update : List (List Char) → EStateM Fault D Bool) (counters : List (List Char × (D → UInt64)))
    (content : List CounterLine) (d : D) : Prop :=
  (∀ (lines : List CounterLine) d', lines.Perm content → update (lines.map CounterLine.text) d = .ok true d' →
    Owned counters content d d') ∧
  ∀ (lines₁ lines₂ : List CounterLine) d₁ d₂, lines₁.Perm content → lines₂.Perm content →
    update (lines₁.map CounterLine.text) d = .ok true d₁ → update (lines₂.map CounterLine.text) d = .ok true d₂ → d₁ = d₂

/-- The number of the counter's own line, or what it holds. -/
def expected (content : List CounterLine) (d : D) (c : List Char × (D → UInt64)) : Nat :=
  match content.find? fun l => l.key = c.1 with
  | some l => l.number
  | none => (c.2 d).toNat

theorem expected_own (hnodup : (content.map CounterLine.key).Nodup) {l : CounterLine} (hl : l ∈ content)
    (hkey : l.key = c.1) : expected content d c = l.number := by
  unfold expected
  cases hfind : content.find? fun l => l.key = c.1 with
  | none => exact absurd hkey (by simpa using List.find?_eq_none.mp hfind l hl)
  | some m =>
    have hmkey : m.key = c.1 := by simpa using List.find?_some hfind
    obtain rfl := List.inj_on_of_nodup_map hnodup hl (List.mem_of_find?_eq_some hfind) (hkey.trans hmkey.symm)
    rfl

theorem expected_other (hnone : ∀ l ∈ content, l.key ≠ c.1) : expected content d c = (c.2 d).toNat := by
  have hfind : content.find? (fun l => l.key = c.1) = none := List.find?_eq_none.mpr fun l hl => by simpa using hnone l hl
  rw [expected, hfind]

theorem owned_iff (hnodup : (content.map CounterLine.key).Nodup) :
    Owned counters content d d' ↔ ∀ c ∈ counters, (c.2 d').toNat = expected content d c := by
  constructor
  · intro h c hc
    by_cases hnone : ∀ l ∈ content, l.key ≠ c.1
    · rw [expected_other hnone, h.other c hc hnone]
    · push Not at hnone
      obtain ⟨l, hl, hkey⟩ := hnone
      rw [expected_own hnodup hl hkey, h.own c hc l hl hkey]
  · intro h
    refine ⟨fun c hc l hl hkey => (h c hc).trans (expected_own hnodup hl hkey), fun c hc hnone => ?_⟩
    exact UInt64.toNat_inj.mp ((h c hc).trans (expected_other hnone))

/-- What a line writes to the counter of a row, as a number. -/
def written (text : List Char) (l : CounterLine) : Option Nat := if text.isPrefixOf l.text then some l.number else none

theorem settle_toNat {w : CounterLine → Option UInt64} {w' : CounterLine → Option Nat} {lines : List CounterLine}
    (h : ∀ l ∈ lines, (w l).map UInt64.toNat = w' l) (v : UInt64) :
    (settle w v lines).toNat = settle w' v.toNat lines := by
  induction lines generalizing v with
  | nil => rfl
  | cons l lines ih =>
    rw [settle_cons, settle_cons, ih fun x hx => h x (List.mem_cons_of_mem l hx)]
    have hl := h l (List.mem_cons_self ..)
    cases hw : w l <;> simp [← hl, hw]

theorem lineNumber_fits {l : CounterLine} (h : (lineNumber l.text).isSome = true) :
    lineNumber l.text = some (UInt64.ofNat l.number) ∧ l.number < 2 ^ 64 := by
  rw [CounterLine.lineNumber_text] at h ⊢
  split at h
  · rename_i hlt
    exact ⟨if_pos hlt, hlt⟩
  · cases h

/-- After a file of such lines a counter holds what the last line with the text of its row wrote. -/
theorem Ledger.counter_lines (h : Ledger table counters rest) (hp : (row, c) ∈ table.zip counters)
    {lines : List CounterLine} (hread : read (counterLine table) (lines.map CounterLine.text) d = .ok true d') :
    (c.2 d').toNat = settle (written row.1) (c.2 d).toNat lines := by
  have hall := (read_true_iff (lines.map CounterLine.text) d).mp ⟨d', hread⟩
  rw [h.counter_read hp hread, settle_map]
  refine settle_toNat (fun l hl => ?_) _
  unfold writes written
  by_cases hpre : row.1.isPrefixOf l.text = true
  · have hkeyed : (keyed table l.text).isSome = true := by
      rw [keyed, List.find?_isSome]
      exact ⟨row, List.of_mem_zip hp |>.1, hpre⟩
    obtain ⟨hnum, hlt⟩ := lineNumber_fits (hall _ (List.mem_map_of_mem hl) hkeyed)
    rw [if_pos hpre, if_pos hpre, hnum, Option.map_some, UInt64.toNat_ofNat_of_lt' hlt]
  · rw [if_neg hpre, if_neg hpre]
    rfl

/-- Whether a file can be read to its end does not depend on the order of its lines. -/
theorem read_perm {lines : List CounterLine} (hperm : lines.Perm content)
    (hread : read (counterLine table) (content.map CounterLine.text) d = .ok true d') :
    ∃ e, read (counterLine table) (lines.map CounterLine.text) d = .ok true e := by
  have hall := (read_true_iff (content.map CounterLine.text) d).mp ⟨d', hread⟩
  refine (read_true_iff _ d).mpr fun line hline => hall line ?_
  exact (hperm.map CounterLine.text).mem_iff.mp hline

/-- Nothing but a counter's own line decides what it holds: a key that goes on behind a bare row's carries what
the row's counter is to hold, and a line of another row has the space, or nothing new. -/
structure Unmixed (table : List (List Char × (UInt64 → D → D))) (counters : List (List Char × (D → UInt64)))
    (content : List CounterLine) (d : D) : Prop where
  longer : ∀ p ∈ table.zip counters, p.1.1 = p.2.1 → ∀ l ∈ content, p.2.1 <+: l.key → l.key ≠ p.2.1 →
    l.number = expected content d p.2
  spaced : ∀ p ∈ table.zip counters, p.1.1 ≠ p.2.1 → ∀ l ∈ content, l.key = p.2.1 →
    l.gap.head? = some ' ' ∨ l.number = (p.2.2 d).toNat

/-- The counter of a bare row holds what is expected in every order, exactly if each extension of its key carries that. -/
theorem settles_bare_iff (hnodup : (content.map CounterLine.key).Nodup) (hword : IsWord c.1) :
    (∀ lines, lines.Perm content → settle (written c.1) (c.2 d).toNat lines = expected content d c) ↔
      ∀ l ∈ content, c.1 <+: l.key → l.key ≠ c.1 → l.number = expected content d c := by
  have hwritten (l : CounterLine) : written c.1 l = if c.1 <+: l.key then some l.number else none := by
    simp only [written, List.isPrefixOf_iff_prefix, CounterLine.prefix_text_iff hword]
  rw [settle_perm_iff]
  constructor
  · intro h l hl hpre _
    exact h.1 l hl l.number (by rw [hwritten, if_pos hpre])
  · intro h
    constructor
    · intro l hl n hn
      rw [hwritten] at hn
      split at hn
      · rename_i hpre
        obtain rfl := Option.some.inj hn
        by_cases hkey : l.key = c.1
        · exact (expected_own hnodup hl hkey).symm
        · exact h l hl hpre hkey
      · cases hn
    · intro hnone
      refine (expected_other fun l hl hkey => ?_).symm
      have hw := hnone l hl
      rw [hwritten, if_pos (by rw [hkey])] at hw
      cases hw

/-- The counter of a row with a space holds what is expected in every order, exactly if its own line has the space, or
nothing new. -/
theorem settles_spaced_iff (hnodup : (content.map CounterLine.key).Nodup) (hword : IsWord c.1) :
    (∀ lines, lines.Perm content → settle (written (c.1 ++ [' '])) (c.2 d).toNat lines = expected content d c) ↔
      ∀ l ∈ content, l.key = c.1 → l.gap.head? = some ' ' ∨ l.number = (c.2 d).toNat := by
  have hwritten (l : CounterLine) :
      written (c.1 ++ [' ']) l = if l.key = c.1 ∧ l.gap.head? = some ' ' then some l.number else none := by
    simp only [written, List.isPrefixOf_iff_prefix, CounterLine.prefix_space_iff hword]
  rw [settle_perm_iff]
  constructor
  · intro h l hl hkey
    by_cases hgap : l.gap.head? = some ' '
    · exact .inl hgap
    · refine .inr ?_
      rw [← expected_own hnodup hl hkey (d := d)]
      refine (h.2 fun m hm => ?_).symm
      rw [hwritten]
      refine if_neg fun hw => hgap ?_
      obtain rfl := List.inj_on_of_nodup_map hnodup hm hl (hw.1.trans hkey.symm)
      exact hw.2
  · intro h
    constructor
    · intro l hl n hn
      rw [hwritten] at hn
      split at hn
      · rename_i hkey
        obtain rfl := Option.some.inj hn
        exact (expected_own hnodup hl hkey.1).symm
      · cases hn
    · intro hnone
      by_cases hown : ∀ l ∈ content, l.key ≠ c.1
      · exact (expected_other hown).symm
      · push Not at hown
        obtain ⟨l, hl, hkey⟩ := hown
        have hw := hnone l hl
        rw [hwritten] at hw
        rw [expected_own hnodup hl hkey]
        rcases h l hl hkey with hgap | hold
        · rw [if_pos ⟨hkey, hgap⟩] at hw
          cases hw
        · exact hold.symm

theorem Ledger.row_of_counter (h : Ledger table counters rest) (hc : c ∈ counters) :
    ∃ row, (row, c) ∈ table.zip counters := by
  obtain ⟨i, hi⟩ := List.mem_iff_getElem?.mp hc
  obtain ⟨hlt, _⟩ := List.getElem?_eq_some_iff.mp hi
  rw [h.length_eq] at hlt
  exact ⟨table[i], List.mem_iff_getElem?.mpr ⟨i, List.getElem?_zip_eq_some.mpr ⟨List.getElem?_eq_getElem hlt, hi⟩⟩⟩

/-- The counters of all rows hold what is expected in every order, exactly if the lines are unmixed. -/
theorem Ledger.settles_iff (h : Ledger table counters rest) (hnodup : (content.map CounterLine.key).Nodup) :
    (∀ p ∈ table.zip counters, ∀ lines, lines.Perm content →
      settle (written p.1.1) (p.2.2 d).toNat lines = expected content d p.2) ↔ Unmixed table counters content d := by
  have hword (p) (hp : p ∈ table.zip counters) : IsWord p.2.1 := h.key p.2 (List.of_mem_zip hp).2
  constructor
  · intro hsettles
    constructor
    · intro p hp htext
      refine (settles_bare_iff hnodup (hword p hp)).mp ?_
      rw [← htext]
      exact hsettles p hp
    · intro p hp htext
      have hspace := (h.text p hp).resolve_left htext
      refine (settles_spaced_iff hnodup (hword p hp)).mp ?_
      rw [← hspace]
      exact hsettles p hp
  · intro hunmixed p hp
    by_cases htext : p.1.1 = p.2.1
    · rw [htext]
      exact (settles_bare_iff hnodup (hword p hp)).mpr (hunmixed.longer p hp htext)
    · have hspace := (h.text p hp).resolve_left htext
      rw [hspace]
      exact (settles_spaced_iff hnodup (hword p hp)).mpr (hunmixed.spaced p hp htext)

/-- **Counters are set by their own lines exactly if the lines are unmixed**, for an update that reads the file and
then leaves the counters alone. -/
theorem Ledger.setByOwnLines_iff (h : Ledger table counters rest)
    {update : List (List Char) → EStateM Fault D Bool} {post : D → D}
    (hupdate : ∀ lines d d', update lines d = .ok true d' ↔
      ∃ m, read (counterLine table) lines d = .ok true m ∧ d' = post m)
    (hpost : ∀ c ∈ counters, ∀ m, c.2 (post m) = c.2 m) (hnodup : (content.map CounterLine.key).Nodup)
    (hsucc : update (content.map CounterLine.text) d = .ok true d') :
    SetByOwnLines update counters content d ↔ Unmixed table counters content d := by
  obtain ⟨e, hread, rfl⟩ := (hupdate _ d d').mp hsucc
  rw [← h.settles_iff hnodup]
  constructor
  · intro hown p hp lines hperm
    obtain ⟨m, hm⟩ := read_perm hperm hread
    have hc := (List.of_mem_zip hp).2
    have howned := (owned_iff hnodup).mp (hown.1 lines (post m) hperm ((hupdate _ d _).mpr ⟨m, hm, rfl⟩)) p.2 hc
    rw [hpost p.2 hc, h.counter_lines hp hm] at howned
    exact howned
  · intro hsettles
    have hholds {lines : List CounterLine} {m : D} (hperm : lines.Perm content)
        (hm : read (counterLine table) (lines.map CounterLine.text) d = .ok true m) :
        ∀ c ∈ counters, (c.2 m).toNat = expected content d c := by
      intro c hc
      obtain ⟨row, hrow⟩ := h.row_of_counter hc
      exact (h.counter_lines hrow hm).trans (hsettles (row, c) hrow lines hperm)
    constructor
    · intro lines d' hperm hd'
      obtain ⟨m, hm, rfl⟩ := (hupdate _ d d').mp hd'
      refine (owned_iff hnodup).mpr fun c hc => ?_
      rw [hpost c hc]
      exact hholds hperm hm c hc
    · intro lines₁ lines₂ d₁ d₂ hperm₁ hperm₂ hd₁ hd₂
      obtain ⟨m₁, hm₁, rfl⟩ := (hupdate _ d d₁).mp hd₁
      obtain ⟨m₂, hm₂, rfl⟩ := (hupdate _ d d₂).mp hd₂
      refine congrArg post (h.ext m₁ m₂ (fun c hc => ?_) ((h.rest_read hm₁).trans (h.rest_read hm₂).symm))
      exact UInt64.toNat_inj.mp ((hholds hperm₁ hm₁ c hc).trans (hholds hperm₂ hm₂ c hc).symm)

end Own

/-! ### The two files -/

namespace SysProcVMStat

def counters : List (List Char × (SysProcVMStat → UInt64)) :=
  [("pgpgin".toList, (·.pgpgin)), ("pgpgout".toList, (·.pgpgout)), ("pswpin".toList, (·.pswpin)),
    ("pswpout".toList, (·.pswpout)), ("pgmajfault".toList, (·.pgmajfault)), ("pgreuse".toList, (·.pgreuse)),
    ("pgsteal_kswapd".toList, (·.pgstealKswapd)), ("pgsteal_direct".toList, (·.pgstealDirect)),
    ("pgsteal_khugepaged".toList, (·.pgstealKhugepaged)), ("pgsteal_anon".toList, (·.pgstealAnon)),
    ("pgsteal_file".toList, (·.pgstealFile)), ("pgscan_kswapd".toList, (·.pgscanKswapd)),
    ("pgscan_direct".toList, (·.pgscanDirect)), ("pgscan_khugepaged".toList, (·.pgscanKhugepaged)),
    ("pgscan_direct_throttle".toList, (·.pgscanDirectThrottle)), ("pgscan_anon".toList, (·.pgscanAnon)),
    ("pgscan_file".toList, (·.pgscanFile)), ("oom_kill".toList, (·.oomKill)),
    ("compact_stall".toList, (·.compactStall)), ("compact_fail".toList, (·.compactFail)),
    ("compact_success".toList, (·.compactSuccess)), ("thp_fault_alloc".toList, (·.thpFaultAlloc)),
    ("thp_collapse_alloc".toList, (·.thpCollapseAlloc)),
    ("thp_collapse_alloc_failed".toList, (·.thpCollapseAllocFailed)), ("thp_file_alloc".toList, (·.thpFileAlloc)),
    ("thp_file_mapped".toList, (·.thpFileMapped)), ("thp_split_page".toList, (·.thpSplitPage)),
    ("thp_split_page_failed".toList, (·.thpSplitPageFailed)), ("thp_zero_page_alloc".toList, (·.thpZeroPageAlloc)),
    ("thp_zero_page_alloc_failed".toList, (·.thpZeroPageAllocFailed)), ("thp_swpout".toList, (·.thpSwpout)),
    ("thp_swpout_fallback".toList, (·.thpSwpoutFallback))]

theorem ledger : Ledger table counters fun _ => () where
  length_eq := by simp [counters, table]
  set n d := by
    cases d
    rfl
  rest_set _ _ _ _ := rfl
  ext := by
    intro v w h _
    cases v
    cases w
    simpa [counters] using h
  text := by decide +kernel
  key := by decide +kernel
  apart := by decide +kernel

def pgpginCounter : List Char × (SysProcVMStat → UInt64) := ("pgpgin".toList, (·.pgpgin))

/-- A key that goes on behind `pgpgin` carries what `pgpgin` is to hold; another key has a space behind it, or its
counter holds the number already. -/
structure Separate (content : List CounterLine) (v : SysProcVMStat) : Prop where
  longer : ∀ l ∈ content, pgpginCounter.1 <+: l.key → l.key ≠ pgpginCounter.1 →
    l.number = expected content v pgpginCounter
  spaced : ∀ c ∈ counters, c.1 ≠ pgpginCounter.1 → ∀ l ∈ content, l.key = c.1 →
    l.gap.head? = some ' ' ∨ l.number = (c.2 v).toNat

/-- The row of `pgpgin` is the only bare one. -/
theorem bare_iff : ∀ p ∈ table.zip counters, p.1.1 = p.2.1 ↔ p.2.1 = pgpginCounter.1 := by decide +kernel

theorem counter_eq {c : List Char × (SysProcVMStat → UInt64)} (hc : c ∈ counters) (h : c.1 = pgpginCounter.1) :
    c = pgpginCounter :=
  List.inj_on_of_nodup_map (f := Prod.fst) (by decide +kernel) hc (List.mem_cons_self ..) h

theorem unmixed_iff {content : List CounterLine} {v : SysProcVMStat} :
    Unmixed table counters content v ↔ Separate content v := by
  constructor
  · intro h
    constructor
    · obtain ⟨row, hrow⟩ := ledger.row_of_counter (c := pgpginCounter) (List.mem_cons_self ..)
      exact h.longer _ hrow ((bare_iff _ hrow).mpr rfl)
    · intro c hc hne
      obtain ⟨row, hrow⟩ := ledger.row_of_counter hc
      exact h.spaced _ hrow fun htext => hne ((bare_iff _ hrow).mp htext)
  · intro h
    constructor
    · intro p hp htext
      rw [counter_eq (List.of_mem_zip hp).2 ((bare_iff p hp).mp htext)]
      exact h.longer
    · intro p hp htext
      exact h.spaced p.2 (List.of_mem_zip hp).2 fun hkey => htext ((bare_iff p hp).mpr hkey)

theorem setByOwnLines_iff {content : List CounterLine} (hnodup : (content.map CounterLine.key).Nodup)
    {v v' : SysProcVMStat} (hsucc : doUpdateStats (some (content.map CounterLine.text)) v = .ok true v') :
    SetByOwnLines (fun lines => doUpdateStats (some lines)) counters content v ↔ Separate content v := by
  rw [← unmixed_iff]
  have hupdate (lines : List (List Char)) (d d' : SysProcVMStat) : doUpdateStats (some lines) d = .ok true d' ↔
      ∃ m, read (counterLine table) lines d = .ok true m ∧ d' = id m :=
    ⟨fun h => ⟨d', h, rfl⟩, fun ⟨_, h, heq⟩ => heq ▸ h⟩
  exact ledger.setByOwnLines_iff hupdate (fun _ _ _ => rfl) hnodup hsucc

end SysProcVMStat

namespace SysProcMemInfo

def counters : List (List Char × (SysProcMemInfo → UInt64)) :=
  [("MemTotal:".toList, (·.memTotal)), ("MemFree:".toList, (·.memFree)), ("MemAvailable:".toList, (·.memAvailable)),
    ("Cached:".toList, (·.memCached)), ("Active:".toList, (·.active)), ("Inactive:".toList, (·.inactive)),
    ("Slab:".toList, (·.slab)), ("KReclaimable:".toList, (·.kreclaimable)),
    ("SReclaimable:".toList, (·.sreclaimable)), ("SUnreclaim:".toList, (·.sunreclaim)),
    ("KernelStack:".toList, (·.kernelStack)), ("SwapTotal:".toList, (·.swapTotal)),
    ("SwapFree:".toList, (·.swapFree)), ("SwapCached:".toList, (·.swapCached)), ("CmaTotal:".toList, (·.cmaTotal)),
    ("CmaFree:".toList, (·.cmaFree))]

theorem ledger : Ledger table counters fun m => (m.memPercent, m.swapPercent) where
  length_eq := by simp [counters, table]
  set n d := by
    cases d
    rfl
  rest_set := by simp [table]
  ext := by
    intro v w h hrest
    cases v
    cases w
    simpa [counters, and_assoc] using And.intro h hrest
  text := by decide +kernel
  key := by decide +kernel
  apart := by decide +kernel

/-- A key that goes on behind a recognised one, colon included, carries what its counter is to hold. -/
def Separate (content : List CounterLine) (m : SysProcMemInfo) : Prop :=
  ∀ c ∈ counters, ∀ l ∈ content, c.1 <+: l.key → l.key ≠ c.1 → l.number = expected content m c

/-- All rows are bare. -/
theorem bare : ∀ p ∈ table.zip counters, p.1.1 = p.2.1 := by decide +kernel

theorem unmixed_iff {content : List CounterLine} {m : SysProcMemInfo} :
    Unmixed table counters content m ↔ Separate content m := by
  constructor
  · intro h c hc
    obtain ⟨row, hrow⟩ := ledger.row_of_counter hc
    exact h.longer _ hrow (bare _ hrow)
  · exact fun h => ⟨fun p hp _ => h p.2 (List.of_mem_zip hp).2, fun p hp htext => absurd (bare p hp) htext⟩

/-- The percentages are computed from the counters and leave them alone. -/
theorem get_setPercents (m : SysProcMemInfo) : ∀ c ∈ counters, c.2 m.setPercents = c.2 m := by
  have hfields : counters.map (fun c => c.2 m.setPercents) = counters.map fun c => c.2 m := by
    unfold setPercents
    dsimp only
    split <;> split <;> rfl
  exact List.map_inj_left.mp hfields

theorem doUpdateStats_true_iff (lines : List (List Char)) (m m' : SysProcMemInfo) :
    doUpdateStats (some lines) m = .ok true m' ↔
      ∃ e, read (counterLine table) lines m = .ok true e ∧ m' = e.setPercents := by
  unfold doUpdateStats
  constructor
  · intro h
    obtain ⟨status, e, hread, h⟩ := bind_ok.mp h
    cases status with
    | true =>
      obtain ⟨_, _, hmod, h⟩ := bind_ok.mp h
      cases hmod
      exact ⟨e, hread, (pure_ok.mp h).2.symm⟩
    | false => cases (pure_ok.mp h).1
  · rintro ⟨e, hread, rfl⟩
    exact bind_ok.mpr ⟨true, e, hread, bind_ok.mpr ⟨(), e.setPercents, rfl, rfl⟩⟩

theorem setByOwnLines_iff {content : List CounterLine} (hnodup : (content.map CounterLine.key).Nodup)
    {m m' : SysProcMemInfo} (hsucc : doUpdateStats (some (content.map CounterLine.text)) m = .ok true m') :
    SetByOwnLines (fun lines => doUpdateStats (some lines)) counters content m ↔ Separate content m := by
  rw [← unmixed_iff]
  exact ledger.setByOwnLines_iff doUpdateStats_true_iff (fun c hc m => get_setPercents m c hc) hnodup hsucc

/-- Each recognised key ends in its only colon. -/
theorem colon : ∀ c ∈ counters, c.1.getLast? = some ':' := by decide +kernel

/-- Keys whose only colon is their last character do not go on behind a recognised one. -/
theorem separate_of_colon {content : List CounterLine} (m : SysProcMemInfo)
    (h : ∀ l ∈ content, ':' ∉ l.key.dropLast) : Separate content m := by
  intro c hc l hl hpre hne
  refine absurd ?_ (h l hl)
  obtain ⟨tail, htail⟩ := hpre
  obtain ⟨before, hbefore⟩ := List.getLast?_eq_some_iff.mp (colon c hc)
  have htailne : tail ≠ [] := by
    rintro rfl
    exact hne (by rw [← htail, List.append_nil])
  rw [← htail, List.dropLast_append_of_ne_nil htailne, hbefore]
  simp

end SysProcMemInfo

/-! ### The counters of both files -/

/-- **Counters are set by their own lines** exactly if no other line carries another number to them: in
`/proc/vmstat` a line whose key goes on behind `pgpgin`, in `/proc/meminfo` a line whose key goes on behind a colon. -/
theorem set_by_own_lines_iff {vmstat meminfo : List CounterLine} (hvm : (vmstat.map CounterLine.key).Nodup)
    (hmem : (meminfo.map CounterLine.key).Nodup) {v v' : SysProcVMStat} {m m' : SysProcMemInfo}
    (hv : SysProcVMStat.doUpdateStats (some (vmstat.map CounterLine.text)) v = .ok true v')
    (hm : SysProcMemInfo.doUpdateStats (some (meminfo.map CounterLine.text)) m = .ok true m') :
    (SetByOwnLines (fun lines => SysProcVMStat.doUpdateStats (some lines)) SysProcVMStat.counters vmstat v ↔
        SysProcVMStat.Separate vmstat v) ∧
      (SetByOwnLines (fun lines => SysProcMemInfo.doUpdateStats (some lines)) SysProcMemInfo.counters meminfo m ↔
        SysProcMemInfo.Separate meminfo m) ∧
      ((∀ l ∈ meminfo, ':' ∉ l.key.dropLast) →
        SetByOwnLines (fun lines => SysProcMemInfo.doUpdateStats (some lines)) SysProcMemInfo.counters meminfo m) := by
  have hiff := SysProcMemInfo.setByOwnLines_iff hmem hm
  exact ⟨SysProcVMStat.setByOwnLines_iff hvm hv, hiff, fun h => hiff.mpr (SysProcMemInfo.separate_of_colon m h)⟩

/-- A line as `/proc/vmstat` has them. -/
def vmLine (key digits : List Char) (hkey : IsWord key) (hdigits : IsDecimal digits) : CounterLine where
  key := key
  gap := [' ']
  digits := digits
  isWord := hkey
  blank := blank_space
  apart := List.cons_ne_nil _ _
  isDecimal := hdigits
  unit_apart c hc := by cases hc

/-- A counter, and a key that goes on behind it. -/
def mixed : List CounterLine :=
  [vmLine "pgpgin".toList "1".toList (by decide) (by decide),
    vmLine "pgpgin_file".toList "5".toList (by decide) (by decide)]

/-- **A longer key overwrites `pgpgin`.** -/
theorem pgpgin_overwritten :
    (mixed.map CounterLine.key).Nodup ∧
      SysProcVMStat.doUpdateStats (some (mixed.map CounterLine.text)) {} = .ok true {pgpgin := 5} ∧
      ¬SetByOwnLines (fun lines => SysProcVMStat.doUpdateStats (some lines)) SysProcVMStat.counters mixed {} := by
  have hread : SysProcVMStat.doUpdateStats (some (mixed.map CounterLine.text)) {} = .ok true {pgpgin := 5} := rfl
  refine ⟨by decide, hread, fun h => ?_⟩
  have hown := (h.1 mixed _ (.refl mixed) hread).own SysProcVMStat.pgpginCounter (List.mem_cons_self ..) _
    (List.mem_cons_self ..) rfl
  revert hown
  decide

/-- The lines of both files in their usual form. -/
theorem set_by_own_lines_usual :
    (SetByOwnLines (fun lines => SysProcVMStat.doUpdateStats (some lines)) SysProcVMStat.counters
          [vmLine "pgpgin".toList "1".toList (by decide) (by decide)] {} ↔
        SysProcVMStat.Separate [vmLine "pgpgin".toList "1".toList (by decide) (by decide)] {}) ∧
      (SetByOwnLines (fun lines => SysProcMemInfo.doUpdateStats (some lines)) SysProcMemInfo.counters
          [vmLine "MemTotal:".toList "16".toList (by decide) (by decide)] {} ↔
        SysProcMemInfo.Separate [vmLine "MemTotal:".toList "16".toList (by decide) (by decide)] {}) ∧
      ((∀ l ∈ [vmLine "MemTotal:".toList "16".toList (by decide) (by decide)], ':' ∉ l.key.dropLast) →
        SetByOwnLines (fun lines => SysProcMemInfo.doUpdateStats (some lines)) SysProcMemInfo.counters
          [vmLine "MemTotal:".toList "16".toList (by decide) (by decide)] {}) :=
  set_by_own_lines_iff (by decide) (by decide)
    (show SysProcVMStat.doUpdateStats (some _) {} = .ok true {pgpgin := 1} from rfl)
    (show SysProcMemInfo.doUpdateStats (some _) {} = .ok true {memTotal := 16} from rfl)

end TaskMonitor

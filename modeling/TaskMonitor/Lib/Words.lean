import TaskMonitor.Lib.Text
import Mathlib.Data.List.Chain
import Mathlib.Data.List.TakeWhile

/-! The words of composed text.

A blank cuts a text in two, and the words are those of the parts
(`words_append_blank`); everything else about `words` follows from that. Words with
any blanks between them are read back as they were (`words_spaced`), so are words
put together with single spaces (`words_unwords`), and a text is what its words put
together give exactly if its only blanks are single spaces between words
(`unwords_words_iff`). -/
namespace Text

/-- A word as `>>` takes it: something, and no blank. -/
def IsWord (w : List Char) : Prop := w ≠ [] ∧ ∀ c ∈ w, isSpace c = false

instance (w : List Char) : Decidable (IsWord w) :=
  decidable_of_iff (w ≠ [] ∧ (w.all fun c => !isSpace c) = true) (by simp [IsWord])

/-- Blanks and nothing else. -/
def Blank (s : List Char) : Prop := ∀ c ∈ s, isSpace c = true

instance (s : List Char) : Decidable (Blank s) :=
  decidable_of_iff (s.all isSpace = true) (by simp [Blank])

theorem blank_space : Blank [' '] := by decide

theorem isWord_of_isDecimal {s : List Char} (h : IsDecimal s) : IsWord s :=
  ⟨h.1, fun c hc => isSpace_of_isDigit (h.2 c hc)⟩

/-! ### The first line -/

/-- `std::getline` on a content that is read from its start. -/
def getline (content : List Char) : Option (List Char) :=
  if content.isEmpty then none else some (content.takeWhile fun c => c != '\n')

theorem getline_line {line : List Char} (h : '\n' ∉ line) (rest : List Char) :
    getline (line ++ '\n' :: rest) = some line := by
  have hline : ∀ c ∈ line, (c != '\n') = true := fun c hc => bne_iff_ne.mpr fun heq => h (heq ▸ hc)
  rw [getline, if_neg (by simp), List.takeWhile_append_of_pos hline, List.takeWhile_cons_of_neg (by simp),
    List.append_nil]

/-! ### Cutting at a separator -/

theorem stretches_append_sep {sep : Char → Bool} {c : Char} (hc : sep c = true) (next a b : List Char) :
    stretches sep next (a ++ c :: b) = stretches sep next a ++ stretches sep [] b := by
  induction a generalizing next with
  | nil =>
    simp only [List.nil_append, stretches, if_pos hc]
    split <;> rfl
  | cons x rest ih =>
    simp only [List.cons_append, stretches]
    split
    · split
      · exact ih []
      · rw [ih []]
        rfl
    · exact ih (next ++ [x])

theorem stretches_solid {sep : Char → Bool} {s : List Char} (h : ∀ c ∈ s, sep c = false) (next : List Char) :
    stretches sep next s = if (next ++ s).isEmpty then [] else [next ++ s] := by
  induction s generalizing next with
  | nil => rw [List.append_nil, stretches]
  | cons c rest ih =>
    rw [stretches, if_neg (by simp [h c (List.mem_cons_self ..)]), ih fun x hx => h x (List.mem_cons_of_mem c hx)]
    simp

theorem stretches_no_sep {sep : Char → Bool} {next : List Char} (h : ∀ c ∈ next, sep c = false) (s : List Char) :
    ∀ w ∈ stretches sep next s, ∀ c ∈ w, sep c = false := by
  induction s generalizing next with
  | nil =>
    intro w hw
    rw [stretches] at hw
    split at hw
    · cases hw
    · obtain rfl := List.mem_singleton.mp hw
      exact h
  | cons x rest ih =>
    intro w hw
    rw [stretches] at hw
    split at hw
    · split at hw
      · exact ih (by simp) w hw
      · rcases List.mem_cons.mp hw with rfl | hw
        · exact h
        · exact ih (by simp) w hw
    · rename_i hx
      refine ih (fun c hc => ?_) w hw
      rcases List.mem_append.mp hc with hc | hc
      · exact h c hc
      · obtain rfl := List.mem_singleton.mp hc
        simpa using hx

/-- A stretch that was begun is read. -/
theorem stretches_begun {sep : Char → Bool} {next : List Char} (h : next ≠ []) (s : List Char) :
    stretches sep next s ≠ [] := by
  induction s generalizing next with
  | nil => simp [stretches, h]
  | cons c rest ih =>
    rw [stretches]
    split
    · simp [h]
    · exact ih (by simp)

/-! ### Words -/

@[simp] theorem words_nil : words [] = [] := rfl

/-- A blank cuts a text in two. -/
theorem words_append_blank {c : Char} (hc : isSpace c = true) (a b : List Char) :
    words (a ++ c :: b) = words a ++ words b :=
  stretches_append_sep hc [] a b

theorem words_cons_blank {c : Char} (hc : isSpace c = true) (b : List Char) : words (c :: b) = words b :=
  words_append_blank hc [] b

theorem words_blank_append {gap : List Char} (h : Blank gap) (b : List Char) : words (gap ++ b) = words b := by
  induction gap with
  | nil => rfl
  | cons c rest ih =>
    rw [List.cons_append, words_cons_blank (h c (List.mem_cons_self ..))]
    exact ih fun x hx => h x (List.mem_cons_of_mem c hx)

theorem words_blank {gap : List Char} (h : Blank gap) : words gap = [] := by
  simpa using words_blank_append h []

/-- Blanks between two texts cut them apart. -/
theorem words_append_gap {gap : List Char} (h : Blank gap) (hne : gap ≠ []) (a b : List Char) :
    words (a ++ (gap ++ b)) = words a ++ words b := by
  cases gap with
  | nil => exact absurd rfl hne
  | cons c rest =>
    rw [List.cons_append, words_append_blank (h c (List.mem_cons_self ..)),
      words_blank_append fun x hx => h x (List.mem_cons_of_mem c hx)]

theorem words_word {w : List Char} (h : IsWord w) : words w = [w] := by
  rw [words, stretches_solid h.2, List.nil_append, if_neg (by simpa using h.1)]

/-- The word a text starts with, up to its first blank. -/
theorem words_word_gap {w gap : List Char} (h : IsWord w) (hgap : Blank gap) (hne : gap ≠ []) (b : List Char) :
    words (w ++ (gap ++ b)) = w :: words b := by
  rw [words_append_gap hgap hne, words_word h]
  rfl

/-- The word a text starts with, where it ends there or a blank comes next. -/
theorem words_word_apart {w rest : List Char} (h : IsWord w) (hrest : ∀ c, rest.head? = some c → isSpace c = true) :
    words (w ++ rest) = w :: words rest := by
  cases rest with
  | nil => rw [List.append_nil, words_word h, words_nil]
  | cons c rest =>
    have hc := hrest c rfl
    rw [words_append_blank hc, words_word h, words_cons_blank hc]
    rfl

/-- The first word of a text is behind its first blanks, and the other words are those of what follows it. -/
theorem words_eq_cons {s : List Char} (h : s.dropWhile isSpace ≠ []) :
    words s = (s.dropWhile isSpace).takeWhile (fun c => !isSpace c) ::
      words ((s.dropWhile isSpace).dropWhile fun c => !isSpace c) := by
  have hblank : Blank (s.takeWhile isSpace) := fun c hc => List.mem_takeWhile_imp hc
  have hword : IsWord ((s.dropWhile isSpace).takeWhile fun c => !isSpace c) := by
    refine ⟨fun hnil => ?_, fun c hc => by simpa using List.mem_takeWhile_imp hc⟩
    have hhead := List.dropWhile_get_zero_not isSpace s (List.length_pos_iff.mpr h)
    rw [List.takeWhile_eq_nil_iff] at hnil
    exact hnil (List.length_pos_iff.mpr h) (by simpa using hhead)
  have happart (c : Char) (hc : ((s.dropWhile isSpace).dropWhile fun c => !isSpace c).head? = some c) :
      isSpace c = true := by
    have hnot := List.head?_dropWhile_not (fun c => !isSpace c) (s.dropWhile isSpace)
    rw [hc] at hnot
    simpa using hnot
  calc words s = words (s.takeWhile isSpace ++ s.dropWhile isSpace) := by rw [List.takeWhile_append_dropWhile]
    _ = words (s.dropWhile isSpace) := words_blank_append hblank _
    _ = words ((s.dropWhile isSpace).takeWhile (fun c => !isSpace c) ++
        (s.dropWhile isSpace).dropWhile fun c => !isSpace c) := by rw [List.takeWhile_append_dropWhile]
    _ = _ := words_word_apart hword happart

theorem isWord_of_mem_words {s w : List Char} (h : w ∈ words s) : IsWord w :=
  ⟨words_ne_nil h, stretches_no_sep (by simp) s w h⟩

/-- A text has no words exactly if it is blank. -/
theorem words_eq_nil_iff (s : List Char) : words s = [] ↔ Blank s := by
  refine ⟨fun h => ?_, words_blank⟩
  induction s with
  | nil => exact fun c hc => absurd hc (by simp)
  | cons c rest ih =>
    by_cases hc : isSpace c = true
    · rw [words_cons_blank hc] at h
      exact List.forall_mem_cons.mpr ⟨hc, ih h⟩
    · rw [words, stretches, if_neg hc] at h
      exact absurd h (stretches_begun (by simp) rest)

theorem stretches_infix {sep : Char → Bool} (next s : List Char) : ∀ w ∈ stretches sep next s, w <:+: next ++ s := by
  induction s generalizing next with
  | nil =>
    intro w hw
    rw [stretches] at hw
    split at hw
    · cases hw
    · rw [List.append_nil, List.mem_singleton.mp hw]
  | cons c rest ih =>
    intro w hw
    rw [stretches] at hw
    have hrest (h : w ∈ stretches sep [] rest) : w <:+: next ++ c :: rest :=
      (ih [] w h).trans (List.IsSuffix.isInfix ⟨next ++ [c], by simp⟩)
    split at hw
    · split at hw
      · exact hrest hw
      · rcases List.mem_cons.mp hw with rfl | hw
        · exact (List.prefix_append w (c :: rest)).isInfix
        · exact hrest hw
    · simpa using ih (next ++ [c]) w hw

/-- A word occurs in its text. -/
theorem infix_of_mem_words {s w : List Char} (h : w ∈ words s) : w <:+: s := stretches_infix [] s w h

/-! ### Numbers between blanks -/

/-- `%lu` takes a decimal number up to what is no digit. -/
theorem scanLu_decimal {s w rest : List Char} (hs : s.dropWhile isSpace = w ++ rest) (hw : IsDecimal w)
    (hrest : ∀ c, rest.head? = some c → c.isDigit = false) (hfits : ofDigits w < 2 ^ 64) :
    scanLu s = some (UInt64.ofNat (ofDigits w), rest) := by
  have hsigned : signed (w ++ rest) = (false, w ++ rest) := by
    obtain ⟨c, tail, rfl⟩ := List.exists_cons_of_ne_nil hw.1
    exact signed_of_isDigit (hw.2 c (List.mem_cons_self ..)) (tail ++ rest)
  have hnone : rest.takeWhile Char.isDigit = [] ∧ rest.dropWhile Char.isDigit = rest := by
    cases rest with
    | nil => exact ⟨rfl, rfl⟩
    | cons c tail =>
      have hc := hrest c rfl
      exact ⟨List.takeWhile_cons_of_neg (by simp [hc]), List.dropWhile_cons_of_neg (by simp [hc])⟩
  have htake : (w ++ rest).takeWhile Char.isDigit = w := by
    rw [List.takeWhile_append_of_pos hw.2, hnone.1, List.append_nil]
  have hdrop : (w ++ rest).dropWhile Char.isDigit = rest := by
    rw [List.dropWhile_append_of_pos hw.2, hnone.2]
  have hne : w.isEmpty = false := by simpa using hw.1
  simp only [scanLu, hs, hsigned, htake, hdrop, hne, Bool.false_eq_true, if_false, if_pos hfits]

/-- **Decimal numbers are taken one after the other**, as the words that they are. -/
theorem scanLus_words {n : Nat} {s : List Char}
    (h : ∀ w ∈ (words s).take n, IsDecimal w ∧ ofDigits w < 2 ^ 64) :
    scanLus n s = ((words s).take n).map fun w => UInt64.ofNat (ofDigits w) := by
  induction n generalizing s with
  | zero => rfl
  | succ n ih =>
    by_cases hs : s.dropWhile isSpace = []
    · have hblank : Blank s := fun c hc => by
        have htake := List.takeWhile_append_dropWhile (p := isSpace) (l := s)
        rw [hs, List.append_nil] at htake
        exact List.mem_takeWhile_imp (htake ▸ hc)
      simp [scanLus, scanLu, hs, signed, words_blank hblank]
    · rw [words_eq_cons hs] at h ⊢
      rw [List.take_succ_cons] at h ⊢
      obtain ⟨⟨hw, hfits⟩, hrest⟩ := List.forall_mem_cons.mp h
      have happart (c : Char) (hc : ((s.dropWhile isSpace).dropWhile fun c => !isSpace c).head? = some c) :
          c.isDigit = false := by
        have hnot := List.head?_dropWhile_not (fun c => !isSpace c) (s.dropWhile isSpace)
        rw [hc] at hnot
        by_contra hdigit
        have hspace := isSpace_of_isDigit (by simpa using hdigit)
        simp [hspace] at hnot
      rw [scanLus, scanLu_decimal List.takeWhile_append_dropWhile.symm hw happart hfits, List.map_cons]
      exact congrArg _ (ih hrest)

/-! ### Words and the blanks before them -/

/-- Blanks, and at least one. -/
abbrev Gap := {gap : List Char // Blank gap ∧ gap ≠ []}

/-- A word behind a gap. -/
structure Spaced where
  gap : Gap
  word : List Char
  isWord : IsWord word

def Spaced.text (w : Spaced) : List Char := w.gap ++ w.word

theorem head_spaced {ws : List Spaced} {tail : List Char} (h : Blank tail) {c : Char}
    (hc : (ws.flatMap Spaced.text ++ tail).head? = some c) : isSpace c = true := by
  cases ws with
  | nil => exact h c (List.mem_of_mem_head? hc)
  | cons w rest =>
    refine w.gap.2.1 c (List.mem_of_mem_head? ?_)
    rwa [List.flatMap_cons, Spaced.text, List.append_assoc, List.append_assoc,
      List.head?_append_of_ne_nil _ w.gap.2.2] at hc

/-- Words are read back, whatever blanks are between them and at the end. -/
theorem words_spaced (ws : List Spaced) {tail : List Char} (h : Blank tail) :
    words (ws.flatMap Spaced.text ++ tail) = ws.map Spaced.word := by
  induction ws with
  | nil => exact words_blank h
  | cons w rest ih =>
    rw [List.flatMap_cons, Spaced.text, List.append_assoc, List.append_assoc, words_blank_append w.gap.2.1,
      words_word_apart w.isWord fun _ => head_spaced h, ih, List.map_cons]

/-- Words with a space behind each are read back. -/
theorem words_flatMap_space {ws : List (List Char)} (h : ∀ w ∈ ws, IsWord w) :
    words (ws.flatMap fun w => w ++ [' ']) = ws := by
  induction ws with
  | nil => rfl
  | cons w rest ih =>
    rw [List.flatMap_cons, List.append_assoc, List.singleton_append, words_append_blank rfl,
      words_word (h w (List.mem_cons_self ..)), ih fun x hx => h x (List.mem_cons_of_mem w hx)]
    rfl

/-! ### Putting words together -/

/-- Words with a single space between two of them. -/
def unwords : List (List Char) → List Char
  | [] => []
  | [w] => w
  | w :: v :: rest => w ++ ' ' :: unwords (v :: rest)

/-- **Words put together with single spaces are read back.** -/
theorem words_unwords {ws : List (List Char)} (h : ∀ w ∈ ws, IsWord w) : words (unwords ws) = ws := by
  induction ws with
  | nil => rfl
  | cons w rest ih =>
    have hw := words_word (h w (List.mem_cons_self ..))
    cases rest with
    | nil => exact hw
    | cons v rest =>
      rw [unwords, words_append_blank rfl, hw, ih fun x hx => h x (List.mem_cons_of_mem w hx)]
      rfl

theorem unwords_cons {rest : List (List Char)} (h : rest ≠ []) (w : List Char) :
    unwords (w :: rest) = w ++ ' ' :: unwords rest := by
  cases rest with
  | nil => exact absurd rfl h
  | cons v rest => rfl

/-- Words put together one after the other, each behind a space. -/
theorem foldl_space (w : List Char) (rest : List (List Char)) :
    rest.foldl (fun s v => s ++ ' ' :: v) w = unwords (w :: rest) := by
  induction rest generalizing w with
  | nil => rfl
  | cons v rest ih =>
    rw [List.foldl_cons, ih]
    cases rest with
    | nil => rfl
    | cons u rest => simp [unwords]

theorem mem_unwords {ws : List (List Char)} {c : Char} (h : c ∈ unwords ws) : c = ' ' ∨ ∃ w ∈ ws, c ∈ w := by
  induction ws with
  | nil => cases h
  | cons w rest ih =>
    by_cases hnil : rest = []
    · rw [hnil] at h
      exact .inr ⟨w, List.mem_cons_self .., h⟩
    · rw [unwords_cons hnil] at h
      rcases List.mem_append.mp h with h | h
      · exact .inr ⟨w, List.mem_cons_self .., h⟩
      · rcases List.mem_cons.mp h with h | h
        · exact .inl h
        · exact (ih h).imp_right fun ⟨v, hv, hc⟩ => ⟨v, List.mem_cons_of_mem w hv, hc⟩

theorem unwords_ne_nil {ws : List (List Char)} (hne : ws ≠ []) (h : ∀ w ∈ ws, IsWord w) : unwords ws ≠ [] := by
  intro hnil
  refine hne ?_
  rw [← words_unwords h, hnil]
  rfl

/-- The only blanks are single spaces between words. -/
structure Tight (s : List Char) : Prop where
  spaces : ∀ c ∈ s, isSpace c = true → c = ' '
  head : ∀ c, s.head? = some c → isSpace c = false
  last : ∀ c, s.getLast? = some c → isSpace c = false
  single : s.IsChain fun a b => isSpace a = true → isSpace b = false

theorem tight_nil : Tight [] := ⟨by simp, by simp, by simp, .nil⟩

theorem tight_word {w : List Char} (h : IsWord w) : Tight w where
  spaces c hc hs := absurd hs (by simp [h.2 c hc])
  head c hc := h.2 c (List.mem_of_mem_head? hc)
  last c hc := h.2 c (List.mem_of_mem_getLast? hc)
  single := by
    induction w with
    | nil => exact .nil
    | cons c rest ih =>
      cases rest with
      | nil => exact .singleton c
      | cons d rest =>
        have hd := h.2 d (List.mem_cons_of_mem c (List.mem_cons_self ..))
        exact .cons_cons (fun _ => hd) (ih ⟨by simp, fun x hx => h.2 x (List.mem_cons_of_mem c hx)⟩)

theorem Tight.word_space {w t : List Char} (hw : IsWord w) (ht : Tight t) (hne : t ≠ []) : Tight (w ++ ' ' :: t) := by
  have htw := tight_word hw
  obtain ⟨c, rest, rfl⟩ := List.exists_cons_of_ne_nil hne
  have hc := ht.head c rfl
  constructor
  · intro x hx hs
    rcases List.mem_append.mp hx with hx | hx
    · exact htw.spaces x hx hs
    · rcases List.mem_cons.mp hx with rfl | hx
      · rfl
      · exact ht.spaces x hx hs
  · intro x hx
    rw [List.head?_append_of_ne_nil w hw.1] at hx
    exact htw.head x hx
  · intro x hx
    refine ht.last x ?_
    rw [List.getLast?_append] at hx
    simpa using hx
  · refine List.isChain_append.mpr ⟨htw.single, .cons_cons (fun _ => hc) ht.single, fun x hx y _ hs => ?_⟩
    exact absurd hs (by simp [htw.last x hx])

theorem tight_unwords {ws : List (List Char)} (h : ∀ w ∈ ws, IsWord w) : Tight (unwords ws) := by
  induction ws with
  | nil => exact tight_nil
  | cons w rest ih =>
    have hw := h w (List.mem_cons_self ..)
    have hrest : ∀ v ∈ rest, IsWord v := fun v hv => h v (List.mem_cons_of_mem w hv)
    by_cases hnil : rest = []
    · rw [hnil]
      exact tight_word hw
    · rw [unwords_cons hnil]
      exact .word_space hw (ih hrest) (unwords_ne_nil hnil hrest)

/-- A tight text is a word, or a word, a space and a tight text. -/
theorem Tight.cut {s : List Char} (h : Tight s) (hne : s ≠ []) :
    IsWord s ∨ ∃ w t, s = w ++ ' ' :: t ∧ IsWord w ∧ Tight t ∧ t ≠ [] := by
  by_cases hall : ∀ c ∈ s, isSpace c = false
  · exact .inl ⟨hne, hall⟩
  have hsplit : s.takeWhile (fun c => !isSpace c) ++ s.dropWhile (fun c => !isSpace c) = s :=
    List.takeWhile_append_dropWhile
  have hword : ∀ c ∈ s.takeWhile (fun c => !isSpace c), isSpace c = false := fun c hc => by
    simpa using List.mem_takeWhile_imp hc
  have hhead := List.head?_dropWhile_not (fun c => !isSpace c) s
  generalize s.takeWhile (fun c => !isSpace c) = w at hsplit hword
  generalize s.dropWhile (fun c => !isSpace c) = r at hsplit hhead
  cases r with
  | nil =>
    rw [List.append_nil] at hsplit
    exact absurd (hsplit ▸ hword) hall
  | cons c t =>
    have hc : isSpace c = true := by simpa using hhead
    obtain rfl : c = ' ' := h.spaces c (by simp [← hsplit]) hc
    subst hsplit
    obtain ⟨hw, hct, -⟩ := List.isChain_append.mp h.single
    have hwne : w ≠ [] := by
      rintro rfl
      exact absurd (h.head ' ' rfl) (by decide)
    have htne : t ≠ [] := by
      rintro rfl
      exact absurd (h.last ' ' (by simp)) (by decide)
    refine .inr ⟨w, t, rfl, ⟨hwne, hword⟩, ⟨fun x hx => h.spaces x (by simp [hx]), fun x hx => ?_, fun x hx => ?_, ?_⟩, htne⟩
    · obtain ⟨rest, rfl⟩ : ∃ rest, t = x :: rest := List.head?_eq_some_iff.mp hx
      exact (List.isChain_cons_cons.mp hct).1 rfl
    · exact h.last x (by simp [List.getLast?_append, List.getLast?_cons, hx])
    · exact hct.tail

/-- **A text is what its words give**, put together with single spaces, exactly if its only blanks are
single spaces between words. -/
theorem unwords_words_iff (s : List Char) : unwords (words s) = s ↔ Tight s := by
  refine ⟨fun h => h ▸ tight_unwords fun _ => isWord_of_mem_words, fun h => ?_⟩
  induction hn : s.length using Nat.strongRecOn generalizing s with
  | ind n ih =>
    by_cases hne : s = []
    · rw [hne]
      rfl
    rcases h.cut hne with hw | ⟨w, t, rfl, hw, ht, htne⟩
    · rw [words_word hw]
      rfl
    · have hback := ih t.length (by simp at hn; omega) t ht rfl
      have hwords : words t ≠ [] := by
        intro hnil
        rw [hnil] at hback
        exact htne hback.symm
      rw [words_append_blank rfl, words_word hw, List.singleton_append, unwords_cons hwords, hback]

end Text

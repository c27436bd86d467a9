import TaskMonitor.Lib.Words
import TaskMonitor.Stat.BuddyInfo

/-! The zones of `/proc/buddyinfo` (`SysProcBuddyInfo.cpp`).

An entry is found again by the hash of a name and a zone put together, and keeps
the two of its first line. Digits end where a zone begins, so what was put
together comes apart in one way (`name_zone_inj`); where the hash tells these
texts apart there is one entry for each zone of a node, and its data are the
counts of the zone's most recent line (`zones_current`). -/
namespace TaskMonitor
open Lines Text Roster Transition

/-- A line as the kernel writes it: `Node`, the number of a node and a comma, `zone`, the zone and its free counts. -/
structure NodeLine where
  node : List Char
  zone : List Char
  counts : List Spaced
  beforeNode : Gap
  beforeMarker : Gap
  beforeZone : Gap
  atEnd : List Char := []
  isDecimal : IsDecimal node
  isWord : IsWord zone
  letter : ∀ c, zone.head? = some c → c.isAlpha = true
  counted : counts ≠ []
  blank : Blank atEnd

namespace NodeLine

def text (l : NodeLine) : List Char :=
  "Node".toList ++ (l.beforeNode ++ ((l.node ++ [',']) ++ (l.beforeMarker ++ ("zone".toList ++ (l.beforeZone ++
    (l.zone ++ (l.counts.flatMap Spaced.text ++ l.atEnd)))))))

def name (l : NodeLine) : List Char := "Node".toList ++ l.node

/-- What a zone of a node is known by. -/
def key (l : NodeLine) : List Char × List Char := (l.name, l.zone)

def tokens (l : NodeLine) : List (List Char) :=
  "Node".toList :: (l.node ++ [',']) :: "zone".toList :: l.zone :: l.counts.map Spaced.word

theorem words_text (l : NodeLine) : words l.text = l.tokens := by
  have hnode : IsWord (l.node ++ [',']) := by
    refine ⟨by simp, fun c hc => ?_⟩
    rcases List.mem_append.mp hc with hc | hc
    · exact (isWord_of_isDecimal l.isDecimal).2 c hc
    · obtain rfl := List.mem_singleton.mp hc
      rfl
  have hrest : words (l.zone ++ (l.counts.flatMap Spaced.text ++ l.atEnd)) = l.zone :: l.counts.map Spaced.word := by
    rw [words_word_apart l.isWord fun _ => head_spaced l.blank, words_spaced l.counts l.blank]
  rw [text, words_word_gap (by decide) l.beforeNode.2.1 l.beforeNode.2.2,
    words_word_gap hnode l.beforeMarker.2.1 l.beforeMarker.2.2,
    words_word_gap (by decide) l.beforeZone.2.1 l.beforeZone.2.2, hrest, tokens]

/-- Where the digits of a node end, a zone begins. -/
theorem takeWhile_node (l : NodeLine) : (l.node ++ l.zone).takeWhile Char.isDigit = l.node := by
  obtain ⟨c, rest, hzone⟩ := List.exists_cons_of_ne_nil l.isWord.1
  have hc : c.isDigit = false := isDigit_of_isAlpha (l.letter c (by rw [hzone]; rfl))
  rw [List.takeWhile_append_of_pos l.isDecimal.2, hzone, List.takeWhile_cons_of_neg (by simp [hc]), List.append_nil]

/-- A name and a zone put together come apart in one way. -/
theorem name_zone_inj {l m : NodeLine} : l.name ++ l.zone = m.name ++ m.zone ↔ l.key = m.key := by
  constructor
  · intro h
    rw [name, name, List.append_assoc, List.append_assoc] at h
    have htail := List.append_cancel_left h
    have hnode : l.node = m.node := by
      rw [← l.takeWhile_node, htail, m.takeWhile_node]
    rw [hnode] at htail
    rw [key, key, name, name, hnode, List.append_cancel_left htail]
  · intro h
    obtain ⟨hname, hzone⟩ := Prod.mk.inj h
    rw [hname, hzone]

end NodeLine

def BuddyInfo.key (b : BuddyInfo) : List Char × List Char := (b.name, b.zone)

namespace SysProcBuddyInfo

/-- The entry is the line's, and its data split on blanks are the counts of the line. -/
structure Holds (b : BuddyInfo) (l : NodeLine) : Prop where
  name : b.name = l.name
  zone : b.zone = l.zone
  data : words b.data = l.counts.map Spaced.word

/-- No two of the texts have one hash. -/
def CollisionFree (jnkHsh : List Char → UInt64) (texts : List (List Char)) : Prop :=
  ∀ s ∈ texts, ∀ t ∈ texts, jnkHsh s = jnkHsh t → s = t

/-! ### One line -/

def dataOf (l : NodeLine) : List Char := (l.counts.map Spaced.word).flatMap fun t => t ++ [' ']

def updateOf (l : NodeLine) : EStateM Fault BuddyInfo Unit := modify fun b => {b with data := dataOf l}

variable {jnkHsh : List Char → UInt64}

def hashOf (jnkHsh : List Char → UInt64) (l : NodeLine) : UInt64 := jnkHsh (l.name ++ l.zone)

def newNode (jnkHsh : List Char → UInt64) (l : NodeLine) : BuddyInfo :=
  {name := l.name, zone := l.zone, hash := hashOf jnkHsh l}

theorem zoneMarker_tokens (l : NodeLine) : zoneMarker l.tokens = 2 := by
  have hname : ¬"Node".toList = "zone".toList := by decide
  have hnode : ¬l.node ++ [','] = "zone".toList := by
    intro h
    have hlast := congrArg List.getLast? h
    rw [List.getLast?_concat] at hlast
    exact absurd hlast (by decide)
  unfold zoneMarker NodeLine.tokens
  simp only [List.zipIdx_cons, List.foldl_cons, hname, hnode, and_false, if_false, and_self, if_true]
  -- the marker is found, and later tokens do not move it
  apply List.foldl_fixed'
  intro p
  exact if_neg fun h => absurd h.1 (Nat.succ_ne_zero 1)

theorem updateBuddyInfoEntry_tokens (l : NodeLine) : updateBuddyInfoEntry l.tokens = updateOf l := by
  rw [updateBuddyInfoEntry, zoneMarker_tokens]
  rfl

/-- What a line does is an upsert of its zone. -/
theorem buddyLine_text (jnkHsh : List Char → UInt64) (l : NodeLine) :
    buddyLine jnkHsh l.text = (do
      Roster.upsert (fun b => decide (b.hash = hashOf jnkHsh l)) (updateOf l) (newNode jnkHsh l)
      pure .next) := by
  have hzone : "zone".toList <:+: l.text := infix_of_mem_words (by rw [l.words_text]; simp [NodeLine.tokens])
  have hlong : ¬l.tokens.length < 2 + 3 := by
    have hcounts := List.length_pos_iff.mpr l.counted
    simp only [NodeLine.tokens, List.length_cons, List.length_map]
    omega
  have hname : (l.tokens.take 2).flatten.dropLast = l.name := by
    show ("Node".toList ++ ((l.node ++ [',']) ++ [])).dropLast = l.name
    rw [List.append_nil, ← List.append_assoc, List.dropLast_concat, NodeLine.name]
  rw [buddyLine, if_neg (not_not_intro hzone)]
  simp only [l.words_text, zoneMarker_tokens, updateBuddyInfoEntry_tokens, if_neg hlong, hname]
  rfl

/-- The line goes on, whatever entries there are. -/
theorem buddyLine_next (l : NodeLine) (nodes : List BuddyInfo) :
    ∃ nodes', buddyLine jnkHsh l.text nodes = .ok .next nodes' ∧
      Roster.upsert (fun b => decide (b.hash = hashOf jnkHsh l)) (updateOf l) (newNode jnkHsh l) nodes = .ok () nodes' := by
  have hentry (b : BuddyInfo) : Ends (updateOf l) b ↔ True := iff_of_true ⟨(), _, rfl⟩ trivial
  have hends : Ends (Roster.upsert (fun b => decide (b.hash = hashOf jnkHsh l)) (updateOf l) (newNode jnkHsh l)) nodes :=
    (Roster.ends_upsert_iff hentry nodes).mpr trivial
  obtain ⟨_, nodes', hups⟩ := hends
  refine ⟨nodes', ?_, hups⟩
  rw [buddyLine_text]
  exact bind_ok.mpr ⟨(), nodes', hups, rfl⟩

/-! ### The lines of one hash -/

/-- An entry has the names of its first line, and the data of its last. -/
theorem grown_zone {items : List NodeLine} {b : BuddyInfo} (h : grown (newNode jnkHsh) updateOf items = some b) :
    ∃ first ∈ items, ∃ last ∈ items, items.getLast? = some last ∧ b = {newNode jnkHsh first with data := dataOf last} := by
  induction items using List.reverseRecOn generalizing b with
  | nil => cases h
  | append_singleton items l ih =>
    have hlast : l ∈ items ++ [l] := List.mem_append_right items (List.mem_singleton_self l)
    by_cases hnil : items = []
    · subst hnil
      rw [List.nil_append, grown_single] at h
      obtain rfl := Option.some.inj h
      exact ⟨l, hlast, l, hlast, rfl, rfl⟩
    · rw [grown_snoc hnil] at h
      obtain ⟨c, hc, hout⟩ := Option.bind_eq_some_iff.mp h
      obtain ⟨first, hfirst, _, _, _, rfl⟩ := ih hc
      obtain rfl := Option.some.inj hout
      exact ⟨first, List.mem_append_left [l] hfirst, l, hlast, List.getLast?_concat .., rfl⟩

abbrev BuiltOf (jnkHsh : List Char → UInt64) (history : List NodeLine) (nodes : List BuddyInfo) : Prop :=
  Built BuddyInfo.hash (hashOf jnkHsh) (newNode jnkHsh) updateOf history nodes

/-- Where hashes do not collide, lines of one hash are of one zone. -/
theorem hashOf_iff {history : List NodeLine} (hfree : CollisionFree jnkHsh (history.map fun l => l.name ++ l.zone))
    {l m : NodeLine} (hl : l ∈ history) (hm : m ∈ history) : hashOf jnkHsh l = hashOf jnkHsh m ↔ l.key = m.key := by
  have hmem {x : NodeLine} (hx : x ∈ history) : x.name ++ x.zone ∈ history.map fun l => l.name ++ l.zone :=
    List.mem_map_of_mem hx
  constructor
  · intro h
    exact NodeLine.name_zone_inj.mp (hfree _ (hmem hl) _ (hmem hm) h)
  · intro h
    rw [hashOf, hashOf, NodeLine.name_zone_inj.mpr h]

theorem latest_of_built {history : List NodeLine} {nodes : List BuddyInfo}
    (hfree : CollisionFree jnkHsh (history.map fun l => l.name ++ l.zone)) (h : BuiltOf jnkHsh history nodes) :
    Latest NodeLine.key BuddyInfo.key Holds history nodes := by
  have hmem {b : BuddyInfo} {l : NodeLine} (hl : l ∈ history.filter fun l => decide (hashOf jnkHsh l = b.hash)) :
      l ∈ history ∧ hashOf jnkHsh l = b.hash :=
    ⟨List.mem_of_mem_filter hl, of_decide_eq_true (List.mem_filter.mp hl).2⟩
  -- every entry is of some line
  have hfirst : ∀ b ∈ nodes, ∃ l ∈ history, b.key = l.key ∧ b.hash = hashOf jnkHsh l := by
    intro b hb
    obtain ⟨first, hf, _, _, _, heq⟩ := grown_zone (h.grown_of_mem hb)
    exact ⟨first, (hmem hf).1, by rw [heq]; rfl, (hmem hf).2.symm⟩
  apply h.latest_of
  · intro l hl b hb
    obtain ⟨first, hf, hkey, hhash⟩ := hfirst b hb
    rw [hkey, hhash]
    exact (hashOf_iff hfree hl hf).symm
  · intro a ha b hb hab
    obtain ⟨l, hl, hkey, hhash⟩ := hfirst a ha
    obtain ⟨m, hm, hkey', hhash'⟩ := hfirst b hb
    rw [hhash, hhash']
    refine (hashOf_iff hfree hl hm).mpr ?_
    rw [← hkey, ← hkey', hab]
  · intro b hb
    obtain ⟨first, hf, last, hl, hlast, heq⟩ := grown_zone (h.grown_of_mem hb)
    obtain ⟨hname, hzone⟩ := Prod.mk.inj
      ((hashOf_iff hfree (hmem hf).1 (hmem hl).1).mp ((hmem hf).2.trans (hmem hl).2.symm))
    refine ⟨last, hlast, ?_⟩
    rw [heq]
    refine ⟨hname, hzone, words_flatMap_space fun w hw => ?_⟩
    obtain ⟨count, _, rfl⟩ := List.mem_map.mp hw
    exact count.isWord

/-! ### Any contents -/

/-- **Each zone of a node has one entry**, whatever files of lines it was updated from: with the names of the node and
the zone, and the counts of the zone's most recent line. -/
theorem zones_current {contents : List (List NodeLine)}
    (hfree : CollisionFree jnkHsh (contents.flatten.map fun l => l.name ++ l.zone)) :
    ∃ nodes, run (kind jnkHsh).updated [] (contents.map fun file => some (file.map NodeLine.text)) = some nodes ∧
      Latest NodeLine.key BuddyInfo.key Holds contents.flatten nodes := by
  have hkey (l : NodeLine) (b : BuddyInfo) (u : Unit) (b' : BuddyInfo) (hb : b.hash = hashOf jnkHsh l)
      (hupd : updateOf l b = .ok u b') : b'.hash = hashOf jnkHsh l := by
    cases hupd
    exact hb
  have hfile : ∀ file ∈ contents, ∀ history nodes, BuiltOf jnkHsh history nodes →
      ∃ nodes', (kind jnkHsh).updated nodes (some (file.map NodeLine.text)) = some nodes' ∧
        BuiltOf jnkHsh (history ++ id file) nodes' := by
    intro file _ history nodes h
    obtain ⟨nodes', hread, hbuilt⟩ := read_items h (fun _ => rfl) hkey fun l (_ : l ∈ file) => buddyLine_next l
    exact ⟨nodes', SourceKind.updated_iff.mpr hread, hbuilt⟩
  obtain ⟨nodes, hrun, hbuilt⟩ := run_built hfile
  rw [← List.flatten_eq_flatMap] at hbuilt
  exact ⟨nodes, hrun, latest_of_built hfree hbuilt⟩

/-- A hash of the kind, mixed one character at a time. -/
def jenkins (s : List Char) : UInt64 :=
  let hash : UInt64 := s.foldl (fun h c =>
    let h := h + UInt64.ofNat c.toNat
    let h := h + (h <<< 10)
    h ^^^ (h >>> 6)) 0
  let hash := hash + (hash <<< 3)
  let hash := hash ^^^ (hash >>> 11)
  hash + (hash <<< 15)

def space : Gap := ⟨[' '], blank_space, List.cons_ne_nil _ _⟩

/-- A zone of the first node, with three free counts. -/
def normalLine : NodeLine where
  node := ['0']
  zone := "Normal".toList
  counts := [⟨space, ['4'], by decide⟩, ⟨space, ['0'], by decide⟩, ⟨space, ['7'], by decide⟩]
  beforeNode := space
  beforeMarker := space
  beforeZone := ⟨[' ', ' '], by decide⟩
  atEnd := [' ']
  isDecimal := by decide
  isWord := by decide
  letter := by simp
  counted := by simp
  blank := blank_space

/-- Another zone, of another node. -/
def dmaLine : NodeLine :=
  {normalLine with node := ['1'], zone := "DMA".toList, isDecimal := by decide, isWord := by decide, letter := by simp}

/-- The first zone again, with other counts. -/
def laterLine : NodeLine := {normalLine with counts := [⟨space, ['5'], by decide⟩], counted := by simp}

theorem zones_current_usual :
    ∃ nodes, run (kind jenkins).updated []
        ([[normalLine, dmaLine], [laterLine]].map fun file => some (file.map NodeLine.text)) = some nodes ∧
      Latest NodeLine.key BuddyInfo.key Holds [[normalLine, dmaLine], [laterLine]].flatten nodes :=
  zones_current (by unfold CollisionFree; decide +kernel)

end SysProcBuddyInfo
end TaskMonitor

import TaskMonitor.Connection.System

/-! Who closes which descriptor.

Three places close descriptors: a server that got no descriptor message, the
callback of a collector that reads an envelope of another origin, and the
destructor. The destructor does not know what the callback did, and passes over
the number 0. So a collector closes what it was accepted with exactly once if it
is not destroyed after its callback closed a number above 0, nor with an open
number 0. -/
namespace TaskMonitor.Service
open Collector DeferredList Transition

variable {L : Type → Type} [DeferredList L] {cfg : ServiceConfig} {held : Bool} {s t : Service L} {l : Label}
  {c d : ICollector} {n fd : Nat}

/-- What descriptors depend on. -/
structure Ledger where
  accepts : Nat
  live : List ICollector
  owner : Nat → Option ICollector
  closes : List Close
  loop : List ICollector

def ledger (s : Service L) : Ledger := ⟨s.accepts, s.live, s.owner, s.closes, s.loop⟩

namespace Ledger

def close (number fd : Nat) (b : Ledger) : Ledger :=
  {b with
    owner := Function.update b.owner fd none
    closes := b.closes ++ [⟨number, fd, (b.owner fd).filter fun d => decide (d ∈ b.live)⟩]}

/-- How often the descriptor of an accept was closed. -/
def closings (b : Ledger) (n : Nat) : Nat := b.closes.countP fun x => decide (x.number = n)

@[simp] theorem closings_close (b : Ledger) (number fd n : Nat) :
    (b.close number fd).closings n = b.closings n + if number = n then 1 else 0 := by
  simp [closings, close, List.countP_append, List.countP_singleton]

theorem closings_eq_zero (b : Ledger) : b.closings n = 0 ↔ ¬∃ x ∈ b.closes, x.number = n := by
  simp [closings, List.countP_eq_zero]

/-- Each descriptor is closed at most once, and once if no collector is left that will close it; and
no call closes that of another live collector. -/
structure Proper (b : Ledger) : Prop where
  once : ∀ n, b.closings n ≤ 1
  done : ∀ n < b.accepts, (∀ c ∈ b.live, c.number ≠ n) → b.closings n = 1
  own : ∀ x ∈ b.closes, ∀ d, x.owner = some d → d.number = x.number

/-- While all is proper, what is open is what live collectors have not closed. -/
structure Sound (b : Ledger) : Prop extends Proper b where
  numbers : (b.live.map ICollector.number).Nodup
  below : ∀ c ∈ b.live, c.number < b.accepts
  known : ∀ x ∈ b.closes, x.number < b.accepts
  sources : b.loop.Nodup
  registered : ∀ c ∈ b.loop, c ∈ b.live ∧ b.closings c.number = 0
  owned : ∀ fd c, b.owner fd = some c → c ∈ b.live ∧ c.fd = fd ∧ b.closings c.number = 0
  opened : ∀ c ∈ b.live, b.closings c.number = 0 → b.owner c.fd = some c

/-- What a step does to the ledger. -/
inductive Moves (b : Ledger) : Label → Ledger → Prop where
  | keep {l : Label} {loop : List ICollector} (hl : ∀ c, l ≠ .destroy c) (hsub : loop.Sublist b.loop) :
      Moves b l {b with loop := loop}
  | refuse {type : CollectorType} {fd : Nat} {now : UInt64} (hfd : b.owner fd = none) :
      Moves b (.accept type fd none now) ({b with accepts := b.accepts + 1}.close b.accepts fd)
  | accept {type : CollectorType} {fd : Nat} {id : Id} {now : UInt64} (hfd : b.owner fd = none) :
      Moves b (.accept type fd (some id) now) {b with
        accepts := b.accepts + 1
        live := b.live ++ [⟨b.accepts, type, fd⟩]
        owner := Function.update b.owner fd (some ⟨b.accepts, type, fd⟩)
        loop := b.loop ++ [⟨b.accepts, type, fd⟩]}
  /-- The callback closes the descriptor and leaves. -/
  | foreign {c : ICollector} {received : List Received} {now : UInt64} (hc : c ∈ b.loop) :
      Moves b (.readable c received now) {b.close c.number c.fd with loop := b.loop.erase c}
  | destroy {c : ICollector} (hc : c ∈ b.live) (hl : c ∉ b.loop) :
      Moves b (.destroy c) {if c.fd > 0 then b.close c.number c.fd else b with live := b.live.erase c}

variable {b b' : Ledger}

/-! ### Proper closing is kept -/

theorem Sound.eq_of_number (h : Sound b) (hc : c ∈ b.live) (hd : d ∈ b.live) (hn : c.number = d.number) : c = d :=
  List.inj_on_of_nodup_map h.numbers hc hd hn

/-- Nothing was closed for a number that no accept had. -/
theorem Sound.unused (h : Sound b) : b.closings b.accepts = 0 := by
  rw [closings_eq_zero]
  rintro ⟨x, hx, hn⟩
  have := h.known x hx
  omega

/-- A collector that has not closed its descriptor closes its own, and leaves the loop. -/
theorem sound_close (h : Sound b) (hc : c ∈ b.live) (h0 : b.closings c.number = 0) :
    Sound {b.close c.number c.fd with loop := b.loop.erase c} := by
  have hown := h.opened c hc h0
  have hother {d : ICollector} (hd : d ∈ b.live) (hne : d ≠ c) :
      (b.close c.number c.fd).closings d.number = b.closings d.number := by
    have : c.number ≠ d.number := fun hn => hne (h.eq_of_number hd hc hn.symm)
    simp [this]
  constructor
  case toProper =>
    constructor
    case once =>
      intro n
      show (b.close c.number c.fd).closings n ≤ 1
      rw [closings_close]
      split
      · rename_i hn
        rw [← hn, h0]
      · exact h.once n
    case done =>
      intro n hn hlive
      have hne : c.number ≠ n := hlive c hc
      show (b.close c.number c.fd).closings n = 1
      rw [closings_close, if_neg hne]
      exact h.done n hn hlive
    case own =>
      intro x hx d hd
      rcases List.mem_append.mp hx with hx | hx
      · exact h.own x hx d hd
      · obtain rfl := List.mem_singleton.mp hx
        simp only [hown, Option.filter_some, hc, decide_true, if_true, Option.some.injEq] at hd
        rw [hd]
  case numbers => exact h.numbers
  case below => exact h.below
  case known =>
    intro x hx
    rcases List.mem_append.mp hx with hx | hx
    · exact h.known x hx
    · obtain rfl := List.mem_singleton.mp hx
      exact h.below c hc
  case sources => exact h.sources.erase c
  case registered =>
    intro d hd
    obtain ⟨hne, hd⟩ := h.sources.mem_erase_iff.mp hd
    obtain ⟨hlive, hd0⟩ := h.registered d hd
    exact ⟨hlive, (hother hlive hne).trans hd0⟩
  case owned =>
    intro fd d hd
    by_cases hfd : fd = c.fd
    · simp [close, hfd] at hd
    · obtain ⟨hlive, rfl, hd0⟩ := h.owned fd d ((Function.update_of_ne hfd ..).symm.trans hd)
      exact ⟨hlive, rfl, (hother hlive fun hdc => hfd (congrArg ICollector.fd hdc)).trans hd0⟩
  case opened =>
    intro d hd hd0
    have hne : d ≠ c := by
      rintro rfl
      simp [closings, close] at hd0
    have hopen := h.opened d hd ((hother hd hne).symm.trans hd0)
    have hfd : d.fd ≠ c.fd := by
      intro hfd
      rw [hfd, hown] at hopen
      exact hne (Option.some.inj hopen).symm
    exact (Function.update_of_ne hfd ..).trans hopen

/-- A collector that has closed its descriptor is destroyed. -/
theorem sound_discard (h : Sound b) (hl : c ∉ b.loop) (h1 : b.closings c.number ≠ 0) :
    Sound {b with live := b.live.erase c} := by
  have hnodup : b.live.Nodup := List.Nodup.of_map _ h.numbers
  have hstays {d : ICollector} (hd : d ∈ b.live) (hne : d ≠ c) : d ∈ b.live.erase c :=
    (List.mem_erase_of_ne hne).mpr hd
  constructor
  case toProper =>
    constructor
    case once => exact h.once
    case done =>
      intro n hn hlive
      by_cases hcn : c.number = n
      · subst hcn
        have := h.once c.number
        show b.closings c.number = 1
        omega
      · refine h.done n hn fun d hd hdn => ?_
        have hne : d ≠ c := fun hdc => hcn (hdc ▸ hdn)
        exact hlive d (hstays hd hne) hdn
    case own => exact h.own
  case numbers => exact h.numbers.sublist (List.erase_sublist.map _)
  case below => exact fun d hd => h.below d (List.mem_of_mem_erase hd)
  case known => exact h.known
  case sources => exact h.sources
  case registered =>
    intro d hd
    obtain ⟨hlive, hd0⟩ := h.registered d hd
    exact ⟨hstays hlive fun hdc => hl (hdc ▸ hd), hd0⟩
  case owned =>
    intro fd d hd
    obtain ⟨hlive, hfd, hd0⟩ := h.owned fd d hd
    exact ⟨hstays hlive fun hdc => h1 (hdc ▸ hd0), hfd, hd0⟩
  case opened => exact fun d hd => h.opened d (List.mem_of_mem_erase hd)

/-- A server closes what it accepted for nobody. -/
theorem sound_refuse (h : Sound b) (hfd : b.owner fd = none) :
    Sound ({b with accepts := b.accepts + 1}.close b.accepts fd) := by
  have hclosings (n : Nat) : ({b with accepts := b.accepts + 1}.close b.accepts fd).closings n =
      b.closings n + if b.accepts = n then 1 else 0 := closings_close ..
  have hold {d : ICollector} (hd : d ∈ b.live) :
      ({b with accepts := b.accepts + 1}.close b.accepts fd).closings d.number = b.closings d.number := by
    have := h.below d hd
    rw [hclosings, if_neg (by omega), Nat.add_zero]
  constructor
  case toProper =>
    constructor
    case once =>
      intro n
      rw [hclosings]
      split
      · rename_i hn
        rw [← hn, h.unused]
      · exact h.once n
    case done =>
      intro n hn hlive
      rw [hclosings]
      split
      · rename_i hn
        rw [← hn, h.unused]
      · refine h.done n (Nat.lt_of_le_of_ne (Nat.le_of_lt_succ hn) ?_) hlive
        rintro rfl
        contradiction
    case own =>
      intro x hx d hd
      rcases List.mem_append.mp hx with hx | hx
      · exact h.own x hx d hd
      · obtain rfl := List.mem_singleton.mp hx
        simp [hfd] at hd
  case numbers => exact h.numbers
  case below => exact fun d hd => Nat.lt_succ_of_lt (h.below d hd)
  case known =>
    intro x hx
    rcases List.mem_append.mp hx with hx | hx
    · exact Nat.lt_succ_of_lt (h.known x hx)
    · obtain rfl := List.mem_singleton.mp hx
      exact Nat.lt_succ_self _
  case sources => exact h.sources
  case registered =>
    intro d hd
    obtain ⟨hlive, hd0⟩ := h.registered d hd
    exact ⟨hlive, (hold hlive).trans hd0⟩
  case owned =>
    intro fd' d hd
    by_cases hne : fd' = fd
    · simp [close, hne] at hd
    · obtain ⟨hlive, rfl, hd0⟩ := h.owned fd' d ((Function.update_of_ne hne ..).symm.trans hd)
      exact ⟨hlive, rfl, (hold hlive).trans hd0⟩
  case opened =>
    intro d hd hd0
    have hopen := h.opened d hd ((hold hd).symm.trans hd0)
    have hne : d.fd ≠ fd := by
      rintro rfl
      rw [hfd] at hopen
      cases hopen
    exact (Function.update_of_ne hne ..).trans hopen

/-- A server makes a collector. -/
theorem sound_accept (h : Sound b) (hfd : b.owner c.fd = none) (hn : c.number = b.accepts) :
    Sound {b with
      accepts := b.accepts + 1
      live := b.live ++ [c]
      owner := Function.update b.owner c.fd (some c)
      loop := b.loop ++ [c]} := by
  have hnew : c ∉ b.live := fun hc => by
    have := h.below c hc
    omega
  have h0 : b.closings c.number = 0 := hn ▸ h.unused
  constructor
  case toProper =>
    constructor
    case once => exact h.once
    case done =>
      intro n hlt hlive
      have hne : c.number ≠ n := hlive c (List.mem_append_right _ (List.mem_singleton_self c))
      have hold : n < b.accepts := Nat.lt_of_le_of_ne (Nat.le_of_lt_succ hlt) fun he => hne (hn.trans he.symm)
      exact h.done n hold fun d hd => hlive d (List.mem_append_left _ hd)
    case own => exact h.own
  case numbers =>
    rw [List.map_append, List.nodup_append]
    refine ⟨h.numbers, List.nodup_singleton _, ?_⟩
    intro n hm n' hm' he
    obtain ⟨d, hd, rfl⟩ := List.mem_map.mp hm
    obtain rfl := List.mem_singleton.mp hm'
    have := h.below d hd
    omega
  case below =>
    intro d hd
    rcases List.mem_append.mp hd with hd | hd
    · exact Nat.lt_succ_of_lt (h.below d hd)
    · obtain rfl := List.mem_singleton.mp hd
      exact Nat.lt_succ_of_le (Nat.le_of_eq hn)
  case known => exact fun x hx => Nat.lt_succ_of_lt (h.known x hx)
  case sources =>
    refine List.nodup_append.mpr ⟨h.sources, List.nodup_singleton _, ?_⟩
    rintro d hd d' hd' rfl
    obtain rfl := List.mem_singleton.mp hd'
    exact hnew (h.registered _ hd).1
  case registered =>
    intro d hd
    rcases List.mem_append.mp hd with hd | hd
    · exact ⟨List.mem_append_left _ (h.registered d hd).1, (h.registered d hd).2⟩
    · obtain rfl := List.mem_singleton.mp hd
      exact ⟨List.mem_append_right _ (List.mem_singleton_self _), h0⟩
  case owned =>
    intro fd d hd
    by_cases hne : fd = c.fd
    · subst hne
      obtain rfl : c = d := by simpa using hd
      exact ⟨List.mem_append_right _ (List.mem_singleton_self _), rfl, h0⟩
    · obtain ⟨hlive, hfd', hd0⟩ := h.owned fd d ((Function.update_of_ne hne ..).symm.trans hd)
      exact ⟨List.mem_append_left _ hlive, hfd', hd0⟩
  case opened =>
    intro d hd hd0
    rcases List.mem_append.mp hd with hd | hd
    · have hopen := h.opened d hd hd0
      have hne : d.fd ≠ c.fd := by
        intro he
        rw [he, hfd] at hopen
        cases hopen
      exact (Function.update_of_ne hne ..).trans hopen
    · obtain rfl := List.mem_singleton.mp hd
      exact Function.update_self ..

/-- Leaving the loop closes nothing. -/
theorem sound_keep {loop : List ICollector} (h : Sound b) (hsub : loop.Sublist b.loop) :
    Sound {b with loop := loop} where
  once := h.once
  done := h.done
  own := h.own
  numbers := h.numbers
  below := h.below
  known := h.known
  sources := h.sources.sublist hsub
  registered := fun d hd => h.registered d (hsub.subset hd)
  owned := h.owned
  opened := h.opened

/-- A collector that is destroyed has closed its descriptor just if the number is 0. -/
def Clean (b : Ledger) : Label → Prop
  | .destroy c => c.fd = 0 ↔ ∃ x ∈ b.closes, x.number = c.number
  | _ => True

theorem sound_moves (h : Sound b) (hm : Moves b l b') (hc : Clean b l) : Sound b' := by
  cases hm with
  | keep _ hsub => exact sound_keep h hsub
  | refuse hfd => exact sound_refuse h hfd
  | accept hfd => exact sound_accept h hfd rfl
  | foreign hl =>
    obtain ⟨hlive, h0⟩ := h.registered _ hl
    exact sound_close h hlive h0
  | @destroy c hlive hl =>
    split
    · rename_i hfd
      have h0 : b.closings c.number = 0 := (closings_eq_zero b).mpr fun hx => absurd (hc.mpr hx) (by omega)
      have hclosed := sound_close h hlive h0
      rw [List.erase_of_not_mem hl] at hclosed
      exact sound_discard hclosed hl (by simp [closings, close])
    · rename_i hfd
      have hx := hc.mp (by omega)
      exact sound_discard h hl fun h0 => (closings_eq_zero b).mp h0 hx

/-- A step that is not clean is not proper. -/
theorem clean_of_proper (h : Sound b) (hm : Moves b l b') (hp : Proper b') : Clean b l := by
  cases hm with
  | @destroy c hlive hl =>
    have hgone : ∀ d ∈ b.live.erase c, d.number ≠ c.number := by
      intro d hd hn
      obtain ⟨hne, hd⟩ := (List.Nodup.of_map _ h.numbers).mem_erase_iff.mp hd
      exact hne (h.eq_of_number hd hlive hn)
    split at hp <;> rename_i hfd
    · have hone : (b.close c.number c.fd).closings c.number = 1 := hp.done c.number (h.below c hlive) hgone
      have h0 : b.closings c.number = 0 := by simpa using hone
      exact iff_of_false (by omega) ((closings_eq_zero b).mp h0)
    · have hone : b.closings c.number = 1 := hp.done c.number (h.below c hlive) hgone
      refine iff_of_true (by omega) (Classical.not_not.mp fun hx => ?_)
      rw [(closings_eq_zero b).mpr hx] at hone
      cases hone
  | @keep l =>
    cases l with
    | destroy c => exact absurd rfl (‹∀ c', Label.destroy c ≠ .destroy c'› c)
    | _ => trivial
  | _ => trivial

end Ledger

/-! ### What the steps do -/

/-- A callback that closes the descriptor does not stay. -/
theorem callback_closed (type : CollectorType) (app : App) (received : List Received) (c : Collector) :
    (callback type app c received).closed = true → (callback type app c received).stays = false := by
  induction received generalizing c with
  | nil => simp [callback]
  | cons first rest ih =>
    match first with
    | .error | .endOfFile => simp [callback]
    | .envelope false _ => simp [callback]
    | .envelope true rq =>
      rw [callback]
      rcases dispatch type app rq c with ⟨c', reaction, status⟩
      cases status with
      | true => exact ih c'
      | false => simp

omit [DeferredList L] in
theorem ledger_remEventSource (c : ICollector) (s : Service L) :
    (s.remEventSource c).ledger = {s.ledger with loop := s.loop.erase c} := by
  unfold remEventSource
  split
  · rw [finalize_eq]
    rfl
  · rename_i hc
    rw [List.erase_of_not_mem hc]
    rfl

omit [DeferredList L] in
theorem readable_moves {received : List Received} {now : UInt64} (hc : c ∈ s.loop) :
    s.ledger.Moves (.readable c received now) (s.readable cfg c received now).ledger := by
  have hcallback := callback_closed c.type cfg.app received (s.record c)
  unfold readable
  extract_lets out s₁ s₂
  cases hclosed : out.closed with
  | true =>
    have hs : s₂ = s₁.close c.number c.fd := if_pos hclosed
    rw [hcallback hclosed, if_neg Bool.false_ne_true, hs, ledger_remEventSource]
    exact .foreign hc
  | false =>
    have hs : s₂ = s₁ := if_neg (by simp [hclosed])
    rw [hs]
    split
    · exact .keep (fun _ hl => by cases hl) (List.Sublist.refl _)
    · rw [ledger_remEventSource]
      exact .keep (fun _ hl => by cases hl) List.erase_sublist

/-- The state manager closes nothing, and takes at most one collector off the loop. -/
theorem handler_ledger (cfg : ServiceConfig) (rq : StateManager.Request) (s : Service L) :
    ∃ loop : List ICollector, loop.Sublist s.loop ∧
      (requestHandler cfg rq s).ledger = {s.ledger with loop := loop} := by
  have hsame : ∃ loop : List ICollector, loop.Sublist s.loop ∧ s.ledger = {s.ledger with loop := loop} :=
    ⟨s.loop, List.Sublist.refl _, rfl⟩
  unfold requestHandler
  split
  · rw [doMonitorCollector, pushWakeLock_eq]
    exact hsame
  · rename_i c _ _
    rw [doRemoveCollector, pushWakeLock_eq]
    split
    · exact ⟨s.loop.erase c, List.erase_sublist, ledger_remEventSource c s⟩
    · exact hsame
  · unfold doUpdateWakeLock
    split <;> exact hsame
  all_goals exact hsame

theorem step_moves (h : step cfg s l = some t) : s.ledger.Moves l t.ledger := by
  cases stepped h with
  | @accept type fd descriptor now hfd =>
    cases descriptor with
    | none => exact .refuse hfd
    | some id =>
      simp only [accept, construct_eq]
      split <;> exact .accept hfd
  | readable hc => exact readable_moves hc
  | collectorsTimer =>
    rw [collectorsTimer_eq]
    exact .keep (fun _ hl => by cases hl) (List.Sublist.refl _)
  | updateProcessList => exact .keep (fun _ hl => by cases hl) (List.Sublist.refl _)
  | @handle rq rest =>
    obtain ⟨loop, hsub, hl⟩ := handler_ledger cfg rq {s with queue := rest}
    rw [hl]
    exact .keep (fun _ hl => by cases hl) hsub
  | served => exact .keep (fun _ hl => by cases hl) (List.Sublist.refl _)
  | @destroy c hc hd =>
    have hm := Ledger.Moves.destroy (b := s.ledger) hc hd.loop
    unfold disconnect
    split at hm <;> rename_i hfd
    · rw [if_pos hfd]
      exact hm
    · rw [if_neg hfd]
      exact hm

/-! ### Runs -/

/-- A collector is destroyed with its descriptor closed by its callback if the number is 0, and
still open if not. -/
def Clean (s : Service L) (l : Label) : Prop := s.ledger.Clean l

theorem sound_start : (start cfg held : Service L).ledger.Sound := by
  constructor
  case toProper => constructor <;> simp [ledger, start, Ledger.closings]
  all_goals simp [ledger, start]

/-- **Every descriptor is closed once and by its own collector** in a run whose steps are clean,
and the first step that is not breaks it. -/
theorem descriptors_closed_once (h : Steps (step cfg) Clean (start cfg held : Service L) s) :
    s.ledger.Proper ∧ ∀ l t, step cfg s l = some t → (t.ledger.Proper ↔ Clean s l) := by
  have hs : s.ledger.Sound :=
    h.invariant (fun _ _ _ hs hc ht => Ledger.sound_moves hs (step_moves ht) hc) sound_start
  refine ⟨hs.toProper, fun l t ht => ⟨Ledger.clean_of_proper hs (step_moves ht), fun hc => ?_⟩⟩
  exact (Ledger.sound_moves hs (step_moves ht) hc).toProper

/-- An envelope of another origin, the number accepted anew before the first collector is destroyed. -/
def foreignOrigin : List Label :=
  [.accept .TCP 5 (some []) 0, .readable ⟨0, .TCP, 5⟩ [.envelope false (request .keepAlive)] 1,
    .accept .UDS 5 (some []) 2, .handle, .handle, .handle, .handle, .handle, .destroy ⟨0, .TCP, 5⟩]

/-- **A destructor closes the descriptor of another connection.** -/
theorem foreign_origin_closes_other :
    ∃ s, Reaches (step fullService) (start fullService false : Service Recorded) s ∧ ¬s.ledger.Proper ∧
      ∃ x ∈ s.closes, ∃ d ∈ s.live, x.owner = some d ∧ d.number ≠ x.number := by
  have hend : (run (step fullService) (start fullService false : Service Recorded) foreignOrigin).map
      (fun s => (s.closes, s.live)) =
      some ([⟨0, 5, some ⟨0, .TCP, 5⟩⟩, ⟨0, 5, some ⟨1, .UDS, 5⟩⟩], [⟨1, .UDS, 5⟩]) := by rfl
  obtain ⟨s, hs, hst⟩ := Option.map_eq_some_iff.mp hend
  obtain ⟨hcloses, hlive⟩ := Prod.mk.inj hst
  have hx : ⟨0, 5, some ⟨1, .UDS, 5⟩⟩ ∈ s.closes := by simp [hcloses]
  refine ⟨s, .of_run (meets_true _ _ foreignOrigin) hs, fun h => ?_, _, hx, ⟨1, .UDS, 5⟩, by simp [hlive], rfl, ?_⟩
  · exact absurd (h.own _ hx _ rfl) Nat.one_ne_zero
  · exact Nat.one_ne_zero

/-- A client that disconnects. -/
def hangUp : List Label :=
  [.accept .TCP 5 (some []) 0, .readable ⟨0, .TCP, 5⟩ [.endOfFile] 1, .handle, .handle, .handle, .handle]

/-- Its collector is destroyed with the descriptor open. -/
theorem descriptors_closed_once_hang_up :
    ∃ s t, run (step fullService) (start fullService false : Service Recorded) hangUp = some s ∧
      step fullService s (.destroy ⟨0, .TCP, 5⟩) = some t ∧
      t.ledger.Proper ∧ t.closes = [⟨0, 5, some ⟨0, .TCP, 5⟩⟩] := by
  have hend : ((run (step fullService) (start fullService false : Service Recorded) hangUp).bind fun s =>
      (step fullService s (.destroy ⟨0, .TCP, 5⟩)).map fun t => (s.closes, t.closes)) =
      some ([], [⟨0, 5, some ⟨0, .TCP, 5⟩⟩]) := by rfl
  obtain ⟨s, hs, hend⟩ := Option.bind_eq_some_iff.mp hend
  obtain ⟨t, ht, hend⟩ := Option.map_eq_some_iff.mp hend
  obtain ⟨hopen, hclosed⟩ := Prod.mk.inj hend
  have hmeets : Meets (step fullService) Clean (start fullService false : Service Recorded) hangUp :=
    ⟨trivial, fun _ _ => ⟨trivial, fun _ _ => ⟨trivial, fun _ _ => ⟨trivial, fun _ _ =>
      ⟨trivial, fun _ _ => ⟨trivial, fun _ _ => trivial⟩⟩⟩⟩⟩⟩
  have hclean : Clean s (.destroy ⟨0, .TCP, 5⟩) := by
    refine iff_of_false (by decide) ?_
    simp [ledger, hopen]
  exact ⟨s, t, hs, ht, (descriptors_closed_once (.tail (.of_run hmeets hs) hclean ht)).1, hclosed⟩

end TaskMonitor.Service

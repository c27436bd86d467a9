import TaskMonitor.Lib.Transition
import TaskMonitor.Stat.Parsing

/-! Sources with a queue of their own (`SysProcStat.cpp` and the other `SysProc` files).

`update` queues a request unless one is pending, and its handler clears the mark
after the update. An update that throws leaves the mark set with nothing queued,
and then every later `update` returns at once: the source keeps sending what it
had (`notWedged_run_iff`). A fatal fault ends the run. -/
namespace TaskMonitor
open Lines Transition

inductive Request (C : Type) where
  | updateStats
  | collectAndSend (collector : C)
deriving Repr, DecidableEq

def Request.isUpdateStats {C : Type} : Request C → Bool
  | .updateStats => true
  | .collectAndSend _ => false

/-- What a source does for its requests: `E` is what it reads, `D` its data, `M` what it sends. -/
structure SourceKind (E D M : Type) where
  doUpdateStats : E → EStateM Fault D Bool
  collect : D → M

/-- The data after an update that succeeds. -/
def SourceKind.updated {E D M : Type} (k : SourceKind E D M) (d : D) (env : E) : Option D :=
  match k.doUpdateStats env d with
  | .ok true d' => some d'
  | _ => none

theorem SourceKind.updated_iff {E D M : Type} {k : SourceKind E D M} {d d' : D} {env : E} :
    k.updated d env = some d' ↔ k.doUpdateStats env d = .ok true d' := by
  unfold updated
  split
  · rename_i e he
    rw [he]
    simp
  · rename_i hne
    exact iff_of_false (by simp) fun h => hne d' h

structure Source (D C M : Type) where
  data : D
  updatePending : Bool := false
  queue : List (Request C) := []
  /-- What was sent, and to whom. -/
  sent : List (C × M) := []
deriving Repr, DecidableEq

namespace Source

variable {E D C M : Type}

/-- `pushed` is whether the push is successful, and its value. -/
def pushRequest (request : Request C) (pushed : Bool) (s : Source D C M) : Source D C M × Bool :=
  (if pushed then {s with queue := s.queue ++ [request]} else s, pushed)

def update (pushed : Bool) (s : Source D C M) : Source D C M × Bool :=
  if s.updatePending then (s, true)
  else
    let (s, status) := s.pushRequest .updateStats pushed
    if status then ({s with updatePending := true}, status) else (s, status)

/-- An update of the data. -/
def onData (m : EStateM Fault D Bool) : EStateM Fault (Source D C M) Bool := fun s =>
  match m s.data with
  | .ok status d => .ok status {s with data := d}
  | .error e d => .error e {s with data := d}

def requestHandler (k : SourceKind E D M) (env : E) : Request C → EStateM Fault (Source D C M) Bool
  | .updateStats => do
    let status ← onData (k.doUpdateStats env)
    modify fun s => {s with updatePending := false}
    pure status
  | .collectAndSend collector => do
    modify fun s => {s with sent := s.sent ++ [(collector, k.collect s.data)]}
    pure true

inductive Label (E C : Type) where
  | update (pushed : Bool)
  | collect (collector : C) (pushed : Bool)
  /-- The first request of the queue is handled. -/
  | dispatch (env : E)
deriving Repr, DecidableEq

/-- The state after a handler, whether it returned or threw; after a fatal fault there is none. -/
def after {α : Type} : EStateM.Result Fault (Source D C M) α → Option (Source D C M)
  | .ok _ s => some s
  | .error e s => if e.fatal then none else some s

def step (k : SourceKind E D M) (s : Source D C M) : Label E C → Option (Source D C M)
  | .update pushed => some (s.update pushed).1
  | .collect collector pushed => some (s.pushRequest (.collectAndSend collector) pushed).1
  | .dispatch env =>
    match s.queue with
    | [] => none
    -- taken off the queue before it is handled
    | request :: rest => after (requestHandler k env request {s with queue := rest})

theorem ends_requestHandler_iff {k : SourceKind E D M} {env : E} {s : Source D C M} :
    Ends (requestHandler k env (.updateStats : Request C)) s ↔ Ends (k.doUpdateStats env) s.data := by
  unfold requestHandler
  rw [ends_bind]
  constructor
  · rintro ⟨status, t, hdata, _⟩
    unfold onData at hdata
    cases hu : k.doUpdateStats env s.data with
    | error e d => simp [hu] at hdata
    | ok status' d => exact ⟨status', d, hu⟩
  · rintro ⟨status, d, hu⟩
    refine ⟨status, {s with data := d}, by simp [onData, hu], ?_⟩
    exact ends_bind.mpr ⟨(), _, rfl, ends_pure _ _⟩

/-- An update that returns keeps its data, and its handler clears the mark. -/
theorem requestHandler_returned {k : SourceKind E D M} {env : E} {s : Source D C M} {status : Bool} {d : D}
    (h : k.doUpdateStats env s.data = .ok status d) :
    requestHandler k env .updateStats s = .ok status {s with data := d, updatePending := false} := by
  simp only [requestHandler, bind, EStateM.bind, onData, h]
  rfl

/-- An update that throws leaves the handler before the mark is cleared. -/
theorem requestHandler_thrown {k : SourceKind E D M} {env : E} {s : Source D C M} {e : Fault} {d : D}
    (h : k.doUpdateStats env s.data = .error e d) :
    requestHandler k env .updateStats s = .error e {s with data := d} := by
  simp [requestHandler, onData, h, bind, EStateM.bind]

/-- A handled update clears the mark. -/
theorem requestHandler_updated {k : SourceKind E D M} {env : E} {s t : Source D C M} {status : Bool}
    (h : requestHandler k env .updateStats s = .ok status t) : t.updatePending = false ∧ t.queue = s.queue := by
  cases hu : k.doUpdateStats env s.data with
  | error e d =>
    rw [requestHandler_thrown hu] at h
    cases h
  | ok status' d =>
    rw [requestHandler_returned hu] at h
    cases h
    exact ⟨rfl, rfl⟩

/-- The update that is next, where one is, does not end the process. -/
def Survives (k : SourceKind E D M) (env : E) (s : Source D C M) : Prop :=
  s.queue.head? = some .updateStats → ∀ e d, k.doUpdateStats env s.data = .error e d → e.fatal = false

/-- What waits can be handled, unless it is an update that ends the process. -/
theorem dispatch_isSome_iff {k : SourceKind E D M} {env : E} {s : Source D C M} (hq : s.queue ≠ []) :
    (step k s (.dispatch env)).isSome = true ↔ Survives k env s := by
  obtain ⟨request, rest, hrest⟩ := List.exists_cons_of_ne_nil hq
  simp only [step, hrest, Survives, List.head?_cons, Option.some.injEq]
  cases request with
  | collectAndSend collector => exact iff_of_true rfl fun h => by cases h
  | updateStats =>
    cases hu : k.doUpdateStats env s.data with
    | ok status d =>
      rw [requestHandler_returned (s := {s with queue := rest}) hu]
      exact iff_of_true rfl fun _ e d h => by cases h
    | error e d =>
      rw [requestHandler_thrown (s := {s with queue := rest}) hu, after]
      cases hf : e.fatal with
      | true => exact iff_of_false (by simp) fun h => absurd (h rfl e d rfl) (by simp [hf])
      | false =>
        refine iff_of_true rfl fun _ e' d' h => ?_
        obtain ⟨rfl, rfl⟩ := EStateM.Result.error.inj h
        exact hf

/-! ### The mark -/

/-- How many updates are queued. -/
def queued (s : Source D C M) : Nat := s.queue.countP Request.isUpdateStats

/-- The mark is set exactly while one update is queued; without one the next `update` queues one. -/
structure NotWedged (s : Source D C M) : Prop where
  pending : s.updatePending = true ↔ s.queued = 1
  renewed : s.queued = 0 → (s.update true).1.queue = s.queue ++ [.updateStats]

/-- The mark is set, and no update is queued. -/
def Wedged (s : Source D C M) : Prop := s.updatePending = true ∧ s.queued = 0

/-- The mark says how many updates are queued. -/
def Tracked (s : Source D C M) : Prop := s.queued = if s.updatePending then 1 else 0

theorem Tracked.notWedged {s : Source D C M} (h : s.Tracked) : s.NotWedged := by
  unfold Tracked at h
  cases hp : s.updatePending with
  | true =>
    rw [hp, if_pos rfl] at h
    exact ⟨iff_of_true hp h, fun h0 => absurd h0 (by omega)⟩
  | false =>
    rw [hp] at h
    have h0 : s.queued = 0 := h
    exact ⟨iff_of_false (by simp [hp]) (by omega), fun _ => by simp [update, pushRequest, hp]⟩

theorem Wedged.not_notWedged {s : Source D C M} (h : s.Wedged) : ¬s.NotWedged := by
  intro hn
  have h1 := hn.pending.mp h.1
  have h0 := h.2
  omega

/-- An update that is dispatched does not throw. -/
def Returns (k : SourceKind E D M) (s : Source D C M) : Label E C → Prop
  | .dispatch env => s.queue.head? = some .updateStats → Ends (k.doUpdateStats env) s.data
  | _ => True

section
variable {k : SourceKind E D M} {s t : Source D C M} {l : Label E C}

/-- A step without a throw leaves mark and queue alone, sets the mark with an update queued, or
clears it with one taken off. -/
theorem step_returns (hr : Returns k s l) (h : step k s l = some t) :
    (t.updatePending = s.updatePending ∧ t.queued = s.queued) ∨
      (s.updatePending = false ∧ t.updatePending = true ∧ t.queued = s.queued + 1) ∨
      (t.updatePending = false ∧ s.queued = t.queued + 1) := by
  cases l with
  | update pushed =>
    obtain rfl := Option.some.inj h
    cases hp : s.updatePending with
    | true => exact .inl (by simp [update, hp])
    | false =>
      cases pushed with
      | true =>
        refine .inr (.inl ⟨rfl, by simp [update, pushRequest, hp], ?_⟩)
        simp [update, pushRequest, hp, queued, Request.isUpdateStats]
      | false => exact .inl (by simp [update, pushRequest, hp])
  | collect collector pushed =>
    obtain rfl := Option.some.inj h
    cases pushed with
    | true => exact .inl ⟨rfl, by simp [pushRequest, queued, Request.isUpdateStats]⟩
    | false => exact .inl ⟨rfl, rfl⟩
  | dispatch env =>
    cases hq : s.queue with
    | nil => simp [step, hq] at h
    | cons request rest =>
      simp only [step, hq] at h
      cases request with
      | collectAndSend collector =>
        obtain rfl := Option.some.inj h
        refine .inl ⟨rfl, ?_⟩
        simp only [queued, hq, List.countP_cons, Request.isUpdateStats]
        rfl
      | updateStats =>
        obtain ⟨status, u, hends⟩ : Ends (requestHandler k env .updateStats) {s with queue := rest} :=
          ends_requestHandler_iff.mpr (hr (by rw [hq]; rfl))
        obtain ⟨hpending, hqueue⟩ := requestHandler_updated hends
        rw [hends] at h
        obtain rfl := Option.some.inj h
        refine .inr (.inr ⟨hpending, ?_⟩)
        simp only [queued, hq, hqueue]
        exact List.countP_cons_of_pos rfl

/-- An update that throws is taken off the queue, and leaves the mark alone. -/
theorem step_throws (hr : ¬Returns k s l) (h : step k s l = some t) :
    t.updatePending = s.updatePending ∧ s.queued = t.queued + 1 := by
  cases l with
  | update pushed => exact absurd trivial hr
  | collect collector pushed => exact absurd trivial hr
  | dispatch env =>
    obtain ⟨hhead, hthrows⟩ := Classical.not_imp.mp hr
    obtain ⟨rest, hq⟩ := List.head?_eq_some_iff.mp hhead
    simp only [step, hq] at h
    cases hu : k.doUpdateStats env s.data with
    | ok status d => exact absurd ⟨status, d, hu⟩ hthrows
    | error e d =>
      rw [requestHandler_thrown (s := {s with queue := rest}) hu] at h
      obtain ⟨_, h⟩ := Option.ite_none_left_eq_some.mp h
      obtain rfl := Option.some.inj h
      refine ⟨rfl, ?_⟩
      simp only [queued, hq]
      exact List.countP_cons_of_pos rfl

theorem tracked_step (hs : s.Tracked) (hr : Returns k s l) (h : step k s l = some t) : t.Tracked := by
  unfold Tracked at hs ⊢
  rcases step_returns hr h with ⟨hp, hq⟩ | ⟨hps, hpt, hq⟩ | ⟨hpt, hq⟩
  · rw [hp, hq, hs]
  · rw [hps] at hs
    rw [hpt, hq, hs]
    rfl
  · rw [hpt]
    -- an update was queued, so it was the only one
    split at hs
    · simp only [Bool.false_eq_true, if_false]
      omega
    · omega

theorem wedged_of_throw (hs : s.Tracked) (hr : ¬Returns k s l) (h : step k s l = some t) : t.Wedged := by
  unfold Tracked at hs
  obtain ⟨hp, hq⟩ := step_throws hr h
  split at hs
  · rename_i hps
    exact ⟨hp.trans hps, by omega⟩
  · omega

/-- A wedged source stays wedged. -/
theorem wedged_step (hs : s.Wedged) (h : step k s l = some t) : t.Wedged := by
  obtain ⟨hp, h0⟩ := hs
  by_cases hr : Returns k s l
  · rcases step_returns hr h with ⟨hp', hq⟩ | ⟨hps, _⟩ | ⟨_, hq⟩
    · exact ⟨hp'.trans hp, hq.trans h0⟩
    · exact absurd (hp.symm.trans hps) (by decide)
    · omega
  · obtain ⟨_, hq⟩ := step_throws hr h
    omega

theorem wedged_run (hs : s.Wedged) {labels : List (Label E C)} (h : run (step k) s labels = some t) : t.Wedged :=
  (Steps.of_run (meets_true (step k) s labels) h).invariant (fun _ _ _ hi _ hl => wedged_step hi hl) hs

/-- From a tracked state, a source is not wedged exactly as long as no update threw. -/
theorem notWedged_run_iff (hs : s.Tracked) {labels : List (Label E C)} (h : run (step k) s labels = some t) :
    t.NotWedged ↔ Meets (step k) (Returns k) s labels := by
  induction labels generalizing s with
  | nil =>
    obtain rfl := Option.some.inj h
    exact iff_of_true hs.notWedged trivial
  | cons l rest ih =>
    obtain ⟨m, hl, hrest⟩ := Option.bind_eq_some_iff.mp h
    by_cases hr : Returns k s l
    · rw [ih (tracked_step hs hr hl) hrest]
      refine ⟨fun hm => ⟨hr, fun m' hm' => ?_⟩, fun hm => hm.2 m hl⟩
      obtain rfl := Option.some.inj (hl.symm.trans hm')
      exact hm
    · refine iff_of_false ?_ fun hm => hr hm.1
      exact (wedged_run (wedged_of_throw hs hr hl) hrest).not_notWedged

end

/-! ### What a source has read -/

/-- An update that is dispatched is successful. -/
def Succeeds (k : SourceKind E D M) (s : Source D C M) : Label E C → Prop
  | .dispatch env => s.queue.head? = some .updateStats → Yields (k.doUpdateStats env) s.data true
  | _ => True

instance [DecidableEq C] (k : SourceKind E D M) (s : Source D C M) : (l : Label E C) → Decidable (Succeeds k s l)
  | .dispatch _ => inferInstanceAs (Decidable (_ → _))
  | .update _ => .isTrue trivial
  | .collect _ _ => .isTrue trivial

/-- What the run updates from, in order. -/
def contents (k : SourceKind E D M) (s : Source D C M) : List (Label E C) → List E
  | [] => []
  | l :: rest =>
    let after := match step k s l with
      | some t => contents k t rest
      | none => []
    match l, s.queue with
    | .dispatch env, .updateStats :: _ => env :: after
    | _, _ => after

theorem data_update (pushed : Bool) (s : Source D C M) : (s.update pushed).1.data = s.data := by
  unfold update pushRequest
  cases s.updatePending <;> cases pushed <;> rfl

/-- A step updates the data from what it reads, or reads nothing and leaves the data alone. -/
theorem step_data {k : SourceKind E D M} {s t : Source D C M} {l : Label E C} (hc : Succeeds k s l)
    (h : step k s l = some t) (rest : List (Label E C)) :
    (∃ env, k.doUpdateStats env s.data = .ok true t.data ∧ contents k s (l :: rest) = env :: contents k t rest) ∨
      (t.data = s.data ∧ contents k s (l :: rest) = contents k t rest) := by
  cases l with
  | update pushed =>
    obtain rfl := Option.some.inj h
    exact .inr ⟨data_update pushed s, rfl⟩
  | collect collector pushed =>
    obtain rfl := Option.some.inj h
    refine .inr ⟨?_, rfl⟩
    cases pushed <;> rfl
  | dispatch env =>
    cases hq : s.queue with
    | nil => simp [step, hq] at h
    | cons request queue =>
      have ht := h
      simp only [step, hq] at ht
      cases request with
      | collectAndSend collector =>
        refine .inr ⟨?_, by simp only [contents, h, hq]⟩
        rw [← Option.some.inj ht]
      | updateStats =>
        obtain ⟨d, hd⟩ := hc (by rw [hq]; rfl)
        refine .inl ⟨env, ?_, by simp only [contents, h, hq]⟩
        have hreturned : requestHandler k env .updateStats {s with queue := queue} =
            .ok true {s with data := d, updatePending := false, queue := queue} := requestHandler_returned hd
        rw [hreturned] at ht
        rw [← Option.some.inj ht]
        exact hd

/-- **What holds of the contents read so far** where each successful update keeps it. -/
theorem history_run {k : SourceKind E D M} {P : List E → D → Prop}
    (hupd : ∀ before env d d', P before d → k.doUpdateStats env d = .ok true d' → P (before ++ [env]) d')
    {before : List E} {s t : Source D C M} {labels : List (Label E C)} (hs : P before s.data)
    (hc : Meets (step k) (Succeeds k) s labels) (h : run (step k) s labels = some t) :
    P (before ++ contents k s labels) t.data := by
  induction labels generalizing before s with
  | nil =>
    obtain rfl := Option.some.inj h
    simpa [contents] using hs
  | cons l rest ih =>
    obtain ⟨m, hl, hrest⟩ := Option.bind_eq_some_iff.mp h
    have hm := hc.2 m hl
    rcases step_data hc.1 hl rest with ⟨env, hok, hcontents⟩ | ⟨hdata, hcontents⟩
    · have := ih (hupd before env s.data m.data hs hok) hm hrest
      rw [hcontents]
      simpa using this
    · rw [hcontents]
      exact ih (hdata ▸ hs) hm hrest

theorem history_start {k : SourceKind E D M} {P : List E → D → Prop}
    (hupd : ∀ before env d d', P before d → k.doUpdateStats env d = .ok true d' → P (before ++ [env]) d') {d : D}
    {t : Source D C M} {labels : List (Label E C)} (hs : P [] d)
    (hc : Meets (step k) (Succeeds k) {data := d} labels) (h : run (step k) {data := d} labels = some t) :
    P (contents k {data := d} labels) t.data :=
  history_run hupd hs hc h

end Source
end TaskMonitor

import TaskMonitor.Monitor.Basic

/-! The sources under the timers of the lanes.

Each source moves on its own: it sees the ticks of its lane, the requests that
are for it and the dispatches of its queue, and nothing else (`source_run`). So
what holds of the runs of one source holds of it among the others. -/
namespace TaskMonitor.Monitor
open Lines Transition

variable {F C : Type} [Zero F] {app : App} {calls : SysProc.Calls F} {s t : Monitor F C} {l : Label C}
  {labels : List (Label C)} {m : SysProc}

/-- What a source sees of a label. -/
def own (app : App) (m : SysProc) : Label C → Option (Source.Label m.Reads C)
  | .tick lane pushed =>
    if m.present app && decide (m.updateLane = lane) then some (.update (pushed m)) else none
  | .ask m' collector pushed => if m' = m ∧ m.present app = true then some (.collect collector pushed) else none
  | .dispatch m' reads _ => if h : m' = m then some (.dispatch (h ▸ reads)) else none
  | .askStartup _ _ | .dispatchStartup | .expire => none

theorem source_carries (m : SysProc) :
    Carries (step app calls) (fun s : Monitor F C => s.source m) (Source.step (m.kind calls)) (own app m) := by
  intro s l t h
  cases l with
  | tick lane pushed =>
    obtain rfl := Option.some.inj h
    cases hon : m.present app && decide (m.updateLane = lane) with
    | true => simp only [own, tick, hon, if_true, Source.step]
    | false => simp only [own, tick, hon, Bool.false_eq_true, if_false]
  | ask m' collector pushed =>
    by_cases hp : m'.present app = true
    · simp only [step, hp, if_true, Option.some.injEq] at h
      subst h
      by_cases hm : m' = m
      · subst hm
        simp [own, hp, Source.step]
      · simp [own, hm, Function.update_of_ne (Ne.symm hm)]
    · simp only [step, hp] at h
      obtain rfl := Option.some.inj h
      by_cases hm : m' = m
      · subst hm
        simp [own, hp]
      · simp [own, hm]
  | dispatch m' reads now =>
    obtain ⟨src, hsrc, rfl⟩ := Option.map_eq_some_iff.mp h
    by_cases hm : m' = m
    · subst hm
      simp [own, hsrc]
    · simp [own, hm, Function.update_of_ne (Ne.symm hm)]
  | askStartup collector pushed =>
    obtain rfl := Option.some.inj h
    simp only [own]
    split <;> rfl
  | dispatchStartup =>
    simp only [step] at h
    split at h
    · cases h
    · obtain rfl := Option.some.inj h
      rfl
  | expire =>
    obtain rfl := Option.some.inj h
    rfl

/-- **Every source runs as it does alone.** -/
theorem source_run (h : run (step app calls) s labels = some t) (m : SysProc) :
    run (Source.step (m.kind calls)) (s.source m) (labels.filterMap (own app m)) = some (t.source m) :=
  run_project (source_carries m) h

/-! ### Who is answered -/

/-- The collector whose request to the source is pushed. -/
def askedOf (app : App) (m : SysProc) : Label C → Option C
  | .ask m' collector true => if m' = m ∧ m.present app = true then some collector else none
  | _ => none

theorem own_asked (l : Label C) : (own app m l).bind Source.asked = askedOf app m l := by
  cases l with
  | tick lane pushed =>
    simp only [own, askedOf]
    split <;> rfl
  | ask m' collector pushed =>
    by_cases hm : m' = m ∧ m.present app = true
    · cases pushed <;> simp [own, askedOf, hm, Source.asked]
    · cases pushed <;> simp [own, askedOf, hm]
  | dispatch m' reads now =>
    simp only [own, askedOf]
    split <;> rfl
  | askStartup collector pushed => rfl
  | dispatchStartup => rfl
  | expire => rfl

/-- **Every source answers each request once, in order, to the collector that asked.** -/
theorem answered_in_order {pressureFile : String → Bool} (h : run (step app calls) (start app pressureFile) labels = some t)
    (m : SysProc) :
    labels.filterMap (askedOf app m) =
      (t.source m).sent.map Prod.fst ++ (t.source m).queue.filterMap Request.asker := by
  have hanswers := Source.run_answers (source_run h m)
  have hasked : (fun l => (own app m l).bind Source.asked) = askedOf (C := C) app m := funext own_asked
  rw [List.filterMap_filterMap, hasked] at hanswers
  simpa [start] using hanswers

/-- The clocks stand still. -/
def stopped : Clock := ⟨0, 0⟩

/-- The conversions of a library that reads no number and hashes to zero. -/
def noCalls : SysProc.Calls Nat := ⟨fun _ => none, fun _ => 0⟩

def allPushed : SysProc → Bool := fun _ => true

/-- A collector that asks behind a tick is answered from the file that is then read. -/
def askedBehindTick : List (Label Nat) :=
  [.ask .memInfo 7 true, .dispatch .memInfo (some ["MemTotal: 5 kB".toList]) stopped, .dispatch .memInfo none stopped]

/-- The same from the start. -/
def askedFromStart : List (Label Nat) := .tick .fast allPushed :: askedBehindTick

theorem askedFromStart_isSome :
    (run (step Collector.fullApp noCalls) (start Collector.fullApp fun _ => true) askedFromStart).isSome = true := by
  decide +kernel

theorem answered_in_order_once :
    ∃ t, run (step Collector.fullApp noCalls) (start Collector.fullApp fun _ => true) askedFromStart = some t ∧
      askedFromStart.filterMap (askedOf Collector.fullApp .memInfo) =
        (t.source .memInfo).sent.map Prod.fst ++ (t.source .memInfo).queue.filterMap Request.asker := by
  obtain ⟨t, ht⟩ := Option.isSome_iff_exists.mp askedFromStart_isSome
  exact ⟨t, ht, answered_in_order ht .memInfo⟩

/-! ### When files are read -/

/-- The ticks of the lane of the source. -/
def ticks (app : App) (m : SysProc) : Label C → Bool
  | .tick lane _ => m.present app && decide (m.updateLane = lane)
  | .ask _ _ _ | .dispatch _ _ _ | .askStartup _ _ | .dispatchStartup | .expire => false

/-- What the source updates from, in order. -/
def readsOf (app : App) (calls : SysProc.Calls F) (m : SysProc) (s : Monitor F C) (labels : List (Label C)) :
    List m.Reads :=
  Source.contents (m.kind calls) (s.source m) (labels.filterMap (own app m))

theorem own_isUpdate (l : Label C) : ((own app m l).map Source.Label.isUpdate).getD false = ticks app m l := by
  cases l with
  | tick lane pushed =>
    simp only [own, ticks]
    split
    · rename_i hon
      exact hon.symm
    · rename_i hoff
      exact (Bool.eq_false_iff.mpr hoff).symm
  | ask m' collector pushed =>
    simp only [own, ticks]
    split <;> rfl
  | dispatch m' reads now =>
    simp only [own, ticks]
    split <;> rfl
  | askStartup collector pushed => rfl
  | dispatchStartup => rfl
  | expire => rfl

theorem countP_own (labels : List (Label C)) :
    (labels.filterMap (own app m)).countP Source.Label.isUpdate = labels.countP (ticks app m) := by
  induction labels with
  | nil => rfl
  | cons l rest ih =>
    rw [List.countP_cons, ← own_isUpdate l, ← ih]
    cases ho : own app m l with
    | none => simp [ho]
    | some k => simp [ho, List.countP_cons]

/-- **A file is read at most once a tick of its lane**, whatever collectors ask, and at most one update waits for each
tick that has not led to a read. -/
theorem reads_le_ticks {pressureFile : String → Bool} (h : run (step app calls) (start app pressureFile) labels = some t)
    (m : SysProc) :
    (readsOf app calls m (start app pressureFile) labels).length + (t.source m).queued ≤ labels.countP (ticks app m) := by
  have hreads := Source.run_reads (source_run h m)
  rw [countP_own] at hreads
  simpa [readsOf, start, Source.queued] using hreads

theorem reads_le_ticks_once :
    ∃ t, run (step Collector.fullApp noCalls) (start Collector.fullApp fun _ => true) askedFromStart = some t ∧
      (readsOf Collector.fullApp noCalls .memInfo (start Collector.fullApp fun _ => true) askedFromStart).length +
          (t.source .memInfo).queued ≤ askedFromStart.countP (ticks Collector.fullApp .memInfo) := by
  obtain ⟨t, ht⟩ := Option.isSome_iff_exists.mp askedFromStart_isSome
  exact ⟨t, ht, reads_le_ticks ht .memInfo⟩

/-- **Behind a tick, what is answered has been read since.** Where no update of the source has thrown before a tick of
its lane and those behind it are successful, the answers to all requests made after the tick come from files read after
it. -/
theorem answered_since_tick {u : Monitor F C} {pressureFile : String → Bool} {before after : List (Label C)}
    {pushed : SysProc → Bool} (hb : run (step app calls) (start app pressureFile) before = some s)
    (hr : Meets (Source.step (m.kind calls)) (Source.Returns (m.kind calls)) {data := initialData pressureFile m}
      (before.filterMap (own app m)))
    (ht : step app calls s (.tick m.updateLane pushed) = some u) (hm : m.present app = true) (hp : pushed m = true)
    (hc : Meets (Source.step (m.kind calls)) (Source.Succeeds (m.kind calls)) (u.source m) (after.filterMap (own app m)))
    (h : run (step app calls) u after = some t) :
    ∀ a ∈ (t.source m).sent.drop ((s.source m).sent.length + (s.source m).waiting),
      ∃ d, Source.ReadFrom (m.kind calls) (u.source m).data (readsOf app calls m u after) d ∧
        a.2 = (m.kind calls).collect d := by
  have htracked : (s.source m).Tracked :=
    (Steps.of_run hr (source_run hb m)).invariant (fun _ _ _ hi hret hl => Source.tracked_step hi hret hl)
      (by simp [Source.Tracked, Source.queued])
  have hu : (u.source m) = ((s.source m).update true).1 := by
    obtain rfl := Option.some.inj ht
    simp [tick, hm, hp]
  have hsince := Source.since_update (k := m.kind calls) htracked
  rw [← Source.data_update true] at hsince
  rw [← hu] at hsince
  have hafter := Source.since_run hsince hc (source_run h m)
  rw [List.nil_append] at hafter
  exact hafter.answers

/-- The application at the first tick of the fast lane. -/
def ticked : Monitor Nat Nat := (start Collector.fullApp fun _ => true).tick Collector.fullApp .fast allPushed

theorem answered_since_tick_once :
    ∃ t, run (step Collector.fullApp noCalls) ticked askedBehindTick = some t ∧
      ∀ a ∈ (t.source .memInfo).sent.drop 0, ∃ d,
        Source.ReadFrom (SysProc.kind noCalls .memInfo) (ticked.source .memInfo).data
          (readsOf Collector.fullApp noCalls .memInfo ticked askedBehindTick) d ∧
        a.2 = (SysProc.kind noCalls .memInfo).collect d := by
  obtain ⟨t, ht⟩ := Option.isSome_iff_exists.mp
    (by decide +kernel : (run (step Collector.fullApp noCalls) ticked askedBehindTick).isSome)
  have hstart : run (step Collector.fullApp noCalls) (start Collector.fullApp fun _ => true) ([] : List (Label Nat)) =
      some (start Collector.fullApp fun _ => true) := rfl
  have hreturns : Meets (Source.step (SysProc.kind noCalls .memInfo)) (Source.Returns (SysProc.kind noCalls .memInfo))
      {data := initialData (fun _ => true) .memInfo} (([] : List (Label Nat)).filterMap (own Collector.fullApp .memInfo)) :=
    trivial
  have hsucceeds : Meets (Source.step (SysProc.kind noCalls .memInfo)) (Source.Succeeds (SysProc.kind noCalls .memInfo))
      (ticked.source .memInfo) (askedBehindTick.filterMap (own Collector.fullApp .memInfo)) := by decide +kernel
  exact ⟨t, ht, answered_since_tick hstart hreturns rfl rfl rfl hsucceeds ht⟩

end TaskMonitor.Monitor

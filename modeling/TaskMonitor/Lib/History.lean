import TaskMonitor.Lib.Transition

/-! What a run does, step by step.

`trace` puts together what the steps of a run do, in order. A queue gives back
what is put into it in the order it was put in (`run_fifo`); a log is extended by
the trace (`run_log`); a part of the state that the steps only carry along is the
fold of the trace (`run_replay`); and a part that moves as a system of its own is
a run of that system (`run_project`, `run_simulate`). -/
namespace Transition

variable {σ ℓ A B : Type} {step : σ → ℓ → Option σ} {s t : σ} {l : ℓ} {labels : List ℓ}

/-- What the steps of the run of the labels do, in order. -/
def trace (step : σ → ℓ → Option σ) (did : σ → ℓ → List A) (s : σ) : List ℓ → List A
  | [] => []
  | l :: rest => did s l ++ ((step s l).map fun t => trace step did t rest).getD []

theorem trace_cons (did : σ → ℓ → List A) (h : step s l = some t) (rest : List ℓ) :
    trace step did s (l :: rest) = did s l ++ trace step did t rest := by
  rw [trace, h]
  rfl

/-- What is in a trace was done by a step of the run. -/
theorem mem_trace {did : σ → ℓ → List A} {a : A} (h : a ∈ trace step did s labels) :
    ∃ before l after m, labels = before ++ l :: after ∧ run step s before = some m ∧ a ∈ did m l := by
  induction labels generalizing s with
  | nil => cases h
  | cons l rest ih =>
    rcases List.mem_append.mp h with h | h
    · exact ⟨[], l, rest, s, rfl, rfl, h⟩
    · cases hl : step s l with
      | none => simp [hl] at h
      | some t =>
        simp only [hl, Option.map_some, Option.getD_some] at h
        obtain ⟨before, k, after, m, rfl, hm, ha⟩ := ih h
        exact ⟨l :: before, k, after, m, rfl, by simp [run, hl, hm], ha⟩

/-- What is left of a trace after each of its parts is. -/
theorem trace_filterMap (f : A → Option B) (did : σ → ℓ → List A) (s : σ) (labels : List ℓ) :
    (trace step did s labels).filterMap f = trace step (fun s l => (did s l).filterMap f) s labels := by
  induction labels generalizing s with
  | nil => rfl
  | cons l rest ih =>
    rw [trace, trace, List.filterMap_append]
    cases step s l with
    | none => rfl
    | some t => exact congrArg _ (ih t)

/-- What only depends on the labels is read off them. -/
theorem trace_labels (f : ℓ → List A) (h : run step s labels = some t) :
    trace step (fun _ l => f l) s labels = labels.flatMap f := by
  induction labels generalizing s with
  | nil => rfl
  | cons l rest ih =>
    obtain ⟨m, hl, hrest⟩ := Option.bind_eq_some_iff.mp h
    rw [trace_cons _ hl, ih hrest, List.flatMap_cons]

theorem run_append (h : run step s labels = some t) (more : List ℓ) :
    run step s (labels ++ more) = run step t more := by
  induction labels generalizing s with
  | nil =>
    obtain rfl := Option.some.inj h
    rfl
  | cons l rest ih =>
    obtain ⟨m, hl, hrest⟩ := Option.bind_eq_some_iff.mp h
    rw [List.cons_append, run, hl, Option.bind_some, ih hrest]

theorem run_single (h : run step s [l] = some t) : step s l = some t := by simpa [run] using h

theorem run_single_isSome (h : (step s l).isSome = true) : (run step s [l]).isSome = true := by
  obtain ⟨t, ht⟩ := Option.isSome_iff_exists.mp h
  simp [run, ht]

/-- What holds of the labels in every state. -/
theorem Meets.of_forall {C : σ → ℓ → Prop} (h : ∀ l ∈ labels, ∀ s, C s l) (s : σ) : Meets step C s labels := by
  induction labels generalizing s with
  | nil => trivial
  | cons l rest ih =>
    exact ⟨h l (List.mem_cons_self ..) s, fun t _ => ih (fun l' hl' => h l' (List.mem_cons_of_mem l hl')) t⟩

theorem Meets.append {C : σ → ℓ → Prop} {more : List ℓ} (h : Meets step C s labels) (hr : run step s labels = some t)
    (hmore : Meets step C t more) : Meets step C s (labels ++ more) := by
  induction labels generalizing s with
  | nil =>
    obtain rfl := Option.some.inj hr
    exact hmore
  | cons l rest ih =>
    obtain ⟨m, hl, hrest⟩ := Option.bind_eq_some_iff.mp hr
    refine ⟨h.1, fun m' hl' => ?_⟩
    obtain rfl := Option.some.inj (hl.symm.trans hl')
    exact ih (h.2 m hl) hrest

theorem Meets.of_append {C : σ → ℓ → Prop} {more : List ℓ} (h : Meets step C s (labels ++ more)) :
    Meets step C s labels := by
  induction labels generalizing s with
  | nil => trivial
  | cons l rest ih => exact ⟨h.1, fun t hl => ih (h.2 t hl)⟩

/-- **The law of a queue.** Where every step puts in at the back and takes out at the front, what was queued and what a
run puts in is what it takes out and what is queued; `C` is what the steps of the run meet, and `I` what holds of its
states. -/
theorem run_fifo_meets {C : σ → ℓ → Prop} {I : σ → Prop} {queue : σ → List A} {put taken : σ → ℓ → List A}
    (hkeep : ∀ s l t, I s → C s l → step s l = some t → I t)
    (hstep : ∀ s l t, I s → C s l → step s l = some t → queue s ++ put s l = taken s l ++ queue t) (hs : I s)
    (hm : Meets step C s labels) (h : run step s labels = some t) :
    queue s ++ trace step put s labels = trace step taken s labels ++ queue t := by
  induction labels generalizing s with
  | nil =>
    obtain rfl := Option.some.inj h
    simp [trace]
  | cons l rest ih =>
    obtain ⟨m, hl, hrest⟩ := Option.bind_eq_some_iff.mp h
    calc queue s ++ trace step put s (l :: rest)
        = (queue s ++ put s l) ++ trace step put m rest := by rw [trace_cons put hl, List.append_assoc]
      _ = taken s l ++ (queue m ++ trace step put m rest) := by rw [hstep s l m hs hm.1 hl, List.append_assoc]
      _ = taken s l ++ (trace step taken m rest ++ queue t) := by rw [ih (hkeep s l m hs hm.1 hl) (hm.2 m hl) hrest]
      _ = trace step taken s (l :: rest) ++ queue t := by rw [trace_cons taken hl, List.append_assoc]

theorem run_fifo {I : σ → Prop} {queue : σ → List A} {put taken : σ → ℓ → List A}
    (hkeep : ∀ s l t, I s → step s l = some t → I t)
    (hstep : ∀ s l t, I s → step s l = some t → queue s ++ put s l = taken s l ++ queue t) (hs : I s)
    (h : run step s labels = some t) : queue s ++ trace step put s labels = trace step taken s labels ++ queue t :=
  run_fifo_meets (fun s l t hi _ hl => hkeep s l t hi hl) (fun s l t hi _ hl => hstep s l t hi hl) hs
    (meets_true step s labels) h

/-- What every step does in the same way is done in the same way by a run. -/
theorem trace_congr {C : σ → ℓ → Prop} {I : σ → Prop} {did did' : σ → ℓ → List A}
    (hkeep : ∀ s l t, I s → C s l → step s l = some t → I t)
    (hstep : ∀ s l t, I s → C s l → step s l = some t → did s l = did' s l) (hs : I s) (hm : Meets step C s labels)
    (h : run step s labels = some t) : trace step did s labels = trace step did' s labels := by
  induction labels generalizing s with
  | nil => rfl
  | cons l rest ih =>
    obtain ⟨m, hl, hrest⟩ := Option.bind_eq_some_iff.mp h
    rw [trace_cons did hl, trace_cons did' hl, hstep s l m hs hm.1 hl, ih (hkeep s l m hs hm.1 hl) (hm.2 m hl) hrest]

/-- A log that every step extends. -/
theorem run_log_meets {C : σ → ℓ → Prop} {I : σ → Prop} {log : σ → List A} {did : σ → ℓ → List A}
    (hkeep : ∀ s l t, I s → C s l → step s l = some t → I t)
    (hstep : ∀ s l t, I s → C s l → step s l = some t → log t = log s ++ did s l) (hs : I s)
    (hm : Meets step C s labels) (h : run step s labels = some t) : log t = log s ++ trace step did s labels := by
  have hfifo : log s ++ trace step did s labels = trace step (fun _ _ => []) s labels ++ log t :=
    run_fifo_meets hkeep (fun s l t hi hc hl => (hstep s l t hi hc hl).symm) hs hm h
  have hnone : trace step (fun _ _ => ([] : List A)) s labels = [] := by
    rw [trace_labels (fun _ => []) h]
    simp
  rw [hfifo, hnone, List.nil_append]

theorem run_log {I : σ → Prop} {log : σ → List A} {did : σ → ℓ → List A}
    (hkeep : ∀ s l t, I s → step s l = some t → I t)
    (hstep : ∀ s l t, I s → step s l = some t → log t = log s ++ did s l) (hs : I s)
    (h : run step s labels = some t) : log t = log s ++ trace step did s labels :=
  run_log_meets (fun s l t hi _ hl => hkeep s l t hi hl) (fun s l t hi _ hl => hstep s l t hi hl) hs
    (meets_true step s labels) h

/-- A part of the state that every step carries along by what it does. -/
theorem run_replay {view : σ → B} {g : B → A → B} {did : σ → ℓ → List A}
    (hstep : ∀ s l t, step s l = some t → view t = (did s l).foldl g (view s)) (h : run step s labels = some t) :
    view t = (trace step did s labels).foldl g (view s) := by
  induction labels generalizing s with
  | nil =>
    obtain rfl := Option.some.inj h
    rfl
  | cons l rest ih =>
    obtain ⟨m, hl, hrest⟩ := Option.bind_eq_some_iff.mp h
    rw [trace_cons did hl, List.foldl_append, ← hstep s l m hl]
    exact ih hrest

/-- Every step moves a part of the state as a label of the part's own system does, or leaves it alone. -/
def Carries {τ κ : Type} (step : σ → ℓ → Option σ) (part : σ → τ) (own : τ → κ → Option τ) (f : ℓ → Option κ) : Prop :=
  ∀ s l t, step s l = some t →
    match f l with
    | none => part t = part s
    | some k => own (part s) k = some (part t)

/-- A part of which every step makes a run of the part's own system runs on the labels of them all. -/
theorem run_simulate {τ κ : Type} {part : σ → τ} {own : τ → κ → Option τ} {did : σ → ℓ → List κ}
    (hpart : ∀ s l t, step s l = some t → run own (part s) (did s l) = some (part t)) (h : run step s labels = some t) :
    run own (part s) (trace step did s labels) = some (part t) := by
  induction labels generalizing s with
  | nil =>
    obtain rfl := Option.some.inj h
    rfl
  | cons l rest ih =>
    obtain ⟨m, hl, hrest⟩ := Option.bind_eq_some_iff.mp h
    rw [trace_cons did hl, run_append (hpart s l m hl)]
    exact ih hrest

/-- **A part that moves on its own** runs as it does alone. -/
theorem run_project {τ κ : Type} {part : σ → τ} {own : τ → κ → Option τ} {f : ℓ → Option κ}
    (hpart : Carries step part own f) (h : run step s labels = some t) :
    run own (part s) (labels.filterMap f) = some (part t) := by
  induction labels generalizing s with
  | nil =>
    obtain rfl := Option.some.inj h
    rfl
  | cons l rest ih =>
    obtain ⟨m, hl, hrest⟩ := Option.bind_eq_some_iff.mp h
    have hm := hpart s l m hl
    cases hf : f l with
    | none =>
      rw [hf] at hm
      rw [List.filterMap_cons_none hf, ← hm]
      exact ih hrest
    | some k =>
      rw [hf] at hm
      rw [List.filterMap_cons_some hf, run, hm, Option.bind_some]
      exact ih hrest

/-- A part of which every step makes steps of the part's own system takes steps in every run. -/
theorem Steps.simulate {τ κ : Type} {C : σ → ℓ → Prop} {D : τ → κ → Prop} {own : τ → κ → Option τ} (part : σ → τ)
    (hpart : ∀ s l t, C s l → step s l = some t → Steps own D (part s) (part t)) (h : Steps step C s t) :
    Steps own D (part s) (part t) := by
  induction h with
  | refl => exact .refl
  | tail _ hc hl ih => exact ih.trans (hpart _ _ _ hc hl)

end Transition

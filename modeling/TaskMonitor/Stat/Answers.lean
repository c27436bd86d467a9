import TaskMonitor.Lib.History
import TaskMonitor.Stat.Source

/-! The answers of a source.

Whatever its updates do, a source answers the collectors that asked it one after
the other, each once (`run_answers`). An answer to a request made while an
update is queued is behind that update in the queue, so it is of what has been read
since (`since_run`). -/
namespace TaskMonitor
open Lines Transition

/-- The collector that the request is to answer. -/
def Request.asker {C : Type} : Request C → Option C
  | .updateStats => none
  | .collectAndSend collector => some collector

namespace Source

variable {E D C M : Type} {k : SourceKind E D M} {s t : Source D C M} {l : Label E C}

/-- What a step puts into the queue. -/
def put (s : Source D C M) : Label E C → List (Request C)
  | .update pushed => if !s.updatePending && pushed then [.updateStats] else []
  | .collect collector pushed => if pushed then [.collectAndSend collector] else []
  | .dispatch _ => []

/-- What a step takes from the queue. -/
def taken (s : Source D C M) : Label E C → List (Request C)
  | .dispatch _ => s.queue.take 1
  | .update _ | .collect _ _ => []

def Label.isUpdate : Label E C → Bool
  | .update _ => true
  | .collect _ _ | .dispatch _ => false

/-- The collector whose request is pushed. -/
def asked : Label E C → Option C
  | .collect collector true => some collector
  | _ => none

/-- What a step can do. -/
inductive Stepped (k : SourceKind E D M) (s : Source D C M) : Label E C → Source D C M → Prop where
  | pushed {l : Label E C} {t : Source D C M} (hqueue : t.queue = s.queue ++ s.put l) (htaken : s.taken l = [])
      (hdata : t.data = s.data) (hsent : t.sent = s.sent) : Stepped k s l t
  | answered {env : E} {collector : C} {t : Source D C M} (hqueue : s.queue = .collectAndSend collector :: t.queue)
      (hdata : t.data = s.data) (hsent : t.sent = s.sent ++ [(collector, k.collect s.data)]) :
      Stepped k s (.dispatch env) t
  | updated {env : E} {t : Source D C M} (hqueue : s.queue = .updateStats :: t.queue)
      (hdata : k.updated s.data env = some t.data) (hsent : t.sent = s.sent) : Stepped k s (.dispatch env) t
  | failed {env : E} {t : Source D C M} (hqueue : s.queue = .updateStats :: t.queue)
      (hfails : k.updated s.data env = none) (hsent : t.sent = s.sent) : Stepped k s (.dispatch env) t

theorem stepped (h : step k s l = some t) : Stepped k s l t := by
  cases l with
  | update pushed =>
    obtain rfl := Option.some.inj h
    cases hp : s.updatePending with
    | true => exact .pushed (by simp [update, put, hp]) rfl (by simp [update, hp]) (by simp [update, hp])
    | false =>
      cases pushed with
      | true =>
        exact .pushed (by simp [update, pushRequest, put, hp]) rfl (by simp [update, pushRequest, hp])
          (by simp [update, pushRequest, hp])
      | false =>
        exact .pushed (by simp [update, pushRequest, put, hp]) rfl (by simp [update, pushRequest, hp])
          (by simp [update, pushRequest, hp])
  | collect collector pushed =>
    obtain rfl := Option.some.inj h
    cases pushed with
    | true => exact .pushed rfl rfl rfl rfl
    | false => exact .pushed (by simp [pushRequest, put]) rfl rfl rfl
  | dispatch env =>
    cases hq : s.queue with
    | nil => simp [step, hq] at h
    | cons request rest =>
      simp only [step, hq] at h
      cases request with
      | collectAndSend collector =>
        obtain rfl := Option.some.inj h
        exact .answered hq rfl rfl
      | updateStats =>
        cases hu : k.doUpdateStats env s.data with
        | error e d =>
          rw [requestHandler_thrown (s := {s with queue := rest}) hu] at h
          obtain ⟨_, h⟩ := Option.ite_none_left_eq_some.mp h
          obtain rfl := Option.some.inj h
          exact .failed hq (by simp [SourceKind.updated, hu]) rfl
        | ok status d =>
          rw [requestHandler_returned (s := {s with queue := rest}) hu] at h
          obtain rfl := Option.some.inj h
          cases status with
          | true => exact .updated hq (SourceKind.updated_iff.mpr hu) rfl
          | false => exact .failed hq (by simp [SourceKind.updated, hu]) rfl

/-! ### Who is answered -/

theorem step_fifo (h : step k s l = some t) : s.queue ++ s.put l = s.taken l ++ t.queue := by
  cases stepped h with
  | pushed hqueue htaken _ _ => rw [htaken, hqueue, List.nil_append]
  | answered hqueue _ _ => simp [put, taken, hqueue]
  | updated hqueue _ _ => simp [put, taken, hqueue]
  | failed hqueue _ _ => simp [put, taken, hqueue]

theorem step_sent (h : step k s l = some t) :
    t.sent.map Prod.fst = s.sent.map Prod.fst ++ (s.taken l).filterMap Request.asker := by
  cases stepped h with
  | pushed _ htaken _ hsent => simp [htaken, hsent]
  | answered hqueue _ hsent => simp [taken, hqueue, hsent, Request.asker]
  | updated hqueue _ hsent => simp [taken, hqueue, hsent, Request.asker]
  | failed hqueue _ hsent => simp [taken, hqueue, hsent, Request.asker]

theorem put_asker (s : Source D C M) (l : Label E C) : (s.put l).filterMap Request.asker = (asked l).toList := by
  cases l with
  | update pushed => cases hp : !s.updatePending && pushed <;> simp [put, hp, asked, Request.asker]
  | collect collector pushed => cases pushed <;> rfl
  | dispatch env => rfl

/-- Those asked so far are those answered so far and those waiting in the queue. -/
theorem run_answers {labels : List (Label E C)} (h : run (step k) s labels = some t) :
    s.sent.map Prod.fst ++ s.queue.filterMap Request.asker ++ labels.filterMap asked =
      t.sent.map Prod.fst ++ t.queue.filterMap Request.asker := by
  have hqueue := congrArg (List.filterMap Request.asker)
    (run_fifo (I := fun _ => True) (fun _ _ _ _ _ => trivial) (fun _ _ _ _ => step_fifo) trivial h)
  simp only [List.filterMap_append, trace_filterMap, put_asker] at hqueue
  rw [trace_labels (fun l => (asked l).toList) h, ← List.filterMap_eq_flatMap_toList] at hqueue
  have hsent := run_log (I := fun _ => True) (fun _ _ _ _ _ => trivial) (fun _ _ _ _ => step_sent) trivial h
  rw [hsent, List.append_assoc, List.append_assoc, hqueue]

/-! ### What is answered -/

/-- The data is what it was, updated from one or more of the contents in the order they were read. What these do not
mention is as old as it was. -/
def ReadFrom (k : SourceKind E D M) (d₀ : D) (read : List E) (d : D) : Prop :=
  ∃ first, first ≠ [] ∧ first <+: read ∧ run k.updated d₀ first = some d

theorem ReadFrom.mono {d₀ d : D} {read : List E} (h : ReadFrom k d₀ read d) (more : List E) :
    ReadFrom k d₀ (read ++ more) d := by
  obtain ⟨first, hne, hprefix, hrun⟩ := h
  exact ⟨first, hne, hprefix.trans (List.prefix_append ..), hrun⟩

/-- At most `n` answers come before an update that is queued, or something has been read since; and what was answered
behind the first `n` has been read since. -/
structure Since (k : SourceKind E D M) (n : Nat) (d₀ : D) (read : List E) (s : Source D C M) : Prop where
  due : (∃ before rest, s.queue = before ++ .updateStats :: rest ∧
      s.sent.length + (before.filterMap Request.asker).length ≤ n) ∨ read ≠ []
  data : run k.updated d₀ read = some s.data
  answers : ∀ a ∈ s.sent.drop n, ∃ d, ReadFrom k d₀ read d ∧ a.2 = k.collect d

/-- What the step updates from. -/
def readBy (s : Source D C M) (l : Label E C) : List E :=
  match l, s.queue with
  | .dispatch env, .updateStats :: _ => [env]
  | _, _ => []

theorem readBy_nil (h : s.taken l = []) : readBy s l = [] := by
  cases l with
  | dispatch env =>
    cases hq : s.queue with
    | nil => simp only [readBy, hq]
    | cons request rest => simp [taken, hq] at h
  | update pushed => rfl
  | collect collector pushed => rfl

theorem contents_cons (h : step k s l = some t) (rest : List (Label E C)) :
    contents k s (l :: rest) = readBy s l ++ contents k t rest := by
  cases l with
  | update pushed => simp only [contents, h, readBy, List.nil_append]
  | collect collector pushed => simp only [contents, h, readBy, List.nil_append]
  | dispatch env =>
    cases hq : s.queue with
    | nil => simp [step, hq] at h
    | cons request queue =>
      cases request with
      | updateStats =>
        simp only [contents, h, readBy, hq]
        rfl
      | collectAndSend collector => simp only [contents, h, readBy, hq, List.nil_append]

/-- A step puts at most one update into the queue, and reads once for each that it takes. -/
theorem step_reads (h : step k s l = some t) :
    (readBy s l).length + t.queued ≤ s.queued + if l.isUpdate then 1 else 0 := by
  cases stepped h with
  | pushed hqueue htaken _ _ =>
    cases l with
    | update pushed =>
      have hone : ((if !s.updatePending && pushed then [.updateStats] else [] : List (Request C)).countP
          Request.isUpdateStats) ≤ 1 := List.countP_le_length.trans (by split <;> simp)
      simp only [readBy, queued, hqueue, put, List.countP_append, Label.isUpdate, if_true, List.length_nil]
      omega
    | collect collector pushed =>
      cases pushed <;> simp [readBy, queued, hqueue, put, Label.isUpdate, Request.isUpdateStats]
    | dispatch env =>
      have hnone : readBy s (.dispatch env) = [] := readBy_nil htaken
      simp [hnone, queued, hqueue, put]
  | answered hqueue _ _ => simp [readBy, queued, hqueue, Request.isUpdateStats, Label.isUpdate]
  | updated hqueue _ _ =>
    have hq : s.queued = t.queued + 1 := by
      rw [queued, hqueue]
      exact List.countP_cons_of_pos rfl
    simp only [readBy, hqueue, hq, List.length_singleton]
    omega
  | failed hqueue _ _ =>
    have hq : s.queued = t.queued + 1 := by
      rw [queued, hqueue]
      exact List.countP_cons_of_pos rfl
    simp only [readBy, hqueue, hq, List.length_singleton]
    omega

theorem run_reads {labels : List (Label E C)} (h : run (step k) s labels = some t) :
    (contents k s labels).length + t.queued ≤ s.queued + labels.countP Label.isUpdate := by
  induction labels generalizing s with
  | nil =>
    obtain rfl := Option.some.inj h
    simp [contents]
  | cons l rest ih =>
    obtain ⟨m, hl, hrest⟩ := Option.bind_eq_some_iff.mp h
    have hstep := step_reads hl
    have hrun := ih hrest
    rw [contents_cons hl, List.length_append, List.countP_cons]
    omega

/-- What is taken before the update is an earlier request, and what is answered behind it has been read since. -/
theorem since_step {n : Nat} {d₀ : D} {read : List E} (hs : Since k n d₀ read s) (hc : Succeeds k s l)
    (h : step k s l = some t) : Since k n d₀ (read ++ readBy s l) t := by
  have hans : ∀ a ∈ s.sent.drop n, ∃ d, ReadFrom k d₀ (read ++ readBy s l) d ∧ a.2 = k.collect d := by
    intro a ha
    obtain ⟨d, hd, heq⟩ := hs.answers a ha
    exact ⟨d, hd.mono _, heq⟩
  cases stepped h with
  | pushed hqueue htaken hdata hsent =>
    have hnone : readBy s l = [] := readBy_nil htaken
    refine ⟨?_, by rw [hnone, List.append_nil, hdata, hs.data], by rwa [hsent]⟩
    rcases hs.due with ⟨before, rest, hq, hle⟩ | hread
    · refine .inl ⟨before, rest ++ s.put l, ?_, by rwa [hsent]⟩
      rw [hqueue, hq, List.append_assoc, List.cons_append]
    · exact .inr (by rwa [hnone, List.append_nil])
  | answered hqueue hdata hsent =>
    rename_i env collector
    have hnone : readBy s (.dispatch env) = [] := by simp only [readBy, hqueue]
    have hrun : run k.updated d₀ (read ++ readBy s (.dispatch env)) = some t.data := by
      rw [hnone, List.append_nil, hdata, hs.data]
    rcases hs.due with ⟨before, rest, hq, hle⟩ | hread
    · cases before with
      | nil =>
        rw [hqueue] at hq
        cases hq
      | cons request before =>
        rw [hqueue, List.cons_append] at hq
        obtain ⟨rfl, hrest⟩ := List.cons.inj hq
        simp only [List.filterMap_cons, Request.asker, List.length_cons] at hle
        have hlen : t.sent.length = s.sent.length + 1 := by simp [hsent]
        refine ⟨.inl ⟨before, rest, hrest, by omega⟩, hrun, ?_⟩
        rw [List.drop_eq_nil_of_le (by omega)]
        exact fun a ha => absurd ha (List.not_mem_nil)
    · refine ⟨.inr (by rwa [hnone, List.append_nil]), hrun, fun a ha => ?_⟩
      rw [hsent, List.drop_append] at ha
      rcases List.mem_append.mp ha with ha | ha
      · exact hans a ha
      · obtain rfl := List.mem_singleton.mp (List.mem_of_mem_drop ha)
        refine ⟨s.data, ⟨read, hread, ?_, hs.data⟩, rfl⟩
        exact List.prefix_append ..
  | updated hqueue hdata hsent =>
    rename_i env
    have hone : readBy s (.dispatch env) = [env] := by simp only [readBy, hqueue]
    refine ⟨.inr (by simp [hone]), ?_, by rwa [hsent]⟩
    rw [hone, run_snoc, hs.data]
    exact hdata
  | failed hqueue hfails hsent =>
    obtain ⟨d, hd⟩ := hc (by rw [hqueue]; rfl)
    rw [SourceKind.updated_iff.mpr hd] at hfails
    cases hfails

theorem since_run {n : Nat} {d₀ : D} {read : List E} {labels : List (Label E C)} (hs : Since k n d₀ read s)
    (hc : Meets (step k) (Succeeds k) s labels) (h : run (step k) s labels = some t) :
    Since k n d₀ (read ++ contents k s labels) t := by
  induction labels generalizing read s with
  | nil =>
    obtain rfl := Option.some.inj h
    simpa [contents] using hs
  | cons l rest ih =>
    obtain ⟨m, hl, hrest⟩ := Option.bind_eq_some_iff.mp h
    rw [contents_cons hl, ← List.append_assoc]
    exact ih (since_step hs hc.1 hl) (hc.2 m hl) hrest

/-- How many requests of the queue wait for an answer. -/
def waiting (s : Source D C M) : Nat := (s.queue.filterMap Request.asker).length

/-- After a call of `update` an update is queued, behind requests made before. -/
theorem since_update (hs : s.Tracked) : Since k (s.sent.length + s.waiting) s.data [] (s.update true).1 := by
  have hlong : s.sent.drop (s.sent.length + s.waiting) = [] := List.drop_eq_nil_of_le (by omega)
  cases hp : s.updatePending with
  | false =>
    refine ⟨.inl ⟨s.queue, [], by simp [update, pushRequest, hp], ?_⟩, by simp [update, pushRequest, hp, run], ?_⟩
    · simp [update, pushRequest, hp, waiting]
    · simp [update, pushRequest, hp, hlong]
  | true =>
    have hmem : Request.updateStats ∈ s.queue := by
      have hqueued : 0 < s.queued := by
        unfold Tracked at hs
        rw [hs, hp]
        decide
      obtain ⟨request, hmem, his⟩ := List.countP_pos_iff.mp hqueued
      cases request with
      | updateStats => exact hmem
      | collectAndSend collector => cases his
    obtain ⟨before, rest, hq⟩ := List.append_of_mem hmem
    refine ⟨.inl ⟨before, rest, by simp [update, hp, hq], ?_⟩, by simp [update, hp, run], by simp [update, hp, hlong]⟩
    simp [update, hp, waiting, hq, List.filterMap_append]

end Source
end TaskMonitor

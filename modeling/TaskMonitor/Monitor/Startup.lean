import TaskMonitor.Monitor.Lanes

/-! What a collector gets of the start-up data (`StartupData.cpp`).

Until it expires the start-up data is a log: it holds what CPUs, memory and
pressure have published, each kind in order. A request is answered from what the
log holds when it is handled; from the expiry on every answer is empty. -/
namespace TaskMonitor.Monitor
open Lines Transition

variable {F C : Type} [Zero F] {app : App} {calls : SysProc.Calls F} {s t : Monitor F C} {l : Label C}
  {labels : List (Label C)} {m : SysProc}

/-- The start-up message that a published message would be kept as. -/
def startupMessage (now : Clock) : (m : SysProc) → m.Message F → Option (StartupMessage F)
  | .stat, data => some (.ofSample .sysProcStat (.make data now))
  | .memInfo, data => some (.ofSample .sysProcMemInfo (.make data now))
  | .pressure, data => some (.ofSample .sysProcPressure (.make data now))
  | .diskStats, _ | .buddyInfo, _ | .wireless, _ | .vmStat, _ => none

/-- What a step publishes that the start-up data is about. -/
def publishes (calls : SysProc.Calls F) (s : Monitor F C) : Label C → List (StartupMessage F)
  | .dispatch m reads now => ((s.published calls m reads).bind (startupMessage now m)).toList
  | .tick _ _ | .ask _ _ _ | .askStartup _ _ | .dispatchStartup | .expire => []

/-- The source whose message it was. -/
def origin (message : StartupMessage F) : SysProc :=
  match message.payload with
  | .sysProcStat _ => .stat
  | .sysProcMemInfo _ => .memInfo
  | .sysProcPressure _ => .pressure

/-- Those of one source, in order. -/
def ofOrigin (m : SysProc) (messages : List (StartupMessage F)) : List (StartupMessage F) :=
  messages.filter fun message => decide (origin message = m)

/-- The messages by kind, each kind in order. -/
def byKind (messages : List (StartupMessage F)) : List (StartupMessage F) :=
  ofOrigin .stat messages ++ ofOrigin .memInfo messages ++ ofOrigin .pressure messages

def isExpire : Label C → Bool
  | .expire => true
  | .tick _ _ | .ask _ _ _ | .dispatch _ _ _ | .askStartup _ _ | .dispatchStartup => false

/-- What a collector gets that is answered after the labels. -/
def retained (app : App) (calls : SysProc.Calls F) (pressureFile : String → Bool) (labels : List (Label C)) :
    List (StartupMessage F) :=
  if (app.withStartupData && app.startupData) && !labels.any isExpire then
    byKind (trace (step app calls) (publishes calls) (start app pressureFile) labels)
  else []

/-! ### The log -/

/-- What is held of a source. -/
def held (sd : StartupData F) : SysProc → List (StartupMessage F)
  | .stat => sd.cpuList.map (.ofSample .sysProcStat)
  | .memInfo => sd.memList.map (.ofSample .sysProcMemInfo)
  | .pressure => sd.psiList.map (.ofSample .sysProcPressure)
  | .diskStats | .buddyInfo | .wireless | .vmStat => []

theorem held_add {sd : StartupData F} (h : sd.expired = false) (now : Clock) (m : SysProc) (message : m.Message F)
    (m' : SysProc) : held (sd.add now m message) m' = held sd m' ++ ofOrigin m' (startupMessage now m message).toList := by
  cases m <;> cases m' <;>
    simp [held, StartupData.add, StartupData.addCpuData, StartupData.addMemData, StartupData.addPsiData, h, ofOrigin,
      startupMessage, origin, StartupMessage.ofSample]

theorem expired_add (sd : StartupData F) (now : Clock) (m : SysProc) (message : m.Message F) :
    (sd.add now m message).expired = sd.expired := by
  cases he : sd.expired <;> cases m <;>
    simp [StartupData.add, StartupData.addCpuData, StartupData.addMemData, StartupData.addPsiData, he]

theorem doCollectAndSend_held (sd : StartupData F) :
    sd.doCollectAndSend = if sd.expired then [] else held sd .stat ++ held sd .memInfo ++ held sd .pressure := rfl

/-- The start-up data holds the messages, if it has not expired. -/
structure Logs (messages : List (StartupMessage F)) (expired : Bool) (sd : StartupData F) : Prop where
  mark : sd.expired = expired
  log : expired = false → ∀ m, held sd m = ofOrigin m messages

theorem Logs.answer {messages : List (StartupMessage F)} {expired : Bool} {sd : StartupData F}
    (h : Logs messages expired sd) : sd.doCollectAndSend = if expired then [] else byKind messages := by
  rw [doCollectAndSend_held, h.mark]
  cases expired with
  | true => rfl
  | false =>
    have hlog := h.log rfl
    simp only [hlog]
    rfl

/-- The start-up data after a step. -/
def logged (calls : SysProc.Calls F) (s : Monitor F C) : Label C → Option (StartupData F)
  | .dispatch m reads now => keep now m (s.published calls m reads) s.startupData
  | .expire => s.startupData.map StartupData.dropData
  | .tick _ _ | .ask _ _ _ | .askStartup _ _ | .dispatchStartup => s.startupData

theorem step_startupData (h : step app calls s l = some t) : t.startupData = logged calls s l := by
  cases l with
  | tick lane pushed =>
    obtain rfl := Option.some.inj h
    rfl
  | ask m collector pushed =>
    simp only [step] at h
    split at h
    · obtain rfl := Option.some.inj h
      rfl
    · obtain rfl := Option.some.inj h
      rfl
  | dispatch m reads now =>
    obtain ⟨src, _, rfl⟩ := Option.map_eq_some_iff.mp h
    rfl
  | askStartup collector pushed =>
    obtain rfl := Option.some.inj h
    simp only [logged]
    split <;> rfl
  | dispatchStartup =>
    simp only [step] at h
    split at h
    · cases h
    · obtain rfl := Option.some.inj h
      rfl
  | expire =>
    obtain rfl := Option.some.inj h
    rfl

theorem ofOrigin_append (m : SysProc) (messages more : List (StartupMessage F)) :
    ofOrigin m (messages ++ more) = ofOrigin m messages ++ ofOrigin m more := List.filter_append ..

theorem logs_step {messages : List (StartupMessage F)} {expired : Bool} {sd : StartupData F}
    (hs : s.startupData = some sd) (hl : Logs messages expired sd) (h : step app calls s l = some t) :
    ∃ sd', t.startupData = some sd' ∧ Logs (messages ++ publishes calls s l) (expired || isExpire l) sd' := by
  have hdata := step_startupData h
  cases l with
  | dispatch m reads now =>
    simp only [logged, hs] at hdata
    simp only [isExpire, Bool.or_false, publishes]
    cases hm : s.published calls m reads with
    | none =>
      rw [hm] at hdata
      exact ⟨sd, hdata, by simpa using hl⟩
    | some message =>
      rw [hm] at hdata
      refine ⟨_, hdata, by rw [expired_add, hl.mark], fun he m' => ?_⟩
      rw [held_add (hl.mark.trans he), hl.log he, ofOrigin_append]
      rfl
  | expire =>
    simp only [logged, hs, Option.map_some] at hdata
    refine ⟨_, hdata, ?_, fun he => by simp [isExpire] at he⟩
    cases hx : sd.expired <;> simp [StartupData.dropData, hx, isExpire]
  | tick lane pushed => exact ⟨sd, hdata.trans hs, by simpa [publishes, isExpire] using hl⟩
  | ask m collector pushed => exact ⟨sd, hdata.trans hs, by simpa [publishes, isExpire] using hl⟩
  | askStartup collector pushed => exact ⟨sd, hdata.trans hs, by simpa [publishes, isExpire] using hl⟩
  | dispatchStartup => exact ⟨sd, hdata.trans hs, by simpa [publishes, isExpire] using hl⟩

theorem logs_run {messages : List (StartupMessage F)} {expired : Bool} {sd : StartupData F}
    (hs : s.startupData = some sd) (hl : Logs messages expired sd) (h : run (step app calls) s labels = some t) :
    ∃ sd', t.startupData = some sd' ∧
      Logs (messages ++ trace (step app calls) (publishes calls) s labels) (expired || labels.any isExpire) sd' := by
  induction labels generalizing s sd messages expired with
  | nil =>
    obtain rfl := Option.some.inj h
    exact ⟨sd, hs, by simpa [trace] using hl⟩
  | cons l rest ih =>
    obtain ⟨m, hm, hrest⟩ := Option.bind_eq_some_iff.mp h
    obtain ⟨sd', hs', hl'⟩ := logs_step hs hl hm
    obtain ⟨sd'', hs'', hl''⟩ := ih hs' hl' hrest
    refine ⟨sd'', hs'', ?_⟩
    rwa [trace_cons _ hm, List.any_cons, ← List.append_assoc, ← Bool.or_assoc]

theorem keep_isSome (now : Clock) (m : SysProc) (message : Option (m.Message F)) (sd : Option (StartupData F)) :
    (keep now m message sd).isSome = sd.isSome := by
  cases sd <;> cases message <;> rfl

theorem logged_isSome (s : Monitor F C) (l : Label C) : (logged calls s l).isSome = s.startupData.isSome := by
  cases l with
  | dispatch m reads now => exact keep_isSome ..
  | expire => exact Option.isSome_map ..
  | tick lane pushed => rfl
  | ask m collector pushed => rfl
  | askStartup collector pushed => rfl
  | dispatchStartup => rfl

theorem startupData_isSome (h : run (step app calls) s labels = some t) :
    t.startupData.isSome = s.startupData.isSome := by
  have hsteps := Steps.of_run (meets_true (step app calls) s labels) h
  refine hsteps.invariant (P := fun u => u.startupData.isSome = s.startupData.isSome) (fun u l v hu _ hl => ?_) rfl
  rw [step_startupData hl, logged_isSome, hu]

/-- The answer to a collector is what is retained. -/
theorem answer_retained {pressureFile : String → Bool} (h : run (step app calls) (start app pressureFile) labels = some t) :
    (t.startupData.map StartupData.doCollectAndSend).getD [] = retained app calls pressureFile labels := by
  cases hon : app.withStartupData && app.startupData with
  | true =>
    have hempty : Logs ([] : List (StartupMessage F)) false {} := ⟨rfl, fun _ m => by cases m <;> rfl⟩
    obtain ⟨sd, hsd, hl⟩ := logs_run (s := start app pressureFile) (by simp [start, hon]) hempty h
    simp only [hsd, Option.map_some, Option.getD_some, hl.answer, List.nil_append, Bool.false_or, retained, hon,
      Bool.true_and]
    cases labels.any isExpire <;> rfl
  | false =>
    have hnone : t.startupData = none := by
      have hsome := startupData_isSome h
      simpa [start, hon] using hsome
    simp [hnone, retained, hon]

/-! ### The answers -/

/-- The collector whose request for the start-up data is pushed. -/
def startupAsked (app : App) : Label C → Option C
  | .askStartup collector true => if app.withStartupData && app.startupData then some collector else none
  | _ => none

/-- What is retained each time a request is handled; `before` is what came before the labels. -/
def snapshots (app : App) (calls : SysProc.Calls F) (pressureFile : String → Bool) (before : List (Label C)) :
    List (Label C) → List (List (StartupMessage F))
  | [] => []
  | .dispatchStartup :: rest =>
    retained app calls pressureFile before :: snapshots app calls pressureFile (before ++ [.dispatchStartup]) rest
  | l :: rest => snapshots app calls pressureFile (before ++ [l]) rest

/-- Each collector with each of its messages. -/
def addressed (collectors : List C) (answers : List (List (StartupMessage F))) : List (C × StartupMessage F) :=
  (collectors.zip answers).flatMap fun a => a.2.map fun message => (a.1, message)

/-- The collectors that a step puts into the queue of the start-up data. -/
def enqueued (s : Monitor F C) : Label C → List C
  | .askStartup collector pushed => if s.startupData.isSome && pushed then [collector] else []
  | .tick _ _ | .ask _ _ _ | .dispatch _ _ _ | .dispatchStartup | .expire => []

/-- Only the handling of a request takes from the queue and sends. -/
theorem step_startupQueue (h : step app calls s l = some t) :
    (∃ collector, l = .dispatchStartup ∧ s.startupQueue = collector :: t.startupQueue ∧ t.startupSent = s.startupSent ++
        ((s.startupData.map StartupData.doCollectAndSend).getD []).map fun message => (collector, message)) ∨
      (l ≠ .dispatchStartup ∧ t.startupQueue = s.startupQueue ++ enqueued s l ∧ t.startupSent = s.startupSent) := by
  cases l with
  | tick lane pushed =>
    obtain rfl := Option.some.inj h
    exact .inr ⟨by simp, by simp [tick, enqueued], rfl⟩
  | ask m collector pushed =>
    refine .inr ⟨by simp, ?_⟩
    simp only [step] at h
    split at h
    · obtain rfl := Option.some.inj h
      simp [enqueued]
    · obtain rfl := Option.some.inj h
      simp [enqueued]
  | dispatch m reads now =>
    obtain ⟨src, _, rfl⟩ := Option.map_eq_some_iff.mp h
    exact .inr ⟨by simp, by simp [enqueued], rfl⟩
  | askStartup collector pushed =>
    obtain rfl := Option.some.inj h
    refine .inr ⟨by simp, ?_⟩
    simp only [enqueued]
    split <;> simp
  | dispatchStartup =>
    simp only [step] at h
    split at h
    · cases h
    · rename_i collector rest hq
      obtain rfl := Option.some.inj h
      exact .inl ⟨collector, rfl, hq, rfl⟩
  | expire =>
    obtain rfl := Option.some.inj h
    exact .inr ⟨by simp, by simp [enqueued], rfl⟩

theorem enqueued_eq {pressureFile : String → Bool} (h : run (step app calls) (start app pressureFile) labels = some s)
    (l : Label C) : enqueued s l = (startupAsked app l).toList := by
  have hsome : s.startupData.isSome = (app.withStartupData && app.startupData) := by
    rw [startupData_isSome h]
    unfold start
    cases app.withStartupData && app.startupData <;> rfl
  cases l with
  | askStartup collector pushed =>
    unfold enqueued startupAsked
    rw [hsome]
    cases pushed <;> cases app.withStartupData && app.startupData <;> rfl
  | tick lane pushed => rfl
  | ask m collector pushed => rfl
  | dispatch m reads now => rfl
  | dispatchStartup => rfl
  | expire => rfl

theorem snapshots_cons {pressureFile : String → Bool} (before : List (Label C)) (hl : l ≠ .dispatchStartup)
    (rest : List (Label C)) :
    snapshots app calls pressureFile before (l :: rest) = snapshots app calls pressureFile (before ++ [l]) rest := by
  cases l with
  | dispatchStartup => exact absurd rfl hl
  | tick lane pushed => rfl
  | ask m collector pushed => rfl
  | dispatch m reads now => rfl
  | askStartup collector pushed => rfl
  | expire => rfl

theorem answered_run {pressureFile : String → Bool} {before : List (Label C)}
    (hb : run (step app calls) (start app pressureFile) before = some s) (h : run (step app calls) s labels = some t) :
    t.startupSent = s.startupSent ++ addressed (s.startupQueue ++ labels.filterMap (startupAsked app))
        (snapshots app calls pressureFile before labels) ∧
      t.startupQueue = (s.startupQueue ++ labels.filterMap (startupAsked app)).drop
        (snapshots app calls pressureFile before labels).length := by
  induction labels generalizing s before with
  | nil =>
    obtain rfl := Option.some.inj h
    simp [snapshots, addressed]
  | cons l rest ih =>
    obtain ⟨m, hl, hrest⟩ := Option.bind_eq_some_iff.mp h
    have hm : run (step app calls) (start app pressureFile) (before ++ [l]) = some m := by
      rw [run_snoc, hb, Option.bind_some, hl]
    obtain ⟨hsent, hqueue⟩ := ih hm hrest
    rcases step_startupQueue hl with ⟨collector, rfl, hq, hnew⟩ | ⟨hne, hq, hnew⟩
    · rw [answer_retained hb] at hnew
      have hasked : (Label.dispatchStartup :: rest).filterMap (startupAsked app) = rest.filterMap (startupAsked app) :=
        List.filterMap_cons_none rfl
      rw [hasked, snapshots, hsent, hqueue, hnew, hq]
      simp [addressed]
    · have hasked : (l :: rest).filterMap (startupAsked app) = enqueued s l ++ rest.filterMap (startupAsked app) := by
        rw [enqueued_eq hb]
        cases ha : startupAsked app l <;> simp [ha]
      rw [hasked, snapshots_cons before hne, ← List.append_assoc, ← hq, hsent, hqueue, hnew]
      exact ⟨rfl, rfl⟩

/-- The sources as a part of a larger system, whose steps are runs of theirs: those whose requests have left the queue
are answered one after the other with what is retained. -/
theorem startupSent_run {σ ℓ : Type} {whole : σ → ℓ → Option σ} {part : σ → Monitor F C} {parts : σ → ℓ → List (Label C)}
    {asks : σ → ℓ → List C} {u v : σ} {all : List ℓ} {answered : List C} {pressureFile : String → Bool}
    (hpart : ∀ s l t, whole s l = some t → run (step app calls) (part s) (parts s l) = some (part t))
    (hasks : ∀ s l, (parts s l).filterMap (startupAsked app) = asks s l) (hstart : part u = start app pressureFile)
    (h : run whole u all = some v) (hfifo : trace whole asks u all = answered ++ (part v).startupQueue) :
    (part v).startupSent = addressed answered (snapshots app calls pressureFile [] (trace whole parts u all)) ∧
      answered.length ≤ (snapshots app calls pressureFile [] (trace whole parts u all)).length := by
  have hrun := run_simulate hpart h
  rw [hstart] at hrun
  have hnone : run (step app calls) (start app pressureFile : Monitor F C) [] = some (start app pressureFile) := rfl
  obtain ⟨hsent, hqueue⟩ := answered_run hnone hrun
  have hasked : (trace whole parts u all).filterMap (startupAsked app) = answered ++ (part v).startupQueue := by
    simp only [trace_filterMap, hasks, hfifo]
  simp only [start, List.nil_append, hasked] at hsent hqueue
  generalize snapshots app calls pressureFile [] (trace whole parts u all) = answers at hsent hqueue ⊢
  have hlength := congrArg List.length hqueue
  rw [List.length_drop, List.length_append] at hlength
  cases hq : (part v).startupQueue with
  | nil =>
    rw [hq, List.append_nil] at hsent
    rw [hq, List.length_nil] at hlength
    exact ⟨hsent, by omega⟩
  | cons c rest =>
    rw [hq, List.length_cons] at hlength
    have hsame : answered.length = answers.length := by omega
    refine ⟨?_, hsame.le⟩
    rw [hsent, hq, ← List.append_nil answers, addressed, List.zip_append hsame, List.zip_nil_right, List.append_nil,
      List.append_nil]
    rfl

/-- **The answers to requests for the start-up data.** The n-th collector that asks gets, with the n-th handling and
nothing else, what CPUs, memory and pressure have published until then, kind by kind and each in order; from the expiry
on that is nothing. -/
theorem startup_answered {pressureFile : String → Bool} (h : run (step app calls) (start app pressureFile) labels = some t) :
    t.startupSent = addressed (labels.filterMap (startupAsked app)) (snapshots app calls pressureFile [] labels) ∧
      t.startupQueue =
        (labels.filterMap (startupAsked app)).drop (snapshots app calls pressureFile [] labels).length :=
  answered_run rfl h

/-- A tick of the fast lane whose updates are handled. -/
def readOnce : List (Label Nat) :=
  [.tick .fast allPushed, .dispatch .memInfo (some ["MemTotal: 5 kB".toList]) stopped]

/-- A collector asks for the start-up data behind it. -/
def askedAfterRead : List (Label Nat) := readOnce ++ [.askStartup 7 true, .dispatchStartup]

theorem startup_answered_once :
    ∃ t, run (step Collector.fullApp noCalls) (start Collector.fullApp fun _ => true) askedAfterRead = some t ∧
      t.startupSent = addressed (askedAfterRead.filterMap (startupAsked Collector.fullApp))
          (snapshots Collector.fullApp noCalls (fun _ => true) [] askedAfterRead) ∧
        t.startupQueue = (askedAfterRead.filterMap (startupAsked Collector.fullApp)).drop
          (snapshots Collector.fullApp noCalls (fun _ => true) [] askedAfterRead).length := by
  obtain ⟨t, ht⟩ := Option.isSome_iff_exists.mp
    (by decide +kernel :
      (run (step Collector.fullApp noCalls) (start Collector.fullApp fun _ => true) askedAfterRead).isSome)
  exact ⟨t, ht, startup_answered ht⟩

/-! ### Start-up data and live data -/

/-- The payload that a message of the source is kept as, if it is kept. -/
def payload : (m : SysProc) → m.Message F → Option (StartupPayload F)
  | .stat, data => some (.sysProcStat data)
  | .memInfo, data => some (.sysProcMemInfo data)
  | .pressure, data => some (.sysProcPressure data)
  | .diskStats, _ | .buddyInfo, _ | .wireless, _ | .vmStat, _ => none

/-- What the source would answer. -/
def live (calls : SysProc.Calls F) (m : SysProc) (s : Monitor F C) : Option (StartupPayload F) :=
  payload m ((m.kind calls).collect (s.source m).data)

theorem startupMessage_payload (now : Clock) (m : SysProc) (message : m.Message F) :
    ((ofOrigin m (startupMessage now m message).toList).map StartupMessage.payload).getLast? = payload m message := by
  cases m <;> rfl

theorem startupMessage_other {m' : SysProc} (hm : m' ≠ m) (now : Clock) (message : m'.Message F) :
    ofOrigin m (startupMessage now m' message).toList = [] := by
  cases m' <;> cases m <;> first | rfl | exact absurd rfl hm

theorem source_unchanged (h : step app calls s l = some t) (ho : own app m l = none) : t.source m = s.source m := by
  have hstep := source_carries m s l t h
  rwa [ho] at hstep

theorem source_stepped {k : Source.Label m.Reads C} (h : step app calls s l = some t) (ho : own app m l = some k) :
    Source.step (m.kind calls) (s.source m) k = some (t.source m) := by
  have hstep := source_carries m s l t h
  rwa [ho] at hstep

/-- Only a dispatch of its own queue changes what a source has read. -/
theorem data_unchanged (h : step app calls s l = some t) (hl : ∀ reads, own app m l ≠ some (.dispatch reads)) :
    (t.source m).data = (s.source m).data := by
  cases ho : own app m l with
  | none => exact congrArg Source.data (source_unchanged h ho)
  | some k =>
    cases Source.stepped (source_stepped h ho) with
    | pushed hqueue htaken hdata hsent => exact hdata
    | answered hqueue hdata hsent => exact absurd ho (hl _)
    | updated hqueue hdata hsent => exact absurd ho (hl _)
    | failed hqueue hfails hsent => exact absurd ho (hl _)

/-- What a source would answer only changes with what it publishes. -/
theorem live_step (hc : ∀ k, own app m l = some k → Source.Succeeds (m.kind calls) (s.source m) k)
    (h : step app calls s l = some t) :
    live calls m t =
      ((ofOrigin m (publishes calls s l)).map StartupMessage.payload).getLast?.or (live calls m s) := by
  have hsame (hdata : (t.source m).data = (s.source m).data) (hnone : ofOrigin m (publishes calls s l) = []) :
      live calls m t = ((ofOrigin m (publishes calls s l)).map StartupMessage.payload).getLast?.or (live calls m s) := by
    rw [hnone, live, hdata]
    rfl
  cases l with
  | dispatch m' reads now =>
    by_cases hm : m' = m
    · subst hm
      have ho : own app m' (.dispatch m' reads now : Label C) = some (.dispatch reads) := by simp [own]
      have hsucc := hc _ ho
      cases Source.stepped (source_stepped h ho) with
      | pushed hqueue htaken hdata hsent =>
        refine hsame hdata ?_
        have hempty : (s.source m').queue = [] := by
          cases hq : (s.source m').queue with
          | nil => rfl
          | cons request rest => simp [Source.taken, hq] at htaken
        simp [publishes, published, hempty, ofOrigin]
      | answered hqueue hdata hsent => exact hsame hdata (by simp [publishes, published, hqueue, ofOrigin])
      | updated hqueue hdata hsent =>
        have hpub : s.published calls m' reads = some ((m'.kind calls).collect (t.source m').data) := by
          simp only [published, hqueue, hdata, Option.map_some]
        simp only [publishes, hpub, Option.bind_some, startupMessage_payload]
        unfold live
        cases m' <;> rfl
      | failed hqueue hfails hsent =>
        obtain ⟨d, hd⟩ := hsucc (by rw [hqueue]; rfl)
        rw [SourceKind.updated_iff.mpr hd] at hfails
        cases hfails
    · refine hsame (congrArg Source.data (source_unchanged h (by simp [own, hm]))) ?_
      simp only [publishes]
      cases s.published calls m' reads with
      | none => rfl
      | some message => exact startupMessage_other hm now message
  | tick lane pushed =>
    refine hsame (data_unchanged h fun reads => ?_) rfl
    simp only [own]
    split <;> simp
  | ask m' collector pushed =>
    refine hsame (data_unchanged h fun reads => ?_) rfl
    simp only [own]
    split <;> simp
  | askStartup collector pushed => exact hsame (congrArg Source.data (source_unchanged h rfl)) rfl
  | dispatchStartup => exact hsame (congrArg Source.data (source_unchanged h rfl)) rfl
  | expire => exact hsame (congrArg Source.data (source_unchanged h rfl)) rfl

theorem live_run
    (hc : Meets (Source.step (m.kind calls)) (Source.Succeeds (m.kind calls)) (s.source m) (labels.filterMap (own app m)))
    (h : run (step app calls) s labels = some t) :
    live calls m t = ((ofOrigin m (trace (step app calls) (publishes calls) s labels)).map
      StartupMessage.payload).getLast?.or (live calls m s) := by
  induction labels generalizing s with
  | nil =>
    obtain rfl := Option.some.inj h
    rfl
  | cons l rest ih =>
    obtain ⟨u, hl, hrest⟩ := Option.bind_eq_some_iff.mp h
    have hstep : (∀ k, own app m l = some k → Source.Succeeds (m.kind calls) (s.source m) k) ∧
        Meets (Source.step (m.kind calls)) (Source.Succeeds (m.kind calls)) (u.source m)
          (rest.filterMap (own app m)) := by
      cases ho : own app m l with
      | none =>
        rw [List.filterMap_cons_none ho] at hc
        rw [source_unchanged hl ho]
        exact ⟨fun k hk => (by cases hk), hc⟩
      | some k =>
        rw [List.filterMap_cons_some ho] at hc
        refine ⟨fun k' hk => ?_, hc.2 _ (source_stepped hl ho)⟩
        obtain rfl := Option.some.inj hk
        exact hc.1
    rw [ih hstep.2 hrest, live_step hstep.1 hl, trace_cons _ hl, ofOrigin_append, List.map_append,
      List.getLast?_append, Option.or_assoc]

theorem ofOrigin_ofOrigin (m m' : SysProc) (messages : List (StartupMessage F)) :
    ofOrigin m (ofOrigin m' messages) = if m' = m then ofOrigin m messages else [] := by
  unfold ofOrigin
  rw [List.filter_filter]
  split
  · rename_i hm
    subst hm
    simp
  · rename_i hm
    rw [List.filter_eq_nil_iff]
    intro message _ hboth
    simp only [Bool.and_eq_true, decide_eq_true_eq] at hboth
    exact hm (hboth.2.symm.trans hboth.1)

theorem ofOrigin_byKind (m : SysProc) (messages : List (StartupMessage F)) :
    ofOrigin m (byKind messages) = ofOrigin m messages := by
  have hnone (hm : ∀ message : StartupMessage F, origin message ≠ m) : ofOrigin m messages = [] :=
    List.filter_eq_nil_iff.mpr fun message _ hmem => hm message (of_decide_eq_true hmem)
  have hthree (message : StartupMessage F) :
      origin message = .stat ∨ origin message = .memInfo ∨ origin message = .pressure := by
    unfold origin
    split <;> simp
  simp only [byKind, ofOrigin_append, ofOrigin_ofOrigin]
  cases m with
  | stat => simp
  | memInfo => simp
  | pressure => simp
  | diskStats => simp [hnone fun message hm => by simpa [hm] using hthree message]
  | buddyInfo => simp [hnone fun message hm => by simpa [hm] using hthree message]
  | wireless => simp [hnone fun message hm => by simpa [hm] using hthree message]
  | vmStat => simp [hnone fun message hm => by simpa [hm] using hthree message]

/-- **Who asks for the start-up data ends with the live data.** Until the expiry, where no update of the source has
failed, what the source would answer is the last message of its kind in the start-up data, or the message of a source
that has read nothing where there is none yet. -/
theorem startup_coherent {pressureFile : String → Bool} (hon : (app.withStartupData && app.startupData) = true)
    (hx : labels.any isExpire = false)
    (hc : Meets (Source.step (m.kind calls)) (Source.Succeeds (m.kind calls)) {data := initialData pressureFile m}
      (labels.filterMap (own app m))) (h : run (step app calls) (start app pressureFile) labels = some t) :
    payload m ((m.kind calls).collect (t.source m).data) =
      ((ofOrigin m (retained app calls pressureFile labels)).map StartupMessage.payload).getLast?.or
        (payload m ((m.kind calls).collect (initialData pressureFile m))) := by
  have hlive := live_run hc h
  have hret : retained app calls pressureFile labels =
      byKind (trace (step app calls) (publishes calls) (start app pressureFile) labels) := by
    simp only [retained, hon, hx]
    rfl
  rw [hret, ofOrigin_byKind]
  exact hlive

theorem startup_coherent_once :
    ∃ t, run (step Collector.fullApp noCalls) (start Collector.fullApp fun _ => true) readOnce = some t ∧
      payload .memInfo ((SysProc.kind noCalls .memInfo).collect (t.source .memInfo).data) =
        ((ofOrigin .memInfo (retained Collector.fullApp noCalls (fun _ => true) readOnce)).map
          StartupMessage.payload).getLast?.or
          (payload .memInfo ((SysProc.kind noCalls .memInfo).collect (initialData (fun _ => true) .memInfo))) := by
  obtain ⟨t, ht⟩ := Option.isSome_iff_exists.mp
    (by decide +kernel : (run (step Collector.fullApp noCalls) (start Collector.fullApp fun _ => true) readOnce).isSome)
  have hsucceeds : Meets (Source.step (SysProc.kind noCalls .memInfo)) (Source.Succeeds (SysProc.kind noCalls .memInfo))
      {data := initialData (fun _ => true) .memInfo} (readOnce.filterMap (own Collector.fullApp .memInfo)) := by
    decide +kernel
  exact ⟨t, ht, startup_coherent rfl rfl hsucceeds ht⟩

end TaskMonitor.Monitor

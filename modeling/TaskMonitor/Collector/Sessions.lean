import TaskMonitor.Collector.FrontEnds

/-! Sessions of one connection.

The session record lives as long as the connection, and every `CreateSession`
appends the sources to it once more. So the first message lists each source once,
the second twice: a connection can open one session. -/
namespace TaskMonitor.Collector

variable {app : App} {type : CollectorType} {rq : Request} {c : Collector} {n : Nat}

/-- The lane a source is updated on. -/
def laneOf : DataSource → UpdateLane
  | .sysProcStat | .sysProcMemInfo => .fast
  | .procInfo | .contextInfo | .procEvent | .sysProcPressure | .sysProcDiskStats => .pace
  | .procAcct | .sysProcBuddyInfo | .sysProcWireless | .sysProcVMStat => .slow

/-- Whether the module behind a source exists. -/
def available (app : App) : DataSource → Bool
  | .procInfo | .contextInfo => true
  | .procEvent => app.withProcEvent && app.procEvent
  | .procAcct => app.withProcAcct && app.procAcct
  | .sysProcStat => app.sysProcStat
  | .sysProcMemInfo => app.sysProcMemInfo
  | .sysProcPressure => app.sysProcPressure
  | .sysProcDiskStats => app.sysProcDiskStats
  | .sysProcBuddyInfo => app.sysProcBuddyInfo
  | .sysProcWireless => app.sysProcWireless
  | .sysProcVMStat => app.withVMStat && app.sysProcVMStat

/-- How often the record lists a source, lane by lane. -/
def listings (info : SessionInfo) (lane : UpdateLane) (d : DataSource) : Nat :=
  match lane with
  | .fast => info.fastLaneSources.count d
  | .pace => info.paceLaneSources.count d
  | .slow => info.slowLaneSources.count d
  | .any => 0

/-- Every available source is listed `n` times, in its lane. -/
def Lists (app : App) (n : Nat) (info : SessionInfo) : Prop :=
  ∀ lane d, listings info lane d = if laneOf d = lane ∧ available app d = true then n else 0

/-- The sessions that were sent. -/
def sessions (out : List (Reaction × Bool)) : List SessionInfo :=
  out.filterMap fun
    | (.setSession info, true) => some info
    | _ => none

/-- Each session sent lists every available source once, in its lane, and but for the hash all
are the first. -/
structure Idempotent (app : App) (out : List (Reaction × Bool)) : Prop where
  once : ∀ info ∈ sessions out, Lists app 1 info
  same : ∀ first, (sessions out).head? = some first → ∀ info ∈ sessions out, unhashed info = unhashed first

/-- Whether the connection is kept after the request. -/
def keeps (type : CollectorType) (app : App) (rq : Request) : Bool :=
  knows type rq.type && (rq.ok || (decide (rq.type ≠ .createSession) && (target app rq.type).isNone))

/-- The `CreateSession` requests that are handled before the connection is dropped. -/
def created (type : CollectorType) (app : App) (rqs : List Request) : List Request :=
  (rqs.takeWhile (keeps type app)).filter fun rq => decide (rq.type = .createSession)

/-! ### What a session adds -/

theorem count_addIf (present : Bool) (d d' : DataSource) (sources : List DataSource) :
    (addIf present d sources).count d' = sources.count d' + if present = true ∧ d = d' then 1 else 0 := by
  cases present with
  | true => by_cases h : d = d' <;> simp [addIf, h]
  | false => simp [addIf]

/-- Every available source is listed once more. -/
theorem listings_addSources (app : App) (info : SessionInfo) (lane : UpdateLane) (d : DataSource) :
    listings (addSources app info) lane d =
      listings info lane d + if laneOf d = lane ∧ available app d = true then 1 else 0 := by
  cases lane <;> cases d <;> simp [listings, addSources, count_addIf, laneOf, available]

theorem lists_doCreateSession (rq : Request) (h : Lists app n c.sessionInfo) :
    Lists app (n + 1) (doCreateSession app rq c).1.sessionInfo := by
  intro lane d
  have hold := h lane d
  rw [show listings (doCreateSession app rq c).1.sessionInfo lane d =
    listings c.sessionInfo lane d + _ from listings_addSources app _ lane d, hold]
  split <;> rfl

theorem lists_initial (app : App) : Lists app 0 {} := by
  intro lane d
  cases lane <;> simp [listings]

/-- A record lists the processes as often as it was built. -/
theorem Lists.eq {m : Nat} {info : SessionInfo} (h : Lists app n info) (h' : Lists app m info) : n = m := by
  have hp := h .pace .procInfo
  rw [h' .pace .procInfo] at hp
  simpa [laneOf, available] using hp.symm

/-! ### The sessions of a connection -/

theorem dispatch_keeps (type : CollectorType) (app : App) (rq : Request) (c : Collector) :
    (dispatch type app rq c).2.2 = keeps type app rq := by
  by_cases h : rq.type = .createSession
  · rw [dispatch_create type app c h]
    cases type <;> simp [doCreateSession, keeps, knows, h]
  · rw [dispatch_other type app c h, answer, keeps]
    cases knows type rq.type with
    | false => rfl
    | true => cases target app rq.type <;> simp [h]

/-- The records that the given requests send, one after the other. -/
def createAll (app : App) (c : Collector) : List Request → List SessionInfo
  | [] => []
  | rq :: rest =>
    (doCreateSession app rq c).1.sessionInfo :: createAll app (doCreateSession app rq c).1 rest

theorem sessions_cons (out : Reaction × Bool) (rest : List (Reaction × Bool)) :
    sessions (out :: rest) = sessions [out] ++ sessions rest := by
  simp only [sessions, List.filterMap_cons, List.filterMap_nil]
  split <;> rfl

/-- A reaction that does not keep the connection, or is not to a `CreateSession`, sends none. -/
theorem sessions_answer (type : CollectorType) (app : App) (rq : Request) : sessions [answer type app rq] = [] := by
  unfold answer
  split
  · split <;> rfl
  · rfl

/-- The sessions of a connection are those of its `CreateSession` requests. -/
theorem sessions_serve (type : CollectorType) (app : App) (rqs : List Request) (c : Collector) :
    sessions (serve type app c rqs) = createAll app c (created type app rqs) := by
  induction rqs generalizing c with
  | nil => rfl
  | cons rq rest ih =>
    rw [serve, sessions_cons, dispatch_keeps, created, List.takeWhile_cons]
    by_cases h : rq.type = .createSession
    · rw [dispatch_create type app c h]
      cases hk : keeps type app rq with
      | true =>
        have hok : rq.ok = true := by
          simp only [keeps, h, Bool.and_eq_true] at hk
          simpa using hk.2
        have hone : sessions [(doCreateSession app rq c).2] = [(doCreateSession app rq c).1.sessionInfo] := by
          simp [sessions, doCreateSession, hok]
        rw [if_pos rfl, if_pos rfl, List.filter_cons_of_pos (by simp [h]), createAll, hone, ih]
        rfl
      | false =>
        have hok : rq.ok = false := by
          cases type <;> simpa [keeps, knows, h] using hk
        have hnone : sessions [(doCreateSession app rq c).2] = [] := by
          simp [sessions, doCreateSession, hok]
        rw [if_neg Bool.false_ne_true, if_neg Bool.false_ne_true, hnone]
        rfl
    · rw [dispatch_other type app c h, sessions_answer, List.nil_append]
      cases hk : keeps type app rq with
      | true =>
        rw [if_pos rfl, if_pos rfl, List.filter_cons_of_neg (by simp [h]), ih]
        rfl
      | false =>
        rw [if_neg Bool.false_ne_true, if_neg Bool.false_ne_true]
        rfl

/-- **Sessions are idempotent** on a connection exactly if it opens at most one. -/
theorem sessions_idempotent_iff (type : CollectorType) (app : App) (rqs : List Request) :
    Idempotent app (serve type app {} rqs) ↔ (created type app rqs).length ≤ 1 := by
  have hs := sessions_serve type app rqs {}
  generalize created type app rqs = creates at hs
  have hfirst (rq : Request) : Lists app 1 (doCreateSession app rq {}).1.sessionInfo :=
    lists_doCreateSession rq (lists_initial app)
  match creates with
  | [] =>
    refine iff_of_true ⟨?_, ?_⟩ (Nat.zero_le 1)
    · rw [hs]
      intro info hm
      cases hm
    · rw [hs]
      intro first hf
      cases hf
  | [rq] =>
    refine iff_of_true ⟨?_, ?_⟩ (Nat.le_refl 1)
    · rw [hs]
      intro info hm
      obtain rfl := List.mem_singleton.mp hm
      exact hfirst rq
    · rw [hs]
      intro first hf info hm
      obtain rfl := Option.some.inj hf
      obtain rfl := List.mem_singleton.mp hm
      rfl
  | rq :: rq' :: rest =>
    refine iff_of_false (fun h => ?_) (by simp)
    have hsecond : (doCreateSession app rq' (doCreateSession app rq {}).1).1.sessionInfo ∈
        sessions (serve type app {} rqs) := by
      rw [hs]
      exact List.mem_cons_of_mem _ (List.mem_cons_self ..)
    exact absurd ((h.once _ hsecond).eq (lists_doCreateSession rq' (hfirst rq))) (by decide)

/-- **A second session lists every source twice.** -/
theorem second_session_repeats :
    ¬Idempotent fullApp (serve .TCP fullApp {} [request .createSession, request .createSession]) := by
  intro h
  have htwice := h.once _ (List.mem_cons_of_mem _ (List.mem_cons_self ..)) .pace .procInfo
  exact absurd htwice (by decide)

end TaskMonitor.Collector

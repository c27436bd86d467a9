import TaskMonitor.Collector.Basic

/-! The two front ends react alike, but for startup data.

`serve` is a whole connection. Apart from the session hash the two dispatchers
answer every request alike but `GetStartupData`, which only one of them knows: a
UDS connection ends there. -/
namespace TaskMonitor.Collector

variable {app : App} {rq rq' : Request} {c c' : Collector}

def unhashed (info : SessionInfo) : SessionInfo := {info with hash := []}

/-- A reaction but for the session hash. -/
def Reaction.unhashed : Reaction → Reaction
  | .setSession info => .setSession (Collector.unhashed info)
  | r => r

/-- What is compared of an answer: the reaction, and whether the connection is kept. -/
def compared (out : Reaction × Bool) : Reaction × Bool := (out.1.unhashed, out.2)

/-- Startup data is asked for before any request of unknown type. -/
def asksStartupData : List RequestType → Bool
  | [] => false
  | .getStartupData :: _ => true
  | .unknown _ :: _ => false
  | _ :: rest => asksStartupData rest

/-- The callback gives the reactions of the connection, and stays as long as it is kept. -/
theorem callback_serve (type : CollectorType) (rqs : List Request) (c : Collector) :
    (callback type app c (rqs.map (.envelope true))).reactions = (serve type app c rqs).map Prod.fst ∧
      (callback type app c (rqs.map (.envelope true))).stays = (serve type app c rqs).all Prod.snd := by
  induction rqs generalizing c with
  | nil => exact ⟨rfl, rfl⟩
  | cons rq rest ih =>
    obtain ⟨hr, hs⟩ := ih (dispatch type app rq c).1
    by_cases hk : (dispatch type app rq c).2.2 = true
    · simp [callback, serve, hk, hr, hs]
    · simp [callback, serve, hk]

/-- But for the hash, a new record follows from the old one. -/
theorem doCreateSession_unhashed (hc : unhashed c.sessionInfo = unhashed c'.sessionInfo) :
    unhashed (doCreateSession app rq c).1.sessionInfo = unhashed (doCreateSession app rq' c').1.sessionInfo := by
  simp only [unhashed, SessionInfo.mk.injEq] at hc
  obtain ⟨_, _, _, _, _, _, _, hfast, hpace, hslow⟩ := hc
  simp only [unhashed, doCreateSession, addSources, hfast, hpace, hslow]

/-! ### What a request is answered with -/

/-- The module request that a request leads to, where the module exists. -/
def target (app : App) : RequestType → Option ModuleRequest
  | .getStartupData => if app.withStartupData && app.startupData then some .startupData else none
  | .getProcAcct =>
    if app.withProcAcct && app.procAcct then some (.procRegistry .collectAndSendProcAcct) else none
  | .getProcInfo => some (.procRegistry .collectAndSendProcInfo)
  | .getContextInfo => some (.procRegistry .collectAndSendContextInfo)
  | .getProcEventStats => if app.withProcEvent && app.procEvent then some .procEvent else none
  | .getSysProcMemInfo => if app.sysProcMemInfo then some .sysProcMemInfo else none
  | .getSysProcDiskStats => if app.sysProcDiskStats then some .sysProcDiskStats else none
  | .getSysProcStat => if app.sysProcStat then some .sysProcStat else none
  | .getSysProcPressure => if app.sysProcPressure then some .sysProcPressure else none
  | .getSysProcBuddyInfo => if app.sysProcBuddyInfo then some .sysProcBuddyInfo else none
  | .getSysProcWireless => if app.sysProcWireless then some .sysProcWireless else none
  | .getSysProcVMStat => if app.withVMStat && app.sysProcVMStat then some .sysProcVMStat else none
  | .createSession | .keepAlive | .unknown _ => none

/-- The types a front end has a case for. -/
def knows : CollectorType → RequestType → Bool
  | _, .unknown _ => false
  | .UDS, .getStartupData => false
  | _, _ => true

def answer (type : CollectorType) (app : App) (rq : Request) : Reaction × Bool :=
  if knows type rq.type then
    match target app rq.type with
    | some mrq => (.push mrq, rq.ok)
    | none => (.none, true)
  else (.none, false)

theorem pushTo_eq (present : Bool) (mrq : ModuleRequest) (rq : Request) :
    pushTo present mrq rq =
      match if present then some mrq else none with
      | some mrq => (.push mrq, rq.ok)
      | none => (.none, true) := by
  cases present <;> rfl

/-- Every request but one for a session leaves the collector alone. -/
theorem dispatch_other (type : CollectorType) (app : App) (c : Collector) (h : rq.type ≠ .createSession) :
    dispatch type app rq c = (c, answer type app rq) := by
  cases type with
  | TCP =>
    simp only [dispatch, dispatchTCP, answer]
    cases ht : rq.type with
    | createSession => exact absurd ht h
    | getProcInfo => rfl
    | getContextInfo => rfl
    | keepAlive => rfl
    | unknown => rfl
    | getSysProcVMStat =>
      cases hv : app.withVMStat <;> simp [knows, target, hv, doGetSysProcVMStat, pushTo_eq]
    | _ => exact congrArg (Prod.mk c) (pushTo_eq _ _ rq)
  | UDS =>
    simp only [dispatch, dispatchUDS, answer]
    cases ht : rq.type with
    | createSession => exact absurd ht h
    | getStartupData => rfl
    | getProcInfo => rfl
    | getContextInfo => rfl
    | keepAlive => rfl
    | unknown => rfl
    | getSysProcVMStat =>
      cases hv : app.withVMStat <;> simp [knows, target, hv, doGetSysProcVMStat, pushTo_eq]
    | _ => exact congrArg (Prod.mk c) (pushTo_eq _ _ rq)

theorem dispatch_create (type : CollectorType) (app : App) (c : Collector) (h : rq.type = .createSession) :
    dispatch type app rq c = doCreateSession app rq c := by
  cases type <;> simp only [dispatch, dispatchTCP, dispatchUDS, h]

/-- Where pushes and writes succeed, a connection is kept at the types it knows. -/
theorem dispatch_kept (type : CollectorType) (app : App) (c : Collector) (ho : rq.ok = true) :
    (dispatch type app rq c).2.2 = knows type rq.type := by
  by_cases h : rq.type = .createSession
  · rw [dispatch_create type app c h, h]
    cases type <;> exact ho
  · rw [dispatch_other type app c h, answer]
    cases hk : knows type rq.type with
    | false => rfl
    | true =>
      cases target app rq.type with
      | some mrq => exact ho
      | none => rfl

theorem knows_alike {type : RequestType} (h : type ≠ .getStartupData) :
    knows .TCP type = knows .UDS type := by
  cases type with
  | getStartupData => exact absurd rfl h
  | _ => rfl

/-- Both front ends answer a request alike, unless it is for startup data. -/
theorem dispatch_alike (app : App) (ht : rq.type = rq'.type) (hne : rq.type ≠ .getStartupData)
    (ho : rq.ok = rq'.ok) (hc : unhashed c.sessionInfo = unhashed c'.sessionInfo) :
    compared (dispatch .TCP app rq c).2 = compared (dispatch .UDS app rq' c').2 ∧
      unhashed (dispatch .TCP app rq c).1.sessionInfo = unhashed (dispatch .UDS app rq' c').1.sessionInfo := by
  by_cases h : rq.type = .createSession
  · rw [dispatch_create .TCP app c h, dispatch_create .UDS app c' (ht ▸ h)]
    have hinfo : unhashed (doCreateSession app rq c).1.sessionInfo =
        unhashed (doCreateSession app rq' c').1.sessionInfo := doCreateSession_unhashed hc
    refine ⟨?_, hinfo⟩
    rw [compared, compared, Prod.mk.injEq]
    exact ⟨congrArg Reaction.setSession hinfo, ho⟩
  · rw [dispatch_other .TCP app c h, dispatch_other .UDS app c' (ht ▸ h)]
    refine ⟨congrArg compared ?_, hc⟩
    rw [answer, answer, ← ht, knows_alike hne, ho]

theorem asksStartupData_cons {type : RequestType} (rest : List RequestType) (h : knows .UDS type = true) :
    asksStartupData (type :: rest) = asksStartupData rest := by
  cases type with
  | getStartupData => cases h
  | unknown => cases h
  | _ => rfl

theorem asksStartupData_unknown {type : RequestType} (rest : List RequestType) (hne : type ≠ .getStartupData)
    (h : knows .UDS type = false) : asksStartupData (type :: rest) = false := by
  cases type with
  | getStartupData => exact absurd rfl hne
  | unknown => rfl
  | _ => cases h

/-- **The front ends are equivalent** on a connection exactly if it does not ask for startup data
before it is dropped. The hashes of the two sides are their own; pushes and writes succeed. -/
theorem front_ends_agree_iff (app : App) (rqs rqs' : List Request)
    (ht : rqs.map Request.type = rqs'.map Request.type) (ho : ∀ rq ∈ rqs, rq.ok = true)
    (ho' : ∀ rq ∈ rqs', rq.ok = true) :
    (serve .TCP app {} rqs).map compared = (serve .UDS app {} rqs').map compared ↔
      asksStartupData (rqs.map Request.type) = false := by
  have main : ∀ (rqs rqs' : List Request) (c c' : Collector),
      rqs.map Request.type = rqs'.map Request.type → (∀ rq ∈ rqs, rq.ok = true) →
      (∀ rq ∈ rqs', rq.ok = true) → unhashed c.sessionInfo = unhashed c'.sessionInfo →
      ((serve .TCP app c rqs).map compared = (serve .UDS app c' rqs').map compared ↔
        asksStartupData (rqs.map Request.type) = false) := by
    intro rqs
    induction rqs with
    | nil =>
      intro rqs' c c' ht _ _ _
      obtain rfl : rqs' = [] := List.map_eq_nil_iff.mp ht.symm
      exact iff_of_true rfl rfl
    | cons rq rest ih =>
      intro rqs' c c' ht ho ho' hc
      obtain _ | ⟨rq', rest'⟩ := rqs'
      · cases ht
      rw [List.map_cons, List.map_cons, List.cons.injEq] at ht
      have hok := ho rq (List.mem_cons_self ..)
      have hok' := ho' rq' (List.mem_cons_self ..)
      have hkept := dispatch_kept .TCP app c hok
      have hkept' := dispatch_kept .UDS app c' hok'
      rw [← ht.1] at hkept'
      by_cases hs : rq.type = .getStartupData
      · -- The connections part here: one is kept, the other dropped.
        refine iff_of_false (fun heq => ?_) (by simp [hs, asksStartupData])
        have hhead := (List.cons.inj heq).1
        have hboth : (dispatch .TCP app rq c).2.2 = (dispatch .UDS app rq' c').2.2 :=
          (Prod.mk.inj hhead).2
        rw [hkept, hkept', hs] at hboth
        cases hboth
      · obtain ⟨hout, hinfo⟩ := dispatch_alike app ht.1 hs (hok.trans hok'.symm) hc
        rw [knows_alike hs] at hkept
        rw [List.map_cons, serve, serve, List.map_cons, List.map_cons, hout, hkept, hkept',
          List.cons.injEq, and_iff_right rfl]
        cases hk : knows .UDS rq.type with
        | true =>
          rw [asksStartupData_cons _ hk]
          exact ih rest' _ _ ht.2 (fun q hq => ho q (List.mem_cons_of_mem rq hq))
            (fun q hq => ho' q (List.mem_cons_of_mem rq' hq)) hinfo
        | false =>
          rw [asksStartupData_unknown _ hs hk]
          exact iff_of_true rfl rfl
  exact main rqs rqs' {} {} ht ho ho' rfl

/-! ### Two connections -/

/-- **The front ends differ** on a request for startup data: one pushes it, the other drops
the connection. -/
theorem startup_data_differs :
    (serve .TCP fullApp {} [request .getStartupData]).map compared ≠
      (serve .UDS fullApp {} [request .getStartupData]).map compared := by
  decide

/-- They agree on a session and a request for its processes. -/
theorem front_ends_agree_session :
    (serve .TCP fullApp {} [request .createSession, request .getProcInfo]).map compared =
      (serve .UDS fullApp {} [request .createSession, request .getProcInfo]).map compared :=
  (front_ends_agree_iff fullApp _ _ rfl (by simp [request]) (by simp [request])).mpr rfl

end TaskMonitor.Collector

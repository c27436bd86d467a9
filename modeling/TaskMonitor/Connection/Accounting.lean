import Mathlib.Data.List.Count
import TaskMonitor.Collector.FrontEnds
import TaskMonitor.Connection.System

/-! For whom accounting is collected.

A session lists accounting for either type of collector, and either is served it
on request. The counter that lets a Slow lane update issue taskstats requests
counts TCP collectors only, so a session over a Unix socket is promised data that
nobody refreshes, unless a TCP collector is connected as well. -/
namespace TaskMonitor.Service
open Collector DeferredList Transition

variable {L : Type → Type} [DeferredList L] {cfg : ServiceConfig} {held : Bool} {s t : Service L} {l : Label}
  {c : ICollector}

def tcpCount (cs : List ICollector) : Nat := cs.countP fun c => decide (c.type = .TCP)

/-- Some lane of the session lists accounting. -/
def Promises (info : SessionInfo) : Prop :=
  DataSource.procAcct ∈ info.fastLaneSources ∨ .procAcct ∈ info.paceLaneSources ∨ .procAcct ∈ info.slowLaneSources

/-- A Slow lane update of an entry issues a request. -/
def Issues (s : Service L) (env : Env) (e : ProcEntry) : Prop :=
  (e.updateProcAcct {env with procAcctCollectorCounter := s.procAcctCollectorCounter}).2.1 = true

/-- Accounting is collected where a connected collector was promised it, and not with no collector
connected. -/
structure Collected (s : Service L) : Prop where
  promised : (∃ c ∈ s.loop, Promises (s.record c).sessionInfo) →
    ∀ env e, e.updateProcAcctPending = false → s.Issues env e
  idle : s.loop = [] → ∀ env e, ¬s.Issues env e

/-- A TCP collector is connected, or no collector that is connected has opened a session. -/
def Refreshed (s : Service L) : Prop :=
  (∃ c ∈ s.loop, c.type = .TCP) ∨ ∀ c ∈ s.loop, (s.record c).sessionInfo = {}

/-! ### The counter -/

/-- The counter is the number of TCP collectors in the loop, in sixteen bits. -/
def Counted (s : Service L) : Prop := s.procAcctCollectorCounter.toNat = tcpCount s.loop % 2 ^ 16

theorem tcpCount_append (cs : List ICollector) (c : ICollector) :
    tcpCount (cs ++ [c]) = tcpCount cs + (accounting c.type).toNat := by
  cases hc : c.type <;> simp [tcpCount, accounting, hc]

theorem tcpCount_erase {cs : List ICollector} (hc : c ∈ cs) :
    tcpCount (cs.erase c) + (accounting c.type).toNat = tcpCount cs := by
  rw [tcpCount, List.countP_erase]
  cases ht : c.type with
  | TCP =>
    have hpos : 0 < tcpCount cs := List.countP_pos_iff.mpr ⟨c, hc, by simp [ht]⟩
    rw [if_pos ⟨hc, by simp⟩]
    show tcpCount cs - 1 + 1 = tcpCount cs
    omega
  | UDS =>
    rw [if_neg (by simp)]
    rfl

omit [DeferredList L] in
theorem counted_remEventSource (h : Counted s) : Counted (s.remEventSource c) := by
  unfold remEventSource
  split
  · rename_i hc
    rw [finalize_eq]
    have herase := tcpCount_erase hc
    have hle : (accounting c.type).toNat ≤ 1 := by cases c.type <;> decide
    unfold Counted at *
    simp only [UInt16.toNat_sub]
    omega
  · exact h

omit [DeferredList L] in
theorem counted_accept {type : CollectorType} {fd : Nat} {descriptor : Option Id} {now : UInt64}
    (h : Counted s) : Counted (s.accept cfg type fd descriptor now) := by
  cases descriptor with
  | none => exact h
  | some id =>
    have hnew : Counted {s with
        loop := s.loop ++ [⟨s.accepts, type, fd⟩]
        procAcctCollectorCounter := s.procAcctCollectorCounter + accounting type} := by
      have happend : tcpCount (s.loop ++ [⟨s.accepts, type, fd⟩]) = tcpCount s.loop + (accounting type).toNat :=
        tcpCount_append ..
      unfold Counted at *
      simp only [UInt16.toNat_add]
      omega
    simp only [accept, construct_eq]
    split <;> exact hnew

omit [DeferredList L] in
/-- With fewer than 65536 collectors the counter is 0 just if none is TCP. -/
theorem Counted.eq_zero (h : Counted s) (hl : s.loop.length < 65536) :
    s.procAcctCollectorCounter = 0 ↔ ∀ c ∈ s.loop, c.type ≠ .TCP := by
  have hle : tcpCount s.loop ≤ s.loop.length := List.countP_le_length
  have hmod : tcpCount s.loop % 2 ^ 16 = tcpCount s.loop := Nat.mod_eq_of_lt (by omega)
  rw [← UInt16.toNat_inj, h, hmod]
  show tcpCount s.loop = 0 ↔ _
  simp [tcpCount, List.countP_eq_zero]

/-! ### The sessions -/

/-- Only an empty session record does not list accounting. -/
def Sessions (s : Service L) : Prop :=
  ∀ c, (s.record c).sessionInfo = {} ∨ Promises (s.record c).sessionInfo

theorem mem_addIf {present : Bool} {d d' : DataSource} {sources : List DataSource} :
    d' ∈ addIf present d sources ↔ d' ∈ sources ∨ (present = true ∧ d' = d) := by
  cases present <;> simp [addIf]

theorem promises_doCreateSession {app : App} (ha : (app.withProcAcct && app.procAcct) = true) (rq : Request)
    (c : Collector) : Promises (doCreateSession app rq c).1.sessionInfo := by
  refine .inr (.inr ?_)
  simp only [doCreateSession, addSources, mem_addIf, ha]
  simp

theorem session_dispatch (type : CollectorType) {app : App} (ha : (app.withProcAcct && app.procAcct) = true)
    (rq : Request) {c : Collector} (h : c.sessionInfo = {} ∨ Promises c.sessionInfo) :
    (dispatch type app rq c).1.sessionInfo = {} ∨ Promises (dispatch type app rq c).1.sessionInfo := by
  by_cases hc : rq.type = .createSession
  · rw [dispatch_create type app c hc]
    exact .inr (promises_doCreateSession ha rq c)
  · rw [dispatch_other type app c hc]
    exact h

theorem session_callback {type : CollectorType} {app : App} (ha : (app.withProcAcct && app.procAcct) = true)
    (received : List Received) {c : Collector} (h : c.sessionInfo = {} ∨ Promises c.sessionInfo) :
    (callback type app c received).collector.sessionInfo = {} ∨
      Promises (callback type app c received).collector.sessionInfo := by
  induction received generalizing c with
  | nil => exact h
  | cons first rest ih =>
    match first with
    | .error | .endOfFile => exact h
    | .envelope false _ => exact h
    | .envelope true rq =>
      have hd := session_dispatch type ha rq h
      rw [callback]
      generalize dispatch type app rq c = out at hd ⊢
      obtain ⟨c', reaction, status⟩ := out
      cases status with
      | true => exact ih hd
      | false => exact hd

/-! ### Runs -/

/-- What holds in every state reached. -/
structure Accounted (s : Service L) : Prop where
  counted : Counted s
  sessions : Sessions s

omit [DeferredList L] in
theorem accounted_remEventSource (h : Accounted s) : Accounted (s.remEventSource c) where
  counted := counted_remEventSource h.counted
  sessions := by
    unfold remEventSource
    split
    · rw [finalize_eq]
      exact h.sessions
    · exact h.sessions

omit [DeferredList L] in
theorem accounted_accept {type : CollectorType} {fd : Nat} {descriptor : Option Id} {now : UInt64}
    (h : Accounted s) : Accounted (s.accept cfg type fd descriptor now) where
  counted := counted_accept h.counted
  sessions := by
    cases descriptor with
    | none => exact h.sessions
    | some id =>
      have hrecord (d : ICollector) : Function.update s.record ⟨s.accepts, type, fd⟩ {descriptorId := id} d =
          if d = ⟨s.accepts, type, fd⟩ then {descriptorId := id} else s.record d := Function.update_apply ..
      simp only [accept, construct_eq]
      split
      all_goals
        intro d
        show (Function.update s.record _ _ d).sessionInfo = {} ∨ Promises (Function.update s.record _ _ d).sessionInfo
        rw [hrecord]
        split
        · exact .inl rfl
        · exact h.sessions d

omit [DeferredList L] in
theorem accounted_readable (ha : (cfg.app.withProcAcct && cfg.app.procAcct) = true) {received : List Received}
    {now : UInt64} (h : Accounted s) : Accounted (s.readable cfg c received now) := by
  unfold readable
  extract_lets out s₁ s₂
  have hs : Accounted s₂ := by
    have hs₁ : Accounted s₁ := by
      refine ⟨h.counted, fun d => ?_⟩
      show (Function.update s.record c out.collector d).sessionInfo = {} ∨
        Promises (Function.update s.record c out.collector d).sessionInfo
      rw [Function.update_apply]
      split
      · exact session_callback ha received (h.sessions c)
      · exact h.sessions d
    show Accounted (if _ then _ else s₁)
    split
    · exact ⟨hs₁.counted, hs₁.sessions⟩
    · exact hs₁
  split
  · exact hs
  · exact accounted_remEventSource hs

theorem accounted_handler (rq : StateManager.Request) (h : Accounted s) : Accounted (requestHandler cfg rq s) := by
  unfold requestHandler
  split
  · rw [doMonitorCollector, pushWakeLock_eq]
    exact ⟨h.counted, h.sessions⟩
  · rename_i c _ _
    rw [doRemoveCollector, pushWakeLock_eq]
    have hrem : Accounted (s.remEventSource c) := accounted_remEventSource h
    split
    · exact ⟨hrem.counted, hrem.sessions⟩
    · exact ⟨h.counted, h.sessions⟩
  · unfold doUpdateWakeLock
    split
    · exact ⟨h.counted, h.sessions⟩
    · exact h
  all_goals exact h

theorem accounted_step (ha : (cfg.app.withProcAcct && cfg.app.procAcct) = true) (hs : Accounted s)
    (h : step cfg s l = some t) : Accounted t := by
  cases stepped h with
  | accept => exact accounted_accept hs
  | readable => exact accounted_readable ha hs
  | collectorsTimer =>
    rw [collectorsTimer_eq]
    exact ⟨hs.counted, hs.sessions⟩
  | updateProcessList => exact ⟨hs.counted, hs.sessions⟩
  | handle => exact accounted_handler _ ⟨hs.counted, hs.sessions⟩
  | served => exact ⟨hs.counted, hs.sessions⟩
  | destroy =>
    unfold disconnect
    split <;> exact ⟨hs.counted, hs.sessions⟩

theorem accounted_start : Accounted (start cfg held : Service L) := ⟨rfl, fun _ => .inl rfl⟩

omit [DeferredList L] in
theorem issues_iff {env : Env} {e : ProcEntry} :
    s.Issues env e ↔ s.procAcctCollectorCounter ≠ 0 ∧ e.updateProcAcctPending = false := by
  unfold Issues ProcEntry.updateProcAcct
  by_cases h : s.procAcctCollectorCounter = 0
  · simp [h]
  · cases e.updateProcAcctPending <;> simp [h]

/-- **Accounting is collected as promised** exactly if a TCP collector is connected or no collector
that is connected has a session. -/
theorem accounting_collected_iff (ha : (cfg.app.withProcAcct && cfg.app.procAcct) = true)
    (h : Reaches (step cfg) (start cfg held : Service L) s) (hl : s.loop.length < 65536) :
    Collected s ↔ Refreshed s := by
  have hs : Accounted s := h.invariant (fun _ _ _ hs _ ht => accounted_step ha hs ht) accounted_start
  have hzero := hs.counted.eq_zero hl
  constructor
  · intro hc
    by_cases htcp : ∃ c ∈ s.loop, c.type = .TCP
    · exact .inl htcp
    · refine .inr fun c hmem => (hs.sessions c).resolve_right fun hp => ?_
      let env : Env := ⟨[], fun _ => ⟨none, none, none, none⟩, fun _ => true, fun _ => 0, [], 0, 0⟩
      have hissues := hc.promised ⟨c, hmem, hp⟩ env {pid := 1, info := {pid := 1}} rfl
      exact (issues_iff.mp hissues).1 (hzero.mpr fun d hd hd' => htcp ⟨d, hd, hd'⟩)
  · intro hr
    constructor
    · rintro ⟨c, hmem, hp⟩ env e hpending
      refine issues_iff.mpr ⟨fun h0 => ?_, hpending⟩
      rcases hr with ⟨d, hd, htcp⟩ | hempty
      · exact hzero.mp h0 d hd htcp
      · rw [hempty c hmem] at hp
        simp [Promises] at hp
    · intro hempty env e hissues
      refine (issues_iff.mp hissues).1 (hzero.mpr fun c hmem => ?_)
      rw [hempty] at hmem
      cases hmem

/-- A session over a Unix socket. -/
def unixSession : List Label :=
  [.accept .UDS 5 (some []) 0, .readable ⟨0, .UDS, 5⟩ [.envelope true (request .createSession)] 1]

/-- **A session over a Unix socket is promised accounting that nobody collects.** -/
theorem unix_session_unrefreshed :
    ∃ s, Reaches (step fullService) (start fullService false : Service Recorded) s ∧ s.loop.length < 65536 ∧
      ¬Collected s := by
  refine ⟨_, .of_run (meets_true _ _ unixSession) rfl, by decide, fun hc => ?_⟩
  let env : Env := ⟨[], fun _ => ⟨none, none, none, none⟩, fun _ => true, fun _ => 0, [], 0, 0⟩
  have hissues := hc.promised ⟨⟨0, .UDS, 5⟩, List.mem_cons_self .., .inr (.inr (by decide))⟩ env
    {pid := 1, info := {pid := 1}} rfl
  exact (issues_iff.mp hissues).1 rfl

/-- With a TCP collector beside it the session is refreshed. -/
theorem accounting_collected_beside_tcp :
    ∃ s, run (step fullService) (start fullService false : Service Recorded)
        (unixSession ++ [.accept .TCP 6 (some []) 2]) = some s ∧ Collected s := by
  refine ⟨_, rfl, (accounting_collected_iff rfl (.of_run (meets_true (step fullService) (start fullService false)
    (unixSession ++ [.accept .TCP 6 (some []) 2])) rfl) (by decide)).mpr (.inl ?_)⟩
  exact ⟨⟨1, .TCP, 6⟩, List.mem_cons_of_mem _ (List.mem_cons_self ..), rfl⟩

end TaskMonitor.Service

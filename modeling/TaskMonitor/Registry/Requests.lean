import TaskMonitor.Registry.Calls
import TaskMonitor.Registry.ContextTotals
import TaskMonitor.Event.System

/-! What collectors ask of the registry.

The queue of the registry holds what it asks of itself, commits of its lists, next to the requests of collectors.
`sends` is what the collectors have in it: no call but a push adds to it, and only a dispatch takes from it, the first,
and sends what it is due (`dispatch_replies`). -/
namespace TaskMonitor.Registry
open DeferredList

variable {L : Type → Type} [DeferredList L] {cfg : Config} {env : Env} {r t : Registry L} {c : Call}

/-- What is asked to be sent, and by which collector. -/
def Request.sends (rq : Request) : Option (Action × Option Nat) :=
  if System.isCommit rq.action then none else some (rq.action, rq.collector)

/-- The requests of collectors in the queue. -/
def sends (r : Registry L) : List (Action × Option Nat) := r.queue.filterMap Request.sends

/-- What a call asks to be sent. -/
def Call.sends : Call → List (Action × Option Nat)
  | .pushRequest rq => rq.sends.toList
  | _ => []

/-- What a call sends. -/
def Call.handles (r : Registry L) : Call → List (Action × Option Nat)
  | .dispatch => (r.queue.head?.bind Request.sends).toList
  | _ => []

omit [DeferredList L] in
/-- What is sent next is what was asked first. -/
theorem sends_head {asked : Action × Option Nat} (h : r.queue.head?.bind Request.sends = some asked) :
    ∃ rest, r.sends = asked :: rest := by
  obtain ⟨rq, hrq, hasked⟩ := Option.bind_eq_some_iff.mp h
  obtain ⟨more, hq⟩ := List.head?_eq_some_iff.mp hrq
  exact ⟨more.filterMap Request.sends, by rw [sends, hq, List.filterMap_cons_some hasked]⟩

omit [DeferredList L] in
theorem sends_pushRequest (rq : Request) (r : Registry L) : (r.pushRequest rq).sends = r.sends ++ rq.sends.toList := by
  rw [sends, pushRequest, List.filterMap_append]
  cases h : rq.sends <;> simp [sends, h]

omit [DeferredList L] in
/-- Through a fold of operations none of which asks or sends. -/
theorem sends_foldl {α : Type} {f : Registry L → α → Registry L} (hf : ∀ r a, (f r a).sends = r.sends) (as : List α)
    (r : Registry L) : (as.foldl f r).sends = r.sends := by
  induction as generalizing r with
  | nil => rfl
  | cons a rest ih => exact (ih (f r a)).trans (hf r a)

theorem sends_remEntries (which : ProcEntry → Bool) (sync : Bool) (r : Registry L) :
    (r.remEntries which sync).sends = r.sends := by
  have hfold : (foreach r.procList (fun r p => if which (r.procs p) then r.condemn p else r) r).sends = r.sends := by
    refine sends_foldl (fun r p => ?_) _ r
    split <;> rfl
  cases sync with
  | true => exact hfold
  | false => exact (sends_pushRequest ..).trans ((List.append_nil _).trans hfold)

theorem queue_initEntry (r : Registry L) (pid : Pid) : (initEntry cfg env r pid).queue = r.queue := by
  unfold initEntry
  split
  · rfl
  · split
    · rfl
    · unfold createProcessEntry
      split
      · rfl
      · dsimp only
        split <;> rfl

theorem queue_addProcEntry (r : Registry L) (pid : Pid) : (r.addProcEntry cfg env pid).queue = r.queue := by
  unfold addProcEntry
  split
  · rfl
  · exact queue_initEntry r pid

/-- A scan of procfs asks for nothing. -/
theorem queue_updateProcessList (r : Registry L) : (r.updateProcessList cfg env).queue = r.queue := by
  unfold updateProcessList
  induction env.pids generalizing r with
  | nil => rfl
  | cons pid rest ih => exact (ih (r.addProcEntry cfg env pid)).trans (queue_addProcEntry r pid)

theorem sends_updProcEntry (r : Registry L) (pid : Pid) : (r.updProcEntry cfg env pid).sends = r.sends := by
  refine sends_foldl (fun r p => ?_) _ r
  unfold updName
  repeat' split
  all_goals rfl

theorem sends_updateProcessList (r : Registry L) : (r.updateProcessList cfg env).sends = r.sends :=
  congrArg (List.filterMap Request.sends) (queue_updateProcessList r)

theorem sends_initFromProc (r : Registry L) : (r.initFromProc cfg env).sends = r.sends :=
  sends_foldl (fun r pid => congrArg (List.filterMap Request.sends) (queue_initEntry r pid)) _ r

theorem sends_storeUpdate (p : Ptr) (e : ProcEntry) (status : Bool) (r : Registry L) :
    (r.storeUpdate p e status).sends = r.sends := by
  cases status with
  | true => rfl
  | false => exact sends_remEntries (fun e' => e'.pid == e.pid) false (r.setProc p e)

theorem sends_update (r : Registry L) (lane : UpdateLane) : (r.update cfg env lane).sends = r.sends := by
  have hscan : (if eventDriven cfg then r else r.updateProcessList cfg env).sends = r.sends := by
    split
    · rfl
    · exact sends_updateProcessList r
  unfold update
  cases lane with
  | slow =>
    refine Eq.trans (sends_foldl (fun r p => ?_) _ _) hscan
    split
    · exact sends_storeUpdate ..
    · rfl
  | pace => exact (sends_foldl (fun _ _ => sends_storeUpdate ..) _ _).trans hscan
  | fast => exact hscan
  | any => exact hscan

theorem sends_processDelayAcct (record : Taskstats) (r : Registry L) : (r.processDelayAcct record).sends = r.sends := by
  unfold processDelayAcct
  split <;> rfl

theorem sends_requestHandler (rq : Request) (r : Registry L) : (requestHandler cfg rq r).1.sends = r.sends := by
  unfold requestHandler
  cases rq.action with
  | collectAndSendProcAcct =>
    simp only [doCollectAndSendProcAcct]
    split <;> rfl
  | collectAndSendContextInfo =>
    obtain ⟨_, _, _, hqueue⟩ := updateContext_procs r (items r.contextList)
    refine (sends_pushRequest ..).trans ((List.append_nil _).trans ?_)
    exact congrArg (List.filterMap Request.sends) hqueue
  | _ => rfl

/-- **The requests of collectors are a queue**, whatever else the registry asks of itself. -/
theorem sends_call (h : call cfg r c = some t) : r.sends ++ c.sends = c.handles r ++ t.sends := by
  cases c with
  | dispatch =>
    obtain ⟨rq, rest, hq, rfl⟩ := dispatch_some h
    rw [sends_requestHandler]
    simp only [Call.sends, Call.handles, sends, hq, List.head?_cons, Option.bind_some, List.append_nil]
    cases hs : rq.sends <;> simp [hs]
  | pushRequest rq =>
    obtain rfl := Option.some.inj h
    exact (sends_pushRequest rq r).symm
  | addProcEntry env pid =>
    obtain rfl := Option.some.inj h
    exact (List.append_nil _).trans (congrArg (List.filterMap Request.sends) (queue_addProcEntry r pid)).symm
  | updProcEntry env pid =>
    obtain rfl := Option.some.inj h
    exact (List.append_nil _).trans (sends_updProcEntry r pid).symm
  | remProcEntry pid sync =>
    obtain rfl := Option.some.inj h
    exact (List.append_nil _).trans (sends_remEntries _ sync r).symm
  | remProcEntryByName name sync =>
    obtain rfl := Option.some.inj h
    exact (List.append_nil _).trans (sends_remEntries _ sync r).symm
  | updateProcessList env =>
    obtain rfl := Option.some.inj h
    exact (List.append_nil _).trans (sends_updateProcessList r).symm
  | update env lane =>
    obtain rfl := Option.some.inj h
    exact (List.append_nil _).trans (sends_update r lane).symm

/-- What a request is due: the listed processes, the listed contexts with their totals, or the accounting of each process
that is listed. -/
def replies (cfg : Config) (r : Registry L) : Action → List Data
  | .collectAndSendProcInfo => [.procInfo (infos r)]
  | .collectAndSendContextInfo => [.contextInfo ((items r.contextList).map fun c => r.totals (r.contexts c))]
  | .collectAndSendProcAcct =>
    if cfg.withProcAcct && cfg.procAcct then (items r.procList).map fun p => .procAcct (r.procs p).acct else []
  | .commitProcList | .commitContextList => []

/-- **A request is sent what it is due**, where no context is listed twice. -/
theorem dispatch_replies {rq : Request} (hn : (items r.contextList).Nodup) (hq : r.queue.head? = some rq) :
    (r.dispatch cfg).map Prod.snd = some (replies cfg r rq.action) := by
  obtain ⟨rest, hqueue⟩ := List.head?_eq_some_iff.mp hq
  rw [dispatch, hqueue, Option.map_some, requestHandler]
  congr 1
  cases ha : rq.action with
  | collectAndSendContextInfo => exact answer_eq (r := {r with queue := rest}) hn
  | collectAndSendProcAcct =>
    simp only [doCollectAndSendProcAcct, replies]
    split <;> rfl
  | _ => rfl

end TaskMonitor.Registry

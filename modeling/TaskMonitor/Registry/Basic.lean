import TaskMonitor.Lib.DeferredList
import TaskMonitor.Registry.Entry
import Mathlib.Data.List.Infix

/-! The process registry (`ProcRegistry.cpp`).

Entries are objects behind shared pointers: `procs` and `contexts` say what a
pointer points to, the lists hold pointers, and `next` is one no object has yet.
A removal is recorded by pointer and takes effect at a commit, either at once or
through a request of the registry's own queue. -/
namespace TaskMonitor

abbrev Ptr := Nat

inductive UpdateLane where
  | fast | pace | slow | any
deriving Repr, DecidableEq

namespace Registry

inductive Action where
  | commitProcList | commitContextList
  | collectAndSendProcAcct | collectAndSendProcInfo | collectAndSendContextInfo
deriving Repr, DecidableEq

structure Request where
  action : Action
  /-- The collector to answer, if any. -/
  collector : Option Nat := none
deriving Repr, DecidableEq

/-- What is sent to a collector; the time stamps are left out. -/
inductive Data where
  | procAcct (acct : ProcAcct)
  | procInfo (entries : List ProcInfoEntry)
  | contextInfo (entries : List ContextInfoEntry)
deriving Repr, DecidableEq

end Registry

structure Registry (L : Type → Type) where
  procList : L Ptr
  contextList : L Ptr
  procs : Ptr → ProcEntry
  contexts : Ptr → ContextInfoEntry
  next : Ptr
  queue : List Registry.Request

namespace Registry
open DeferredList

variable {L : Type → Type} [DeferredList L]

/-- The registry as constructed. -/
def empty : Registry L where
  procList := DeferredList.empty
  contextList := DeferredList.empty
  procs := fun _ => {pid := 0, info := {}}
  contexts := fun _ => {}
  next := 0
  queue := []

def pushRequest (rq : Request) (r : Registry L) : Registry L := {r with queue := r.queue ++ [rq]}

/-- Assignment through a pointer to an entry. -/
def setProc (p : Ptr) (e : ProcEntry) (r : Registry L) : Registry L :=
  {r with procs := Function.update r.procs p e}

def setContext (c : Ptr) (e : ContextInfoEntry) (r : Registry L) : Registry L :=
  {r with contexts := Function.update r.contexts c e}

/-- `m_procList.remove` -/
def condemn (p : Ptr) (r : Registry L) : Registry L := {r with procList := remove r.procList p}

/-- `m_procList.commit` -/
def commitProcs (r : Registry L) : Registry L := {r with procList := commit r.procList}

/-- Whether some blacklist key occurs in the name. -/
def isBlacklisted (cfg : Config) (name : Name) : Bool :=
  cfg.blacklist.any fun key => decide (key <:+: name)

/-- `getProcNameForPID`: `none` where it throws. -/
def getProcNameForPID (env : Env) (pid : Pid) : Option Name := (env.files pid).status

/-- A new object in the list of processes. -/
def insertProc (e : ProcEntry) (r : Registry L) : Registry L :=
  {r with
    procs := Function.update r.procs r.next e
    procList := append r.procList r.next
    next := r.next + 1}

def hasContext (id : UInt64) (r : Registry L) : Bool :=
  (items r.contextList).any fun c => id == (r.contexts c).ctxId

/-- A new object in the list of contexts. -/
def insertContext (c : ContextInfoEntry) (r : Registry L) : Registry L :=
  {r with
    contexts := Function.update r.contexts r.next c
    contextList := append r.contextList r.next
    next := r.next + 1}

def createProcessEntry (cfg : Config) (env : Env) (pid : Pid) (name : Name) (r : Registry L) :
    Registry L :=
  match ProcEntry.make cfg env pid name with
  | none => r
  | some e =>
    let r := r.insertProc e
    if r.hasContext e.getContextId then r
    else r.insertContext (ContextInfoEntry.make e.info.ctxId e.info.ctxName)

/-- A pid directory found at start; unlike `addProcEntry`, no test for an entry. -/
def initEntry (cfg : Config) (env : Env) (r : Registry L) (pid : Pid) : Registry L :=
  match getProcNameForPID env pid with
  | none => r
  | some procName =>
    if isBlacklisted cfg procName then r else r.createProcessEntry cfg env pid procName

def initFromProc (cfg : Config) (env : Env) (r : Registry L) : Registry L :=
  env.pids.foldl (initEntry cfg env) r

def hasProc (pid : Pid) (r : Registry L) : Bool :=
  (items r.procList).any fun p => (r.procs p).pid == pid

/-- `getProcEntry`: the last entry listed under the pid. -/
def getProcEntry (pid : Pid) (r : Registry L) : Option Ptr :=
  foreach r.procList (fun retEntry p => if (r.procs p).pid == pid then some p else retEntry) none

def addProcEntry (cfg : Config) (env : Env) (pid : Pid) (r : Registry L) : Registry L :=
  if r.hasProc pid then r else initEntry cfg env r pid

/-- What an exec makes of one entry: the name is read again, and the entry goes
if the new name is blacklisted. -/
def updName (cfg : Config) (env : Env) (pid : Pid) (r : Registry L) (p : Ptr) : Registry L :=
  if (r.procs p).pid == pid then
    match getProcNameForPID env pid with
    | none => r
    | some procName =>
      if (r.procs p).getName == procName then r
      else if isBlacklisted cfg procName then r.condemn p
      else r.setProc p ((r.procs p).setName procName)
  else r

def updProcEntry (cfg : Config) (env : Env) (pid : Pid) (r : Registry L) : Registry L :=
  (foreach r.procList (updName cfg env pid) r).commitProcs

/-- Both forms of `remProcEntry`: every entry that satisfies `which` is recorded for
removal, and the commit is made at once or requested. -/
def remEntries (which : ProcEntry → Bool) (sync : Bool) (r : Registry L) : Registry L :=
  let r := foreach r.procList (fun r p => if which (r.procs p) then r.condemn p else r) r
  if sync then r.commitProcs else r.pushRequest {action := .commitProcList}

def remProcEntry (pid : Pid) (sync : Bool) (r : Registry L) : Registry L :=
  r.remEntries (fun e => e.pid == pid) sync

def remProcEntryByName (name : Name) (sync : Bool) (r : Registry L) : Registry L :=
  r.remEntries (fun e => e.getName == name) sync

def updateProcessList (cfg : Config) (env : Env) (r : Registry L) : Registry L :=
  env.pids.foldl (fun r pid => r.addProcEntry cfg env pid) r

/-! ### Lane updates -/

/-- The entry behind a pointer after an update with a status; one that failed is removed. -/
def storeUpdate (p : Ptr) (e : ProcEntry) (status : Bool) (r : Registry L) : Registry L :=
  let r := r.setProc p e
  if status then r else r.remProcEntry e.pid false

/-- `ProcEntry::updateProcInfo` -/
def updateProcInfo (cfg : Config) (env : Env) (r : Registry L) (p : Ptr) : Registry L :=
  let (e, status) := (r.procs p).updateProcInfo cfg env
  r.storeUpdate p e status

/-- `ProcEntry::updateProcAcct` -/
def updateProcAcct (env : Env) (r : Registry L) (p : Ptr) : Registry L :=
  let (e, _, status) := (r.procs p).updateProcAcct env
  r.storeUpdate p e status

/-- Whether process events stand in for the scan of procfs. -/
def eventDriven (cfg : Config) : Bool := cfg.withProcEvent && cfg.procEvent && cfg.updateOnProcEvent

def update (cfg : Config) (env : Env) (lane : UpdateLane) (r : Registry L) : Registry L :=
  let r := if eventDriven cfg then r else r.updateProcessList cfg env
  match lane with
  | .slow =>
    foreach r.procList
      (fun r p => if cfg.withProcAcct && cfg.procAcct then updateProcAcct env r p else r) r
  | .pace => foreach r.procList (updateProcInfo cfg env) r
  | .fast | .any => r

/-- A taskstats reply: the entry of its pid keeps the record, and may be asked about again. -/
def processDelayAcct (t : Taskstats) (r : Registry L) : Registry L :=
  match r.getProcEntry t.acPid.toNat with
  | none => r
  | some p => r.setProc p (((r.procs p).setAcct (.ofTaskstats t)).setUpdateProcAcctPending false)

/-! ### Requests -/

/-- The totals of one context over the listed processes, and whether any belongs to it. -/
def collectContext (r : Registry L) (c : ContextInfoEntry) : ContextInfoEntry × Bool :=
  foreach r.procList
    (fun (acc : ContextInfoEntry × Bool) p =>
      if acc.1.ctxId == (r.procs p).getContextId then (acc.1.add (r.procs p).info, true) else acc)
    (c.resetData, false)

/-- One context of a ContextInfo request: a context without processes is recorded for removal. -/
def updateContext (r : Registry L) (c : Ptr) : Registry L :=
  let (e, found) := r.collectContext (r.contexts c)
  let r := r.setContext c e
  if found then r else {r with contextList := remove r.contextList c}

def contextInfo (r : Registry L) : List ContextInfoEntry := (items r.contextList).map r.contexts

def doCollectAndSendContextInfo (r : Registry L) : Registry L × List Data :=
  let r := foreach r.contextList updateContext r
  let r := r.pushRequest {action := .commitContextList}
  (r, [.contextInfo r.contextInfo])

def doCollectAndSendProcInfo (r : Registry L) : Registry L × List Data :=
  (r, [.procInfo ((items r.procList).map fun p => (r.procs p).info)])

def doCollectAndSendProcAcct (cfg : Config) (r : Registry L) : Registry L × List Data :=
  if cfg.withProcAcct && cfg.procAcct then
    (r, (items r.procList).map fun p => .procAcct (r.procs p).acct)
  else (r, [])

def doCommitProcList (r : Registry L) : Registry L × List Data := (r.commitProcs, [])

def doCommitContextList (r : Registry L) : Registry L × List Data :=
  ({r with contextList := commit r.contextList}, [])

def requestHandler (cfg : Config) (rq : Request) (r : Registry L) : Registry L × List Data :=
  match rq.action with
  | .commitProcList => r.doCommitProcList
  | .commitContextList => r.doCommitContextList
  | .collectAndSendProcAcct => r.doCollectAndSendProcAcct cfg
  | .collectAndSendProcInfo => r.doCollectAndSendProcInfo
  | .collectAndSendContextInfo => r.doCollectAndSendContextInfo

/-- The queue hands its oldest request to the handler. -/
def dispatch (cfg : Config) (r : Registry L) : Option (Registry L × List Data) :=
  match r.queue with
  | [] => none
  | rq :: rest => some (requestHandler cfg rq {r with queue := rest})

end Registry
end TaskMonitor

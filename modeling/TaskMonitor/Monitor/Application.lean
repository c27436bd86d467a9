import TaskMonitor.Collector.Sessions
import TaskMonitor.Monitor.Basic
import TaskMonitor.Options.Intervals

/-! The application as it is constructed (`Application.cpp`, `IDataSource.h`).

The options and the machine say which modules there are, and whether the constructor
ends at all. Every data source gets a lane and the interval of the lane, and the timer
of a lane goes through all of them. What a session says of lanes and sources is what
the timers do, but for process events. -/
namespace TaskMonitor
open Text Options

/-- The switches of the build. -/
structure Build where
  withProcEvent : Bool
  withProcAcct : Bool
  withStartupData : Bool
  withVMStat : Bool
  withWakeLock : Bool
  libtkmVersion : List Char

/-- The machine at the start: its paths and hosts, and whether the constructors of modules get their sockets. -/
structure Machine where
  /-- `fs::exists`: `none` where it throws, for a path that cannot be looked up. -/
  fileExists : String → Option Bool
  tcpServer : Bool
  /-- The hosts that `gethostbyname` knows. -/
  knowsHost : List Char → Bool
  udsServer : Bool
  procEvent : Bool
  procAcct : Bool
  /-- Going through procfs does not throw. -/
  readsProc : Bool
  coreCount : UInt32

/-- A path is looked up where that is wanted. -/
def Machine.existsIf (wanted : Bool) (path : String) (machine : Machine) : Option Bool :=
  if wanted then machine.fileExists path else some false

@[simp] theorem Machine.existsIf_true (path : String) (machine : Machine) :
    machine.existsIf true path = machine.fileExists path := rfl

/-- The objects behind `IDataSource`. -/
inductive DataSourceName where
  | procRegistry
  | sysProc (m : SysProc)
deriving Repr, DecidableEq

structure IDataSource where
  source : DataSourceName
  updateInterval : UInt64 := 1000000
  updateLane : UpdateLane := .fast
deriving Repr, DecidableEq

namespace IDataSource

/-- An interval below a second is not taken. -/
def setUpdateInterval (interval : UInt64) (d : IDataSource) : IDataSource :=
  if interval ≥ 1000000 then {d with updateInterval := interval} else d

def setUpdateLane (lane : UpdateLane) (d : IDataSource) : IDataSource := {d with updateLane := lane}

/-- A source with its lane and its interval. -/
def make (source : DataSourceName) (lane : UpdateLane) (interval : UInt64) : IDataSource :=
  (setUpdateLane lane {source := source}).setUpdateInterval interval

end IDataSource

structure Application where
  build : Build
  machine : Machine
  fastLaneInterval : UInt64
  paceLaneInterval : UInt64
  slowLaneInterval : UInt64
  netServer : Bool
  udsServer : Bool
  procEvent : Bool
  procAcct : Bool
  /-- The timeout of the start-up data, where there is any. -/
  startupData : Option UInt64
  /-- The timeout of the state manager for collectors. -/
  collectorTimeout : UInt64
  dataSources : List IDataSource

namespace Application

def isProfMode (machine : Machine) (o : Options) : Option Bool :=
  let profCond := o.getFor .profModeIfPath
  machine.existsIf (decide (profCond ≠ "none".toList)) (String.ofList profCond)

def enabled (o : Options) (k : Key) : Bool := decide (o.getFor k = "true".toList)

/-- The sizes of the buffers of `ProcEvent`. -/
def eventBuffers (o : Options) : Bool := (stoi (o.getFor .txBufferSize)).isSome && (stoi (o.getFor .rxBufferSize)).isSome

/-- The sizes of the buffers of `ProcAcct`. -/
def acctBuffers (o : Options) : Bool :=
  (stol (o.getFor .msgBufferSize)).isSome && (stol (o.getFor .txBufferSize)).isSome &&
    (stol (o.getFor .rxBufferSize)).isSome

/-- The address of `TCPServer` can be filled in: where there is no such host, `bindAndListen` reads through a null pointer.
Whatever else it or `UDSServer::start` throws is caught. -/
def hostFound (machine : Machine) (o : Options) : Bool :=
  decide (o.getFor .tcpServerAddress = "any".toList) || machine.knowsHost (o.getFor .tcpServerAddress)

/-- Whether there is a module: it is made if it is wanted, and `none` is the exception of its constructor. -/
def make (wanted made : Bool) : Option Bool := if wanted then (if made then some true else none) else some false

/-- The timeout of the start-up data, which its constructor reads. -/
def makeStartupData (o : Options) (wanted : Bool) : Option (Option UInt64) :=
  if wanted then (stoul (o.getFor .startupDataCleanupTime)).map some else some none

/-- A source is made where its file exists. -/
def sourceIf (present : Bool) (m : SysProc) (lane : UpdateLane) (interval : UInt64) : List IDataSource :=
  if present then [.make (.sysProc m) lane interval] else []

/-- Whether there is pressure; the constructor of `SysProcPressure` then looks for its entries. -/
def makePressure (machine : Machine) : Option Bool := do
  let pressure ← machine.fileExists "/proc/pressure"
  let _ ← machine.existsIf pressure "/proc/pressure/cpu"
  let _ ← machine.existsIf pressure "/proc/pressure/memory"
  let _ ← machine.existsIf pressure "/proc/pressure/io"
  some pressure

/-- The files that are there. -/
def findSources (build : Build) (machine : Machine) (o : Options) : Option (SysProc → Bool) := do
  let stat ← machine.fileExists "/proc/stat"
  let memInfo ← machine.fileExists "/proc/meminfo"
  let pressure ← makePressure machine
  let diskStats ← machine.fileExists "/proc/diskstats"
  let buddyInfo ← machine.fileExists "/proc/buddyinfo"
  let wireless ← machine.fileExists "/proc/net/wireless"
  let vmStat ← machine.existsIf (build.withVMStat && enabled o .enableSysProcVMStat) "/proc/vmstat"
  some fun
    | .stat => stat
    | .memInfo => memInfo
    | .pressure => pressure
    | .diskStats => diskStats
    | .buddyInfo => buddyInfo
    | .wireless => wireless
    | .vmStat => vmStat

/-- The constructor: `none` where it throws, or crashes. -/
def new (build : Build) (machine : Machine) (o : Options) : Option Application := do
  let profModeEnabled ← isProfMode machine o
  let fast ← stoul (o.getFor (if profModeEnabled then .profModeFastLaneInt else .prodModeFastLaneInt))
  let pace ← stoul (o.getFor (if profModeEnabled then .profModePaceLaneInt else .prodModePaceLaneInt))
  let slow ← stoul (o.getFor (if profModeEnabled then .profModeSlowLaneInt else .prodModeSlowLaneInt))
  let netServer ← make (enabled o .enableTCPServer && profModeEnabled) (machine.tcpServer && hostFound machine o)
  let udsServer ← make (enabled o .enableUDSServer) machine.udsServer
  let procEvent ← make (build.withProcEvent && enabled o .enableProcEvent) (eventBuffers o && machine.procEvent)
  let procAcct ← make (build.withProcAcct && (enabled o .enableProcAcct && profModeEnabled))
    (acctBuffers o && machine.procAcct)
  let startupData ← makeStartupData o (build.withStartupData && (enabled o .enableStartupData && profModeEnabled))
  -- the state manager
  let collectorTimeout ← stoul (o.getFor .collectorInactiveTimeout)
  let _ ← machine.existsIf build.withWakeLock "/sys/power/wake_unlock"
  -- `initFromProc` of the registry
  let _ ← make (enabled o .readProcAtInit) machine.readsProc
  let there ← findSources build machine o
  some {
    build, machine, netServer, udsServer, procEvent, procAcct, startupData, collectorTimeout
    fastLaneInterval := fast
    paceLaneInterval := pace
    slowLaneInterval := slow
    dataSources :=
      [.make .procRegistry .any pace] ++
      sourceIf (there .stat) .stat .fast fast ++
      sourceIf (there .memInfo) .memInfo .fast fast ++
      sourceIf (there .pressure) .pressure .pace pace ++
      sourceIf (there .diskStats) .diskStats .pace pace ++
      sourceIf (there .buddyInfo) .buddyInfo .slow slow ++
      sourceIf (there .wireless) .wireless .slow slow ++
      sourceIf (there .vmStat) .vmStat .slow slow}

/-- Whether the pointer to the source is set. -/
def has (a : Application) (m : SysProc) : Bool := a.dataSources.any fun d => decide (d.source = .sysProc m)

/-- What the handlers of collectors read. -/
def app (a : Application) : App where
  withStartupData := a.build.withStartupData
  withProcEvent := a.build.withProcEvent
  withProcAcct := a.build.withProcAcct
  withVMStat := a.build.withVMStat
  startupData := a.startupData.isSome
  procEvent := a.procEvent
  procAcct := a.procAcct
  sysProcStat := a.has .stat
  sysProcMemInfo := a.has .memInfo
  sysProcPressure := a.has .pressure
  sysProcDiskStats := a.has .diskStats
  sysProcBuddyInfo := a.has .buddyInfo
  sysProcWireless := a.has .wireless
  sysProcVMStat := a.has .vmStat
  fastLaneInterval := a.fastLaneInterval
  paceLaneInterval := a.paceLaneInterval
  slowLaneInterval := a.slowLaneInterval
  collectorInactiveTimeout := a.collectorTimeout
  coreCount := a.machine.coreCount
  libtkmVersion := a.build.libtkmVersion

/-! ### The timers of the lanes -/

/-- A call of `update`, with the lane where it has one. -/
structure UpdateCall where
  source : DataSourceName
  lane : Option UpdateLane
deriving Repr, DecidableEq

/-- What the timer of a lane calls. -/
def laneTimer (lane : UpdateLane) (a : Application) : List UpdateCall :=
  a.dataSources.filterMap fun entry =>
    if entry.updateLane = lane then some ⟨entry.source, none⟩
    else if entry.updateLane = .any then some ⟨entry.source, some lane⟩
    else none

/-- What a call does to the sources; the registry is none of them. -/
def call {F C : Type} [Zero F] (pushed : SysProc → Bool) (s : Monitor F C) (c : UpdateCall) : Monitor F C :=
  match c.source with
  | .procRegistry => s
  | .sysProc m => {s with source := Function.update s.source m ((s.source m).update (pushed m)).1}

/-! ### Intervals -/

/-- The interval of a lane. -/
def laneInterval (a : Application) : UpdateLane → UInt64
  | .fast => a.fastLaneInterval
  -- the registry is on any lane and has the interval of processes
  | .pace | .any => a.paceLaneInterval
  | .slow => a.slowLaneInterval

/-- Whatever is configured, an interval option is a number of a second or more. -/
theorem stoul_getFor (o : Options) (k : IntervalKey) :
    ∃ n, stoul (o.getFor k.key) = some n ∧ (1000000 : UInt64) ≤ n := by
  have hmin : (1000000 : UInt64) ≤ k.documented.minimum := by cases k <;> decide
  have hdefault : (1000000 : UInt64) ≤ UInt64.ofNat (defaultInterval k) := by cases k <;> decide +kernel
  obtain ⟨file⟩ := o
  cases file with
  | none =>
    by_cases hk : k = .collectorInactiveTimeout
    · subst hk
      exact ⟨1000000, getFor_timeout_none, by decide⟩
    · rw [getFor_none hk, stoul_default]
      exact ⟨_, rfl, hdefault⟩
  | some file =>
    rw [getFor_file, stoul_intervalOf]
    cases file k.documented.sec k.documented.name with
    | none => exact ⟨_, rfl, hdefault⟩
    | some text =>
      dsimp only
      cases stoul text with
      | none => exact ⟨_, rfl, hdefault⟩
      | some n =>
        by_cases hn : n < k.documented.minimum
        · exact ⟨_, if_pos hn, hdefault⟩
        · exact ⟨n, if_neg hn, UInt64.le_trans hmin (UInt64.not_lt.mp hn)⟩

theorem stoul_lane (o : Options) (b : Bool) (prof prod : IntervalKey) :
    ∃ n, stoul (o.getFor (if b then prof.key else prod.key)) = some n ∧ (1000000 : UInt64) ≤ n := by
  cases b with
  | true => exact stoul_getFor o prof
  | false => exact stoul_getFor o prod

/-! ### The constructor -/

/-- The paths that are looked up for the sources, each where it is wanted. -/
def sourcePaths (build : Build) (machine : Machine) (o : Options) : List (Bool × String) :=
  let pressure := decide (machine.fileExists "/proc/pressure" = some true)
  [(true, "/proc/stat"), (true, "/proc/meminfo"), (true, "/proc/pressure"),
    (pressure, "/proc/pressure/cpu"), (pressure, "/proc/pressure/memory"), (pressure, "/proc/pressure/io"),
    (true, "/proc/diskstats"), (true, "/proc/buddyinfo"), (true, "/proc/net/wireless"),
    (build.withVMStat && enabled o .enableSysProcVMStat, "/proc/vmstat")]

/-- All that are looked up. -/
def lookedUp (build : Build) (machine : Machine) (o : Options) : List (Bool × String) :=
  (decide (o.getFor .profModeIfPath ≠ "none".toList), String.ofList (o.getFor .profModeIfPath)) ::
    (build.withWakeLock, "/sys/power/wake_unlock") :: sourcePaths build machine o

/-- Every path that is wanted can be looked up, and every module that is wanted gets what its constructor needs of the
machine. -/
structure Starts (build : Build) (machine : Machine) (o : Options) : Prop where
  paths : ∀ look ∈ lookedUp build machine o, (machine.existsIf look.1 look.2).isSome = true
  netServer : enabled o .enableTCPServer = true → isProfMode machine o = some true →
    machine.tcpServer = true ∧ hostFound machine o = true
  udsServer : enabled o .enableUDSServer = true → machine.udsServer = true
  procEvent : build.withProcEvent = true → enabled o .enableProcEvent = true →
    eventBuffers o = true ∧ machine.procEvent = true
  procAcct : build.withProcAcct = true → enabled o .enableProcAcct = true → isProfMode machine o = some true →
    acctBuffers o = true ∧ machine.procAcct = true
  registry : enabled o .readProcAtInit = true → machine.readsProc = true

/-- The sources in the order they are made. -/
def sysProcs : List SysProc := [.stat, .memInfo, .pressure, .diskStats, .buddyInfo, .wireless, .vmStat]

theorem mem_sysProcs (m : SysProc) : m ∈ sysProcs := by cases m <;> decide

theorem nodup_sysProcs : sysProcs.Nodup := by decide

/-- The data sources, each with its lane and its interval. -/
def sources (present : SysProc → Bool) (interval : UpdateLane → UInt64) : List IDataSource :=
  .make .procRegistry .any (interval .any) ::
    sysProcs.flatMap fun m => sourceIf (present m) m m.updateLane (interval m.updateLane)

variable {build : Build} {machine : Machine} {o : Options} {a : Application}

theorem make_eq_some {wanted made b : Bool} : make wanted made = some b ↔ (wanted = true → made = true) ∧ wanted = b := by
  cases wanted <;> cases made <;> simp [make]

theorem makeStartupData_some (o : Options) (wanted : Bool) : ∃ startup, makeStartupData o wanted = some startup := by
  obtain ⟨n, hn, _⟩ := stoul_getFor o .startupDataCleanupTime
  cases wanted with
  | true =>
    refine ⟨some n, ?_⟩
    rw [makeStartupData, if_pos rfl, show stoul (o.getFor .startupDataCleanupTime) = some n from hn]
    rfl
  | false => exact ⟨none, rfl⟩

theorem make_isSome {wanted made : Bool} (h : wanted = true → made = true) : make wanted made = some wanted :=
  make_eq_some.mpr ⟨h, rfl⟩

theorem findSources_some {there : SysProc → Bool} (h : findSources build machine o = some there) :
    (∀ look ∈ sourcePaths build machine o, (machine.existsIf look.1 look.2).isSome = true) ∧
      (there .vmStat = true → build.withVMStat = true) := by
  unfold findSources at h
  obtain ⟨stat, hstat, h⟩ := Option.bind_eq_some_iff.mp h
  obtain ⟨memInfo, hmemInfo, h⟩ := Option.bind_eq_some_iff.mp h
  obtain ⟨pressure, hpressure, h⟩ := Option.bind_eq_some_iff.mp h
  obtain ⟨diskStats, hdiskStats, h⟩ := Option.bind_eq_some_iff.mp h
  obtain ⟨buddyInfo, hbuddyInfo, h⟩ := Option.bind_eq_some_iff.mp h
  obtain ⟨wireless, hwireless, h⟩ := Option.bind_eq_some_iff.mp h
  obtain ⟨vmStat, hvmStat, h⟩ := Option.bind_eq_some_iff.mp h
  obtain rfl := Option.some.inj h
  unfold makePressure at hpressure
  obtain ⟨found, hfound, hpressure⟩ := Option.bind_eq_some_iff.mp hpressure
  obtain ⟨cpu, hcpu, hpressure⟩ := Option.bind_eq_some_iff.mp hpressure
  obtain ⟨memory, hmemory, hpressure⟩ := Option.bind_eq_some_iff.mp hpressure
  obtain ⟨io, hio, hpressure⟩ := Option.bind_eq_some_iff.mp hpressure
  obtain rfl := Option.some.inj hpressure
  refine ⟨?_, fun hvm => ?_⟩
  · simp [sourcePaths, hstat, hmemInfo, hfound, hcpu, hmemory, hio, hdiskStats, hbuddyInfo, hwireless, hvmStat]
  · obtain rfl : vmStat = true := hvm
    by_contra hb
    simp [Machine.existsIf, hb] at hvmStat

theorem findSources_isSome (h : ∀ look ∈ sourcePaths build machine o, (machine.existsIf look.1 look.2).isSome = true) :
    (findSources build machine o).isSome = true := by
  simp only [sourcePaths, List.forall_mem_cons, Machine.existsIf_true, Option.isSome_iff_exists] at h
  obtain ⟨⟨stat, hstat⟩, ⟨memInfo, hmemInfo⟩, ⟨pressure, hpressure⟩, ⟨cpu, hcpu⟩, ⟨memory, hmemory⟩, ⟨io, hio⟩,
    ⟨diskStats, hdiskStats⟩, ⟨buddyInfo, hbuddyInfo⟩, ⟨wireless, hwireless⟩, ⟨vmStat, hvmStat⟩, _⟩ := h
  simp only [hpressure, Option.some.injEq, Bool.decide_eq_true] at hcpu hmemory hio
  have hmake : makePressure machine = some pressure := by simp [makePressure, hpressure, hcpu, hmemory, hio]
  simp [findSources, hstat, hmemInfo, hmake, hdiskStats, hbuddyInfo, hwireless, hvmStat]

/-- The constructor ends where the application starts, and then makes what is there. -/
theorem new_some (h : new build machine o = some a) :
    Starts build machine o ∧ a.build = build ∧ (∀ lane, (1000000 : UInt64) ≤ a.laneInterval lane) ∧
      ∃ there, findSources build machine o = some there ∧ a.dataSources = sources there a.laneInterval := by
  unfold new at h
  obtain ⟨prof, hprof, h⟩ := Option.bind_eq_some_iff.mp h
  obtain ⟨fast, hfast, h⟩ := Option.bind_eq_some_iff.mp h
  obtain ⟨pace, hpace, h⟩ := Option.bind_eq_some_iff.mp h
  obtain ⟨slow, hslow, h⟩ := Option.bind_eq_some_iff.mp h
  obtain ⟨_, hnet, h⟩ := Option.bind_eq_some_iff.mp h
  obtain ⟨_, huds, h⟩ := Option.bind_eq_some_iff.mp h
  obtain ⟨_, hevent, h⟩ := Option.bind_eq_some_iff.mp h
  obtain ⟨_, hacct, h⟩ := Option.bind_eq_some_iff.mp h
  obtain ⟨_, _, h⟩ := Option.bind_eq_some_iff.mp h
  obtain ⟨_, _, h⟩ := Option.bind_eq_some_iff.mp h
  obtain ⟨_, hlock, h⟩ := Option.bind_eq_some_iff.mp h
  obtain ⟨_, hproc, h⟩ := Option.bind_eq_some_iff.mp h
  obtain ⟨there, hthere, h⟩ := Option.bind_eq_some_iff.mp h
  obtain rfl := Option.some.inj h
  have hnet := (make_eq_some.mp hnet).1
  have hevent := (make_eq_some.mp hevent).1
  have hacct := (make_eq_some.mp hacct).1
  have hprofiled (hp : isProfMode machine o = some true) : prof = true := Option.some.inj (hprof.symm.trans hp)
  refine ⟨⟨?_, fun he hp => ?_, (make_eq_some.mp huds).1, fun hb he => ?_, fun hb he hp => ?_,
    (make_eq_some.mp hproc).1⟩, rfl, fun lane => ?_, there, hthere, ?_⟩
  · simp only [lookedUp, List.forall_mem_cons]
    exact ⟨Option.isSome_iff_exists.mpr ⟨prof, hprof⟩, Option.isSome_iff_exists.mpr ⟨_, hlock⟩, (findSources_some hthere).1⟩
  · simpa using hnet (by simp [he, hprofiled hp])
  · simpa using hevent (by simp [hb, he])
  · simpa using hacct (by simp [hb, he, hprofiled hp])
  · obtain ⟨_, hfast', hfastMin⟩ := stoul_lane o prof .profModeFastLaneInt .prodModeFastLaneInt
    obtain ⟨_, hpace', hpaceMin⟩ := stoul_lane o prof .profModePaceLaneInt .prodModePaceLaneInt
    obtain ⟨_, hslow', hslowMin⟩ := stoul_lane o prof .profModeSlowLaneInt .prodModeSlowLaneInt
    obtain rfl := Option.some.inj (hfast.symm.trans hfast')
    obtain rfl := Option.some.inj (hpace.symm.trans hpace')
    obtain rfl := Option.some.inj (hslow.symm.trans hslow')
    cases lane <;> assumption
  · simp [sources, sysProcs, laneInterval, SysProc.updateLane]

theorem new_isSome (h : Starts build machine o) : (new build machine o).isSome = true := by
  have hpaths := h.paths
  simp only [lookedUp, List.forall_mem_cons, Option.isSome_iff_exists] at hpaths
  obtain ⟨⟨prof, hprof⟩, ⟨_, hlock⟩, hsources⟩ := hpaths
  have hprof : isProfMode machine o = some prof := hprof
  obtain ⟨there, hthere⟩ := Option.isSome_iff_exists.mp
    (findSources_isSome fun look hlook => Option.isSome_iff_exists.mpr (hsources look hlook))
  obtain ⟨fast, hfast, -⟩ := stoul_lane o prof .profModeFastLaneInt .prodModeFastLaneInt
  obtain ⟨pace, hpace, -⟩ := stoul_lane o prof .profModePaceLaneInt .prodModePaceLaneInt
  obtain ⟨slow, hslow, -⟩ := stoul_lane o prof .profModeSlowLaneInt .prodModeSlowLaneInt
  obtain ⟨timeout, htimeout, -⟩ := stoul_getFor o .collectorInactiveTimeout
  obtain ⟨startup, hstartup⟩ := makeStartupData_some o (build.withStartupData && (enabled o .enableStartupData && prof))
  have hnet (hw : (enabled o .enableTCPServer && prof) = true) : (machine.tcpServer && hostFound machine o) = true := by
    obtain ⟨he, rfl⟩ := Bool.and_eq_true_iff.mp hw
    exact Bool.and_eq_true_iff.mpr (h.netServer he hprof)
  have hevent (hw : (build.withProcEvent && enabled o .enableProcEvent) = true) :
      (eventBuffers o && machine.procEvent) = true := by
    obtain ⟨hb, he⟩ := Bool.and_eq_true_iff.mp hw
    exact Bool.and_eq_true_iff.mpr (h.procEvent hb he)
  have hacct (hw : (build.withProcAcct && (enabled o .enableProcAcct && prof)) = true) :
      (acctBuffers o && machine.procAcct) = true := by
    obtain ⟨hb, hep⟩ := Bool.and_eq_true_iff.mp hw
    obtain ⟨he, rfl⟩ := Bool.and_eq_true_iff.mp hep
    exact Bool.and_eq_true_iff.mpr (h.procAcct hb he hprof)
  simp only [IntervalKey.key] at hfast hpace hslow htimeout
  simp [new, hprof, hfast, hpace, hslow, htimeout, make_isSome hnet, make_isSome h.udsServer, make_isSome hevent,
    make_isSome hacct, hstartup, hlock, make_isSome h.registry, hthere]

/-- **No interval stops the start**: the application is constructed exactly where each path that is wanted can be looked
up, and each module that is wanted made. -/
theorem new_isSome_iff (build : Build) (machine : Machine) (o : Options) :
    (new build machine o).isSome = true ↔ Starts build machine o := by
  refine ⟨fun h => ?_, new_isSome⟩
  obtain ⟨a, ha⟩ := Option.isSome_iff_exists.mp h
  exact (new_some ha).1

/-! ### Lanes, timers and sessions -/

theorem mem_sourceIf {present : Bool} {m : SysProc} {lane : UpdateLane} {interval : UInt64} {d : IDataSource} :
    d ∈ sourceIf present m lane interval ↔ present = true ∧ d = .make (.sysProc m) lane interval := by
  cases present <;> simp [sourceIf]

theorem make_source (source : DataSourceName) (lane : UpdateLane) (interval : UInt64) :
    (IDataSource.make source lane interval).source = source ∧ (IDataSource.make source lane interval).updateLane = lane := by
  unfold IDataSource.make IDataSource.setUpdateInterval
  split <;> exact ⟨rfl, rfl⟩

theorem has_sources {present : SysProc → Bool} (h : a.dataSources = sources present a.laneInterval) (m : SysProc) :
    a.has m = present m := by
  rw [Bool.eq_iff_iff, has, List.any_eq_true, h]
  constructor
  · intro hany
    obtain ⟨d, hd, hm⟩ := hany
    rw [decide_eq_true_iff] at hm
    rcases List.mem_cons.mp hd with rfl | hd
    · rw [(make_source ..).1] at hm
      cases hm
    · obtain ⟨m', _, hd⟩ := List.mem_flatMap.mp hd
      obtain ⟨hp, rfl⟩ := mem_sourceIf.mp hd
      rw [(make_source ..).1] at hm
      cases hm
      exact hp
  · intro hp
    refine ⟨_, List.mem_cons_of_mem _ (List.mem_flatMap.mpr ⟨m, mem_sysProcs m, mem_sourceIf.mpr ⟨hp, rfl⟩⟩), ?_⟩
    rw [(make_source ..).1]
    exact decide_eq_true rfl

/-- What the timer of a lane calls of the sources that there are. -/
theorem filterMap_sources (lane : UpdateLane) (present : SysProc → Bool) (interval : UpdateLane → UInt64)
    (ms : List SysProc) :
    (ms.flatMap fun m => sourceIf (present m) m m.updateLane (interval m.updateLane)).filterMap
        (fun entry => if entry.updateLane = lane then some (⟨entry.source, none⟩ : UpdateCall)
          else if entry.updateLane = .any then some ⟨entry.source, some lane⟩ else none) =
      (ms.filter fun m => present m && decide (m.updateLane = lane)).map fun m => ⟨.sysProc m, none⟩ := by
  induction ms with
  | nil => rfl
  | cons m rest ih =>
    have hany : m.updateLane ≠ .any := by cases m <;> decide
    rw [List.flatMap_cons, List.filterMap_append, ih]
    cases hp : present m with
    | false => simp [sourceIf, hp]
    | true =>
      by_cases hl : m.updateLane = lane
      · simp [sourceIf, hp, hl, make_source]
      · simp [sourceIf, hp, hl, hany, make_source]

/-- The calls of a lane's timer: the registry, and the sources of the lane. -/
theorem laneTimer_eq {present : SysProc → Bool} (h : a.dataSources = sources present a.laneInterval) {lane : UpdateLane}
    (hl : lane ≠ .any) :
    laneTimer lane a = ⟨.procRegistry, some lane⟩ ::
      (sysProcs.filter fun m => present m && decide (m.updateLane = lane)).map fun m => ⟨.sysProc m, none⟩ := by
  rw [laneTimer, h, sources, List.filterMap_cons, filterMap_sources]
  simp [make_source, Ne.symm hl]

/-- The sources are those that the handlers of collectors find. -/
theorem new_sources (h : new build machine o = some a) :
    a.dataSources = sources (fun m => m.present a.app) a.laneInterval := by
  obtain ⟨-, hbuild, -, there, hthere, hsources⟩ := new_some h
  have hsame : (fun m : SysProc => m.present a.app) = there := by
    funext m
    rw [← has_sources hsources m]
    cases m with
    | vmStat =>
      rw [Bool.eq_iff_iff]
      refine ⟨fun hp => (Bool.and_eq_true_iff.mp hp).2, fun hm => Bool.and_eq_true_iff.mpr ⟨?_, hm⟩⟩
      rw [has_sources hsources] at hm
      show a.build.withVMStat = true
      rw [hbuild]
      exact (findSources_some hthere).2 hm
    | _ => rfl
  rw [hsame, hsources]

/-- Calls to distinct sources update each of them once. -/
theorem foldl_call {F C : Type} [Zero F] (pushed : SysProc → Bool) {ms : List SysProc} (hn : ms.Nodup) (s : Monitor F C) :
    (ms.map fun m => (⟨.sysProc m, none⟩ : UpdateCall)).foldl (call pushed) s =
      {s with source := fun m => if m ∈ ms then ((s.source m).update (pushed m)).1 else s.source m} := by
  induction ms generalizing s with
  | nil => simp
  | cons m rest ih =>
    obtain ⟨hm, hrest⟩ := List.nodup_cons.mp hn
    rw [List.map_cons, List.foldl_cons, ih hrest]
    simp only [call]
    congr 1
    funext m'
    by_cases he : m' = m
    · subst he
      simp [hm]
    · simp [he]

/-- **The timer of a lane is a tick**: going through all data sources, it updates each source of the lane once, and no
other. -/
theorem laneTimer_tick {F C : Type} [Zero F] (h : new build machine o = some a) {lane : UpdateLane} (hl : lane ≠ .any)
    (pushed : SysProc → Bool) (s : Monitor F C) :
    (laneTimer lane a).foldl (call pushed) s = s.tick a.app lane pushed := by
  rw [laneTimer_eq (new_sources h) hl, List.foldl_cons]
  show List.foldl (call pushed) s _ = _
  rw [foldl_call pushed (nodup_sysProcs.filter _)]
  simp only [Monitor.tick, List.mem_filter, mem_sysProcs, true_and]

/-- A machine with all files and sockets. -/
def fullMachine : Machine := ⟨fun _ => some true, true, fun _ => true, true, true, true, true, 4⟩

def fullBuild : Build := ⟨true, true, true, true, true, ['2']⟩

theorem laneTimer_tick_pace :
    ∃ a, new fullBuild fullMachine ⟨none⟩ = some a ∧
      (laneTimer .pace a).foldl (call fun _ => true) (Monitor.start a.app fun _ => true : Monitor Nat Nat) =
        (Monitor.start a.app fun _ => true : Monitor Nat Nat).tick a.app .pace fun _ => true := by
  obtain ⟨a, ha⟩ := Option.isSome_iff_exists.mp (by decide +kernel : (new fullBuild fullMachine ⟨none⟩).isSome = true)
  exact ⟨a, ha, laneTimer_tick ha (by decide) _ _⟩

end Application

namespace Application
open Collector

variable {build : Build} {machine : Machine} {o : Options} {a : Application}

end Application
end TaskMonitor

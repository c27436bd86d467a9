import TaskMonitor.Lib.Text

/-! The options of the daemon (`Options.cpp`, `Defaults.h.in`).

An option is a property of the configuration file, or its default. Intervals are
checked: a text that is no number, or a number below the minimum, is replaced by
the default. A configuration file is what it says of a section and a name; the
placeholders that the build fills in are left out of the table of defaults. -/
namespace TaskMonitor
open Text

namespace Defaults

inductive Default where
  | logLevel | containersPath | runtimeDirectory | rxBufferSize | txBufferSize | msgBufferSize
  | enableProcEvent | enableProcAcct | enableTCPServer | enableUDSServer | enableStartupData
  | enableProcFDCount | enableSysProcVMStat | updateOnProcEvent | startupDataCleanupTime
  | prodModeFastLaneInt | prodModePaceLaneInt | prodModeSlowLaneInt
  | profModeFastLaneInt | profModePaceLaneInt | profModeSlowLaneInt
  | profModeIfPath | selfLowerPriority | readProcAtInit | tcpServerAddress | tcpServerPort
  | udsServerSocketPath | collectorInactiveTimeout | udsMonitorCollectorInactivity | tcpActiveWakeLock
deriving Repr, DecidableEq

def table : Default → String
  | .logLevel => "info"
  | .containersPath => "/var/lib/lxc"
  | .runtimeDirectory => "/run/taskmonitor"
  | .rxBufferSize => "524288"
  | .txBufferSize => "524288"
  | .msgBufferSize => "1048576"
  | .prodModeFastLaneInt => "10000000"
  | .prodModePaceLaneInt => "30000000"
  | .prodModeSlowLaneInt => "60000000"
  | .profModeFastLaneInt => "1000000"
  | .profModePaceLaneInt => "5000000"
  | .profModeSlowLaneInt => "10000000"
  | .profModeIfPath => "none"
  | .selfLowerPriority => "true"
  | .readProcAtInit => "true"
  | .enableProcEvent => "true"
  | .enableProcAcct => "true"
  | .enableTCPServer => "true"
  | .enableUDSServer => "false"
  | .enableStartupData => "false"
  | .enableProcFDCount => "false"
  | .enableSysProcVMStat => "false"
  | .updateOnProcEvent => "true"
  | .startupDataCleanupTime => "60000000"
  | .tcpServerAddress => "localhost"
  | .tcpServerPort => "3357"
  | .udsServerSocketPath => "/run/taskmonitor/taskmonitor.sock"
  | .collectorInactiveTimeout => "10000000"
  | .udsMonitorCollectorInactivity => "false"
  | .tcpActiveWakeLock => "false"

def getFor (d : Default) : List Char := (table d).toList

end Defaults

open Defaults (Default)

/-- What a parsed file says of a section and a name. -/
abbrev KeyFile := String → String → Option (List Char)

/-- The configuration file, if it could be parsed. -/
structure Options where
  configFile : Option KeyFile

namespace Options

inductive Key where
  | runtimeDirectory | logLevel | containersPath | rxBufferSize | txBufferSize | msgBufferSize
  | prodModeFastLaneInt | prodModePaceLaneInt | prodModeSlowLaneInt
  | profModeFastLaneInt | profModePaceLaneInt | profModeSlowLaneInt
  | profModeIfPath | selfLowerPriority | readProcAtInit | enableProcEvent | enableProcAcct
  | enableTCPServer | enableUDSServer | enableStartupData | enableProcFDCount | enableSysProcVMStat
  | updateOnProcEvent | startupDataCleanupTime | tcpServerAddress | tcpServerPort
  | udsServerSocketPath | collectorInactiveTimeout | udsMonitorCollectorInactivity | tcpActiveWakeLock
deriving Repr, DecidableEq

/-- An option taken as it is. -/
def property (o : Options) (sec name : String) (d : Default) : List Char :=
  match o.configFile with
  | some file => (file sec name).getD (Defaults.getFor d)
  | none => Defaults.getFor d

/-- An interval of a configuration file: the default for one that does not pass the check. -/
def intervalOf (file : KeyFile) (sec name : String) (d : Default) (minimum : UInt64) : List Char :=
  let prop := file sec name
  match stoul (prop.getD (Defaults.getFor d)) with
  | some interval => if interval < minimum then Defaults.getFor d else prop.getD (Defaults.getFor d)
  | none => Defaults.getFor d

/-- An interval option. -/
def interval (o : Options) (sec name : String) (d : Default) (minimum : UInt64) : List Char :=
  match o.configFile with
  | some file => intervalOf file sec name d minimum
  | none => Defaults.getFor d

def getFor (o : Options) : Key → List Char
  | .runtimeDirectory => o.property "monitor" "RuntimeDirectory" .runtimeDirectory
  | .logLevel => o.property "monitor" "LogLevel" .logLevel
  | .containersPath => o.property "monitor" "ContainersPath" .containersPath
  | .rxBufferSize => o.property "monitor" "RxBufferSize" .rxBufferSize
  | .txBufferSize => o.property "monitor" "TxBufferSize" .txBufferSize
  | .msgBufferSize => o.property "monitor" "MsgBufferSize" .msgBufferSize
  | .prodModeFastLaneInt => o.interval "production-mode" "FastLaneInterval" .prodModeFastLaneInt 1000000
  | .prodModePaceLaneInt => o.interval "production-mode" "PaceLaneInterval" .prodModePaceLaneInt 1000000
  | .prodModeSlowLaneInt => o.interval "production-mode" "SlowLaneInterval" .prodModeSlowLaneInt 1000000
  | .profModeFastLaneInt => o.interval "profiling-mode" "FastLaneInterval" .profModeFastLaneInt 1000000
  | .profModePaceLaneInt => o.interval "profiling-mode" "PaceLaneInterval" .profModePaceLaneInt 1000000
  | .profModeSlowLaneInt => o.interval "profiling-mode" "SlowLaneInterval" .profModeSlowLaneInt 1000000
  | .profModeIfPath => o.property "monitor" "ProfModeIfPath" .profModeIfPath
  | .selfLowerPriority => o.property "monitor" "SelfLowerPriority" .selfLowerPriority
  | .readProcAtInit => o.property "monitor" "ReadProcAtInit" .readProcAtInit
  | .enableProcEvent => o.property "monitor" "EnableProcEvent" .enableProcEvent
  | .enableProcAcct => o.property "monitor" "EnableProcAcct" .enableProcAcct
  | .enableTCPServer => o.property "monitor" "EnableTCPServer" .enableTCPServer
  | .enableUDSServer => o.property "monitor" "EnableUDSServer" .enableUDSServer
  | .enableStartupData => o.property "monitor" "EnableStartupData" .enableStartupData
  | .enableProcFDCount => o.property "monitor" "EnableProcFDCount" .enableProcFDCount
  | .enableSysProcVMStat => o.property "monitor" "EnableSysProcVMStat" .enableSysProcVMStat
  | .updateOnProcEvent => o.property "monitor" "UpdateOnProcEvent" .updateOnProcEvent
  | .collectorInactiveTimeout =>
    match o.configFile with
    | some file => intervalOf file "monitor" "CollectorInactiveTimeout" .collectorInactiveTimeout 3000000
    -- the default of another key
    | none => Defaults.getFor .profModeFastLaneInt
  | .startupDataCleanupTime =>
    o.interval "profiling-mode" "StartupDataCleanupTime" .startupDataCleanupTime 1000000
  | .tcpServerAddress => o.property "tcpserver" "ServerAddress" .tcpServerAddress
  | .tcpServerPort => o.property "tcpserver" "ServerPort" .tcpServerPort
  | .tcpActiveWakeLock => o.property "tcpserver" "ActiveWakeLock" .tcpActiveWakeLock
  | .udsServerSocketPath => o.property "udsserver" "SocketPath" .udsServerSocketPath
  | .udsMonitorCollectorInactivity =>
    o.property "udsserver" "MonitorCollectorInactivity" .udsMonitorCollectorInactivity

end Options
end TaskMonitor

import EkKor.Lib.Runs
import EkKor.Jezgro.Mpu

/-!
# The reincarnation server (`jezgro_reincarnation.c`)

It starts, stops and restarts the services and watches their heartbeats.

* `ServiceInfo`, `Stats`, `Server`             the data;
* `doStartService`, `doStopService`, `handleCrash`   what happens to one service;
* `checkHeartbeats`, `checkPendingRestart`     the loops of a tick;
* `Call`, `server`                             the calls, from an initialised server and unit.

The clocks that a call reads are arguments of the call.
-/

namespace EkKor
namespace Jezgro
open Runs (Machine)

/-! ## types -/

/-- `JEZGRO_RS_MAX_SERVICES` -/
abbrev rsMaxServices : Nat := 8

/-- `JEZGRO_RS_HEARTBEAT_INTERVAL_MS` -/
abbrev heartbeatIntervalMs : UInt32 := 20

/-- `JEZGRO_RS_HEARTBEAT_TIMEOUT_MS` -/
abbrev heartbeatTimeoutMs : UInt32 := 50

/-- `JEZGRO_RS_MAX_RESTART_ATTEMPTS` -/
abbrev maxRestartAttempts : UInt8 := 5

/-- `JEZGRO_RS_RESTART_BACKOFF_MS` -/
abbrev restartBackoffMs : UInt32 := 100

/-- `jezgro_service_state_t` -/
inductive ServiceState where
  | init
  | starting
  | running
  | stopping
  | crashed
  | dead
  deriving DecidableEq, Repr

/-- `jezgro_crash_reason_t` -/
inductive CrashReason where
  | none
  | mpuFault
  | heartbeat
  | exception
  | panic
  | watchdog
  | requested
  deriving DecidableEq, Repr

/-- `jezgro_service_info_t`, without the name -/
structure ServiceInfo where
  id : UInt8
  state : ServiceState
  desc : ServiceDesc
  critical : Bool
  autoRestart : Bool
  lastHeartbeatMs : UInt32
  missedHeartbeats : UInt8
  restartCount : UInt8
  consecutiveCrashes : UInt8
  lastCrash : CrashReason
  lastCrashTimeMs : UInt32
  startTimeMs : UInt32
  totalUptimeMs : UInt32
  lastRestartDurationMs : UInt32
  deriving DecidableEq, Repr

/-- `jezgro_rs_stats_t` -/
structure Stats where
  totalRestarts : UInt32
  mpuFaults : UInt32
  heartbeatTimeouts : UInt32
  avgRestartTimeUs : UInt32
  maxRestartTimeUs : UInt32
  minRestartTimeUs : UInt32
  servicesRunning : UInt8
  servicesDead : UInt8
  deriving DecidableEq, Repr

def Stats.zero : Stats := ⟨0, 0, 0, 0, 0, 0, 0, 0⟩

/-- the variables of the file, and the protection unit -/
structure Server where
  services : List ServiceInfo
  isRunning : Bool
  crashCallback : Bool
  stats : Stats
  lastHeartbeatCheckMs : UInt32
  mpu : Mpu

/-- `jezgro_endpoint_t`, those that a start registers -/
inductive Endpoint where
  | roj
  | llc
  | diagnostics
  deriving DecidableEq, Repr

/-- what a call does outside: the start of the service in a slot of the table, the registration of
an endpoint, the shutdown message, the callback, and the result -/
inductive Output where
  | starting (i : Nat)
  | registerEndpoint (ep : Endpoint) (serviceId : UInt8)
  | notify (serviceId : UInt8)
  | crashed (serviceId : UInt8) (reason : CrashReason)
  | result (res : Except Err Unit)
  deriving DecidableEq, Repr

def Server.put (s : Server) (i : Nat) (svc : ServiceInfo) : Server :=
  { s with services := s.services.set i svc }

/-! ## one service -/

/-- `find_service`, the index -/
def findService (s : Server) (serviceId : UInt8) : Option Nat :=
  s.services.findIdx? fun svc => svc.id == serviceId

/-- the statistics after a start that took `took` microseconds -/
def Stats.started (stats : Stats) (took : UInt32) : Stats :=
  { stats with
    servicesRunning := stats.servicesRunning + 1
    minRestartTimeUs :=
      if stats.minRestartTimeUs = 0 ∨ took < stats.minRestartTimeUs then took
      else stats.minRestartTimeUs
    maxRestartTimeUs :=
      if took > stats.maxRestartTimeUs then took else stats.maxRestartTimeUs
    avgRestartTimeUs :=
      if stats.avgRestartTimeUs = 0 then took else (stats.avgRestartTimeUs * 3 + took) / 4 }

def endpointOf (serviceId : UInt8) : Endpoint :=
  if serviceId = 2 then .llc else if serviceId = 4 then .diagnostics else .roj

/-- the service is running since `nowMs` -/
def ServiceInfo.started (svc : ServiceInfo) (nowMs took : UInt32) : ServiceInfo :=
  { svc with
    state := .running
    startTimeMs := nowMs
    lastHeartbeatMs := nowMs
    missedHeartbeats := 0
    lastRestartDurationMs := took / 1000 }

/-- `do_start_service`; the state stays `starting` when the unit has no room -/
def doStartService (s : Server) (i : Nat) (svc : ServiceInfo) (nowMs took : UInt32) :
    Except Err Unit × Server × List Output :=
  let starting := { svc with state := .starting }
  match registerService s.mpu svc.desc with
  | (.error err, mpu) => (.error err, { s.put i starting with mpu := mpu }, [.starting i])
  | (.ok (), mpu) =>
    (.ok (),
      { s.put i (starting.started nowMs took) with
        mpu := (switchContext mpu svc.id).2
        stats := s.stats.started took },
      [.starting i, .registerEndpoint (endpointOf svc.id) svc.id])

def ServiceInfo.uptime (svc : ServiceInfo) (nowMs : UInt32) : UInt32 :=
  if svc.startTimeMs > 0 then svc.totalUptimeMs + (nowMs - svc.startTimeMs)
  else svc.totalUptimeMs

/-- `do_stop_service` -/
def doStopService (s : Server) (i : Nat) (svc : ServiceInfo) (graceful : Bool) (nowMs : UInt32) :
    Server × List Output :=
  ({ s.put i { svc with totalUptimeMs := svc.uptime nowMs, state := .init } with
      stats := { s.stats with servicesRunning := s.stats.servicesRunning - 1 } },
    if graceful = true ∧ svc.state = .running then [.notify svc.id] else [])

def ServiceInfo.crash (svc : ServiceInfo) (reason : CrashReason) (nowMs : UInt32) :
    ServiceInfo :=
  { svc with
    state := .crashed
    lastCrash := reason
    lastCrashTimeMs := nowMs
    consecutiveCrashes := svc.consecutiveCrashes + 1
    restartCount := svc.restartCount + 1
    totalUptimeMs := svc.uptime nowMs }

def Stats.crash (stats : Stats) (reason : CrashReason) : Stats :=
  { stats with
    totalRestarts := stats.totalRestarts + 1
    servicesRunning := stats.servicesRunning - 1
    mpuFaults := if reason = .mpuFault then stats.mpuFaults + 1 else stats.mpuFaults
    heartbeatTimeouts :=
      if reason = .heartbeat then stats.heartbeatTimeouts + 1 else stats.heartbeatTimeouts }

/-- `backoff_ms` -/
def ServiceInfo.backoffMs (svc : ServiceInfo) : UInt32 :=
  restartBackoffMs * svc.consecutiveCrashes.toUInt32

/-- `handle_crash` -/
def handleCrash (s : Server) (i : Nat) (svc : ServiceInfo) (reason : CrashReason)
    (nowMs took : UInt32) : Server × List Output :=
  let svc := svc.crash reason nowMs
  let s := { s.put i svc with stats := s.stats.crash reason }
  let out := if s.crashCallback then [Output.crashed svc.id reason] else []
  if !svc.autoRestart then (s, out)
  else if svc.consecutiveCrashes ≥ maxRestartAttempts then
    ({ s.put i { svc with state := .dead } with
        stats := { s.stats with servicesDead := s.stats.servicesDead + 1 } }, out)
  else if svc.backoffMs = 0 then
    let r := doStartService s i svc nowMs took
    (r.2.1, out ++ r.2.2)
  else (s, out)

/-! ## a tick -/

def eachSlot (body : Server → Nat → ServiceInfo → Server × List Output) :
    Server → List Nat → Server × List Output
  | s, [] => (s, [])
  | s, i :: rest =>
    match s.services[i]? with
    | none => eachSlot body s rest
    | some svc =>
      let r := body s i svc
      let r' := eachSlot body r.1 rest
      (r'.1, r.2 ++ r'.2)

def Server.slots (s : Server) : List Nat := List.range s.services.length

def ServiceInfo.overdue (svc : ServiceInfo) (nowMs : UInt32) : Bool :=
  nowMs - svc.lastHeartbeatMs > heartbeatTimeoutMs

/-- the body of `check_heartbeats` -/
def checkHeartbeat (nowMs : UInt32) (took : Nat → UInt32) (s : Server) (i : Nat)
    (svc : ServiceInfo) : Server × List Output :=
  if svc.state ≠ .running then (s, [])
  else if svc.overdue nowMs then
    let svc := { svc with missedHeartbeats := svc.missedHeartbeats + 1 }
    if svc.missedHeartbeats ≥ 3 then handleCrash s i svc .heartbeat nowMs (took i)
    else (s.put i svc, [])
  else (s, [])

def ServiceInfo.isDue (svc : ServiceInfo) (nowMs : UInt32) : Bool :=
  svc.state == .crashed && nowMs - svc.lastCrashTimeMs ≥ svc.backoffMs

/-- the body of `check_pending_restarts` -/
def checkPendingRestart (nowMs : UInt32) (took : Nat → UInt32) (s : Server) (i : Nat)
    (svc : ServiceInfo) : Server × List Output :=
  if svc.isDue nowMs then (doStartService s i svc nowMs (took i)).2 else (s, [])

def Server.checksHeartbeats (s : Server) (nowMs : UInt32) : Bool :=
  nowMs - s.lastHeartbeatCheckMs ≥ heartbeatIntervalMs

/-- the first half of `jezgro_rs_tick` -/
def checkHeartbeats (s : Server) (nowMs : UInt32) (took : Nat → UInt32) :
    Server × List Output :=
  if s.checksHeartbeats nowMs then
    let r := eachSlot (checkHeartbeat nowMs took) s s.slots
    ({ r.1 with lastHeartbeatCheckMs := nowMs }, r.2)
  else (s, [])

/-- `jezgro_rs_tick`; `took i` is the time that a start of slot `i` takes -/
def tick (s : Server) (nowMs : UInt32) (took : Nat → UInt32) : Server × List Output :=
  if !s.isRunning then (s, [])
  else
    let r := checkHeartbeats s nowMs took
    let r' := eachSlot (checkPendingRestart nowMs took) r.1 r.1.slots
    (r'.1, r.2 ++ r'.2)

/-! ## the API -/

/-- after `jezgro_rs_init`, with the protection unit initialised -/
def Server.start : Server where
  services := []
  isRunning := false
  crashCallback := false
  stats := Stats.zero
  lastHeartbeatCheckMs := 0
  mpu := (init Mpu.reset).2

/-- `jezgro_rs_start` -/
def rsStart (s : Server) (nowMs : UInt32) : Server :=
  { s with isRunning := true, lastHeartbeatCheckMs := nowMs }

/-- the body of the loop of `jezgro_rs_stop` -/
def stopIfRunning (nowMs : Nat → UInt32) (s : Server) (i : Nat) (svc : ServiceInfo) :
    Server × List Output :=
  if svc.state = .running then doStopService s i svc true (nowMs i) else (s, [])

/-- `jezgro_rs_stop` -/
def rsStop (s : Server) (nowMs : Nat → UInt32) : Server × List Output :=
  eachSlot (stopIfRunning nowMs) { s with isRunning := false } s.slots

/-- a new slot of the table; `jezgro_rs_init` has set what the registration leaves -/
def newService (desc : ServiceDesc) (critical autoRestart : Bool) : ServiceInfo where
  id := desc.id
  state := .init
  desc := desc
  critical := critical
  autoRestart := autoRestart
  lastHeartbeatMs := 0
  missedHeartbeats := 0
  restartCount := 0
  consecutiveCrashes := 0
  lastCrash := .none
  lastCrashTimeMs := 0
  startTimeMs := 0
  totalUptimeMs := 0
  lastRestartDurationMs := 0

/-- `jezgro_rs_register_service` -/
def rsRegisterService (s : Server) (desc : ServiceDesc) (critical autoRestart : Bool) :
    Except Err Unit × Server :=
  if s.services.length ≥ rsMaxServices then (.error .limit, s)
  else (.ok (), { s with services := s.services ++ [newService desc critical autoRestart] })

/-- `jezgro_rs_start_service`, for the service in slot `i` -/
def startService (s : Server) (i : Nat) (svc : ServiceInfo) (nowMs took : UInt32) :
    Except Err Unit × Server × List Output :=
  if svc.state = .running then (.ok (), s, [])
  else if svc.state = .dead then (.error .invalidArg, s, [])
  else doStartService s i { svc with consecutiveCrashes := 0 } nowMs took

def ServiceInfo.requested (svc : ServiceInfo) (nowMs : UInt32) : ServiceInfo :=
  { svc with state := .crashed, lastCrash := .requested, lastCrashTimeMs := nowMs }

/-- `jezgro_rs_restart_service`, for the service in slot `i` -/
def restartService (s : Server) (i : Nat) (svc : ServiceInfo) (stopMs crashMs nowMs took : UInt32) :
    Except Err Unit × Server × List Output :=
  if svc.state = .running then
    let stopped := { svc with totalUptimeMs := svc.uptime stopMs, state := .init }
    doStartService (doStopService s i svc false stopMs).1 i (stopped.requested crashMs) nowMs took
  else doStartService s i (svc.requested crashMs) nowMs took

def ServiceInfo.heard (svc : ServiceInfo) (nowMs : UInt32) : ServiceInfo :=
  { svc with
    lastHeartbeatMs := nowMs
    missedHeartbeats := 0
    consecutiveCrashes := if svc.consecutiveCrashes > 0 then 0 else svc.consecutiveCrashes }

/-- `jezgro_rs_reset_stats` -/
def Stats.reset (stats : Stats) : Stats :=
  { Stats.zero with
    servicesRunning := stats.servicesRunning
    servicesDead := stats.servicesDead }

/-- the calls, with the clocks they read -/
inductive Call where
  | start (nowMs : UInt32)
  | stop (nowMs : Nat → UInt32)
  | registerService (desc : ServiceDesc) (critical autoRestart : Bool)
  | startService (serviceId : UInt8) (nowMs took : UInt32)
  | stopService (serviceId : UInt8) (graceful : Bool) (nowMs : UInt32)
  | restartService (serviceId : UInt8) (stopMs crashMs nowMs took : UInt32)
  | tick (nowMs : UInt32) (took : Nat → UInt32)
  | heartbeat (serviceId : UInt8) (nowMs : UInt32)
  | reportCrash (serviceId : UInt8) (reason : CrashReason) (nowMs took : UInt32)
  | setCrashCallback (installed : Bool)
  | resetStats

def withService (s : Server) (serviceId : UInt8) (missing : List Output)
    (f : Nat → ServiceInfo → Server × List Output) : Server × List Output :=
  match findService s serviceId with
  | none => (s, missing)
  | some i =>
    match s.services[i]? with
    | none => (s, missing)
    | some svc => f i svc

def withResult (r : Except Err Unit × Server × List Output) : Server × List Output :=
  (r.2.1, r.2.2 ++ [.result r.1])

def call (s : Server) : Call → Server × List Output
  | .start nowMs => (rsStart s nowMs, [])
  | .stop nowMs => rsStop s nowMs
  | .registerService desc critical autoRestart =>
    let r := rsRegisterService s desc critical autoRestart
    (r.2, [.result r.1])
  | .startService serviceId nowMs took =>
    withService s serviceId [.result (.error .notFound)] fun i svc =>
      withResult (startService s i svc nowMs took)
  | .stopService serviceId graceful nowMs =>
    withService s serviceId [.result (.error .notFound)] fun i svc =>
      let r := doStopService s i svc graceful nowMs
      (r.1, r.2 ++ [.result (.ok ())])
  | .restartService serviceId stopMs crashMs nowMs took =>
    withService s serviceId [.result (.error .notFound)] fun i svc =>
      withResult (restartService s i svc stopMs crashMs nowMs took)
  | .tick nowMs took => tick s nowMs took
  | .heartbeat serviceId nowMs =>
    withService s serviceId [] fun i svc => (s.put i (svc.heard nowMs), [])
  | .reportCrash serviceId reason nowMs took =>
    withService s serviceId [] fun i svc => handleCrash s i svc reason nowMs took
  | .setCrashCallback installed => ({ s with crashCallback := installed }, [])
  | .resetStats => ({ s with stats := s.stats.reset }, [])

def server : Machine Server Call Output := ⟨Server.start, call⟩

end Jezgro
end EkKor

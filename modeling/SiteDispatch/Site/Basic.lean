/-
  SiteDispatch.Site.Basic

  A site at work: storage devices, their scheduler, the forecasts it uses, a
  counterparty that may refuse publications, and a household with a solar
  installation as they really behave. One clock is shared by all.
-/

import SiteDispatch.Forecast.Profile
import SiteDispatch.Scheduler.Event
import SiteDispatch.Scheduler.Periodic
import SiteDispatch.Site.Metering
import SiteDispatch.Transport.Local

namespace SiteDispatch

/-- A site at an instant. -/
structure Site where
  now : Int
  devices : StorageDevices
  scheduler : Scheduler
  forecasts : ForecastEngine
  /-- Why the counterparty refuses publications. -/
  refusal : Option String
  /-- Publications accepted so far, oldest first. -/
  published : List Publication
  load : Forecaster
  sun : Forecaster
  meters : Meters
  statuses : PeriodicStatuses

namespace Site

/-- What the scheduler works with at present. -/
def surroundings (s : Site) : Surroundings StorageDevices where
  now := s.now
  transport := StorageDevices.transport s.now
  forecasts := s.forecasts
  publisher := fun _ => match s.refusal with
    | some reason => .error reason
    | none => .ok ()

/-- What the scheduler may change. -/
def run (s : Site) : SchedulerRun StorageDevices := ⟨s.scheduler, s.devices, s.published⟩

/-- The site after the scheduler has handled something. -/
def after (s : Site) (r : SchedulerRun StorageDevices) : Site :=
  { s with scheduler := r.scheduler, devices := r.devices, published := r.published }

/-- The site with another scheduler. -/
def withScheduler (s : Site) (f : Scheduler → Scheduler) : Site :=
  { s with scheduler := f s.scheduler }

/-! ## Requests to the scheduler -/

/-- Passes an event to the scheduler. -/
def handle (s : Site) (event : SchedulerEvent) : Except Halt Site := do
  return s.after (← s.run.handle s.surroundings event)

/-- Plans all devices anew. -/
def optimize (s : Site) :
    Except Halt (Except SchedulingFailure (Option TargetSolution) × Site) := do
  let (outcome, r) ← s.run.optimize s.surroundings
  return (outcome, s.after r)

/-- Optimises a window and publishes the schedule found. -/
def publish (s : Site) (request : PublicationRequest) :
    Except Halt (Except SchedulingFailure Unit × Site) := do
  let (outcome, r) ← s.run.publish s.surroundings request
  return (outcome, s.after r)

/-- What the scheduler queues when it starts. -/
def startup (s : Site) : Site := s.withScheduler (·.startup s.now)

/-- Queues incomplete publications again and counts them. -/
def retry (s : Site) : Nat × Site :=
  let (count, scheduler) := s.scheduler.retryIncomplete s.now
  (count, { s with scheduler := scheduler })

/-- Most jobs that are run in a row. -/
def mostJobs : Nat := 16

/-- Runs the jobs that are due. -/
def runDue (s : Site) : Except Halt (List Job × Site) := do
  let (jobs, r) ← SchedulerRun.runDue s.surroundings mostJobs s.run
  return (jobs, s.after r)

/-! ## Requests to devices -/

/-- Makes a call to a device. -/
def call {α : Type} (s : Site) (request : Transport StorageDevices → DeviceCall StorageDevices α) :
    Except Halt (Except TransportError α × Site) := do
  let (reply, devices) ← request (StorageDevices.transport s.now) s.devices
  return (reply.answer, { s with devices := devices })

/-- One maintenance pass of a device. The scheduler is told what it changed. -/
def maintain (s : Site) (id : DeviceId) : Except Halt (Except StoreError Unit × Site) :=
  match s.devices.get? id with
  | none => .ok (.ok (), s)
  | some device =>
    match device.maintain s.now with
    | .error (.halted halt) => .error halt
    | .error e => .ok (.error e, s)
    | .ok (events, device) => do
      let s := { s with devices := s.devices.insert id device }
      let s ← events.foldlM (fun s event =>
        match event with
        | .scheduleChanged device _ => s.handle (.flexibilitiesChanged device)) s
      return (.ok (), s)

/-- Sets the state of charge of a device and what keeps its store from reading it. -/
def tamper (s : Site) (id : DeviceId) (charge : Option Float) (fault : Option String) : Site :=
  match s.devices.get? id with
  | none => s
  | some device => { s with devices := s.devices.insert id (device.tamper charge fault) }

/-! ## Simulation -/

/-- Present power of a forecaster in W. -/
def powerNow (f : Forecaster) (kind : ForecastKind) (now : Int) : Except String Float := do
  let forecast ← f kind now (now + 1)
  match forecast.values.head? with
  | some watts => return watts
  | none => throw s!"empty {kind.text} profile at {now}"

/-- Agreed power of the site in W, 0 without a target. -/
def agreedPower (s : Site) : Float :=
  match s.scheduler.state.targetInForce? s.now with
  | none => 0.0
  | some target =>
    Float.ofInt ((Scheduler.agreedAt? target s.now).getD 0) * 3600.0
      / Float.ofInt (max target.slotLength 1)

/-- Runs the devices with the given ids at their committed setpoints and adds up
    their powers. -/
def runDevices (now : Int) (seconds : Float) :
    List DeviceId → Float → StorageDevices → Except Halt (Float × StorageDevices)
  | [], sum, devices => .ok (sum, devices)
  | id :: rest, sum, devices =>
    match devices.get? id with
    | none => runDevices now seconds rest sum devices
    | some device => do
      let device ← device.run (Float.ofInt (device.store.state.powerAt now)) seconds
      runDevices now seconds rest (sum + device.battery.power) (devices.insert id device)

/-- Lets the site run for `seconds` as it does at present. -/
def tick (s : Site) (seconds : Nat) : Except Halt (Except String Unit × Site) :=
  let now := s.now
  match powerNow s.load .consumption now, powerNow s.sun .production now with
  | .error reason, _ => .ok (.error reason, s)
  | .ok _, .error reason => .ok (.error reason, s)
  | .ok consumption, .ok production => do
    let duration := Float.ofNat seconds
    let (battery, devices) ← runDevices now duration s.devices.keys 0.0 s.devices
    let power : MonitoringData := ⟨consumption, production, battery, s.agreedPower⟩
    return (.ok (), { s with devices := devices, meters := s.meters.count power duration })

/-- Reads the meters. -/
def sample (s : Site) : Except String MonitoringData × Site :=
  (match s.meters.average? with
    | some data => .ok data
    | none => .error "no site measurements since the last sample",
    { s with meters := Meters.reset })

/-! ## Repeated tasks -/

/-- Reads the meters and corrects running tasks, if a target is in force. Answers
    whether one was. -/
def monitoringTick (s : Site) : Except Halt (Bool × Site) :=
  if s.scheduler.hasTarget s.now then do
    let (reading, s) := s.sample
    let s ← match reading with
      | .ok data => s.handle (.monitoring data)
      | .error _ => .ok s
    let statuses := { s.statuses with
      monitoring := s.statuses.monitoring.note s.now (reading.map fun _ => ()) }
    return (true, { s with statuses := statuses })
  else .ok (false, s)

/-- Queues the publication of the next day. -/
def queueDayAhead (s : Site) : Site :=
  let s := s.withScheduler fun scheduler =>
    scheduler.queuePublication (scheduler.dayAheadWindow s.now) s.now
  { s with statuses := { s.statuses with
      publication := s.statuses.publication.note s.now (.ok ()) } }

/-- Asks for the optimisation at the start of a day. -/
def queueMidnight (s : Site) : Site :=
  let s := s.withScheduler (·.queueTargetOptimization true s.now)
  { s with statuses := { s.statuses with midnight := s.statuses.midnight.note s.now (.ok ()) } }

/-! ## Start -/

/-- A site with devices, scheduler and meters as they come up on their files. -/
def restart (s : Site) : Site :=
  { s with
    devices := s.devices.mapValues fun _ device => device.restart
    scheduler := s.scheduler.restart
    meters := Meters.reset
    statuses := PeriodicStatuses.fresh }

end Site
end SiteDispatch

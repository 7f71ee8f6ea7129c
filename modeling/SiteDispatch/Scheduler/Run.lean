/-
  SiteDispatch.Scheduler.Run

  What the scheduler works with while it handles a request: the clock, the
  devices, the forecasts and the counterparty to which schedules are published.
-/

import SiteDispatch.Forecast.Engine
import SiteDispatch.Planning.Optimization
import SiteDispatch.Scheduler.Basic
import SiteDispatch.Transport.Retrieval

namespace SiteDispatch

/-- A schedule and the flexibility around it as given to the counterparty. -/
structure Publication where
  kind : PublicationKind
  schedule : PublicSchedule
  flexibility : PublicFlexibility
deriving DecidableEq

/-- Takes a publication or says why not. -/
abbrev Publisher := Publication → Except String Unit

/-- What does not change while a request is handled. -/
structure Surroundings (σ : Type) where
  now : Int
  transport : Transport σ
  forecasts : ForecastEngine
  publisher : Publisher

/-- What may change while a request is handled. -/
structure SchedulerRun (σ : Type) where
  scheduler : Scheduler
  devices : σ
  /-- Publications accepted so far, oldest first. -/
  published : List Publication

/-- Why a window was not optimised or not published. -/
inductive SchedulingFailure
  | forecast (cause : ForecastError)
  | targetCompliance (cause : OptimizationError)
  | selfConsumption (cause : OptimizationError)
  | publication (reason : String)
deriving DecidableEq

/-- The failed step and its cause. -/
def SchedulingFailure.message : SchedulingFailure → String
  | forecast cause => cause.message
  | targetCompliance cause => s!"target schedule optimization failed: {cause.message}"
  | selfConsumption cause => s!"self-consumption optimization failed: {cause.message}"
  | publication reason => s!"schedule publication failed: {reason}"

/-- Demand and production in Wh per slot. -/
def ForecastEngine.both (e : ForecastEngine) (start slotLength : Int) (slots : Nat) :
    Except SchedulingFailure (List Int × List Int) :=
  match e.demand start slotLength slots, e.supply start slotLength slots with
  | .error cause, _ => .error (.forecast cause)
  | .ok _, .error cause => .error (.forecast cause)
  | .ok demand, .ok production => .ok (demand, production)

/-- Retrieves the schedules of the devices to be planned. -/
def SchedulerRun.retrieve {σ : Type} (env : Surroundings σ) (start stop : Int)
    (r : SchedulerRun σ) : Except Halt (Schedules × SchedulerRun σ) := do
  let c := r.scheduler.config
  let (retrieval, devices) ←
    SiteDispatch.retrieve env.transport.toScheduleSource c.callLimit c.lanes c.providers start stop
      r.devices
  return (retrieval.schedules, { r with devices := devices })

end SiteDispatch

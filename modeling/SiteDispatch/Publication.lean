/-
  SiteDispatch.Publication

  Requests to optimise a window and publish the schedule found for it.
-/

namespace SiteDispatch

/-- What is published. -/
inductive PublicationKind
  /-- Day-ahead schedule, becomes the target once accepted. -/
  | initialSchedule
  | scheduleUpdate
deriving DecidableEq, Repr, Inhabited

namespace PublicationKind

/-- Both kinds. -/
def all : List PublicationKind := [initialSchedule, scheduleUpdate]

/-- The name of a kind. -/
def name : PublicationKind → String
  | initialSchedule => "InitialSchedule"
  | scheduleUpdate => "ScheduleUpdate"

/-- The kind of a name. -/
def ofName? (s : String) : Option PublicationKind := all.find? (fun k => k.name = s)

end PublicationKind

/-- Window of a schedule to be optimised and published. -/
structure PublicationRequest where
  kind : PublicationKind
  start : Int
  stop : Int
deriving DecidableEq, Repr, Inhabited

end SiteDispatch

import CommandDesk.Grade
import CommandDesk.Hack.Standard
import CommandDesk.Worded

/-!
# Progress and milestones

Progress is counted towards a total. Each milestone is a percentage with the
hack that is due there. Milestones are pending until the percentage is reached,
and then injected or skipped. The percentage is computed in grades, so it can be
read exactly or as it runs.
-/

namespace CommandDesk

/-- How far a milestone has come. -/
inductive MilestoneStatus where
  | pending
  | reached
  | injected
  | skipped
  deriving DecidableEq, Repr, Inhabited

instance : Worded MilestoneStatus where
  all := [.pending, .reached, .injected, .skipped]
  word
    | .pending => "pending"
    | .reached => "reached"
    | .injected => "injected"
    | .skipped => "skipped"

/-- A percentage of progress with the hack that is due there. -/
structure Milestone where
  percentage : UInt32
  hackId : Option String
  status : MilestoneStatus := .pending
  /-- Whether the time of reaching it is on record. -/
  reachedStamp : Bool := false
  /-- Whether the time of the injection is on record. -/
  injectedStamp : Bool := false
  deriving DecidableEq

namespace Milestone

/-- The sign of the status. -/
def indicator (m : Milestone) : Char :=
  match m.status with
  | .injected => '●'
  | .reached => '◐'
  | .pending | .skipped => '○'

/-- The milestone once it is reached. -/
def reach (m : Milestone) : Milestone := { m with status := .reached, reachedStamp := true }

/-- The milestone once its hack is injected. -/
def inject (m : Milestone) : Milestone := { m with status := .injected, injectedStamp := true }

/-- The milestone once it is skipped. -/
def skip (m : Milestone) : Milestone := { m with status := .skipped }

/-- The percentages of the milestones. -/
def percentages : List UInt32 := [20, 40, 60, 80, 100]

/-- The pending milestones of a set of hacks. -/
def initial (hacks : HackSet) : List Milestone :=
  percentages.map fun p =>
    { percentage := p, hackId := (hacks.atMilestone? p).map (·.id) }

/-- Change the first milestone at a percentage. -/
def changeAt (percentage : UInt32) (f : Milestone → Milestone) : List Milestone → List Milestone
  | [] => []
  | m :: ms =>
    if m.percentage = percentage then f m :: ms else m :: changeAt percentage f ms

end Milestone

/-- Progress towards a total. -/
structure Progress where
  hacks : HackSet
  current : UInt64
  total : UInt64
  milestones : List Milestone
  deriving DecidableEq

namespace Progress

/-- No progress yet, towards one hundred. -/
def ofHacks (hacks : HackSet) : Progress := ⟨hacks, 0, 100, Milestone.initial hacks⟩

/-- The progress of the hacks that a project starts with. -/
def standard : Progress := ofHacks .standard

/-- Start over towards a new total. -/
def setTotal (p : Progress) (total : UInt64) : Progress :=
  { p with total, current := 0, milestones := Milestone.initial p.hacks }

/-- Start over towards the same total. -/
def reset (p : Progress) : Progress :=
  { p with current := 0, milestones := Milestone.initial p.hacks }

section

variable (α : Type) [Grade α]

/-- The percentage of the total, zero if the total is. -/
def percentage (p : Progress) : α :=
  if p.total = 0 then 0.0
  else Grade.ofNat p.current.toNat / Grade.ofNat p.total.toNat * 100.0

/-- Whether a milestone is pending although the percentage has reached it. -/
def isDue (p : Progress) (m : Milestone) : Bool :=
  m.status == .pending && !(p.percentage α < Grade.ofNat m.percentage.toNat)

/-- The hack of a milestone, if it is enabled. -/
def hackOf? (p : Progress) (m : Milestone) : Option Hack :=
  (m.hackId.filter p.hacks.isEnabled).bind p.hacks.get?

/-- Record progress: every milestone that is due becomes reached. -/
def update (p : Progress) (current : UInt64) : Progress :=
  let p := { p with current }
  { p with milestones := p.milestones.map fun m => if p.isDue α m then m.reach else m }

/-- The hack that recording progress hands out: that of the first milestone that becomes reached
and has an enabled hack. -/
def due? (p : Progress) (current : UInt64) : Option Hack :=
  let p := { p with current }
  p.milestones.findSome? fun m => if p.isDue α m then p.hackOf? m else none

/-- The count after more progress, or the largest word where it does not fit. -/
def advanced (p : Progress) (amount : UInt64) : UInt64 :=
  UInt64.ofNat (min (p.current.toNat + amount.toNat) (UInt64.size - 1))

/-- Whether the total is reached. -/
def isComplete (p : Progress) : Bool := (100.0 : α) ≤ p.percentage α

/-- The progress on one line. -/
def indicator (p : Progress) : String :=
  let marks := p.milestones.map fun m =>
    Decimal.natString m.percentage.toNat ++ m.indicator.toString
  "[" ++ Decimal.natString (Grade.whole (p.percentage α)).toNat ++ "%] "
    ++ " ".intercalate marks

end

/-- Change the milestone at a percentage, and say whether there is one. -/
def changeMilestone (p : Progress) (percentage : UInt32) (f : Milestone → Milestone) :
    Progress × Bool :=
  ({ p with milestones := Milestone.changeAt percentage f p.milestones },
    p.milestones.any (·.percentage = percentage))

/-- Note that the hack at a percentage was injected. -/
def markInjected (p : Progress) (percentage : UInt32) : Progress × Bool :=
  p.changeMilestone percentage .inject

/-- Skip the milestone at a percentage. -/
def skip (p : Progress) (percentage : UInt32) : Progress × Bool :=
  p.changeMilestone percentage .skip

/-- How many milestones have a status. -/
def count (p : Progress) (status : MilestoneStatus) : Nat :=
  (p.milestones.filter (·.status = status)).length

/-- How many hacks were injected. -/
def injectedCount (p : Progress) : Nat := p.count .injected

/-- How many milestones are pending. -/
def remainingCount (p : Progress) : Nat := p.count .pending

end Progress

end CommandDesk

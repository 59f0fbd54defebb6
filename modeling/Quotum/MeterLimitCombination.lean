import Quotum.Decimal
import Quotum.MeterLimitSources

/-! The limit that a feature's sources combine to, as text: their quantities are read from the database at the feature's scale. -/

namespace Quotum.MeterLimitCombination
open Decimal MeterLimitSources

/-- The rows that combine once an account pays for one of them. -/
def paidLimits (sources : List MeterLimitRow) : List MeterLimitRow :=
  (sources.filter fun row => row.itemKind == .meterLimit).filter fun row => row.subscriptionId.isSome

/-- The newest base plan, or the newest add-on when no base plan limits the feature. -/
def anchorOf (paid : List MeterLimitRow) : Option MeterLimitRow :=
  let newestFirst := paid.insertionSort fun left right => right.sortAt ≤ left.sortAt
  (newestFirst.find? fun row => row.planKind == .base).or newestFirst.head?

/-- Whether a paid row's quantity counts: the anchor's own, and those of the add-ons that join its window. -/
def counts (anchor row : MeterLimitRow) : Bool :=
  decide (row = anchor) || (row.planKind == .addon && meterLimitsJoin anchor row)

def readQuantity (scale : Nat) (row : MeterLimitRow) : Except Failure Text :=
  databaseDecimal (columnText row.quantity) "meter limit" scale

def addQuantity (scale : Nat) (units : Nat) (row : MeterLimitRow) : Except Failure Nat := do
  let quantity ← readQuantity scale row
  let more ← decimalToUnits quantity scale
  return units + more

/-- The source whose window, overage policy and price the limit takes, and the quantity it allows. -/
def combineMeterLimits (sources : List MeterLimitRow) (scale : Nat) : Except Failure (Option (MeterLimitRow × Text)) :=
  let candidates := sources.filter fun row => row.itemKind == .meterLimit
  let paid := paidLimits sources
  if paid = [] then
    match candidates.head? with
    | none => .ok none
    | some first => do
      let quantity ← readQuantity scale first
      return some (first, quantity)
  else
    match anchorOf paid with
    | none => .ok none
    | some anchor => do
      let units ← (paid.filter (counts anchor)).foldlM (addQuantity scale) 0
      return some (anchor, unitsToDecimal units scale)

/-- Whether an unlimited usage source lifts the cap. A plan grant's does not count once the account pays for a source, and a limit that
allows overage has no cap to lift. -/
def unlimitedLiftsCap (sources : List MeterLimitRow) (anchor : Option MeterLimitRow) : Bool :=
  let unlimited := sources.filter fun row => row.itemKind == .unlimitedUsage &&
    anchor.all fun anchor => row.allocationScope == anchor.allocationScope
  let counted := if sources.any fun row => row.subscriptionId.isSome then unlimited.filter fun row => row.subscriptionId.isSome else unlimited
  !counted.isEmpty && anchor.all fun anchor => anchor.overagePolicy == .blocked

end Quotum.MeterLimitCombination

import LiveHighlight.Token.Display

/-! Regions: the half-open offset ranges that multi-line constructs take up in a text. -/

namespace LiveHighlight

structure Region where
  start : Nat
  stop : Nat
  construct : Construct
  deriving DecidableEq, Repr

namespace Region

/-- Whether the region and a half-open range overlap. -/
def meets (region : Region) (start stop : Nat) : Bool :=
  region.start < stop && start < region.stop

/-- Order of two regions that do not overlap; overlapping ones count as equal. -/
def probe (a b : Region) : Ordering :=
  if a.meets b.start b.stop then .eq
  else (compare a.start b.start).then (compare a.stop b.stop)

/-- An offset moved by a distance. It stops at zero and at the largest offset. -/
def shiftOffset (offset : Nat) (distance : Int) : Nat :=
  min ((offset : Int) + distance).toNat maxOffset

def shift (region : Region) (distance : Int) : Region :=
  { region with
    start := shiftOffset region.start distance
    stop := shiftOffset region.stop distance }

def display (region : Region) : String :=
  region.construct.name ++ "[" ++ toString region.start ++ ", " ++ toString region.stop ++ ")"

end Region
end LiveHighlight

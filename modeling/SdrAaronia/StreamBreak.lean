import SdrAaronia.Lib.F64

/-! # Stream breaks

What a source reports about its output, keyed on the absolute index of the first
sample behind the break.
-/

namespace SdrAaronia

inductive StreamDiscontinuity where
  /-- Samples that should have been here are not. -/
  | gap
  /-- The geometry the first packet of the run arrived under. -/
  | initial (centerHz rateHz : F64)
  /-- The samples behind this point describe another band, rate, or both. -/
  | retune (centerHz rateHz : F64)
  deriving DecidableEq, Repr

namespace StreamDiscontinuity

/-- The geometry a cause announces. -/
def geometry : StreamDiscontinuity → Option (F64 × F64)
  | .gap => none
  | .initial centerHz rateHz | .retune centerHz rateHz => some (centerHz, rateHz)

def isInitial : StreamDiscontinuity → Bool
  | .initial _ _ => true
  | .gap | .retune _ _ => false

end StreamDiscontinuity

/-- One call of a break sink. -/
structure StreamBreak where
  index : Nat
  cause : StreamDiscontinuity
  deriving DecidableEq, Repr

end SdrAaronia

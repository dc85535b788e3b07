import Mongres.Library.Decimal

/-!
# Binary32 numbers

Reading the decimal text of a number, and the same number in binary64.
-/

namespace Mongres.Binary32

open Float.Model (UnpackedFloat)

/-- Reads a floating-point number, rounding to the nearest representable one. -/
def parse : String → Option Float32 :=
  Decimal.parseNumber (.ofModel (.pack (.infinity .positive))) (.ofModel (.pack .notANumber))
    fun parts => .ofModel (.ofScientific parts.1 parts.2)

def toBinary64 (number : Float32) : Float :=
  match number.toModel.unpack with
  | .finite sign mantissa exponent _ =>
      .ofModel (.pack (UnpackedFloat.round .binary64 sign mantissa exponent))
  | other => .ofModel (.pack other)

example : (parse "-2.5e1").map toBinary64 = some (-25) := by decide

end Mongres.Binary32

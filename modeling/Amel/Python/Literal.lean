import Amel.Python.Double
import Amel.Python.Json

namespace Python

/-- The double nearest to `digits * 10 ^ exponent`. -/
def Double.ofDecimal (negative : Bool) (digits : Nat) (exponent : Int) : Double :=
  ofBits negative (binary64.encode (digits * 10 ^ exponent.toNat * 2 ^ 1074) (10 ^ (-exponent).toNat))

namespace Json

/-- The value of what `exponent` takes off a literal. -/
def exponentValue : Text → Int
  | _ :: 0x2D :: digits => -decimal digits
  | _ :: 0x2B :: digits => decimal digits
  | _ :: digits => decimal digits
  | [] => 0

/-- `float(literal)` of a literal that the scanner has matched. -/
def literalValue (literal : Text) : Double :=
  match integerDigits (minus literal).2 with
  | none => Double.nan
  | some (whole, rest) =>
    let frac := (fraction rest).1.drop 1
    .ofDecimal (minus literal).1 (decimal (whole ++ frac)) (exponentValue (exponent (fraction rest).2).1 - frac.length)

def JsonFloat.toDouble : JsonFloat → Double
  | .nan => Double.nan
  | .infinity => .ofBits false binary64.infinity
  | .negInfinity => .ofBits true binary64.infinity
  | .literal digits => literalValue digits

example : (JsonFloat.literal (text "-0.66")).toDouble = 0xBFE51EB851EB851F := by decide +kernel

/-- `float(n)`, which raises OverflowError where the nearest double is
infinite. -/
def floatOfInt (n : Int) : Option Double :=
  let x := Double.ofRatio n 1
  if x.isFinite then some x else none

/-- `float(value)`, or `none` where it raises; `ofText` is `float` of a `str`. -/
def Value.toFloat (ofText : Text → Option Double) : Value → Option Double
  | .bool b => some (if b then Double.one else 0)
  | .int n => floatOfInt n
  | .float x => some x.toDouble
  | .str s => ofText s
  | .null | .list _ | .dict _ => none

end Json

end Python

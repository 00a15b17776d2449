/-! Binary floating-point numbers of 64 bits: rounding of decimals, and the shortest decimals that
read back. -/
namespace NoteIndex.Data

/-- A finite number `mantissa * 2 ^ exponent` with its sign, an infinity, or no number. -/
inductive Double where
  | finite (negative : Bool) (mantissa : Nat) (exponent : Int)
  | infinite (negative : Bool)
  | nan
  deriving DecidableEq, Repr

namespace Double

/-- A quotient rounded to the nearest natural number, a half to the even one. -/
def roundDiv (num den : Nat) : Nat :=
  let quotient := num / den
  let twice := 2 * (num % den)
  if twice < den || (twice == den && quotient % 2 == 0) then quotient else quotient + 1

/-- Numerator and denominator of `mantissa * base ^ exponent`. -/
def ratio (mantissa base : Nat) (exponent : Int) : Nat × Nat :=
  match exponent with
  | .ofNat e => (mantissa * Nat.pow base e, 1)
  | .negSucc e => (mantissa, Nat.pow base (e + 1))

/-- The largest `e` with `2 ^ e ≤ num / den`. -/
def floorLog2 (num den : Nat) : Int :=
  let guess : Int := (Nat.log2 num : Int) - (Nat.log2 den : Int)
  let (n, d) := match guess with
    | .ofNat e => (num, den <<< e)
    | .negSucc e => (num <<< (e + 1), den)
  if n < d then guess - 1 else guess

/-- The double nearest to a positive quotient. -/
def ofRatio (negative : Bool) (num den : Nat) : Double :=
  let exponent := max (floorLog2 num den - 52) (-1074)
  let mantissa := match exponent with
    | .ofNat e => roundDiv num (den <<< e)
    | .negSucc e => roundDiv (num <<< (e + 1)) den
  let (mantissa, exponent) :=
    if mantissa == 1 <<< 53 then (1 <<< 52, exponent + 1) else (mantissa, exponent)
  if 971 < exponent then infinite negative else finite negative mantissa exponent

/-- The double nearest to `mantissa * 10 ^ exponent`. -/
def ofDecimal (negative : Bool) (mantissa : Nat) (exponent : Int) : Double :=
  if mantissa = 0 then finite negative 0 0
  else
    let (num, den) := ratio mantissa 10 exponent
    ofRatio negative num den

/-- A number beyond which an exponent changes nothing any more. -/
def exponentLimit : Int := 100000

/-- The double nearest to a decimal, given by its digits before and after the point and its
exponent. -/
def ofDigits (negative : Bool) (whole fraction : List Char) (exponent : Int) : Double :=
  let mantissa := (whole ++ fraction).foldl (fun n c => n * 10 + (c.toNat - 48)) 0
  ofDecimal negative mantissa
    (max (-exponentLimit) (min exponentLimit exponent) - (fraction.length : Int))

def isZero : Double → Bool
  | finite _ mantissa _ => mantissa == 0
  | _ => false

/-- The largest `e` with `10 ^ e ≤ num / den`, looked for from `guess` downwards. -/
def floorLog10 (num den : Nat) : Nat → Int → Int
  | 0, guess => guess
  | fuel + 1, guess =>
    let (n, d) := ratio 1 10 guess
    if n * den ≤ num * d then guess else floorLog10 num den fuel (guess - 1)

/-- The decimal of a given number of digits that is nearest to a quotient among those that read
back as the given double. -/
def decimalOf? (double : Double) (num den : Nat) (exponent : Int) : Option (Nat × Int) :=
  let (n, d) := ratio 1 10 exponent
  let below := num * d / (den * n)
  let nearest := roundDiv (num * d) (den * n)
  let other := if nearest == below then below + 1 else below
  if ofDecimal false nearest exponent == double then some (nearest, exponent)
  else if ofDecimal false other exponent == double then some (other, exponent)
  else none

/-- The shortest decimal that reads back as a positive double. -/
def shortest (mantissa : Nat) (exponent : Int) : Nat × Int :=
  let (num, den) := ratio mantissa 2 exponent
  let top := floorLog10 num den 700 310
  let tries := (List.range 17).filterMap fun (n : Nat) =>
    decimalOf? (finite false mantissa exponent) num den (top - (n : Int))
  tries.headD (mantissa, exponent)

/-- A decimal in positional notation. -/
def positional (digits : Nat) (exponent : Int) : String :=
  match exponent with
  | .ofNat e => Nat.repr (digits * Nat.pow 10 e)
  | .negSucc e =>
    let places := e + 1
    let whole := Nat.repr (digits / Nat.pow 10 places)
    let part := (Nat.repr (digits % Nat.pow 10 places)).toList
    let part := List.replicate (places - part.length) '0' ++ part
    let part := (part.reverse.dropWhile (· == '0')).reverse
    if part.isEmpty then whole else whole ++ "." ++ String.ofList part

/-- The shortest positional text that reads back. -/
def render : Double → String
  | nan => "NaN"
  | infinite negative => if negative then "-inf" else "inf"
  | finite negative mantissa exponent =>
    let text :=
      if mantissa = 0 then "0"
      else
        let (digits, place) := shortest mantissa exponent
        positional digits place
    if negative then "-" ++ text else text

end Double

end NoteIndex.Data

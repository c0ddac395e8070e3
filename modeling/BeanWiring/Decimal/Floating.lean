import BeanWiring.Decimal.Integer
import BeanWiring.Decimal.Shortest

/-!
Reading floating-point numbers: an optional sign before `inf`, `infinity` or `nan` in any case, or
before digits with an optional point among or around them and an optional exponent. A decimal
stands for the nearest number, a tie for the one with the even mantissa.
-/
namespace BeanWiring.Decimal

inductive FloatFault
  | empty | invalid
  deriving DecidableEq, Repr

def FloatFault.message : FloatFault → String
  | .empty => "cannot parse float from empty string"
  | .invalid => "invalid float literal"

def isDigit (c : Char) : Bool := (digit? c).isSome

/-- The number that a list of digits stands for; other characters count as zero. -/
def ofDigits (digits : List Char) : Nat :=
  digits.foldl (fun n c => 10 * n + (digit? c).getD 0) 0

/-- The nearest floating-point number. Nothing from `10 ^ 310` up is finite, and everything
below `10 ^ -330` is nearest to zero. -/
def Scaled.toFloat (d : Scaled) : Float :=
  let magnitude : Int := (Nat.toDigits 10 d.digits).length + d.exponent
  if d.digits = 0 || magnitude < -330 then 0
  else if 310 < magnitude then Float.ofBits 0x7ff0000000000000
  else Float.ofScientific d.digits (d.exponent < 0) d.exponent.natAbs

def readExponent : List Char → Option Int
  | [] => none
  | ['+'] | ['-'] => none
  | '-' :: digits => if digits.all isDigit then some (-(ofDigits digits : Int)) else none
  | '+' :: digits => if digits.all isDigit then some (ofDigits digits) else none
  | digits => if digits.all isDigit then some (ofDigits digits) else none

def readScaled (cs : List Char) : Option Scaled :=
  let whole := cs.takeWhile isDigit
  let (fraction, rest) :=
    match cs.dropWhile isDigit with
    | '.' :: rest => (rest.takeWhile isDigit, rest.dropWhile isDigit)
    | rest => ([], rest)
  if whole.isEmpty && fraction.isEmpty then none
  else
    let scaled (exponent : Int) : Scaled :=
      ⟨ofDigits (whole ++ fraction), exponent - fraction.length⟩
    match rest with
    | [] => some (scaled 0)
    | mark :: exponent =>
      if mark = 'e' || mark = 'E' then (readExponent exponent).map scaled else none

def readMagnitude (cs : List Char) : Option Float :=
  match readScaled cs with
  | some decimal => some decimal.toFloat
  | none =>
    match cs.map Char.toLower with
    | ['i', 'n', 'f'] | ['i', 'n', 'f', 'i', 'n', 'i', 't', 'y'] =>
      some (Float.ofBits 0x7ff0000000000000)
    | ['n', 'a', 'n'] => some (Float.ofBits 0x7ff8000000000000)
    | _ => none

def readFloat (cs : List Char) : Except FloatFault Float :=
  let number :=
    match cs with
    | '-' :: rest => (readMagnitude rest).map fun x => -x
    | '+' :: rest => readMagnitude rest
    | rest => readMagnitude rest
  match number with
  | some x => .ok x
  | none => .error (if cs.isEmpty then .empty else .invalid)

end BeanWiring.Decimal

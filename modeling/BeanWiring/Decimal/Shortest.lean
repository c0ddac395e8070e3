/-!
The shortest decimal of a binary floating-point number: the fewest digits that read back as the
number, and of those the nearest to it. A number is taken apart into a mantissa and a power of
two; the decimals that read back as it form an interval, and the grids of one, two, … digits are
tried in turn for a point inside.
-/
namespace BeanWiring.Decimal

/-- The number `digits * 10 ^ exponent`. -/
structure Scaled where
  digits : Nat
  exponent : Int
  deriving DecidableEq, Repr

/-- A positive number `value / unit` with the ends of the interval of decimals that read back as
it, over the same unit. The ends belong to the interval when `closed`. -/
structure Interval where
  low : Nat
  value : Nat
  high : Nat
  unit : Nat
  closed : Bool

namespace Interval

/-- The interval of `mantissa * 2 ^ exponent`. It reaches half a step up, and half a step down
unless the step below is narrower, as below a power of two. -/
def ofBinary (mantissa : Nat) (exponent : Int) (narrowBelow : Bool) : Interval :=
  let scale := Nat.pow 2 (exponent - 2).toNat
  { low := (4 * mantissa - if narrowBelow then 1 else 2) * scale
    value := 4 * mantissa * scale
    high := (4 * mantissa + 2) * scale
    unit := Nat.pow 2 (2 - exponent).toNat
    closed := mantissa % 2 == 0 }

def ofBits (bits : UInt64) : Interval :=
  let fraction : Nat := bits.toNat % 0x10000000000000
  let biased : Nat := bits.toNat / 0x10000000000000 % 0x800
  if biased = 0 then ofBinary fraction (-1074) false
  else ofBinary (0x10000000000000 + fraction) ((biased : Int) - 1075) (fraction == 0 && biased != 1)

def holds (i : Interval) (n : Nat) (exponent : Int) : Bool :=
  let point := n * Nat.pow 10 exponent.toNat * i.unit
  let scale := Nat.pow 10 (-exponent).toNat
  if i.closed then i.low * scale ≤ point && point ≤ i.high * scale
  else i.low * scale < point && point < i.high * scale

def below (i : Interval) (exponent : Int) : Nat :=
  i.value * Nat.pow 10 (-exponent).toNat / (i.unit * Nat.pow 10 exponent.toNat)

def upperIsNearer (i : Interval) (n : Nat) (exponent : Int) : Bool :=
  (2 * n + 1) * Nat.pow 10 exponent.toNat * i.unit ≤ 2 * i.value * Nat.pow 10 (-exponent).toNat

/-- The point of the grid of multiples of `10 ^ exponent` that stands for the number, if one of
the number's two neighbours on the grid lies in the interval. A tie goes up. -/
def onGrid? (i : Interval) (exponent : Int) : Option Nat :=
  let n := i.below exponent
  match i.holds n exponent, i.holds (n + 1) exponent with
  | true, true => some (if i.upperIsNearer n exponent then n + 1 else n)
  | true, false => some n
  | false, true => some (n + 1)
  | false, false => none

def search (i : Interval) : (tries : Nat) → (exponent : Int) → Scaled
  | 0, exponent => ⟨i.below exponent, exponent⟩
  | tries + 1, exponent =>
    match i.onGrid? exponent with
    | some n => ⟨n, exponent⟩
    | none => i.search tries (exponent - 1)

/-- How many powers of ten below one a number below one lies, counted up from `n`. -/
def leadingZeros (i : Interval) : (tries : Nat) → (n : Nat) → Nat
  | 0, n => n
  | tries + 1, n => if i.unit ≤ i.value * Nat.pow 10 n then n else i.leadingZeros tries (n + 1)

def magnitude (i : Interval) : Int :=
  if i.unit ≤ i.value then ((Nat.toDigits 10 (i.value / i.unit)).length : Int) - 1
  else -(i.leadingZeros 324 1)

end Interval

/-- Seventeen digits tell all numbers of this format apart. -/
def shortest (bits : UInt64) : Scaled :=
  let i := Interval.ofBits bits
  i.search 17 i.magnitude

/-- The digits of a number written with a decimal point and no exponent: whole numbers without a
point, fractions without closing zeros. -/
def Scaled.positional (d : Scaled) : List Char :=
  let digits := Nat.toDigits 10 d.digits
  if 0 ≤ d.exponent then digits ++ List.replicate d.exponent.toNat '0'
  else
    let places := (-d.exponent).toNat
    let padded := List.replicate (places + 1 - digits.length) '0' ++ digits
    let whole := padded.take (padded.length - places)
    match ((padded.drop (padded.length - places)).reverse.dropWhile (· == '0')).reverse with
    | [] => whole
    | fraction => whole ++ '.' :: fraction

def floatText (x : Float) : String :=
  let bits := x.toBits
  let magnitude := bits &&& 0x7fffffffffffffff
  if magnitude > 0x7ff0000000000000 then "NaN"
  else
    let sign := if bits ≠ magnitude then ['-'] else []
    if magnitude = 0x7ff0000000000000 then String.ofList (sign ++ ['i', 'n', 'f'])
    else if magnitude = 0 then String.ofList (sign ++ ['0'])
    else String.ofList (sign ++ (shortest magnitude).positional)

end BeanWiring.Decimal

/-!
Reading whole numbers of a limited range. Digits are taken from left to right, and the first
thing wrong decides: a character that is no digit, or a digit that leads out of the range.
-/
namespace BeanWiring.Decimal

inductive IntegerFault
  | empty | invalidDigit | tooLarge | tooSmall
  deriving DecidableEq, Repr

def IntegerFault.message : IntegerFault → String
  | .empty => "cannot parse integer from empty string"
  | .invalidDigit => "invalid digit found in string"
  | .tooLarge => "number too large to fit in target type"
  | .tooSmall => "number too small to fit in target type"

def digit? (c : Char) : Option Nat :=
  if '0' ≤ c && c ≤ '9' then some (c.toNat - '0'.toNat) else none

/-- Continues a number with the given digits; `beyond` is the fault of passing `limit`. -/
def readDigits (limit : Nat) (beyond : IntegerFault) : Nat → List Char → Except IntegerFault Nat
  | n, [] => .ok n
  | n, c :: rest =>
    match digit? c with
    | none => .error .invalidDigit
    | some d =>
      if 10 * n + d ≤ limit then readDigits limit beyond (10 * n + d) rest else .error beyond

def readNatural (greatest : Nat) : List Char → Except IntegerFault Nat
  | [] => .error .empty
  | ['+'] | ['-'] => .error .invalidDigit
  | '+' :: digits => readDigits greatest .tooLarge 0 digits
  | digits => readDigits greatest .tooLarge 0 digits

def readInteger (greatest : Nat) : List Char → Except IntegerFault Int
  | ['-'] => .error .invalidDigit
  | '-' :: digits => (readDigits (greatest + 1) .tooSmall 0 digits).map fun n => -(n : Int)
  | digits => (readNatural greatest digits).map fun n => (n : Int)

end BeanWiring.Decimal

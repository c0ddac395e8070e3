import BeanWiring.Decimal.Integer

/-!
Digits and numbers to the base sixteen, and to any smaller base.
-/
namespace BeanWiring.Hexadecimal

def digit? (c : Char) : Option Nat :=
  if 'a' ≤ c && c ≤ 'f' then some (c.toNat - 'a'.toNat + 10)
  else if 'A' ≤ c && c ≤ 'F' then some (c.toNat - 'A'.toNat + 10)
  else Decimal.digit? c

def value? (base : Nat) (digits : List Char) : Option Nat :=
  digits.foldlM (fun n c =>
    match digit? c with
    | some d => if d < base then some (base * n + d) else none
    | none => none) 0

end BeanWiring.Hexadecimal

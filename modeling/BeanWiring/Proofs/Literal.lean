import BeanWiring.Declared
import BeanWiring.Proofs.Conversion
import BeanWiring.Proofs.Placeholder

/-!
Texts that stay as they are when properties are put into them: those without a dollar sign, such as
the texts numbers and truth values are written as.
-/
namespace BeanWiring

def Value.IsLiteral (properties : Registry String String) : Value → Prop
  | .str text =>
    Placeholder.substitute properties (Placeholder.pieces text.toList) = .ok text.toList
  | _ => True

namespace Placeholder

theorem substitute_of_notMem {text : List Char} (absent : '$' ∉ text)
    (properties : Registry String String) : substitute properties (pieces text) = .ok text := by
  have unclosed : ¬ HasClosed text := by
    intro closed
    exact absent ((infix_of_hasClosed closed).subset List.mem_cons_self)
  rw [← cut_iff.mp (.rest unclosed)]
  exact congrArg Except.ok (List.append_nil text)

end Placeholder

section Digits

theorem dollar_notMem_toDigits (n : Nat) : '$' ∉ Nat.toDigits 10 n := by
  intro member
  have digit := Nat.isDigit_of_mem_toDigits (by decide) (by decide) member
  exact absurd digit (by decide)

theorem dollar_notMem_toString (n : Int) : '$' ∉ (toString n).toList := by
  cases n with
  | ofNat n =>
    change '$' ∉ n.repr.toList
    rw [Nat.toList_repr]
    exact dollar_notMem_toDigits n
  | negSucc n =>
    change '$' ∉ ("-" ++ (n + 1).repr).toList
    rw [String.toList_append, Nat.toList_repr]
    simp [dollar_notMem_toDigits]

theorem Decimal.dollar_notMem_positional (d : Scaled) : '$' ∉ d.positional := by
  have digits := dollar_notMem_toDigits d.digits
  unfold Scaled.positional
  dsimp only
  split
  · simp [digits]
  · have padded : '$' ∉ List.replicate ((-d.exponent).toNat + 1 -
        (Nat.toDigits 10 d.digits).length) '0' ++ Nat.toDigits 10 d.digits := by
      simp [digits]
    revert padded
    generalize List.replicate _ _ ++ _ = padded
    intro absent
    have whole (n : Nat) : '$' ∉ padded.take n := fun member => absent (List.mem_of_mem_take member)
    split
    · exact whole _
    · rw [List.mem_append, List.mem_cons, List.mem_reverse]
      rintro (first | dot | later)
      · exact whole _ first
      · cases dot
      · have dropped := (List.dropWhile_sublist _).mem later
        exact absent (List.mem_of_mem_drop (List.mem_reverse.mp dropped))

theorem Decimal.dollar_notMem_floatText (x : Float) : '$' ∉ (floatText x).toList := by
  unfold floatText
  have positional := dollar_notMem_positional
  dsimp only
  split
  · decide
  · split
    · split <;> simp
    · split <;> split <;> simp [positional]

theorem Value.dollar_notMem_text {v : Value} (scalar : v.isScalar = true) : '$' ∉ v.text.toList := by
  cases v with
  | bool b => cases b <;> decide
  | int n => exact dollar_notMem_toString n.toInt
  | long n => exact dollar_notMem_toString n.toInt
  | double x => exact Decimal.dollar_notMem_floatText x
  | _ => cases scalar

end Digits

namespace Value

theorem isLiteral_of_convertScalar {v argument : Value} {type : BeanType}
    (plain : (DeclaredValue.value v).isReresolved = false)
    (converted : v.convertScalar type = .ok argument) (properties : Registry String String) :
    argument.IsLiteral properties := by
  unfold convertScalar at converted
  split at converted
  · cases converted
  · cases plain
  · cases converted
    trivial
  · cases converted
    trivial
  · split at converted
    · cases converted
      trivial
    · cases converted
  · cases converted
    trivial
  · split at converted
    · rename_i text
      cases converted
      rw [Bool.and_eq_true] at text
      exact Placeholder.substitute_of_notMem (dollar_notMem_text text.1) properties
    · cases converted

theorem isLiteral_of_convert {v argument : Value} {type : BeanType}
    (plain : (DeclaredValue.value v).isReresolved = false)
    (converted : v.convert type = .ok argument) (properties : Registry String String) :
    argument.IsLiteral properties := by
  rcases convert_cases converted with
    ⟨-, rfl⟩ | single | ⟨element, items, rfl, rfl⟩ | ⟨kind, element, items, rfl, rfl⟩
  · cases argument with
    | str text => cases plain
    | _ => trivial
  · exact isLiteral_of_convertScalar plain single properties
  · trivial
  · cases kind <;> trivial

end Value

end BeanWiring

import BeanWiring.Conversion
import BeanWiring.Executable
import Mathlib.Data.List.Forall2

/-!
What conversion comes to: a value that fits, so that converting it again changes nothing.
-/
namespace BeanWiring

namespace BeanType

theorem beq_self (type : BeanType) : (type == type) = true := by
  change (type.form == type.form && type.erasure == type.erasure) = true
  simp

theorem accepts_of_beq {type other : BeanType} (same : (type == other) = true) :
    type.accepts other = true := by
  unfold accepts
  rw [same]
  rfl

theorem accepts_self (type : BeanType) : type.accepts type = true := accepts_of_beq (beq_self type)

theorem fits_of_runtimeType {type : BeanType} {v w : Value} (fits : type.fits v = true)
    (same : v.runtimeType = w.runtimeType) : type.fits w = true := by
  unfold BeanType.fits at fits ⊢
  rwa [← same]

end BeanType

namespace Value

theorem convert_of_fits {value : Value} {type : BeanType} (fits : type.fits value = true) :
    value.convert type = .ok value := by
  unfold convert
  rw [if_pos fits]

theorem fits_of_readPrimitive {text : String} {kind : PrimitiveKind} {result : Value}
    (read : readPrimitive text kind = .ok result) :
    (BeanType.primitive kind).fits result = true := by
  cases kind <;> simp only [readPrimitive] at read <;> split at read <;> cases read <;> rfl

theorem fits_of_convertScalar {value result : Value} {type : BeanType}
    (converted : value.convertScalar type = .ok result) : type.fits result = true := by
  unfold convertScalar at converted
  split at converted
  · cases converted
  · exact fits_of_readPrimitive converted
  · cases converted
    rfl
  · cases converted
    rfl
  · split at converted
    · cases converted
      rfl
    · cases converted
  · cases converted
    rfl
  · split at converted
    · rename_i text
      cases converted
      rw [Bool.and_eq_true] at text
      exact BeanType.accepts_of_beq text.2
    · cases converted

theorem scalar_eq_ok_iff {value result : Value} {type : BeanType} :
    convert.scalar value type = .ok result ↔ value.convertScalar type = .ok result := by
  unfold convert.scalar
  cases value.convertScalar type <;> simp [Except.mapError]

theorem convert_cases {value result : Value} {type : BeanType}
    (converted : value.convert type = .ok result) :
    (type.fits value = true ∧ result = value) ∨ value.convertScalar type = .ok result ∨
    (∃ element items, type = .array element ∧ result = .array element items) ∨
    ∃ kind element items, type = .collection kind element ∧
      result = (if kind = .set then set else list) items := by
  have array {α : Type} {element : BeanType} {items : α → List Value} {made : Except TypeMismatch α}
      (built : made.map (fun a => .array element (items a)) = .ok result) :
      ∃ items, result = .array element items := by
    cases made with
    | error mismatch => cases built
    | ok a => exact ⟨items a, (Except.ok.inj built).symm⟩
  have collection {kind : CollectionKind} {made : Except TypeMismatch (List Value)}
      (built : made.map (if kind = .set then set else list) = .ok result) :
      ∃ items, result = (if kind = .set then set else list) items := by
    cases made with
    | error mismatch => cases built
    | ok items => exact ⟨items, (Except.ok.inj built).symm⟩
  unfold convert at converted
  split at converted
  · rename_i fits
    exact .inl ⟨fits, (Except.ok.inj converted).symm⟩
  · refine .inr ?_
    split at converted
    · exact .inl (scalar_eq_ok_iff.mp converted)
    · obtain ⟨items, made⟩ : ∃ items, result = .array _ items := by
        split at converted
        · exact array converted
        · exact array converted
      exact .inr (.inl ⟨_, items, rfl, made⟩)
    · obtain ⟨items, made⟩ := collection converted
      exact .inr (.inr ⟨_, _, items, rfl, made⟩)
    · obtain ⟨items, made⟩ := collection converted
      exact .inr (.inr ⟨_, _, items, rfl, made⟩)
    · obtain ⟨items, made⟩ := collection converted
      exact .inr (.inr ⟨_, _, items, rfl, made⟩)
    · exact .inl (scalar_eq_ok_iff.mp converted)

theorem fits_of_convert {value result : Value} {type : BeanType}
    (converted : value.convert type = .ok result) : type.fits result = true := by
  rcases convert_cases converted with
    ⟨fits, rfl⟩ | single | ⟨element, items, rfl, rfl⟩ | ⟨kind, element, items, rfl, rfl⟩
  · exact fits
  · exact fits_of_convertScalar single
  · exact BeanType.accepts_self _
  · cases kind <;> rfl

theorem convert_of_convert {value result : Value} {type : BeanType}
    (converted : value.convert type = .ok result) : result.convert type = .ok result :=
  convert_of_fits (fits_of_convert converted)

/-- A conversion settles a value: it gives one that the type takes, and converted once more this one comes
back as it is, whatever it holds, down to numbers that are not equal to themselves. -/
theorem convert_settles {value result : Value} {type : BeanType}
    (converted : value.convert type = .ok result) :
    type.fits result = true ∧ result.convert type = .ok result :=
  ⟨fits_of_convert converted, convert_of_convert converted⟩

/-- A list of texts becomes an array of arrays, in which what is not a number stays that. -/
theorem convert_settles_of_nested : ∃ result : Value,
    result = .array (.array .double) [.array .double [.double (Float.ofBits 0x7ff8000000000000)]] ∧
    (list [.str " NaN "]).convert (.array (.array .double)) = .ok result ∧
    (BeanType.array (.array .double)).fits result = true ∧
    result.convert (.array (.array .double)) = .ok result := by
  have converted : (list [.str " NaN "]).convert (.array (.array .double)) =
    .ok (.array (.array .double) [.array .double [.double (Float.ofBits 0x7ff8000000000000)]]) := rfl
  exact ⟨_, rfl, converted, convert_settles converted⟩

end Value

abbrev Parameter.Fit : List Parameter → List Value → Prop :=
  List.Forall₂ fun parameter argument => parameter.type.fits argument = true

end BeanWiring

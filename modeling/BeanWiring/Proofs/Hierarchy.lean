import BeanWiring.BeanType.Declaration
import BeanWiring.Proofs.Assignability
import Mathlib.Logic.Relation

/-!
Declared types and what is declared above them. Each class and interface above a declared type takes it,
however far up it is. A container can be declared above a type as well, but containers only take
containers, so it does not.
-/
namespace BeanWiring.BeanType

variable {a b x type : BeanType}

def Below (type above : BeanType) : Prop := above ∈ type.parents

theorem mem_ancestors_iff_chain : x ∈ type.ancestors ↔ Relation.TransGen Below type x := by
  constructor
  · intro reached
    induction type using parents_induction with
    | step type ih =>
      obtain ⟨p, above, rfl | further⟩ := mem_ancestors.mp reached
      · exact .single above
      · exact .head above (ih p above further)
  · intro chain
    induction chain using Relation.TransGen.head_induction_on with
    | single above => exact mem_ancestors.mpr ⟨x, above, .inl rfl⟩
    | head above _ ih => exact mem_ancestors.mpr ⟨_, above, .inr ih⟩

theorem isDeclared_eq_not (type : BeanType) :
    type.isDeclared = (!type.isPrimitive && !type.isVoid && !type.isContainer) := by
  cases type <;> rfl

theorem Takes.isDeclared (takes : Takes a b) (declared : b.isDeclared = true) :
    a.isDeclared = true := by
  cases takes with
  | same equal => rwa [isDeclared_eq equal]
  | object => rfl
  | above declared => exact declared
  | array | collection => cases declared

theorem accepts_iff_isDeclared (declared : type.isDeclared = true)
    (reached : Relation.TransGen Below type x) : x.accepts type = true ↔ x.isDeclared = true := by
  rw [accepts_iff_takes]
  constructor
  · intro takes
    exact takes.isDeclared declared
  · intro above
    exact .above above (mem_ancestors_iff_chain.mpr reached) BEq.rfl

namespace Declaration

theorem isDeclared_build (d : Declaration) : d.build.isDeclared = true := by
  unfold build
  split <;> rfl

/-- A type built from any declaration fits wherever a class or an interface declared above it, directly or
further up, is expected, and nowhere that a container is. -/
theorem accepts_build (d : Declaration) :
    (∀ above, Relation.TransGen Below d.build above → above.isPrimitive = false →
      above.isVoid = false → (above.accepts d.build = true ↔ above.isContainer = false)) ∧
    ∀ container : BeanType, container.isContainer = true → container.accepts d.build = false := by
  constructor
  · intro above reached noPrimitive solid
    rw [accepts_iff_isDeclared d.isDeclared_build reached, isDeclared_eq_not, noPrimitive, solid]
    simp
  · intro container holds
    rw [← Bool.not_eq_true, accepts_iff_takes]
    intro takes
    have declared := takes.isDeclared d.isDeclared_build
    rw [isDeclared_eq_not, holds] at declared
    simp at declared

end Declaration

/-! A basket is a stock, and a stock is declared to be a list. -/
namespace Basket

def list : BeanType := collection .list object

def stock : Declaration := (Declaration.ofInterface "Stock").implementing list

def basket : Declaration := (Declaration.ofClass "Basket").implementing stock.build

theorem stock_above : Below basket.build stock.build := by
  simp [Below, parents, basket, Declaration.build, Declaration.ofClass, Declaration.implementing,
    superclass?, interfaces]

theorem list_above : Below stock.build list := by
  simp [Below, parents, stock, Declaration.build, Declaration.ofInterface, Declaration.implementing,
    superclass?, interfaces]

theorem accepts_build_of_basket :
    Relation.TransGen Below basket.build stock.build ∧ Relation.TransGen Below basket.build list ∧
      stock.build.accepts basket.build = true ∧ list.accepts basket.build = false := by
  have near : Relation.TransGen Below basket.build stock.build := .single stock_above
  have far : Relation.TransGen Below basket.build list := near.tail list_above
  obtain ⟨fits, refuses⟩ := Declaration.accepts_build basket
  exact ⟨near, far, (fits _ near rfl rfl).mpr rfl, refuses list rfl⟩

theorem list_refuses :
    ¬∀ (d : Declaration) (above : BeanType), Relation.TransGen Below d.build above →
      above.isPrimitive = false → above.isVoid = false → above.accepts d.build = true := by
  intro honoured
  have taken := honoured basket list (.tail (.single stock_above) list_above) rfl rfl
  have refused : list.accepts basket.build = false := by decide
  rw [refused] at taken
  cases taken

end Basket

end BeanWiring.BeanType

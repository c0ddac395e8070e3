import BeanWiring.BeanType

/-!
Which types can stand where another is expected. The table of forms is consulted before the
declared hierarchy: `void` and primitives take only themselves, containers only containers of
their form, and `object` takes everything but `void`. The search of the hierarchy finds exactly the
ancestors of a type.
-/
namespace BeanWiring.BeanType

mutual

/-- Whether `target` is declared above the type, directly or further up. The search ends at the
first way that leads there: a hierarchy can have far more ways up than types. -/
def isBelow : (type target : BeanType) → Bool
  | .declaredClass _ superclass interfaces, target =>
    superclass == target || superclass.isBelow target || anyBelow interfaces target
  | .declaredInterface _ parents, target => anyBelow parents target
  | .primitive .boolean, target => object == target
  | .primitive _, target => number == target || object == target
  | .array _, target | .collection .., target | .map .., target => object == target
  | .object, _ | .void, _ => false

def anyBelow : (types : List BeanType) → (target : BeanType) → Bool
  | [], _ => false
  | type :: rest, target => type == target || type.isBelow target || anyBelow rest target

end

mutual

theorem isBelow_eq_any_ancestors (target : BeanType) :
    (type : BeanType) → type.isBelow target = type.ancestors.any (· == target)
  | .declaredClass _ superclass interfaces => by
    simp only [isBelow, ancestors, List.any_cons, List.any_append, Bool.or_assoc,
      isBelow_eq_any_ancestors target superclass, anyBelow_eq_any_ancestorsOfAll target interfaces]
  | .declaredInterface _ parents => by
    simp only [isBelow, ancestors, anyBelow_eq_any_ancestorsOfAll target parents]
  | .primitive kind => by cases kind <;> simp [isBelow, ancestors]
  | .array _ | .collection .. | .map .. => by simp [isBelow, ancestors]
  | .object | .void => rfl

theorem anyBelow_eq_any_ancestorsOfAll (target : BeanType) :
    (types : List BeanType) → anyBelow types target = (ancestorsOfAll types).any (· == target)
  | [] => rfl
  | type :: rest => by
    simp only [anyBelow, ancestorsOfAll, List.any_cons, List.any_append, Bool.or_assoc,
      isBelow_eq_any_ancestors target type, anyBelow_eq_any_ancestorsOfAll target rest]

end

/-- Whether a value of type `other` can be used where `self` is expected. Arrays follow their
element types, collections and maps only their kinds. -/
def accepts (self other : BeanType) : Bool :=
  self == other ||
    match self, other with
    | .void, _ | _, .void => false
    | .primitive _, _ => false
    | .array element, .array otherElement =>
        !element.isPrimitive && !otherElement.isPrimitive && element.accepts otherElement
    | .collection kind _, .collection otherKind _ => kind.accepts otherKind
    | .map .., .map .. => true
    | .array _, _ | .collection .., _ | .map .., _ => false
    | .object, _ => true
    | self, other => other.isBelow self

end BeanWiring.BeanType

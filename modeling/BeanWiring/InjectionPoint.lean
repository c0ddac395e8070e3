import BeanWiring.BeanType

/-!
The parameter of an executable that is being satisfied for a bean.
-/
namespace BeanWiring

/-- `executable` is the signature that declares the parameter and `index` its position there. -/
structure InjectionPoint where
  bean : String
  executable : String
  index : Nat
  type : BeanType
  name : Option String
  deriving BEq, Repr

def InjectionPoint.text (point : InjectionPoint) : String :=
  "parameter " ++ toString point.index ++ " of " ++ point.executable

end BeanWiring

import BeanWiring.Container

/-!
What a container can tell about the type of a bean without creating it. For a factory method this
takes the class of the factory bean, which may itself be known only by prediction; a chain of
factory beans that leads back to a bean being predicted ends there.
-/
namespace BeanWiring

/-- The factory method of a definition, if all methods it could mean take the same parameter types.
The first of them stands for all. -/
def BeanClass.uniqueMethod? (c : BeanClass) (d : Definition) (isStatic : Bool) :
    Option Executable :=
  match c.methods.filter fun e => d.admits e && e.isStatic == isStatic && d.namesMethod e with
  | [] => none
  | first :: rest => if rest.all (first.sameParameterTypes ·) then some first else none

namespace Work

/-- The class that lists the factory method of a definition, and whether the method is static;
`classOf` tells the class of a factory bean. -/
def methodOwner (classOf : String → Work (Option BeanClass)) (d : Definition) :
    Work (Option BeanClass × Bool) :=
  match d.factoryBean with
  | some factoryBean => do return (← classOf factoryBean, false)
  | none => pure (d.beanClass, true)

def findMethod (classOf : String → Work (Option BeanClass)) (d : Definition) :
    Work (Option Executable) := do
  let (beanClass, isStatic) ← methodOwner classOf d
  match beanClass.bind (·.uniqueMethod? d isStatic) with
  | some method =>
    rememberMethod d method
    pure (some method)
  | none => pure none

def classOfPredicted (predict : String → Work (Option BeanType)) (name : String) :
    Work (Option BeanClass) := do
  match ← predict name with
  | some type => pure ((← get).classOfType? type)
  | none => pure none

/-- Predicts the type of a bean. A factory method that is not remembered is left to `search`. -/
def predictBy (search : Definition → Work (Option BeanType)) (name : String) :
    Work (Option BeanType) := do
  let c ← get
  match c.singletons.get? name, c.definitions.get? name with
  | some bean, _ => pure bean.runtimeType
  | none, none => pure none
  | none, some d =>
    if d.factoryMethod.isSome && (c.factoryMethod? d).isNone then search d
    else pure (c.knownType? d)

/-- Predicts the type of a bean while those in `busy` are being predicted. Each step down the chain
of factory beans makes one more definition busy, so there are no more steps than definitions. -/
def predictWithin : (steps : Nat) → (busy : List String) → String → Work (Option BeanType)
  | 0, _, name => predictBy (fun _ => pure none) name
  | steps + 1, busy, name =>
    predictBy (fun d => do
      if busy.contains name then pure none
      else
        let _ ← findMethod (classOfPredicted (predictWithin steps (name :: busy))) d
        pure ((← get).knownType? d)) name

def predict (name : String) : Work (Option BeanType) := do
  predictWithin (← get).definitions.entries.length [] name

def classOfBean (name : String) : Work (Option BeanClass) := classOfPredicted predict name

def introspect (d : Definition) : Work (Option Executable) := findMethod classOfBean d

def isTypeMatch (name : String) (type : BeanType) : Work Bool := do
  return (← predict name).any type.accepts

def matching (type : BeanType) : List String → Work (List String)
  | [] => pure []
  | name :: rest => do
    if ← isTypeMatch name type then return name :: (← matching type rest)
    else matching type rest

def candidatesFor (requester : String) (type : BeanType) : Work (List String) := do
  matching type ((← get).beanNames.filter (· != requester))

end Work

end BeanWiring

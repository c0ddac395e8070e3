import BeanWiring.ArgumentValues
import BeanWiring.Executable

/-!
Bean definitions and the values they declare: literals, references to other beans, inner beans
defined on the spot, and lists of declared values.
-/
namespace BeanWiring

inductive Scope
  | singleton | prototype
  deriving DecidableEq, Repr

/-- How to create a bean from argument values of type `V`. Definitions are told apart by their
serial numbers; one with the number 0 is not built yet. `unique` declares that the factory method
has one overload; with `autowire`, parameters without a declared value are satisfied from the
container. -/
structure Blueprint (V : Type) where
  serial : Nat
  beanClass : Option BeanClass
  factoryBean : Option String
  factoryMethod : Option String
  unique : Bool
  arguments : ArgumentValues V
  autowire : Bool
  lenient : Bool
  nonPublicAllowed : Bool
  scope : Scope
  primary : Bool

inductive DeclaredValue
  | value (value : Value)
  | reference (name : String)
  | inner (definition : Blueprint DeclaredValue)
  | list (items : List DeclaredValue)

abbrev Definition := Blueprint DeclaredValue

namespace DeclaredValue

/-- Whether the value has to be resolved anew for every creation. Only literals other than
strings are not. -/
def isReresolved : DeclaredValue → Bool
  | value (.str _) => true
  | value _ => false
  | _ => true

instance : HolderValue DeclaredValue where
  fits type
    | value v => type.fits v
    | _ => false

mutual

def numbered : DeclaredValue → StateM (List Definition) DeclaredValue
  | value v => pure (value v)
  | reference name => pure (reference name)
  | inner definition => inner <$> numberedDefinition definition
  | list items => list <$> numberedItems items

/-- The definition built before under the serial number, which may be registered, or inside others,
any number of times; else a new one with the next number, built after those inside it. -/
def numberedDefinition :
    Blueprint DeclaredValue → StateM (List Definition) (Blueprint DeclaredValue)
  | ⟨serial, c, fb, fm, u, ⟨indexed, generic⟩, a, l, n, s, p⟩ => do
    match (← get).find? (·.serial == serial) with
    | some known => return known
    | none =>
      let indexed ← numberedIndexed indexed
      let generic ← numberedGeneric generic
      modifyGet fun built =>
        let d : Definition := ⟨built.length + 1, c, fb, fm, u, ⟨indexed, generic⟩, a, l, n, s, p⟩
        (d, built ++ [d])

def numberedItems : List DeclaredValue → StateM (List Definition) (List DeclaredValue)
  | [] => pure []
  | item :: rest => return (← item.numbered) :: (← numberedItems rest)

def numberedIndexed :
    List (UInt64 × Holder DeclaredValue) →
      StateM (List Definition) (List (UInt64 × Holder DeclaredValue))
  | [] => pure []
  | (i, ⟨v, t, n, c⟩) :: rest => return (i, ⟨← v.numbered, t, n, c⟩) :: (← numberedIndexed rest)

def numberedGeneric :
    List (Holder DeclaredValue) → StateM (List Definition) (List (Holder DeclaredValue))
  | [] => pure []
  | ⟨v, t, n, c⟩ :: rest => return ⟨← v.numbered, t, n, c⟩ :: (← numberedGeneric rest)

end

end DeclaredValue

structure ResolvedValue where
  value : Value
  source : DeclaredValue

instance : HolderValue ResolvedValue where
  fits type resolved := type.fits resolved.value

namespace Blueprint
variable {V : Type}

def className (d : Blueprint V) : String :=
  match d.beanClass with
  | some c => c.name
  | none => "<none>"

def hasArguments (d : Blueprint V) : Bool := !d.arguments.isEmpty

def namesMethod (d : Blueprint V) (e : Executable) : Bool :=
  match e.methodName?, d.factoryMethod with
  | some name, some expected => name == expected
  | _, _ => false

def admits (d : Blueprint V) (e : Executable) : Bool := d.nonPublicAllowed || e.isPublic

end Blueprint

end BeanWiring

import BeanWiring.Declared
import BeanWiring.Weight

/-!
How the parameters of an executable were bound, and what a definition keeps of it: the executable
with the arguments themselves, or with a recipe for each argument if some have to be found anew
for every creation.
-/
namespace BeanWiring

inductive Provenance
  | explicitPositional
  | declaredIndexed
  | declaredGeneric
  | autowired
  /-- Nothing fitted, and an empty container stands in. -/
  | autowiredEmpty
  deriving DecidableEq, Repr

def Provenance.describe : Provenance → String
  | .explicitPositional => "ExplicitPositional"
  | .declaredIndexed => "DeclaredIndexed"
  | .declaredGeneric => "DeclaredGeneric"
  | .autowired => "Autowired"
  | .autowiredEmpty => "AutowiredFallbackEmpty"

inductive Recipe
  /-- The value itself, but for the placeholders in a string. -/
  | value (value : Value)
  | autowired
  | declared (source : DeclaredValue)

def Recipe.isValue : Recipe → Bool
  | .value _ => true
  | _ => false

structure BoundArgument where
  raw : Value
  argument : Value
  recipe : Recipe
  provenance : Provenance

abbrev Binding := List BoundArgument

inductive KeptArguments
  | resolved (arguments : List Value)
  | prepared (recipes : List Recipe)

structure Resolution where
  executable : Executable
  arguments : KeptArguments

namespace Binding

def arguments (b : Binding) : List Value := b.map (·.argument)

def raw (b : Binding) : List Value := b.map (·.raw)

def weight (b : Binding) (lenient : Bool) (parameters : List BeanType) : Int :=
  if lenient then Weight.lenient parameters b.raw b.arguments
  else Weight.strict parameters b.raw b.arguments

def kept (b : Binding) : KeptArguments :=
  if b.all (·.recipe.isValue) then .resolved b.arguments else .prepared (b.map (·.recipe))

end Binding

end BeanWiring

import BeanWiring.Container.Creation

/-!
What a container can be asked for. Beans are asked for by name or type, each time in a fresh
context; the single steps of a creation can also be asked for on their own, in a context that
stands inside other creations.
-/
namespace BeanWiring

/-- Where a request starts: the parameter being satisfied, if any, and the beans in creation,
outermost first. -/
structure Outset where
  point : Option InjectionPoint
  creating : List String

namespace Attempt

def context (start : Outset) : Attempt Context := do
  let ctx := Context.new (← get).settings.maxDepth.toNat
  let ctx :=
    match start.point with
    | some point => ctx.push point
    | none => ctx
  liftExcept (ctx.beginAll start.creating)

/-- The bean of that name, created if need be. Given arguments are for the creation only: a
singleton there is stays as it is. -/
def bean (name : String) (explicit : Option (List Value)) : Attempt Value := do
  let ctx ← context ⟨none, []⟩
  fetch ctx.creator ctx name explicit

def beanOfType (type : BeanType) : Attempt Value := do
  let name ← ExceptT.mk (Work.chooseByType type)
  bean name none

/-- Creates a bean by a constructor of its class, without asking for a singleton there is. -/
def construct (start : Outset) (host : Host) (name : String) (d : Definition)
    (given : Option (List Executable)) (explicit : Option (List Value)) : Attempt Value := do
  let ctx ← context start
  let n := Creation.mk host ctx.creator ctx name d explicit
  n.instantiate (← n.byConstructor given)

def callFactory (start : Outset) (host : Host) (name : String) (d : Definition)
    (explicit : Option (List Value)) : Attempt Value := do
  let ctx ← context start
  let n := Creation.mk host ctx.creator ctx name d explicit
  n.instantiate (← n.byFactoryMethod)

def argumentsOf (start : Outset) (name : String) (d : Definition) :
    Attempt (ArgumentValues ResolvedValue) := do
  let ctx ← context start
  resolveArguments ctx.creator ctx name d

def follow (start : Outset) (host : Host) (name : String) (e : Executable)
    (recipes : List Recipe) : Attempt (List Value) := do
  let ctx ← context start
  replay host ctx.creator ctx name e (← Work.enrollRecipes recipes)

def valueOf (start : Outset) (name argumentName : String) (declared : DeclaredValue) :
    Attempt Value := do
  let ctx ← context start
  resolveDeclared ctx.creator ctx name argumentName (← Work.enrollValue declared)

def dependency (start : Outset) (name : String) (point : InjectionPoint) (required : Bool) :
    Attempt Lookup := do
  let ctx ← context start
  Work.resolveDependency (fetcher ctx.creator ctx) point name required

end Attempt

end BeanWiring

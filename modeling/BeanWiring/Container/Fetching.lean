import BeanWiring.Container.Binding
import BeanWiring.Container.Invocation

/-!
Fetching beans by name, and the values of what definitions declare. A bean that is not there yet
is created by `create`, an argument of all functions here.
-/
namespace BeanWiring

abbrev Creator := Context → String → Definition → Option (List Value) → Attempt Value

/-- What creation asks of its surroundings: the values of prepared strings, to be told of failures
that are not reported, and the invocation of the executable it decided on. -/
structure Host where
  evaluate : String → Attempt Value
  suppress : BeanError → Work Unit
  instantiate : (bean : String) → Executable → (target : Option Value) → (arguments : List Value) →
    Work (Except String Value)

def Attempt.evaluate (text : String) : Attempt Value := do
  match Placeholder.substitute (← get).properties (Placeholder.pieces text.toList) with
  | .ok value => pure (.str (String.ofList value))
  | .error key =>
    throw (.illegalState ("Could not resolve placeholder '" ++ String.ofList key ++
      "' in value \"" ++ text ++ "\""))

namespace Host

def full : Host := ⟨Attempt.evaluate, Work.suppress, Work.instantiate⟩

/-- Surroundings that take texts as they are and forget failures. -/
def plain : Host := ⟨fun text => pure (.str text), fun _ => pure (), Work.instantiate⟩

end Host

namespace Attempt

def fetch (create : Creator) (ctx : Context) (name : String) (explicit : Option (List Value)) :
    Attempt Value := do
  let c ← get
  match if explicit.isNone then c.singletons.get? name else none with
  | some bean =>
    Work.emit (.cachedSingleton name)
    pure bean
  | none =>
    match c.definitions.get? name, c.singletons.get? name with
    | none, some bean => pure bean
    | none, none => throw (.noSuchBeanNamed name)
    | some d, held =>
      match d.scope, held with
      | .singleton, some bean => pure bean
      | .singleton, none => do
        let bean ← create ctx name d explicit
        Work.registerSingleton name bean
        pure bean
      | .prototype, _ => create ctx name d explicit

def fetcher (create : Creator) : Fetch := fun ctx name => fetch create ctx name none

mutual

def resolveDeclared (create : Creator) (ctx : Context) (bean argumentName : String) :
    DeclaredValue → Attempt Value
  | .value (.str text) => evaluate text
  | .value v => pure v
  | .reference name => do
    Work.emit (.resolvingReference bean name argumentName)
    let value ← fetch create ctx name none
    Work.registerDependent name bean
    pure value
  | .inner d => do create ctx (← Work.nextInnerName) d none
  | .list items => return .list (← resolveDeclaredAll create ctx bean argumentName items)

def resolveDeclaredAll (create : Creator) (ctx : Context) (bean argumentName : String) :
    List DeclaredValue → Attempt (List Value)
  | [] => pure []
  | item :: rest => do
    let value ← resolveDeclared create ctx bean argumentName item
    return value :: (← resolveDeclaredAll create ctx bean argumentName rest)

end

def argumentNoun : String := "constructor argument"

def resolveHolder (create : Creator) (ctx : Context) (bean : String) (h : Holder DeclaredValue) :
    Attempt (Holder ResolvedValue) :=
  match h.converted with
  | some value => pure (h.withValue ⟨value, h.value⟩)
  | none => do
    return h.withValue ⟨← resolveDeclared create ctx bean argumentNoun h.value, h.value⟩

/-- Resolves all declared argument values of a definition, those with an index first. -/
def resolveArguments (create : Creator) (ctx : Context) (bean : String) (d : Definition) :
    Attempt (ArgumentValues ResolvedValue) := do
  let indexed ← d.arguments.indexed.mapM fun (index, h) =>
    return (index, ← resolveHolder create ctx bean h)
  let generic ← d.arguments.generic.mapM (resolveHolder create ctx bean)
  return ⟨indexed, generic⟩

end Attempt

end BeanWiring

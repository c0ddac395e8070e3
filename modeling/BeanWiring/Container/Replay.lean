import BeanWiring.Container.Fetching

/-!
Following what was kept of an earlier resolution: the same executable, with the same arguments or
with arguments found anew by the recipes kept for its parameters.
-/
namespace BeanWiring.Attempt

def replayRecipe (host : Host) (create : Creator) (ctx : Context) (bean : String)
    (point : InjectionPoint) : Recipe → Attempt Value
  | .autowired => do return (← Work.autowire (fetcher create) ctx bean point true).value
  | .declared source => resolveDeclared create ctx bean argumentNoun source
  | .value (.str text) => host.evaluate text
  | .value v => pure v

def replayFrom (host : Host) (create : Creator) (ctx : Context) (bean : String) (e : Executable) :
    (index : Nat) → List Parameter → List Recipe → Attempt (List Value)
  | index, parameter :: parameters, recipe :: recipes => do
    let point := e.injectionPoint bean index parameter
    let value ← replayRecipe host create ctx bean point recipe
    match value.convertArgument bean point with
    | .error failure => throw (.unsatisfied failure)
    | .ok argument =>
      return argument :: (← replayFrom host create ctx bean e (index + 1) parameters recipes)
  | _, _, _ => pure []

def replay (host : Host) (create : Creator) (ctx : Context) (bean : String) (e : Executable)
    (recipes : List Recipe) : Attempt (List Value) :=
  replayFrom host create ctx bean e 0 e.parameters recipes

def recollect (host : Host) (create : Creator) (ctx : Context) (bean : String) :
    Resolution → Attempt (List Value)
  | ⟨executable, .resolved arguments⟩ => do
    Work.emit (.reusingArguments bean executable)
    pure arguments
  | ⟨executable, .prepared recipes⟩ => do
    Work.emit (.replayingArguments bean executable)
    replay host create ctx bean executable recipes

/-- The executable and arguments kept for a definition. Nothing is kept for creations with given
arguments. -/
def remembered (host : Host) (create : Creator) (ctx : Context) (bean : String) (d : Definition)
    (explicit : Option (List Value)) : Attempt (Option (Executable × List Value)) := do
  let c ← get
  match if explicit.isNone then c.resolution? d else none with
  | none => pure none
  | some resolution =>
    return some (resolution.executable, ← recollect host create ctx bean resolution)

end BeanWiring.Attempt

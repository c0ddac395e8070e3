import BeanWiring.BeanError

/-!
Where a request for beans stands: the beans in creation, each requested by the one below it, and
the parameters being satisfied. A context is handed on to what happens inside it.
-/
namespace BeanWiring

/-- Both lists have the innermost first. -/
structure Context where
  points : List InjectionPoint
  path : List String
  maxDepth : Nat

namespace Context

def new (maxDepth : Nat) : Context := ⟨[], [], maxDepth⟩

def currentPoint? (ctx : Context) : Option InjectionPoint := ctx.points.head?

def depth (ctx : Context) : Nat := ctx.path.length

def room (ctx : Context) : Nat := ctx.maxDepth - ctx.path.length

def isInCreation (ctx : Context) (bean : String) : Bool := ctx.path.contains bean

def cycleText (ctx : Context) (bean : String) : String :=
  String.intercalate " -> " ((ctx.path.takeWhile (· != bean) ++ [bean]).reverse ++ [bean])

def begin (ctx : Context) (bean : String) : Except BeanError Context :=
  if ctx.maxDepth ≤ ctx.path.length then .error (.tooDeep ctx.maxDepth)
  else if ctx.isInCreation bean then .error (.circular bean (ctx.cycleText bean))
  else .ok { ctx with path := bean :: ctx.path }

def push (ctx : Context) (point : InjectionPoint) : Context :=
  { ctx with points := point :: ctx.points }

def beginAll (ctx : Context) : List String → Except BeanError Context
  | [] => .ok ctx
  | bean :: rest =>
    match ctx.begin bean with
    | .error e => .error e
    | .ok inside => inside.beginAll rest

end Context

end BeanWiring

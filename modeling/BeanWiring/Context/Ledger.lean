import BeanWiring.Context

/-!
The context of a request as it is kept while the request goes on: written on the way in and struck out
on the way out. The beans in creation are kept twice, in the order of their creation and as a set that
is asked whether a bean is among them.
-/
namespace BeanWiring

/-- The lists of points and beans have the innermost first; the order of `names` means nothing. -/
structure Ledger where
  points : List InjectionPoint
  names : List String
  path : List String
  maxDepth : Nat

namespace Ledger

def new (maxDepth : Nat) : Ledger := ⟨[], [], [], maxDepth⟩

def currentPoint? (l : Ledger) : Option InjectionPoint := l.points.head?

def depth (l : Ledger) : Nat := l.path.length

def isInCreation (l : Ledger) (bean : String) : Bool := l.names.contains bean

def cyclePath (l : Ledger) (bean : String) : List String :=
  l.path.reverse.dropWhile (· != bean) ++ [bean]

def begin (l : Ledger) (bean : String) : Except BeanError Ledger :=
  if l.maxDepth < l.depth + 1 then .error (.tooDeep l.maxDepth)
  else if l.isInCreation bean then
    .error (.circular bean (String.intercalate " -> " (l.cyclePath bean)))
  else .ok { l with names := l.names.insert bean, path := bean :: l.path }

/-- Strikes out a bean: its innermost mention on the path, wherever that is. -/
def finish (l : Ledger) (bean : String) : Ledger :=
  { l with names := l.names.filter (· != bean), path := l.path.erase bean }

def push (l : Ledger) (point : InjectionPoint) : Ledger := { l with points := point :: l.points }

def pop (l : Ledger) : Ledger := { l with points := l.points.tail }

def context (l : Ledger) : Context := ⟨l.points, l.path, l.maxDepth⟩

end Ledger

end BeanWiring

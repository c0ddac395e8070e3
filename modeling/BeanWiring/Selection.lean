import BeanWiring.BeanError
import BeanWiring.Resolution

/-!
Choosing among candidates: each is bound in turn, the least weight wins, and later candidates of
the same weight may make the choice ambiguous. A search for a constructor stops at the first
candidate with fewer parameters than the one chosen so far.
-/
namespace BeanWiring

inductive SearchKind
  | constructor | factoryMethod
  deriving DecidableEq, Repr

def SearchKind.noun : SearchKind → String
  | .constructor => "constructor"
  | .factoryMethod => "factory method"

/-- Whether a candidate of the same weight makes the choice of `best` ambiguous: any constructor
does, and under strict resolution a method of the same arity with other parameter types. -/
def SearchKind.ties (kind : SearchKind) (lenient : Bool) (best candidate : Executable) : Bool :=
  match kind with
  | .constructor => true
  | .factoryMethod =>
    !lenient && best.arity == candidate.arity && !best.sameParameterTypes candidate

structure Selected where
  executable : Executable
  binding : Binding

/-- The state of a search: the choice so far with its weight, the candidates it is tied with,
itself among them, and the failures of those that could not be bound. -/
structure Search where
  best : Option Selected
  weight : Int
  ambiguous : List Executable
  failures : List Unsatisfied

namespace Search

def start : Search := ⟨none, Weight.greatest, [], []⟩

def stopsAt (s : Search) (kind : SearchKind) (candidate : Executable) : Bool :=
  match kind, s.best with
  | .constructor, some best => candidate.arity < best.binding.length
  | _, _ => false

def consider (s : Search) (kind : SearchKind) (lenient : Bool) (found : Selected) (weight : Int) :
    Search :=
  if weight < s.weight then { s with best := some found, weight := weight, ambiguous := [] }
  else
    match s.best with
    | none => s
    | some best =>
      if weight = s.weight && kind.ties lenient best.executable found.executable then
        let tied := if s.ambiguous.isEmpty then [best.executable] else s.ambiguous
        { s with ambiguous := tied ++ [found.executable] }
      else s

def step (s : Search) (kind : SearchKind) (lenient : Bool) (candidate : Executable) :
    Except Unsatisfied Binding → Search
  | .error failure => { s with failures := s.failures ++ [failure] }
  | .ok binding =>
    s.consider kind lenient ⟨candidate, binding⟩ (binding.weight lenient candidate.parameterTypes)

def run {σ : Type} (kind : SearchKind) (lenient : Bool) (eligible : Executable → Bool)
    (bind : Executable → StateM σ (Except Unsatisfied Binding)) :
    Search → List Executable → StateM σ Search
  | s, [] => pure s
  | s, candidate :: rest =>
    if s.stopsAt kind candidate then pure s
    else if eligible candidate then do
      run kind lenient eligible bind (s.step kind lenient candidate (← bind candidate)) rest
    else run kind lenient eligible bind s rest

end Search

/-- The failure to report when no candidate was chosen, and the others in their order: the last
one behind which there is a choice between beans, else the last one. -/
def Unsatisfied.pickReported : List Unsatisfied → Option (Unsatisfied × List Unsatisfied)
  | [] => none
  | failure :: rest =>
    match pickReported rest with
    | none => some (failure, [])
    | some (reported, others) =>
      if failure.endsInChoice && !reported.endsInChoice then some (failure, rest)
      else some (reported, failure :: others)

end BeanWiring

/-!
Which beans were wired into which. Every edge leads from a dependency to the bean that depends on
it and is kept once, in the order of registration.
-/
namespace BeanWiring

structure Edge where
  dependency : String
  dependent : String
  deriving DecidableEq, Repr

structure Graph where
  edges : List Edge
  deriving DecidableEq, Repr

namespace Graph

def empty : Graph := ⟨[]⟩

def register (g : Graph) (dependency dependent : String) : Graph :=
  if g.edges.contains ⟨dependency, dependent⟩ then g
  else ⟨g.edges ++ [⟨dependency, dependent⟩]⟩

def dependents (g : Graph) (name : String) : List String :=
  (g.edges.filter fun e => e.dependency == name).map (·.dependent)

def dependencies (g : Graph) (name : String) : List String :=
  (g.edges.filter fun e => e.dependent == name).map (·.dependency)

def edgeCount (g : Graph) : Nat := g.edges.length

/-- A list with only the first of equal elements. -/
def distinct (names : List String) : List String :=
  names.foldl (fun seen name => if seen.contains name then seen else seen ++ [name]) []

/-- Rounds of a search from `frontier`; `seen` are the dependents found before. -/
def dependentsWithin (g : Graph) : (rounds : Nat) → (seen frontier : List String) → List String
  | 0, seen, _ => seen
  | rounds + 1, seen, frontier =>
    match distinct ((frontier.flatMap g.dependents).filter fun d => !seen.contains d) with
    | [] => seen
    | found => g.dependentsWithin rounds (seen ++ found) found

/-- All direct and indirect dependents. Every round but the last finds one that an edge leads to,
so there are no more rounds than edges. -/
def allDependents (g : Graph) (name : String) : List String :=
  g.dependentsWithin g.edges.length [] [name]

def isDependent (g : Graph) (name dependent : String) : Bool :=
  (g.allDependents name).contains dependent

structure Visit where
  visited : List String
  order : List String

/-- Visits a bean after all its dependents in `scope` that were not reached before. -/
def visit (g : Graph) (scope : List String) : (depth : Nat) → String → Visit → Visit
  | 0, _, v => v
  | depth + 1, name, v =>
    if v.visited.contains name then v
    else
      let inner := ((g.dependents name).filter scope.contains).foldl
        (fun v dependent => g.visit scope depth dependent v) { v with visited := name :: v.visited }
      { inner with order := inner.order ++ [name] }

/-- The order in which the named beans can be torn down: dependents first. A visit goes no deeper
than there are names. -/
def destructionOrder (g : Graph) (names : List String) : List String :=
  (names.foldl (fun v name => g.visit names (names.length + 1) name v) ⟨[], []⟩).order

def roots (g : Graph) : List String := distinct (g.edges.map (·.dependency))

/-- The beans with an edge, each dependency before its dependents. -/
def nodes (g : Graph) : List String :=
  distinct (g.roots.flatMap fun name => name :: g.dependents name)

def quoted (name : String) : String := "\"" ++ name ++ "\""

/-- The graph in the DOT language, with arrows from dependents to dependencies. Names stand in
quotes as they are. -/
def toDot (g : Graph) : String :=
  "digraph DependentBeans \x7b\n  rankdir=LR;\n  node [shape=box, style=rounded];\n\n" ++
    String.join (g.nodes.map fun name => "  " ++ quoted name ++ ";\n") ++ "\n" ++
    String.join (g.roots.flatMap fun name => (g.dependents name).map fun dependent =>
      "  " ++ quoted dependent ++ " -> " ++ quoted name ++ ";\n") ++ "\x7d\n"

end Graph

end BeanWiring

import BeanWiring.Container.Prediction

/-!
Looking up the beans for a dependency by type. First it is decided which beans are meant, then
they are fetched; what a lookup came to is told with the names of the beans used.
-/
namespace BeanWiring

inductive Choice
  | nothing
  | one (name : String)
  | all (names : List String)

structure Lookup where
  names : List String
  result : Except BeanError Value

namespace Container

def primary? (c : Container) (type : BeanType) (candidates : List String) :
    Except BeanError (Option String) :=
  match candidates.filter fun name => (c.definitions.get? name).any (·.primary) with
  | [] => .ok none
  | [name] => .ok (some name)
  | names => .error (.noUniqueBean type.name names)

/-- The bean meant among several: the primary one, else the one called like the parameter. -/
def determine (c : Container) (type : BeanType) (parameterName : Option String)
    (candidates : List String) : Except BeanError String :=
  match c.primary? type candidates with
  | .error e => .error e
  | .ok (some name) => .ok name
  | .ok none =>
    match parameterName.bind fun wanted => candidates.find? (· == wanted) with
    | some name => .ok name
    | none => .error (.noUniqueBean type.name candidates)

def pick (c : Container) (point : InjectionPoint) (required : Bool) (names : List String) :
    Except BeanError Choice :=
  match point.type.element?, names with
  | some element, [] =>
    .error (.noSuchBean element.name ("no beans found to populate " ++ point.type.name))
  | some _, names => .ok (.all names)
  | none, [] =>
    if required then
      .error (.noSuchBean point.type.name
        ("expected at least 1 bean which qualifies as autowire candidate for " ++ point.text))
    else .ok .nothing
  | none, [name] => .ok (.one name)
  | none, names => (c.determine point.type point.name names).map .one

end Container

def BeanType.gather (type : BeanType) (names : List String) (beans : List Value) : Value :=
  match type with
  | .array element => .array element beans
  | .collection .set _ => .set beans
  | .map .. => .map ((names.map Value.str).zip beans)
  | _ => .list beans

namespace Work

def choose (point : InjectionPoint) (requester : String) (required : Bool) :
    Work (Except BeanError Choice) := do
  let names ← candidatesFor requester (point.type.element?.getD point.type)
  return (← get).pick point required names

def gather (fetch : String → Attempt Value) (type : BeanType) : Choice → Work Lookup
  | .nothing => pure ⟨[], .ok .null⟩
  | .one name => return ⟨[name], ← (fetch name).run⟩
  | .all names => do
    match ← (names.mapM fetch : Attempt (List Value)).run with
    | .ok beans => pure ⟨names, .ok (type.gather names beans)⟩
    | .error e => pure ⟨[], .error e⟩

def resolveDependency (fetch : String → Attempt Value) (point : InjectionPoint)
    (requester : String) (required : Bool) : Work Lookup := do
  match ← choose point requester required with
  | .ok choice => gather fetch point.type choice
  | .error e => pure ⟨[], .error e⟩

/-- The bean meant by a type alone, asked for by no bean. -/
def chooseByType (type : BeanType) : Work (Except BeanError String) := do
  match ← candidatesFor "" type with
  | [] => pure (.error (.noSuchBean type.name "no bean of this type is registered"))
  | [name] => pure (.ok name)
  | names => pure ((← get).determine type none names)

end Work

end BeanWiring

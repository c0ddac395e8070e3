import BeanWiring.Candidates
import BeanWiring.Container.Invocation
import BeanWiring.Container.Replay
import BeanWiring.Selection

/-!
Creating beans. First it is decided what to invoke: a definition that was resolved before is
replayed, else its candidates are bound and compared, and the choice is kept unless the caller gave
the arguments. Then the one executable decided on is invoked. All functions but the last take
creation itself as an argument, `create`, for the beans a bean needs: every creation inside another
has room for one bean less.
-/
namespace BeanWiring

/-- Whether a candidate has room for the arguments, and no more than that for given ones. -/
def ArgumentSource.suits (source : ArgumentSource) (minCount : Nat) (candidate : Executable) :
    Bool :=
  minCount ≤ candidate.arity &&
    match source with
    | .explicit arguments => candidate.arity == arguments.length
    | .declared _ => true

def ArgumentSource.typeTexts : ArgumentSource → List String
  | .explicit arguments => arguments.map Value.typeDescription
  | .declared values =>
    (values.indexed.map (·.2) ++ values.generic).map fun h =>
      h.typeName.getD h.value.value.typeDescription

/-- What creates a bean: an executable with its final arguments, and the bean it is invoked on if it
is a method of an instance. -/
structure Call where
  executable : Executable
  target : Option Value
  arguments : List Value

/-- A creation under way: what it asks of its surroundings, how it creates other beans, where the
request stands, the bean and its definition, and the arguments the caller gave. -/
structure Creation where
  host : Host
  create : Creator
  context : Context
  bean : String
  definition : Definition
  explicit : Option (List Value)

namespace Creation

def instantiate (n : Creation) (call : Call) : Attempt Value := do
  match ← n.host.instantiate n.bean call.executable call.target call.arguments with
  | .ok value => pure value
  | .error text =>
    throw (.instantiation n.bean
      ("Bean instantiation via " ++ call.executable.noun ++ " failed: " ++
        call.executable.signature) (.plain text))

def remembered (n : Creation) : Attempt (Option (Executable × List Value)) :=
  Attempt.remembered n.host n.create n.context n.bean n.definition n.explicit

def isBare (n : Creation) : Bool := n.explicit.isNone && !n.definition.hasArguments

/-- The one candidate for a creation that names no argument, if it takes none. -/
def bareCandidate? (n : Creation) (candidates : List Executable) : Option Executable :=
  match candidates with
  | [only] => if n.isBare && only.arity == 0 then some only else none
  | _ => none

/-- Where the arguments come from, and how many parameters they need at least, counted in words of
64 bits. -/
def source (n : Creation) : Attempt (ArgumentSource × Nat) :=
  match n.explicit with
  | some arguments => pure (.explicit arguments, arguments.length)
  | none => do
    let values ← Attempt.resolveArguments n.create n.context n.bean n.definition
    match n.definition.arguments.minCount? with
    | some minCount => pure (.declared values, minCount)
    | none => do
      Work.emit (.overflow n.bean)
      throw .overflow

def bindCandidate (n : Creation) (kind : SearchKind) (source : ArgumentSource)
    (autowiring fallback : Bool) (candidate : Executable) : Work (Except Unsatisfied Binding) := do
  let s : Work.Setting :=
    ⟨Attempt.fetcher n.create, n.context, n.bean, autowiring, fallback⟩
  match ← (Work.bind s candidate source).run with
  | .ok binding => pure (.ok binding)
  | .error failure =>
    Work.emit (.ignoringCandidate n.bean kind.noun candidate failure)
    pure (.error failure)

/-- Searches the candidates for the closest match. Only a lone candidate may be given empty
containers. -/
def search (n : Creation) (kind : SearchKind) (source : ArgumentSource) (minCount : Nat)
    (autowiring : Bool) (candidates : List Executable) : Work Search := do
  let s ← Search.run kind n.definition.lenient (source.suits minCount)
    (n.bindCandidate kind source autowiring (candidates.length == 1)) .start candidates
  match s.best with
  | none => pure s
  | some best =>
    Work.emit (.selected n.bean kind.noun best.executable s.weight
      (best.binding.map (·.provenance)))
    pure s

def suppressAll (n : Creation) : List Unsatisfied → Work Unit
  | [] => pure ()
  | failure :: rest => do
    Work.emit (.suppressingCandidate failure)
    n.host.suppress (.unsatisfied failure)
    n.suppressAll rest

def exhausted (n : Creation) (failures : List Unsatisfied) (noMatch : String) : Attempt Call :=
  match Unsatisfied.pickReported failures with
  | none => throw (.noMatchingExecutable n.bean noMatch)
  | some (reported, others) => do
    n.suppressAll others
    throw (.unsatisfied reported)

def keep (n : Creation) (e : Executable) (arguments : KeptArguments) : Work Unit :=
  if n.explicit.isNone then Work.keepResolution n.definition ⟨e, arguments⟩ else pure ()

def byClosestConstructor (n : Creation) (beanClass : BeanClass) (autowiring : Bool)
    (candidates : List Executable) : Attempt Call := do
  let (source, minCount) ← n.source
  let found ← n.search .constructor source minCount autowiring candidates
  match found.best with
  | none =>
    n.exhausted found.failures
      ("Could not resolve matching constructor on bean class [" ++ beanClass.name ++
        "] (hint: specify index/type/name arguments for simple parameters to avoid type " ++
        "ambiguities)")
  | some best =>
    if !found.ambiguous.isEmpty && !n.definition.lenient then
      throw (.ambiguousMatch n.bean SearchKind.constructor.noun beanClass.name
        (found.ambiguous.map Executable.signature))
    else do
      n.keep best.executable best.binding.kept
      pure ⟨best.executable, none, best.binding.arguments⟩

/-- The call of a constructor among the candidates. A lone one that takes nothing is not compared. -/
def constructorAmong (n : Creation) (beanClass : BeanClass) (autowiring : Bool)
    (candidates : List Executable) : Attempt Call :=
  match n.bareCandidate? candidates with
  | some only => do
    n.keep only (.resolved [])
    pure ⟨only, none, []⟩
  | none => n.byClosestConstructor beanClass autowiring candidates

def constructors (n : Creation) (beanClass : BeanClass) :
    Option (List Executable) → Attempt (List Executable)
  | some given => pure (Executable.ranked given)
  | none => liftExcept (beanClass.constructorCandidates n.bean n.definition)

/-- The call of a constructor of the class: one of those given, whose parameters are then satisfied
from the container, or any the definition admits. -/
def byConstructor (n : Creation) (given : Option (List Executable)) : Attempt Call := do
  match ← n.remembered with
  | some (e, arguments) => pure ⟨e, none, arguments⟩
  | none =>
    match n.definition.beanClass with
    | none => throw (.invalidDefinition n.bean "bean definition declares no bean class")
    | some beanClass =>
      n.constructorAmong beanClass (given.isSome || n.definition.autowire)
        (← n.constructors beanClass given)

/-- The class whose methods may create the bean, with the factory bean for methods of an instance.
The factory bean is fetched first. -/
def factoryTarget (n : Creation) : Attempt (Option Value × BeanClass) :=
  match n.definition.factoryBean with
  | some name =>
    if name == n.bean then
      throw (.invalidDefinition n.bean
        "factory-bean reference points back to the same bean definition")
    else do
      let factoryBean ← Attempt.fetch n.create n.context name none
      Work.registerDependent name n.bean
      let c ← get
      match factoryBean.runtimeType.bind c.classOfType? with
      | some beanClass => pure (some factoryBean, beanClass)
      | none =>
        throw (.illegalState ("Cannot determine class of factory bean '" ++ name ++
          "' of type [" ++ factoryBean.typeDescription ++ "]"))
  | none =>
    match n.definition.beanClass with
    | some beanClass => pure (none, beanClass)
    | none =>
      throw (.invalidDefinition n.bean
        "bean definition declares neither a bean class nor a factory-bean reference")

/-- The factory methods to try: the one found earlier if it is declared to be the only one and
still belongs to the class, else all that the definition admits. -/
def factoryMethods (n : Creation) (beanClass : BeanClass) : Attempt (List Executable) := do
  let c ← get
  match if n.definition.unique then c.factoryMethod? n.definition else none with
  | some method =>
    if method.declaring == beanClass.type then pure [method] else all
  | none => all
where
  all : Attempt (List Executable) :=
    liftExcept
      (beanClass.methodCandidates n.bean n.definition n.definition.factoryBean.isNone)

def noMatchingMethodText (d : Definition) (beanClass : BeanClass) (source : ArgumentSource)
    (minCount : Nat) : String :=
  let factoryBean :=
    match d.factoryBean with
    | some name => "factory bean '" ++ name ++ "'; "
    | none => ""
  "No matching factory method found on class [" ++ beanClass.name ++ "]: " ++ factoryBean ++
    "factory method '" ++ d.factoryMethod.getD "" ++ "(" ++
    String.intercalate ", " source.typeTexts ++
    ")'. Check that a method with the specified name " ++
    (if 0 < minCount then "and arguments " else "") ++ "exists and that it is " ++
    (if d.factoryBean.isNone then "static" else "non-static") ++ "."

def keepMethod (n : Creation) (method : Executable) (arguments : KeptArguments) : Work Unit := do
  if n.explicit.isNone then
    Work.rememberMethod n.definition method
    Work.keepResolution n.definition ⟨method, arguments⟩

def byClosestMethod (n : Creation) (factoryBean : Option Value) (beanClass : BeanClass)
    (candidates : List Executable) : Attempt Call := do
  let (source, minCount) ← n.source
  let found ← n.search .factoryMethod source minCount n.definition.autowire candidates
  match found.best with
  | none =>
    n.exhausted found.failures (noMatchingMethodText n.definition beanClass source minCount)
  | some best =>
    let method := best.executable
    if method.returnType.isVoid then
      throw (.invalidFactoryMethod n.bean (method.methodName?.getD "") beanClass.name)
    else if !found.ambiguous.isEmpty then
      throw (.ambiguousMatch n.bean SearchKind.factoryMethod.noun beanClass.name
        (found.ambiguous.map Executable.signature))
    else do
      n.keepMethod method best.binding.kept
      pure ⟨method, factoryBean, best.binding.arguments⟩

/-- The call of a factory method among the candidates. A lone one that takes nothing and gives
something is not compared. -/
def methodAmong (n : Creation) (factoryBean : Option Value) (beanClass : BeanClass)
    (candidates : List Executable) : Attempt Call :=
  match (n.bareCandidate? candidates).filter (!·.returnType.isVoid) with
  | some only => do
    n.keepMethod only (.resolved [])
    pure ⟨only, factoryBean, []⟩
  | none => n.byClosestMethod factoryBean beanClass candidates

def byFactoryMethod (n : Creation) : Attempt Call := do
  let (factoryBean, beanClass) ← n.factoryTarget
  match ← n.remembered with
  | some (e, arguments) => pure ⟨e, factoryBean, arguments⟩
  | none => n.methodAmong factoryBean beanClass (← n.factoryMethods beanClass)

/-- The constructors to choose among, unless any the definition admits will do. Without any hint the
class is created by the only constructor, else by the one without parameters; what is kept for the
definition is hint enough. -/
def favoured (n : Creation) (isKept : Bool) (beanClass : BeanClass) :
    Except BeanError (Option (List Executable)) :=
  if n.explicit.isNone && isKept then .ok none
  else
    match beanClass.soleConstructor? with
    | some only => .ok (some [only])
    | none =>
      if n.definition.autowire || !n.isBare then .ok none
      else
        match beanClass.defaultConstructor?.filter n.definition.admits with
        | some e => .ok (some [e])
        | none =>
          .error (.noMatchingExecutable n.bean
            ("No default constructor found on bean class [" ++ beanClass.name ++ "]"))

def call (n : Creation) : Attempt Call := do
  if n.definition.factoryMethod.isSome then n.byFactoryMethod
  else
    match n.definition.beanClass with
    | none =>
      throw (.invalidDefinition n.bean
        "bean definition declares neither a bean class nor a factory method")
    | some beanClass =>
      let c ← get
      n.byConstructor (← liftExcept (n.favoured (c.resolution? n.definition).isSome beanClass))

def perform (n : Creation) : Attempt Value := do n.instantiate (← n.call)

end Creation

/-- Creates beans in the given surroundings where there is room for `room` more inside one
another. -/
def createWithin (host : Host) : (room : Nat) → Creator
  | 0, ctx, _, _, _ => throw (.tooDeep ctx.maxDepth)
  | room + 1, ctx, bean, d, explicit => do
    let inside ← liftExcept (ctx.begin bean)
    Work.emit (.creating bean)
    (Creation.mk host (createWithin host room) inside bean d explicit).perform

def Context.creator (ctx : Context) : Creator := createWithin .full ctx.room

end BeanWiring

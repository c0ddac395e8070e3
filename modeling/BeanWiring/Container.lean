import BeanWiring.Graph
import BeanWiring.Journal
import BeanWiring.Placeholder
import BeanWiring.Registry
import BeanWiring.Settings

/-!
The state of a bean container: what it was told, the beans it holds, what it found out about its
definitions, and its journal. Work on a container changes the state whether it succeeds or not.
-/
namespace BeanWiring

/-- `resolutions` and `factoryMethods` are kept by the serial numbers of definitions, and `built`
has the definitions in the order of these numbers. Events, invocations, suppressed errors and
`decisions`, the resolutions ever kept, are in the order in which they came; no work reads the
decisions. -/
structure Container where
  settings : Settings
  definitions : Registry String Definition
  classes : Registry String BeanClass
  singletons : Registry String Value
  graph : Graph
  properties : Registry String String
  resolutions : Registry Nat Resolution
  factoryMethods : Registry Nat Executable
  suppressed : List String
  built : List Definition
  nextInnerBean : Nat
  objectsMade : Nat
  events : List Event
  invocations : List Invocation
  decisions : List (Nat × Resolution)

abbrev Work := StateM Container

abbrev Attempt := ExceptT BeanError Work

def Definition.initial (s : Settings) : Definition where
  serial := 0
  beanClass := none
  factoryBean := none
  factoryMethod := none
  unique := false
  arguments := .empty
  autowire := false
  lenient := s.lenient
  nonPublicAllowed := s.nonPublicAllowed
  scope := .singleton
  primary := false

namespace Container

def new (settings : Settings) : Container where
  settings := settings
  definitions := .empty
  classes := .empty
  singletons := .empty
  graph := .empty
  properties := .empty
  resolutions := .empty
  factoryMethods := .empty
  suppressed := []
  built := []
  nextInnerBean := 0
  objectsMade := 0
  events := []
  invocations := []
  decisions := []

def ofSettings (settings : Settings) : Except SettingsError Container :=
  settings.validate.map new

/-- The class that lists the methods of objects of a type: its own or the nearest one above. -/
def classOfType? (c : Container) (type : BeanType) : Option BeanClass :=
  (type :: type.lineage).findSome? fun t => c.classes.get? t.name

def resolution? (c : Container) (d : Definition) : Option Resolution :=
  c.resolutions.get? d.serial

def withResolution (c : Container) (d : Definition) (resolution : Resolution) : Container :=
  { c with
    resolutions := c.resolutions.insert d.serial resolution
    decisions := c.decisions ++ [(d.serial, resolution)] }

def factoryMethod? (c : Container) (d : Definition) : Option Executable :=
  c.factoryMethods.get? d.serial

def knownType? (c : Container) (d : Definition) : Option BeanType :=
  if d.factoryMethod.isSome then (c.factoryMethod? d).map (·.returnType)
  else d.beanClass.map (·.type)

/-- The beans a container can be asked for: defined ones, then singletons without definition. -/
def beanNames (c : Container) : List String :=
  c.definitions.keys ++ c.singletons.keys.filter fun name => !c.definitions.contains name

end Container

namespace Work

def emit (event : Event) : Work Unit :=
  modify fun c => { c with events := c.events ++ [event] }

def registerClass (beanClass : BeanClass) : Work Unit :=
  modify fun c => { c with classes := c.classes.insert beanClass.name beanClass }

def enrollValue (declared : DeclaredValue) : Work DeclaredValue :=
  modifyGet fun c =>
    let (numbered, built) := (declared.numbered).run c.built
    (numbered, { c with built := built })

def enroll (d : Definition) : Work Definition :=
  modifyGet fun c =>
    let (numbered, built) := (DeclaredValue.numberedDefinition d).run c.built
    (numbered, { c with built := built })

def enrollRecipes : List Recipe → Work (List Recipe)
  | [] => pure []
  | .declared source :: rest =>
    return .declared (← enrollValue source) :: (← enrollRecipes rest)
  | recipe :: rest => return recipe :: (← enrollRecipes rest)

/-- Registers an enrolled definition under a name. The singleton created from a definition it
replaces is dropped. -/
def register (name : String) (d : Definition) : Work Unit := do
  match d.beanClass with
  | some beanClass => registerClass beanClass
  | none => pure ()
  let replaced := (← get).definitions.contains name
  modify fun c => { c with definitions := c.definitions.insert name d }
  if replaced then
    emit (.overriding name)
    modify fun c => { c with singletons := c.singletons.erase name }

def define (name : String) (d : Definition) : Work Unit := do register name (← enroll d)

def registerSingleton (name : String) (bean : Value) : Work Unit :=
  modify fun c => { c with singletons := c.singletons.insert name bean }

def setProperty (key value : String) : Work Unit :=
  modify fun c => { c with properties := c.properties.insert key value }

def registerDependent (dependency dependent : String) : Work Unit :=
  modify fun c => { c with graph := c.graph.register dependency dependent }

def keepResolution (d : Definition) (resolution : Resolution) : Work Unit :=
  modify fun c => c.withResolution d resolution

def writeResolution (d : Definition) : Resolution → Work Unit
  | ⟨e, .resolved arguments⟩ => keepResolution d ⟨e, .resolved arguments⟩
  | ⟨e, .prepared recipes⟩ => do keepResolution d ⟨e, .prepared (← enrollRecipes recipes)⟩

def clearResolution (d : Definition) : Work Unit :=
  modify fun c => { c with resolutions := c.resolutions.erase d.serial }

def rememberMethod (d : Definition) (method : Executable) : Work Unit :=
  modify fun c => { c with factoryMethods := c.factoryMethods.insert d.serial method }

def suppress (error : BeanError) : Work Unit := do
  emit (.suppressed error)
  modify fun c => { c with suppressed := c.suppressed ++ [error.message] }

def makeObject (type : BeanType) : Work Value :=
  modifyGet fun c =>
    (.object type (.made (c.objectsMade + 1)), { c with objectsMade := c.objectsMade + 1 })

def nextInnerName : Work String :=
  modifyGet fun c =>
    ("(inner bean)#" ++ toString c.nextInnerBean, { c with nextInnerBean := c.nextInnerBean + 1 })

end Work

end BeanWiring

import BeanWiring.Container.Lookup
import BeanWiring.Context

/-!
Binding values to the parameters of an executable: given arguments by position, or declared values
by the parameters they are for, with what is left over satisfied from the container.
-/
namespace BeanWiring

inductive ArgumentSource
  | declared (values : ArgumentValues ResolvedValue)
  | explicit (arguments : List Value)

abbrev Fetch := Context → String → Attempt Value

structure Autowired where
  value : Value
  provenance : Provenance
  names : List String

def Value.convertArgument (value : Value) (bean : String) (point : InjectionPoint) :
    Except Unsatisfied Value :=
  (value.convert point.type).mapError fun mismatch =>
    .because bean point ("Could not convert argument value of type [" ++ value.typeDescription ++
      "] to required type [" ++ point.type.name ++ "]: " ++ mismatch.text)

/-- What a lookup comes to for a parameter of a type. An empty container stands in for one that
nothing goes into, if `fallback` allows it. -/
def Lookup.autowired (lookup : Lookup) (type : BeanType) (fallback : Bool) :
    Except BeanError Autowired :=
  match lookup.result with
  | .ok value => .ok ⟨value, .autowired, lookup.names⟩
  | .error e =>
    match if fallback && e.isNoSuchBean then type.emptyValue? else none with
    | some nothing => .ok ⟨nothing, .autowiredEmpty, []⟩
    | none => .error e

/-- Satisfies a parameter from the container. A parameter for an injection point takes the current
one. -/
def Work.autowire (fetch : Fetch) (ctx : Context) (bean : String) (point : InjectionPoint)
    (fallback : Bool) : Attempt Autowired :=
  if BeanType.injectionPoint.accepts point.type then
    match ctx.currentPoint? with
    | some current => pure ⟨.point current, .autowired, []⟩
    | none => throw (.illegalState ("No current InjectionPoint available for " ++ point.text))
  else do
    let lookup ← Work.resolveDependency (fetch (ctx.push point)) point bean true
    liftExcept (lookup.autowired point.type fallback)

def HolderSlot.provenance : HolderSlot → Provenance
  | .indexed _ => .declaredIndexed
  | .generic _ => .declaredGeneric

namespace Binding

/-- Binds given arguments by position; there may be more of them than parameters. -/
def ofExplicitFrom (e : Executable) (bean : String) (given : Nat) :
    (index : Nat) → List Parameter → List Value → Except Unsatisfied Binding
  | _, [], _ => .ok []
  | index, parameter :: _, [] =>
    .error (.because bean (e.injectionPoint bean index parameter)
      (toString given ++ " explicit arguments supplied for " ++ toString e.arity ++ " parameters"))
  | index, parameter :: parameters, raw :: rest =>
    match raw.convertArgument bean (e.injectionPoint bean index parameter) with
    | .error failure => .error failure
    | .ok argument =>
      (ofExplicitFrom e bean given (index + 1) parameters rest).map
        (⟨raw, argument, .value argument, .explicitPositional⟩ :: ·)

def ofExplicit (e : Executable) (bean : String) (arguments : List Value) :
    Except Unsatisfied Binding :=
  ofExplicitFrom e bean arguments.length 0 e.parameters arguments

def ofHolder (slot : HolderSlot) (h : Holder ResolvedValue) (bean : String)
    (point : InjectionPoint) : Except Unsatisfied BoundArgument :=
  match h.converted with
  | some value => .ok ⟨h.value.value, value, .value value, slot.provenance⟩
  | none =>
    match h.value.value.convertArgument bean point with
    | .error failure => .error failure
    | .ok argument =>
      let recipe :=
        if h.value.source.isReresolved then .declared h.value.source else .value argument
      .ok ⟨h.value.value, argument, recipe, slot.provenance⟩

end Binding

structure Progress where
  used : List HolderSlot
  bound : Binding
  names : List String

/-- The declared value for a parameter. Where no other source is left, or there are as many values
as parameters, any unused value without requirements will do. -/
def ArgumentValues.forParameter? (values : ArgumentValues ResolvedValue) (autowiring : Bool)
    (arity index : Nat) (parameter : Parameter) (used : List HolderSlot) :
    Option (HolderSlot × Holder ResolvedValue) :=
  match values.find? index parameter.type (some (parameter.name.getD "")) used with
  | some found => some found
  | none =>
    if !autowiring || arity == values.count then values.generic? none none used else none

namespace Work

structure Setting where
  fetch : Fetch
  context : Context
  bean : String
  autowiring : Bool
  fallback : Bool

def bindParameter (s : Setting) (e : Executable) (values : ArgumentValues ResolvedValue)
    (index : Nat) (parameter : Parameter) (p : Progress) : ExceptT Unsatisfied Work Progress := do
  let point := e.injectionPoint s.bean index parameter
  match values.forParameter? s.autowiring e.arity index parameter p.used with
  | some (slot, h) =>
    let bound ← Binding.ofHolder slot h s.bean point
    pure { p with used := slot :: p.used, bound := p.bound ++ [bound] }
  | none =>
    if s.autowiring then
      match ← (autowire s.fetch s.context s.bean point s.fallback).run with
      | .ok found =>
        pure { p with
          bound := p.bound ++ [⟨found.value, found.value, .autowired, found.provenance⟩]
          names := Graph.distinct (p.names ++ found.names) }
      | .error e => throw (.causedBy s.bean point e)
    else
      throw (.because s.bean point ("Ambiguous argument values for parameter of type [" ++
        parameter.type.name ++
        "] - did you specify the correct bean references as arguments?"))

def bindFrom (s : Setting) (e : Executable) (values : ArgumentValues ResolvedValue) :
    (index : Nat) → List Parameter → Progress → ExceptT Unsatisfied Work Progress
  | _, [], p => pure p
  | index, parameter :: rest, p => do
    bindFrom s e values (index + 1) rest (← bindParameter s e values index parameter p)

def registerAutowired (bean noun : String) : List String → Work Unit
  | [] => pure ()
  | name :: rest => do
    registerDependent name bean
    emit (.autowiring bean name noun)
    registerAutowired bean noun rest

/-- Binds declared values to all parameters of an executable. Beans used are registered only when
every parameter is bound. -/
def bindDeclared (s : Setting) (e : Executable) (values : ArgumentValues ResolvedValue) :
    ExceptT Unsatisfied Work Binding := do
  let p ← bindFrom s e values 0 e.parameters ⟨[], [], []⟩
  registerAutowired s.bean e.noun p.names
  pure p.bound

def bind (s : Setting) (e : Executable) : ArgumentSource → ExceptT Unsatisfied Work Binding
  | .explicit arguments => liftM (Binding.ofExplicit e s.bean arguments)
  | .declared values => bindDeclared s e values

end Work

end BeanWiring

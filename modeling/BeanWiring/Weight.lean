import BeanWiring.Value

/-!
How closely arguments match parameter types; lower is closer. Weights are 32-bit integers that
stop at their largest value, which also marks arguments that do not fit at all.
-/
namespace BeanWiring.Weight

def greatest : Int := 0x7fffffff

def rawBonus : Int := 1024

def add (weight amount : Int) : Int := min greatest (weight + amount)

/-- Two for every superclass up to the parameter type, as far as the parameter takes them. -/
def addSteps (parameter : BeanType) : (weight : Int) → (superclasses : List BeanType) → Int
  | weight, [] => weight
  | weight, superclass :: rest =>
    if parameter == superclass then add weight 2
    else if parameter.accepts superclass then addSteps parameter (add weight 2) rest
    else weight

/-- Adds what one fitting argument weighs; `null` weighs nothing. -/
def addArgument (weight : Int) (parameter : BeanType) (argument : Value) : Int :=
  match argument.runtimeType with
  | none => weight
  | some type =>
    let stepped := addSteps parameter weight type.lineage
    if parameter.isInterface then add stepped 1 else stepped

def typeDifferenceFrom (weight : Int) : List (BeanType × Value) → Int
  | [] => weight
  | (parameter, argument) :: rest =>
    if parameter.fits argument then typeDifferenceFrom (addArgument weight parameter argument) rest
    else greatest

def typeDifference (parameters : List BeanType) (arguments : List Value) : Int :=
  typeDifferenceFrom 0 (parameters.zip arguments)

/-- The weight that picks the closest match: that of the arguments as converted or, with the
bonus, as given. -/
def lenient (parameters : List BeanType) (raw converted : List Value) : Int :=
  min (typeDifference parameters converted) (typeDifference parameters raw - rawBonus)

def allFit (parameters : List BeanType) (arguments : List Value) : Bool :=
  (parameters.zip arguments).all fun (parameter, argument) => parameter.fits argument

/-- The weight that only tells whether arguments fit: as given, after conversion, or not. -/
def strict (parameters : List BeanType) (raw converted : List Value) : Int :=
  if !allFit parameters converted then greatest
  else if !allFit parameters raw then greatest - 512
  else greatest - rawBonus

end BeanWiring.Weight

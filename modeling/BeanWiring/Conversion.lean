import BeanWiring.Decimal.Floating
import BeanWiring.Text.Truth
import BeanWiring.Value.Text

/-!
Conversion of values to the types parameters require. A value that fits stays as it is; texts are
read as numbers and truth values, numbers are widened, long integers narrowed where they fit,
scalars written as texts, and lists, sets and arrays turned into one another item by item.
-/
namespace BeanWiring

structure TypeMismatch where
  valueType : String
  requiredType : String
  message : String
  deriving DecidableEq, Repr

def TypeMismatch.text (e : TypeMismatch) : String :=
  "Failed to convert value of type '" ++ e.valueType ++ "' to required type '" ++
    e.requiredType ++ "': " ++ e.message

inductive ConversionFault
  | nullPrimitive
  | unreadableInteger (text : String) (fault : Decimal.IntegerFault)
  | unreadableFloat (text : String) (fault : Decimal.FloatFault)
  | unreadableTruth (text : String)
  | beyondInt (n : Int64)
  | unsupported

def ConversionFault.message : ConversionFault → String
  | .nullPrimitive => "null cannot be assigned to a primitive"
  | .unreadableInteger text fault => "'" ++ text ++ "': " ++ fault.message
  | .unreadableFloat text fault => "'" ++ text ++ "': " ++ fault.message
  | .unreadableTruth text => "'" ++ text ++ "' is not a boolean"
  | .beyondInt n => toString n.toInt ++ " does not fit into int"
  | .unsupported => "no matching conversion found"

namespace Value

def readPrimitive (text : String) : PrimitiveKind → Except ConversionFault Value
  | .int =>
    match Decimal.readInteger 0x7fffffff (Text.trim text).toList with
    | .ok n => .ok (.int (Int32.ofInt n))
    | .error fault => .error (.unreadableInteger (Text.trim text) fault)
  | .long =>
    match Decimal.readInteger 0x7fffffffffffffff (Text.trim text).toList with
    | .ok n => .ok (.long (Int64.ofInt n))
    | .error fault => .error (.unreadableInteger (Text.trim text) fault)
  | .double =>
    match Decimal.readFloat (Text.trim text).toList with
    | .ok x => .ok (.double x)
    | .error fault => .error (.unreadableFloat (Text.trim text) fault)
  | .boolean =>
    match Text.readTruth text with
    | some b => .ok (.bool b)
    | none => .error (.unreadableTruth (Text.trim text))

def isScalar : Value → Bool
  | bool _ | int _ | long _ | double _ => true
  | _ => false

def convertScalar (value : Value) (required : BeanType) : Except ConversionFault Value :=
  match value, required with
  | null, _ => .error .nullPrimitive
  | str s, .primitive kind => readPrimitive s kind
  | int n, .primitive .long => .ok (.long (Int64.ofInt n.toInt))
  | int n, .primitive .double => .ok (.double (Float.ofInt n.toInt))
  | long n, .primitive .int =>
    if -0x80000000 ≤ n.toInt && n.toInt ≤ 0x7fffffff then .ok (.int (Int32.ofInt n.toInt))
    else .error (.beyondInt n)
  | long n, .primitive .double => .ok (.double (Float.ofInt n.toInt))
  | value, required =>
    if value.isScalar && required == .string then .ok (.str value.text) else .error .unsupported

/-- Converts a value to a type. Only arrays wrap a value that is not a container, and a container
item that cannot be converted is the failure of the whole. -/
def convert (value : Value) (required : BeanType) : Except TypeMismatch Value :=
  if required.fits value then .ok value
  else
    match value, required with
    | null, _ => scalar
    | _, .array element =>
      match value.items? with
      | some items => (items.mapM (convert · element)).map (.array element)
      | none => (value.convert element).map fun item => .array element [item]
    | list items, .collection kind element | set items, .collection kind element
    | array _ items, .collection kind element =>
      (items.mapM (convert · element)).map (if kind = .set then .set else .list)
    | _, _ => scalar
where
  scalar : Except TypeMismatch Value :=
    (value.convertScalar required).mapError fun fault =>
      ⟨value.typeDescription, required.name, fault.message⟩

end Value

end BeanWiring

import BeanWiring.BeanError
import BeanWiring.Declared

/-!
The executables that may create a bean, and the order in which they are tried: public before
non-public, then those with more parameters first, then as declared.
-/
namespace BeanWiring

namespace Executable

/-- Whether `e` is tried before `f` even if `f` is declared before it. -/
def precedes (e f : Executable) : Bool :=
  (e.isPublic && !f.isPublic) || (e.isPublic == f.isPublic && f.arity < e.arity)

def insertRanked (e : Executable) : List Executable → List Executable
  | [] => [e]
  | f :: rest => if f.precedes e then f :: insertRanked e rest else e :: f :: rest

def ranked (candidates : List Executable) : List Executable :=
  candidates.foldr insertRanked []

end Executable

namespace BeanClass

/-- The constructors that a definition admits, ranked. A class that lists a method or a
constructor of another type among them has none. -/
def constructorCandidates (c : BeanClass) (bean : String) (d : Definition) :
    Except BeanError (List Executable) :=
  match c.constructors.find? fun e => !e.isConstructor || e.declaring != c.type with
  | some e =>
    .error (.introspection bean "constructor" c.name
      (e.signature ++ " is not a constructor declared by this class"))
  | none => .ok (Executable.ranked (c.constructors.filter d.admits))

/-- The methods of the definition's factory method name that it admits, ranked: static ones, or
ones of an instance. A class that lists a constructor among its methods has none. -/
def methodCandidates (c : BeanClass) (bean : String) (d : Definition) (isStatic : Bool) :
    Except BeanError (List Executable) :=
  match c.methods.find? (·.isConstructor) with
  | some e =>
    .error (.introspection bean "method" c.name (e.signature ++ " is listed as a method"))
  | none =>
    .ok (Executable.ranked (c.methods.filter fun e =>
      d.admits e && e.isStatic == isStatic && d.namesMethod e))

end BeanClass

end BeanWiring

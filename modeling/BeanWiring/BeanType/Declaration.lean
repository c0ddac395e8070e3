import BeanWiring.BeanType

/-!
Declaring classes and interfaces. A declaration takes any types to stand above the new one; those in
the place of a superclass only count for a class, which stands below `object` without one.
-/
namespace BeanWiring.BeanType

structure Declaration where
  name : String
  isInterface : Bool
  superclass : Option BeanType
  interfaces : List BeanType

namespace Declaration

def ofClass (name : String) : Declaration := ⟨name, false, none, []⟩

def ofInterface (name : String) : Declaration := ⟨name, true, none, []⟩

def extending (d : Declaration) (superclass : BeanType) : Declaration :=
  { d with superclass := some superclass }

def implementing (d : Declaration) (interface : BeanType) : Declaration :=
  { d with interfaces := d.interfaces ++ [interface] }

def build (d : Declaration) : BeanType :=
  if d.isInterface then declaredInterface d.name d.interfaces
  else declaredClass d.name (d.superclass.getD object) d.interfaces

end Declaration

end BeanWiring.BeanType

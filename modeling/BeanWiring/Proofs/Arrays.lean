import BeanWiring.Proofs.Assignability

/-!
Array types and the types they hold. Of an element type only the erased name counts for the equality of
arrays, and a class can be declared under a name that is the erased name of another type. Where no type is
declared under such a name, an erased name tells the form of its type, and array types are as equal as
their elements, however deep they are nested: one array is not taken for another, and converted only by its
items, unless its elements can stand for those of the other.
-/
namespace BeanWiring.BeanType

def nested : (depth : Nat) → BeanType → BeanType
  | 0, type => type
  | depth + 1, type => array (nested depth type)

/-- The types that nobody declares, but for arrays, each in one of its equal versions. -/
def builtIns : List BeanType :=
  [int, long, double, boolean, collection .collection object, collection .list object,
    collection .set object, map object object, void]

/-- The form of the types that have this erased name without a declaration. -/
def impliedForm? (erasure : String) : Option Form :=
  if ['[', ']'] <:+ erasure.toList then some .ofArray
  else (builtIns.find? (·.erasure == erasure)).map form

/-- Types named so that each is told by its name: no other is implied by the name of a declared type, and
it is not the name of both a class and an interface. -/
structure WellNamed (U : Set BeanType) : Prop where
  unimplied : ∀ t ∈ U, t.isDeclared = true → impliedForm? t.name = none
  apart : ∀ s ∈ U, ∀ t ∈ U, s.isDeclared = true → t.isDeclared = true → s.name = t.name →
    s.form = t.form

def ElementsStand (a b : BeanType) : Prop :=
  (a == b) = true ∨ a.isPrimitive = false ∧ b.isPrimitive = false ∧ a.accepts b = true

variable {U : Set BeanType} {a b type : BeanType} {depth : Nat} {name : String} {form : Form}

section names

theorem erasure_of_isDeclared (declared : type.isDeclared = true) : type.erasure = type.name := by
  cases type with
  | object | declaredClass | declaredInterface => rfl
  | _ => cases declared

theorem impliedForm?_erasure (undeclared : type.isDeclared = false) :
    impliedForm? type.erasure = some type.form := by
  cases type with
  | object | declaredClass | declaredInterface => cases undeclared
  | array element =>
    have brackets : ['[', ']'] <:+ (array element).erasure.toList :=
      ⟨element.erasure.toList, by rw [erasure, String.toList_append]; rfl⟩
    rw [impliedForm?, if_pos brackets]
    rfl
  | primitive kind => cases kind <;> decide
  | collection kind =>
    change impliedForm? kind.name = some .ofCollection
    cases kind <;> decide
  | map =>
    change impliedForm? "Map" = some .ofMap
    decide
  | void => decide

theorem impliedForm?_eq_some_iff : impliedForm? name = some form ↔
    ∃ type : BeanType, type.isDeclared = false ∧ type.erasure = name ∧ type.form = form := by
  constructor
  · intro implied
    unfold impliedForm? at implied
    split at implied
    · rename_i brackets
      obtain ⟨letters, spelled⟩ := brackets
      refine ⟨array (plainClass (String.ofList letters)), rfl, ?_, Option.some.inj implied⟩
      rw [← String.toList_inj, ← spelled]
      simp [erasure, plainClass, BeanType.name, String.toList_append]
    · obtain ⟨type, found, same⟩ := Option.map_eq_some_iff.mp implied
      have undeclared : ∀ type ∈ builtIns, type.isDeclared = false := by decide
      have bears := List.find?_some found
      exact ⟨type, undeclared type (List.mem_of_find?_eq_some found), eq_of_beq bears, same⟩
  · rintro ⟨type, undeclared, rfl, rfl⟩
    exact impliedForm?_erasure undeclared

theorem WellNamed.form_eq (named : WellNamed U) (member : a ∈ U) (member' : b ∈ U)
    (same : a.erasure = b.erasure) : a.form = b.form := by
  cases declared : a.isDeclared with
  | true =>
    cases declared' : b.isDeclared with
    | true =>
      apply named.apart a member b member' declared declared'
      rwa [← erasure_of_isDeclared declared, ← erasure_of_isDeclared declared']
    | false =>
      have unimplied := named.unimplied a member declared
      rw [← erasure_of_isDeclared declared, same, impliedForm?_erasure declared'] at unimplied
      cases unimplied
  | false =>
    have implied := impliedForm?_erasure declared
    cases declared' : b.isDeclared with
    | true =>
      have unimplied := named.unimplied b member' declared'
      rw [← erasure_of_isDeclared declared', ← same, implied] at unimplied
      cases unimplied
    | false =>
      rw [same, impliedForm?_erasure declared'] at implied
      exact (Option.some.inj implied).symm

theorem WellNamed.erasure_eq_iff (named : WellNamed U) (member : a ∈ U) (member' : b ∈ U) :
    a.erasure = b.erasure ↔ (a == b) = true := by
  rw [beq_iff]
  exact ⟨fun same => ⟨named.form_eq member member' same, same⟩, And.right⟩

end names

section arrays

theorem array_beq_iff : (array a == array b) = true ↔ a.erasure = b.erasure := by
  rw [beq_iff, erasure, erasure, String.append_left_inj]
  exact and_iff_right rfl

theorem erasure_nested_inj (depth : Nat) :
    (nested depth a).erasure = (nested depth b).erasure ↔ a.erasure = b.erasure := by
  induction depth with
  | zero => rfl
  | succ depth ih => rw [nested, nested, erasure, erasure, String.append_left_inj, ih]

theorem nested_beq_iff (depth : Nat) :
    (nested (depth + 1) a == nested (depth + 1) b) = true ↔ a.erasure = b.erasure :=
  array_beq_iff.trans (erasure_nested_inj depth)

theorem array_accepts_array_iff : (array a).accepts (array b) = true ↔
    a.erasure = b.erasure ∨ a.isPrimitive = false ∧ b.isPrimitive = false ∧ a.accepts b = true := by
  rw [accepts, Bool.or_eq_true, array_beq_iff]
  simp [and_assoc]

theorem nested_accepts_iff (depth : Nat) :
    (nested (depth + 1) a).accepts (nested (depth + 1) b) = true ↔
      a.erasure = b.erasure ∨ a.isPrimitive = false ∧ b.isPrimitive = false ∧ a.accepts b = true := by
  induction depth with
  | zero => exact array_accepts_array_iff
  | succ depth ih =>
    change (array (nested (depth + 1) a)).accepts (array (nested (depth + 1) b)) = true ↔ _
    rw [array_accepts_array_iff, ih, erasure_nested_inj]
    constructor
    · rintro (same | ⟨-, -, inner⟩)
      · exact .inl same
      · exact inner
    · intro inner
      exact .inr ⟨rfl, rfl, inner⟩

theorem WellNamed.nested_accepts_iff (named : WellNamed U) (member : a ∈ U) (member' : b ∈ U)
    (depth : Nat) :
    (nested (depth + 1) a).accepts (nested (depth + 1) b) = true ↔ ElementsStand a b := by
  rw [BeanType.nested_accepts_iff, named.erasure_eq_iff member member', ElementsStand]

theorem convert_array_of_not_fits {items : List Value} (unfit : (array a).accepts (array b) = false) :
    (Value.array b items).convert (array a) =
      (items.mapM (Value.convert · a)).map (Value.array a) := by
  have other : (array a).fits (.array b items) = false := unfit
  conv =>
    lhs
    unfold Value.convert
  rw [if_neg (by simp [other])]
  rfl

/-- Arrays of any depth are equal just if the erased names of what they hold in the end are. Among
well-named types this is so just if what they hold is equal. Then an array fits an array type of the same
depth just if its elements can stand for those asked for, and is converted to it as it is or, where they
cannot, item by item. -/
theorem arrays_told (a b : BeanType) :
    (∀ depth, (nested (depth + 1) a == nested (depth + 1) b) = true ↔ a.erasure = b.erasure) ∧
    ∀ U, WellNamed U → a ∈ U → b ∈ U →
      (∀ depth, (nested (depth + 1) a == nested (depth + 1) b) = true ↔ (a == b) = true) ∧
      (∀ depth, (nested (depth + 1) a).accepts (nested (depth + 1) b) = true ↔
        ElementsStand a b) ∧
      ∀ depth items,
        (ElementsStand a b → (Value.array (nested depth b) items).convert (nested (depth + 1) a) =
          .ok (.array (nested depth b) items)) ∧
        (¬ElementsStand a b → (Value.array (nested depth b) items).convert (nested (depth + 1) a) =
          (items.mapM (Value.convert · (nested depth a))).map (Value.array (nested depth a))) := by
  refine ⟨nested_beq_iff, fun U named member member' => ⟨?_, ?_, ?_⟩⟩
  · intro depth
    rw [nested_beq_iff, named.erasure_eq_iff member member']
  · exact named.nested_accepts_iff member member'
  · intro depth items
    have accepts := named.nested_accepts_iff member member' depth
    constructor
    · intro stand
      exact Value.convert_of_fits (accepts.mpr stand)
    · intro apart
      exact convert_array_of_not_fits (Bool.eq_false_iff.mpr (mt accepts.mp apart))

end arrays

theorem Garage.arrays_told_of_garage :
    WellNamed {t | t ∈ Garage.all} ∧
    (nested 2 Garage.turning == nested 2 Garage.gear) = false ∧
    (nested 2 Garage.turning).accepts (nested 2 Garage.gear) = true ∧
    (Value.array (array Garage.gear) []).convert (nested 2 Garage.turning) =
      .ok (.array (array Garage.gear) []) ∧
    (nested 1 number).accepts (nested 1 int) = false ∧
    (Value.array int [.int 1]).convert (nested 1 number) =
      ([Value.int 1].mapM (Value.convert · number)).map (Value.array number) := by
  have named : WellNamed {t | t ∈ Garage.all} := by
    constructor
    · change ∀ t ∈ Garage.all, t.isDeclared = true → impliedForm? t.name = none
      decide
    · change ∀ s ∈ Garage.all, ∀ t ∈ Garage.all, s.isDeclared = true → t.isDeclared = true →
        s.name = t.name → s.form = t.form
      decide
  have turning : Garage.turning ∈ Garage.all := by simp [Garage.all]
  have gear : Garage.gear ∈ Garage.all := by simp [Garage.all]
  have wide : number ∈ Garage.all := by simp [Garage.all]
  have narrow : int ∈ Garage.all := by simp [Garage.all]
  obtain ⟨equal, accepts, convert⟩ :=
    (arrays_told Garage.turning Garage.gear).2 _ named turning gear
  obtain ⟨-, accepts', convert'⟩ := (arrays_told number int).2 _ named wide narrow
  have stand : ElementsStand Garage.turning Garage.gear := .inr (by decide)
  have apart : ¬ElementsStand number int := by
    unfold ElementsStand
    decide
  refine ⟨named, ?_, (accepts 1).mpr stand, (convert 1 []).1 stand, ?_, (convert' 0 [.int 1]).2 apart⟩
  · exact Bool.eq_false_iff.mpr (mt (equal 1).mp (by decide))
  · exact Bool.eq_false_iff.mpr (mt (accepts' 0).mp apart)

/-- A class can be named like a primitive, and arrays of its objects pass for arrays of numbers. -/
example : (plainClass "int" == int) = false ∧ (array (plainClass "int") == array int) = true ∧
    (array int).accepts (array (plainClass "int")) = true := by decide

end BeanWiring.BeanType

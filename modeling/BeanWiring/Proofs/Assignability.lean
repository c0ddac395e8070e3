import BeanWiring.Proofs.Conversion
import Mathlib.Data.Set.Defs

/-!
Assignability orders the types of a coherent hierarchy. The table of forms is put into five rules, one
for each way in which a type can take another. Transitivity crosses any two of them; that no two types
take each other rests on the fact that no type is declared above itself.
-/
namespace BeanWiring

namespace CollectionKind

variable {kind other third : CollectionKind}

theorem accepts_trans (first : kind.accepts other = true) (second : other.accepts third = true) :
    kind.accepts third = true := by
  cases kind with
  | collection => rfl
  | list | set =>
    cases eq_of_beq first
    exact second

theorem accepts_antisymm (first : kind.accepts other = true) (second : other.accepts kind = true) :
    kind = other := by
  cases kind with
  | collection =>
    cases other with
    | collection => rfl
    | list | set => cases second
  | list | set => exact eq_of_beq first

theorem name_inj (same : kind.name = other.name) : kind = other := by
  cases kind <;> cases other <;> first | rfl | simp [name] at same

end CollectionKind

namespace BeanType

variable {a b c x p type : BeanType} {types : List BeanType}

theorem beq_iff : (a == b) = true ↔ a.form = b.form ∧ a.erasure = b.erasure := by
  change (a.form == b.form && a.erasure == b.erasure) = true ↔ _
  rw [Bool.and_eq_true, beq_iff_eq, beq_iff_eq]

instance : EquivBEq BeanType where
  rfl := beq_self _
  symm same := beq_iff.mpr ⟨(beq_iff.mp same).1.symm, (beq_iff.mp same).2.symm⟩
  trans first second := by
    obtain ⟨form, erasure⟩ := beq_iff.mp first
    obtain ⟨form', erasure'⟩ := beq_iff.mp second
    exact beq_iff.mpr ⟨form.trans form', erasure.trans erasure'⟩

theorem isPrimitive_eq (same : (a == b) = true) : a.isPrimitive = b.isPrimitive := by
  unfold isPrimitive
  rw [(beq_iff.mp same).1]

theorem isVoid_eq (same : (a == b) = true) : a.isVoid = b.isVoid := by
  unfold isVoid
  rw [(beq_iff.mp same).1]

theorem exists_array_of_beq {e : BeanType} (same : (a == array e) = true) : ∃ f, a = array f := by
  have form : a.form = .ofArray := (beq_iff.mp same).1
  cases a with
  | array f => exact ⟨f, rfl⟩
  | _ => cases form

theorem exists_collection_of_beq {kind : CollectionKind} {e : BeanType}
    (same : (a == collection kind e) = true) : ∃ f, a = collection kind f := by
  obtain ⟨form, erasure⟩ := beq_iff.mp same
  cases a with
  | collection other f =>
    cases CollectionKind.name_inj (show other.name = kind.name from erasure)
    exact ⟨f, rfl⟩
  | _ => cases form

def parents (type : BeanType) : List BeanType := type.superclass?.toList ++ type.interfaces

theorem mem_ancestorsOfAll : x ∈ ancestorsOfAll types ↔ ∃ p ∈ types, x = p ∨ x ∈ p.ancestors := by
  induction types with
  | nil => simp [ancestorsOfAll]
  | cons first rest ih => simp [ancestorsOfAll, ih, or_assoc]

theorem mem_ancestors : x ∈ type.ancestors ↔ ∃ p ∈ type.parents, x = p ∨ x ∈ p.ancestors := by
  cases type with
  | declaredClass name superclass interfaces =>
    simp [ancestors, parents, superclass?, BeanType.interfaces, mem_ancestorsOfAll, or_assoc]
  | declaredInterface name parents =>
    simp [ancestors, BeanType.parents, superclass?, interfaces, mem_ancestorsOfAll]
  | primitive kind =>
    cases kind <;> simp [ancestors, parents, superclass?, interfaces, number, plainClass,
      ancestorsOfAll]
  | object | array | collection | map | void => simp [ancestors, parents, superclass?, interfaces]

theorem length_ancestors_lt_ofAll (member : p ∈ types) :
    p.ancestors.length < (ancestorsOfAll types).length := by
  induction types with
  | nil => cases member
  | cons first rest ih =>
    rw [ancestorsOfAll, List.length_cons, List.length_append]
    rcases List.mem_cons.mp member with rfl | later
    · omega
    · have := ih later
      omega

theorem length_ancestors_lt (above : p ∈ type.parents) :
    p.ancestors.length < type.ancestors.length := by
  cases type with
  | declaredClass name superclass interfaces =>
    simp only [ancestors, List.length_cons, List.length_append]
    have cases : p = superclass ∨ p ∈ interfaces := by
      simpa [parents, superclass?, BeanType.interfaces] using above
    rcases cases with rfl | listed
    · omega
    · have := length_ancestors_lt_ofAll listed
      omega
  | declaredInterface name parents => exact length_ancestors_lt_ofAll above
  | primitive kind =>
    cases kind <;> cases List.mem_singleton.mp above <;> decide
  | array | collection | map =>
    cases List.mem_singleton.mp above
    exact Nat.zero_lt_one
  | object | void => cases above

theorem parents_induction {P : BeanType → Prop}
    (step : ∀ type, (∀ p ∈ type.parents, P p) → P type) (type : BeanType) : P type := by
  induction height : type.ancestors.length using Nat.strongRecOn generalizing type with
  | ind height ih =>
    subst height
    exact step type fun p above => ih _ (length_ancestors_lt above) p rfl

theorem mem_ancestors_trans (first : p ∈ type.ancestors) (second : x ∈ p.ancestors) :
    x ∈ type.ancestors := by
  induction type using parents_induction with
  | step type ih =>
    obtain ⟨q, above, same | further⟩ := mem_ancestors.mp first
    · subst same
      exact mem_ancestors.mpr ⟨p, above, .inr second⟩
    · exact mem_ancestors.mpr ⟨q, above, .inr (ih q above further)⟩

theorem exists_beq_of_mem {types others : List BeanType} (same : (types == others) = true)
    (member : p ∈ types) : ∃ q ∈ others, (p == q) = true := by
  induction types generalizing others with
  | nil => cases member
  | cons first rest ih =>
    cases others with
    | nil => cases same
    | cons other others =>
      rw [List.cons_beq_cons, Bool.and_eq_true] at same
      rcases List.mem_cons.mp member with rfl | later
      · exact ⟨other, List.mem_cons_self, same.1⟩
      · obtain ⟨q, present, equal⟩ := ih same.2 later
        exact ⟨q, List.mem_cons_of_mem _ present, equal⟩

/-- Types with all that they are made of and all that is declared above them, where equal types are
declared alike. -/
structure Coherent (U : Set BeanType) : Prop where
  superclass : ∀ t ∈ U, ∀ s, t.superclass? = some s → s ∈ U
  interfaces : ∀ t ∈ U, ∀ i ∈ t.interfaces, i ∈ U
  element : ∀ t ∈ U, ∀ e, t.element? = some e → e ∈ U
  sameSuperclass : ∀ s ∈ U, ∀ t ∈ U, (s == t) = true → (s.superclass? == t.superclass?) = true
  sameInterfaces : ∀ s ∈ U, ∀ t ∈ U, (s == t) = true → (s.interfaces == t.interfaces) = true
  sameElement : ∀ e f, array e ∈ U → array f ∈ U → (array e == array f) = true → (e == f) = true

namespace Coherent

variable {U : Set BeanType} (coherent : Coherent U)
include coherent

theorem mem_of_parent (member : type ∈ U) (above : p ∈ type.parents) : p ∈ U := by
  rcases List.mem_append.mp above with superclass | listed
  · exact coherent.superclass type member p (Option.mem_toList.mp superclass)
  · exact coherent.interfaces type member p listed

theorem mem_of_ancestor (member : type ∈ U) (above : x ∈ type.ancestors) : x ∈ U := by
  induction type using parents_induction with
  | step type ih =>
    obtain ⟨p, above, same | further⟩ := mem_ancestors.mp above
    · exact same ▸ coherent.mem_of_parent member above
    · exact ih p above (coherent.mem_of_parent member above) further

theorem exists_parent_beq (first : a ∈ U) (second : b ∈ U) (same : (a == b) = true)
    (above : p ∈ a.parents) : ∃ q ∈ b.parents, (p == q) = true := by
  rcases List.mem_append.mp above with superclass | listed
  · have equal := coherent.sameSuperclass a first b second same
    rw [Option.mem_toList.mp superclass] at equal
    cases found : b.superclass? with
    | none => rw [found] at equal; cases equal
    | some q =>
      rw [found, Option.some_beq_some] at equal
      exact ⟨q, List.mem_append_left _ (Option.mem_toList.mpr found), equal⟩
  · obtain ⟨q, present, equal⟩ :=
      exists_beq_of_mem (coherent.sameInterfaces a first b second same) listed
    exact ⟨q, List.mem_append_right _ present, equal⟩

theorem exists_ancestor_beq (first : a ∈ U) (second : b ∈ U) (same : (a == b) = true)
    (above : x ∈ a.ancestors) : ∃ y ∈ b.ancestors, (x == y) = true := by
  induction a using parents_induction generalizing b with
  | step a ih =>
    obtain ⟨p, direct, reached⟩ := mem_ancestors.mp above
    obtain ⟨q, direct', equal⟩ := coherent.exists_parent_beq first second same direct
    rcases reached with rfl | further
    · exact ⟨q, mem_ancestors.mpr ⟨q, direct', .inl rfl⟩, equal⟩
    · obtain ⟨y, reached', equal'⟩ := ih p direct (coherent.mem_of_parent first direct)
        (coherent.mem_of_parent second direct') equal further
      exact ⟨y, mem_ancestors.mpr ⟨q, direct', .inr reached'⟩, equal'⟩

theorem exists_ancestor_beq_of_above (member : a ∈ U) (member' : b ∈ U) (above : p ∈ b.ancestors)
    (same : (p == a) = true) (further : x ∈ a.ancestors) : ∃ y ∈ b.ancestors, (x == y) = true := by
  obtain ⟨y, reached, equal⟩ := coherent.exists_ancestor_beq member
    (coherent.mem_of_ancestor member' above) (BEq.symm same) further
  exact ⟨y, mem_ancestors_trans above reached, equal⟩

/-- No type is declared above itself: what is above it would be above itself as well, and so on up. -/
theorem not_above_itself (member : type ∈ U) (above : x ∈ type.ancestors) :
    (x == type) = false := by
  induction type using parents_induction generalizing x with
  | step type ih =>
    rw [Bool.eq_false_iff]
    intro same
    obtain ⟨p, direct, reached⟩ := mem_ancestors.mp above
    have inside := coherent.mem_of_parent member direct
    have present : p ∈ type.ancestors := mem_ancestors.mpr ⟨p, direct, .inl rfl⟩
    obtain ⟨q, further, equal⟩ := coherent.exists_ancestor_beq member
      (coherent.mem_of_ancestor member above) (BEq.symm same) present
    have looped : q ∈ p.ancestors := by
      rcases reached with rfl | higher
      · exact further
      · exact mem_ancestors_trans higher further
    have apart := ih p direct inside looped
    rw [BEq.symm equal] at apart
    cases apart

end Coherent

def isDeclared (type : BeanType) : Bool :=
  match type.form with
  | .ofClass | .ofInterface => true
  | _ => false

inductive Takes : BeanType → BeanType → Prop
  | same {a b : BeanType} : (a == b) = true → Takes a b
  | object {b : BeanType} : b.isVoid = false → Takes object b
  | above {a b x : BeanType} : a.isDeclared = true → x ∈ b.ancestors → (x == a) = true → Takes a b
  | array {e f : BeanType} : e.isPrimitive = false → f.isPrimitive = false → Takes e f →
      Takes (array e) (array f)
  | collection {kind other : CollectionKind} {e f : BeanType} : kind.accepts other = true →
      Takes (collection kind e) (collection other f)

theorem isDeclared_eq (same : (a == b) = true) : a.isDeclared = b.isDeclared := by
  unfold isDeclared
  rw [(beq_iff.mp same).1]

theorem isBelow_iff : b.isBelow a = true ↔ ∃ x ∈ b.ancestors, (x == a) = true := by
  rw [isBelow_eq_any_ancestors, List.any_eq_true]

theorem accepts_of_takes (takes : Takes a b) : a.accepts b = true := by
  induction takes with
  | same equal => exact accepts_of_beq equal
  | @object b solid =>
    cases b with
    | void => cases solid
    | _ => simp [accepts]
  | @above a b x declared reached equal =>
    have below : b.isBelow a = true := isBelow_iff.mpr ⟨x, reached, equal⟩
    cases a with
    | object | declaredClass | declaredInterface => cases b <;> simp_all [accepts, isBelow]
    | _ => cases declared
  | array plain plain' _ ih => simp [accepts, plain, plain', ih]
  | collection fits => simp [accepts, fits]

theorem takes_of_accepts {a b : BeanType} (accepted : a.accepts b = true) : Takes a b := by
  unfold accepts at accepted
  rcases Bool.or_eq_true_iff.mp accepted with equal | listed
  · exact .same equal
  · clear accepted
    split at listed
    · cases listed
    · cases listed
    · cases listed
    · simp only [Bool.and_eq_true, Bool.not_eq_true'] at listed
      exact .array listed.1.1 listed.1.2 (takes_of_accepts listed.2)
    · exact .collection listed
    · exact .same (beq_iff.mpr ⟨rfl, rfl⟩)
    · cases listed
    · cases listed
    · cases listed
    · rename_i solid
      refine .object ?_
      cases b with
      | void => cases solid rfl
      | _ => rfl
    · obtain ⟨x, reached, equal⟩ := isBelow_iff.mp listed
      refine .above ?_ reached equal
      cases a <;> simp_all [isDeclared, BeanType.form]

theorem accepts_iff_takes : a.accepts b = true ↔ Takes a b := ⟨takes_of_accepts, accepts_of_takes⟩

namespace Takes

theorem isVoid_eq_false (takes : Takes a b) (solid : a.isVoid = false) : b.isVoid = false := by
  cases takes with
  | same equal => rw [← isVoid_eq equal, solid]
  | object solid => exact solid
  | above _ reached _ => cases b <;> first | rfl | cases reached
  | array | collection => rfl

variable {U : Set BeanType} (coherent : Coherent U)
include coherent

theorem congr_left (member : a ∈ U) (member' : b ∈ U) (same : (a == b) = true) (takes : Takes b c) :
    Takes a c := by
  induction takes generalizing a with
  | same equal => exact .same (BEq.trans same equal)
  | object solid =>
    have top : a.superclass? = none := by
      simpa [superclass?] using coherent.sameSuperclass a member _ member' same
    have form : a.form = .ofClass := (beq_iff.mp same).1
    cases a <;> simp_all [BeanType.form, superclass?]
    exact .object solid
  | above declared reached equal =>
    exact .above (isDeclared_eq same ▸ declared) reached (BEq.trans equal (BEq.symm same))
  | array plain plain' _ ih =>
    obtain ⟨e, rfl⟩ := exists_array_of_beq same
    have equal := coherent.sameElement _ _ member member' same
    have inner := ih (coherent.element _ member _ rfl) (coherent.element _ member' _ rfl) equal
    exact .array (isPrimitive_eq equal ▸ plain) plain' inner
  | collection fits =>
    obtain ⟨e, rfl⟩ := exists_collection_of_beq same
    exact .collection fits

theorem trans (member : a ∈ U) (member' : b ∈ U) (member'' : c ∈ U) (first : Takes a b)
    (second : Takes b c) : Takes a c := by
  induction first generalizing c with
  | same equal => exact congr_left coherent member member' equal second
  | object solid => exact .object (second.isVoid_eq_false solid)
  | @above a b x declared reached equal =>
    -- Wherever `c` stands below `b`, what is above `b` has its equal above `c`.
    suffices higher : ∃ y ∈ c.ancestors, (x == y) = true by
      obtain ⟨y, reached', equal'⟩ := higher
      exact .above declared reached' (BEq.trans (BEq.symm equal') equal)
    cases second with
    | same equal' => exact coherent.exists_ancestor_beq member' member'' equal' reached
    | object => cases reached
    | above _ reached' equal' =>
      exact coherent.exists_ancestor_beq_of_above member' member'' reached' equal' reached
    | array | collection => exact ⟨x, reached, BEq.rfl⟩
  | @array e f plain plain' _ ih =>
    have inside := coherent.element _ member e rfl
    have inside' := coherent.element _ member' f rfl
    cases second with
    | same equal =>
      -- Only an array is equal to one, so `c` is an array as well.
      obtain ⟨g, rfl⟩ := exists_array_of_beq (BEq.symm equal)
      have equal' := coherent.sameElement _ _ member' member'' equal
      have inner := ih inside inside' (coherent.element _ member'' g rfl) (.same equal')
      exact .array plain (isPrimitive_eq equal' ▸ plain') inner
    | above declared => cases declared
    | @array _ g _ plain'' second =>
      exact .array plain plain'' (ih inside inside' (coherent.element _ member'' g rfl) second)
  | @collection kind other e f fits =>
    cases second with
    | same equal =>
      obtain ⟨g, rfl⟩ := exists_collection_of_beq (BEq.symm equal)
      exact .collection fits
    | above declared => cases declared
    | collection fits' => exact .collection (CollectionKind.accepts_trans fits fits')

theorem antisymm (member : a ∈ U) (member' : b ∈ U) (first : Takes a b) (second : Takes b a) :
    (a == b) = true := by
  induction first with
  | same equal => exact equal
  | object =>
    cases second with
    | same equal => exact BEq.symm equal
    | object => exact BEq.rfl
    | above _ reached => cases reached
  | @above a b x declared reached equal =>
    cases second with
    | same equal' => exact BEq.symm equal'
    | object => cases reached
    | @above _ _ y _ reached' equal' =>
      obtain ⟨z, looped, equal''⟩ :=
        coherent.exists_ancestor_beq_of_above member member' reached equal reached'
      have apart := coherent.not_above_itself member' looped
      rw [BEq.trans (BEq.symm equal'') equal'] at apart
      cases apart
    | array | collection => cases declared
  | array _ _ _ ih =>
    cases second with
    | same equal => exact BEq.symm equal
    | above declared => cases declared
    | array _ _ second =>
      have equal := ih (coherent.element _ member _ rfl) (coherent.element _ member' _ rfl) second
      exact beq_iff.mpr ⟨rfl, congrArg (· ++ "[]") (beq_iff.mp equal).2⟩
  | collection fits =>
    cases second with
    | same equal => exact BEq.symm equal
    | above declared => cases declared
    | collection fits' =>
      cases CollectionKind.accepts_antisymm fits fits'
      exact beq_iff.mpr ⟨rfl, rfl⟩

end Takes

/-- In a coherent hierarchy the types are partially ordered by what can stand where: every type takes
itself, a type takes what the types it takes take, and types that take each other are the same. -/
theorem Coherent.accepts_partialOrder {U : Set BeanType} (coherent : Coherent U) :
    (∀ a ∈ U, a.accepts a = true) ∧
    (∀ a ∈ U, ∀ b ∈ U, ∀ c ∈ U, a.accepts b = true → b.accepts c = true → a.accepts c = true) ∧
    ∀ a ∈ U, ∀ b ∈ U, a.accepts b = true → b.accepts a = true → (a == b) = true := by
  refine ⟨fun a _ => accepts_self a, fun a member b member' c member'' first second => ?_,
    fun a member b member' first second => ?_⟩
  · rw [accepts_iff_takes] at first second ⊢
    exact first.trans coherent member member' member'' second
  · rw [accepts_iff_takes] at first second
    exact first.antisymm coherent member member' second

/-! Types with every form among them. Two lists of different elements are the same type. -/
namespace Garage

def turning : BeanType := declaredInterface "Turning" []
def part : BeanType := plainClass "Part"
def gear : BeanType := declaredClass "Gear" part [turning]

def all : List BeanType :=
  [object, number, int, void, turning, part, gear, array turning, array gear, array (array turning),
    array (array gear), array int, collection .list gear, collection .list object,
    collection .collection part, map int gear]

theorem coherent : Coherent {t | t ∈ all} where
  superclass := by
    change ∀ t ∈ all, ∀ s, t.superclass? = some s → s ∈ all
    simp [all, superclass?, turning, part, gear, number, int, plainClass]
  interfaces := by
    change ∀ t ∈ all, ∀ i ∈ t.interfaces, i ∈ all
    simp [all, BeanType.interfaces, turning, part, gear, number, int, plainClass]
  element := by
    change ∀ t ∈ all, ∀ e, t.element? = some e → e ∈ all
    simp [all, element?, turning, part, gear, number, int, plainClass]
  sameSuperclass := by
    change ∀ s ∈ all, ∀ t ∈ all, (s == t) = true → (s.superclass? == t.superclass?) = true
    decide
  sameInterfaces := by
    change ∀ s ∈ all, ∀ t ∈ all, (s == t) = true → (s.interfaces == t.interfaces) = true
    decide
  sameElement e f member member' same := by
    have listed (e : BeanType) (member : array e ∈ all) :
        e ∈ [turning, gear, array turning, array gear, int] := by
      simpa [all, turning, part, gear, number, int, plainClass] using member
    have each : ∀ e ∈ [turning, gear, array turning, array gear, int],
        ∀ f ∈ [turning, gear, array turning, array gear, int],
        (array e == array f) = true → (e == f) = true := by decide
    exact each e (listed e member) f (listed f member') same

theorem accepts_partialOrder_of_garage :
    Coherent {t | t ∈ all} ∧
    (∀ a ∈ all, a.accepts a = true) ∧
    (∀ a ∈ all, ∀ b ∈ all, ∀ c ∈ all, a.accepts b = true → b.accepts c = true →
      a.accepts c = true) ∧
    ∀ a ∈ all, ∀ b ∈ all, a.accepts b = true → b.accepts a = true → (a == b) = true :=
  ⟨coherent, coherent.accepts_partialOrder⟩

end Garage

end BeanType

end BeanWiring

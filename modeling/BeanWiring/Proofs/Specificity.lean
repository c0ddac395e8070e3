import BeanWiring.Proofs.Assignability
import BeanWiring.Weight
import Mathlib.Algebra.GroupWithZero.Nat

/-!
The weight of arguments is their distance from the parameter types, as far as 32 bits can tell. A type
that another takes is no further from any argument that fits both. Where the other is a class it is
nearer: walking up from the argument, all superclasses that the nearer type still takes are taken by
the further one, and the walk goes on from there.
-/
namespace BeanWiring

namespace Weight

/-- How many superclasses stand between an argument and a parameter type, the type included, as far as
the type takes them. -/
def steps (parameter : BeanType) : (superclasses : List BeanType) → Nat
  | [] => 0
  | superclass :: rest =>
    if parameter == superclass then 1
    else if parameter.accepts superclass then steps parameter rest + 1
    else 0

/-- Two for every step up from an argument of the type, and one for an interface. -/
def distanceOf (parameter type : BeanType) : Nat :=
  2 * steps parameter type.lineage + parameter.isInterface.toNat

def distance (parameter : BeanType) (argument : Value) : Nat :=
  match argument.runtimeType with
  | none => 0
  | some type => distanceOf parameter type

variable {parameter : BeanType} {parameters : List BeanType} {argument : Value}
  {arguments : List Value} {weight : Int}

theorem steps_le_length (parameter : BeanType) (superclasses : List BeanType) :
    steps parameter superclasses ≤ superclasses.length := by
  induction superclasses with
  | nil => exact Nat.le_refl 0
  | cons superclass rest ih =>
    unfold steps
    rw [List.length_cons]
    split
    · omega
    · split <;> omega

theorem addSteps_eq (bounded : weight ≤ greatest) (superclasses : List BeanType) :
    addSteps parameter weight superclasses =
      min greatest (weight + 2 * steps parameter superclasses) := by
  induction superclasses generalizing weight with
  | nil =>
    simp only [addSteps, steps]
    omega
  | cons superclass rest ih =>
    unfold addSteps steps
    split
    · rfl
    · split
      · rw [add, ih (Int.min_le_left ..)]
        omega
      · omega

theorem addArgument_eq (bounded : weight ≤ greatest) :
    addArgument weight parameter argument = min greatest (weight + distance parameter argument) := by
  unfold addArgument distance
  cases argument.runtimeType with
  | none => simp only; omega
  | some type =>
    simp only [distanceOf, addSteps_eq bounded]
    cases parameter.isInterface with
    | false => simp
    | true => simp only [if_true, add, Bool.toNat_true]; omega

/-- The sum stops growing at the greatest weight, and is exact up to there. -/
theorem typeDifferenceFrom_eq (bounded : weight ≤ greatest)
    (fit : List.Forall₂ (fun parameter argument => parameter.fits argument = true) parameters
      arguments) :
    typeDifferenceFrom weight (parameters.zip arguments) =
      min greatest (weight + (List.zipWith distance parameters arguments).sum) := by
  induction fit generalizing weight with
  | nil =>
    simp only [List.zip_nil_left, typeDifferenceFrom, List.zipWith_nil_left, List.sum_nil]
    omega
  | @cons parameter argument parameters arguments fits _ ih =>
    simp only [List.zip_cons_cons, typeDifferenceFrom, if_pos fits, List.zipWith_cons_cons,
      List.sum_cons, addArgument_eq bounded]
    rw [ih (Int.min_le_left ..)]
    omega

theorem typeDifference_eq
    (fit : List.Forall₂ (fun parameter argument => parameter.fits argument = true) parameters
      arguments) :
    typeDifference parameters arguments =
      min greatest ((List.zipWith distance parameters arguments).sum : Nat) := by
  unfold typeDifference
  rw [typeDifferenceFrom_eq (by decide) fit, Int.zero_add]

end Weight

namespace BeanType

variable {U : Set BeanType} {p q type : BeanType}

/-- A coherent hierarchy in which classes extend only classes, and nothing but interfaces is
implemented. -/
structure Layered (U : Set BeanType) : Prop extends Coherent U where
  extendsClass : ∀ t ∈ U, ∀ s, t.superclass? = some s → s.form = .ofClass
  implementsInterface : ∀ t ∈ U, ∀ i ∈ t.interfaces, i.isInterface = true

/-- Whether objects and other values can be of the type at run time: a class, a primitive or a
container. -/
def isConcrete (type : BeanType) : Bool :=
  type.form == .ofClass || type.isPrimitive || type.isContainer

theorem isInterface_eq (same : (p == q) = true) : p.isInterface = q.isInterface := by
  unfold isInterface
  rw [(beq_iff.mp same).1]

theorem not_isInterface_of_class (isClass : q.form = .ofClass) : q.isInterface = false := by
  unfold isInterface
  rw [isClass]

theorem isConcrete_of_class (isClass : type.form = .ofClass) : type.isConcrete = true := by
  unfold isConcrete
  rw [isClass]
  rfl

theorem lineage_eq (type : BeanType) :
    type.lineage = type.superclass?.elim [] fun s => s :: s.lineage := by
  cases type with
  | primitive kind => cases kind <;> rfl
  | _ => rfl

theorem lineage_of_superclass? {s : BeanType} (up : type.superclass? = some s) :
    type.lineage = s :: s.lineage := by
  rw [lineage_eq, up]
  rfl

theorem Layered.above_interface (layered : Layered U) (member : type ∈ U)
    (abstract : type.isInterface = true) {x : BeanType} (above : x ∈ type.ancestors) :
    x.isInterface = true ∨ x = object := by
  induction type using parents_induction generalizing x with
  | step type ih =>
    obtain ⟨p, direct, reached⟩ := mem_ancestors.mp above
    have inside := layered.mem_of_parent member direct
    have parent : p.isInterface = true ∨ p = object := by
      cases type with
      | declaredInterface name parents =>
        exact .inl (layered.implementsInterface _ member p direct)
      | collection | map => exact .inr (List.mem_singleton.mp direct)
      | object | declaredClass | primitive | array | void => cases abstract
    rcases reached with rfl | further
    · exact parent
    · rcases parent with abstract | rfl
      · exact ih p direct inside abstract further
      · cases further

theorem Layered.takes_superclass (layered : Layered U) (isClass : q.form = .ofClass) (memberQ : q ∈ U)
    (member : type ∈ U) (concrete : type.isConcrete = true) (takes : Takes q type)
    (apart : (q == type) = false) : ∃ s, type.superclass? = some s ∧ Takes q s := by
  have solid {s : BeanType} (up : type.superclass? = some s) : s.isVoid = false := by
    unfold isVoid
    rw [layered.extendsClass type member s up]
    rfl
  cases takes with
  | same equal => cases equal.symm.trans apart
  | object =>
    cases above : type.superclass? with
    | some s => exact ⟨s, rfl, .object (solid above)⟩
    | none =>
      cases type with
      | object => cases apart
      | primitive kind => cases kind <;> cases above
      | declaredInterface | void => cases concrete
      | declaredClass | array | collection | map => cases above
  | @above _ _ x declared higher equal =>
    obtain ⟨p, direct, reached⟩ := mem_ancestors.mp higher
    rcases List.mem_append.mp direct with superclass | listed
    · refine ⟨p, Option.mem_toList.mp superclass, ?_⟩
      rcases reached with rfl | further
      · exact .same (BEq.symm equal)
      · exact .above declared further equal
    · -- Nothing above an interface is a class but `object`, which takes any superclass.
      have abstract := layered.implementsInterface type member p listed
      have inside := layered.mem_of_parent member direct
      have top : x.isInterface = true ∨ x = BeanType.object := by
        rcases reached with rfl | further
        · exact .inl abstract
        · exact layered.above_interface inside abstract further
      rcases top with abstract | rfl
      · rw [isInterface_eq equal, not_isInterface_of_class isClass] at abstract
        cases abstract
      · cases type with
        | declaredClass name superclass interfaces =>
          refine ⟨superclass, rfl, ?_⟩
          have inside : BeanType.object ∈ U :=
            layered.mem_of_ancestor member higher
          exact Takes.congr_left layered.toCoherent memberQ inside (BEq.symm equal)
            (.object (solid rfl))
        | declaredInterface => cases concrete
        | _ => cases listed
  | array | collection => cases isClass

variable {a : BeanType}

theorem mem_of_mem_lineage (coherent : Coherent U) (member : type ∈ U) {s : BeanType}
    (above : s ∈ type.lineage) : s ∈ U := by
  induction type using parents_induction with
  | step type ih =>
    cases up : type.superclass? with
    | none =>
      rw [lineage_eq, up] at above
      cases above
    | some superclass =>
      have inside := coherent.superclass type member superclass up
      rw [lineage_of_superclass? up] at above
      rcases List.mem_cons.mp above with rfl | further
      · exact inside
      · have direct : superclass ∈ type.parents :=
          List.mem_append_left _ (Option.mem_toList.mpr up)
        exact ih superclass direct inside further

theorem not_beq_of_takes (coherent : Coherent U) (memberP : p ∈ U) (memberQ : q ∈ U) (member : a ∈ U)
    (wider : Takes q p) (takes : Takes p a) (apart : (p == q) = false) : (q == a) = false := by
  rw [Bool.eq_false_iff]
  intro same
  have back : Takes p q :=
    takes.trans coherent memberP member memberQ (.same (BEq.symm same))
  rw [back.antisymm coherent memberP memberQ wider] at apart
  cases apart

theorem steps_mono (coherent : Coherent U) (memberP : p ∈ U) (memberQ : q ∈ U) (wider : Takes q p)
    {superclasses : List BeanType} (members : ∀ s ∈ superclasses, s ∈ U) :
    Weight.steps p superclasses ≤ Weight.steps q superclasses := by
  induction superclasses with
  | nil => exact Nat.le_refl 0
  | cons s rest ih =>
    have member := members s List.mem_cons_self
    have later := ih fun t inside => members t (List.mem_cons_of_mem s inside)
    unfold Weight.steps
    by_cases here : (p == s) = true
    · have takes := wider.trans coherent memberQ memberP member (.same here)
      rw [if_pos here, if_pos (accepts_of_takes takes)]
      split <;> omega
    · rw [if_neg here]
      by_cases accepted : p.accepts s = true
      · have takes := takes_of_accepts accepted
        have beyond : (q == s) = false := by
          by_cases same : (p == q) = true
          · exact Bool.eq_false_iff.mpr fun there => here (BEq.trans same there)
          · exact not_beq_of_takes coherent memberP memberQ member wider takes
              (Bool.eq_false_iff.mpr same)
        have taken := accepts_of_takes (wider.trans coherent memberQ memberP member takes)
        rw [if_pos accepted, if_pos taken, if_neg (Bool.eq_false_iff.mp beyond)]
        omega
      · rw [if_neg accepted]
        exact Nat.zero_le _

theorem Layered.one_le_steps (layered : Layered U) (isClass : q.form = .ofClass) (memberQ : q ∈ U)
    (member : a ∈ U) (concrete : a.isConcrete = true) (takes : Takes q a)
    (apart : (q == a) = false) : 1 ≤ Weight.steps q a.lineage := by
  obtain ⟨s, up, taken⟩ :=
    layered.takes_superclass isClass memberQ member concrete takes apart
  rw [lineage_of_superclass? up]
  unfold Weight.steps
  rw [if_pos (accepts_of_takes taken)]
  split <;> omega

theorem Layered.steps_lt (layered : Layered U) (isClass : q.form = .ofClass) (memberP : p ∈ U)
    (memberQ : q ∈ U) (wider : Takes q p) (apart : (p == q) = false) (member : a ∈ U)
    (concrete : a.isConcrete = true) (takes : Takes p a) :
    Weight.steps p a.lineage < Weight.steps q a.lineage := by
  have coherent := layered.toCoherent
  induction a using parents_induction with
  | step a ih =>
    have further : (q == a) = false :=
      not_beq_of_takes coherent memberP memberQ member wider takes apart
    have reached := wider.trans coherent memberQ memberP member takes
    obtain ⟨s, up, taken⟩ :=
      layered.takes_superclass isClass memberQ member concrete reached further
    have inside := coherent.superclass a member s up
    have concrete := isConcrete_of_class (layered.extendsClass a member s up)
    rw [lineage_of_superclass? up]
    unfold Weight.steps
    rw [if_pos (accepts_of_takes taken)]
    by_cases here : (p == s) = true
    · have beyond := not_beq_of_takes coherent memberP memberQ inside wider (.same here) apart
      have more := layered.one_le_steps isClass memberQ inside concrete taken beyond
      rw [if_pos here, if_neg (Bool.eq_false_iff.mp beyond)]
      omega
    · rw [if_neg here]
      by_cases accepted : p.accepts s = true
      · have takes := takes_of_accepts accepted
        have beyond := not_beq_of_takes coherent memberP memberQ inside wider takes apart
        have direct : s ∈ a.parents := List.mem_append_left _ (Option.mem_toList.mpr up)
        have more := ih s direct inside concrete takes
        rw [if_pos accepted, if_neg (Bool.eq_false_iff.mp beyond)]
        omega
      · rw [if_neg accepted]
        split <;> omega

theorem isInterface_of_takes (notClass : q.form ≠ .ofClass) (wider : Takes q p)
    (abstract : p.isInterface = true) : q.isInterface = true := by
  cases wider with
  | same equal => rwa [isInterface_eq equal]
  | object => exact absurd rfl notClass
  | above declared => cases q <;> first | rfl | exact absurd rfl notClass | cases declared
  | array => cases abstract
  | collection => rfl

theorem Layered.distanceOf_lt (layered : Layered U) (isClass : q.form = .ofClass) (memberP : p ∈ U)
    (memberQ : q ∈ U) (wider : Takes q p) (apart : (p == q) = false) (member : a ∈ U)
    (concrete : a.isConcrete = true) (takes : Takes p a) :
    Weight.distanceOf p a < Weight.distanceOf q a := by
  have more := layered.steps_lt isClass memberP memberQ wider apart member concrete takes
  have bonus := Bool.toNat_le p.isInterface
  unfold Weight.distanceOf
  omega

theorem Layered.distanceOf_mono (layered : Layered U) (memberP : p ∈ U) (memberQ : q ∈ U)
    (wider : Takes q p) (member : a ∈ U) (concrete : a.isConcrete = true) (takes : Takes p a) :
    Weight.distanceOf p a ≤ Weight.distanceOf q a := by
  by_cases apart : q.form = .ofClass ∧ (p == q) = false
  · exact Nat.le_of_lt
      (layered.distanceOf_lt apart.1 memberP memberQ wider apart.2 member concrete takes)
  · have steps : Weight.steps p a.lineage ≤ Weight.steps q a.lineage :=
      steps_mono layered.toCoherent memberP memberQ wider fun s above =>
        mem_of_mem_lineage layered.toCoherent member above
    have bonus : p.isInterface.toNat ≤ q.isInterface.toNat := by
      cases abstract : p.isInterface with
      | false => exact Nat.zero_le _
      | true =>
        have general : q.isInterface = true := by
          by_cases isClass : q.form = .ofClass
          · have same : (p == q) = true := by simpa [isClass] using apart
            rwa [← isInterface_eq same]
          · exact isInterface_of_takes isClass wider abstract
        exact Nat.le_of_eq (congrArg Bool.toNat general.symm)
    unfold Weight.distanceOf
    omega

section Lists

variable {specific general : List BeanType} {arguments : List Value}

theorem Layered.sum_distance_mono (layered : Layered U) (specificIn : ∀ p ∈ specific, p ∈ U)
    (generalIn : ∀ q ∈ general, q ∈ U)
    (values : ∀ v ∈ arguments, ∀ t, v.runtimeType = some t → t ∈ U ∧ t.isConcrete = true)
    (fit : List.Forall₂ (fun p v => p.fits v = true) specific arguments)
    (wider : List.Forall₂ (fun q p => q.accepts p = true) general specific) :
    (List.zipWith Weight.distance specific arguments).sum ≤
      (List.zipWith Weight.distance general arguments).sum := by
  induction fit generalizing general with
  | nil => exact Nat.zero_le _
  | @cons p v specific arguments fits _ ih =>
    cases wider with
    | @cons q _ general _ wide wider =>
      have later := ih (fun t inside => specificIn t (List.mem_cons_of_mem p inside))
        (fun t inside => generalIn t (List.mem_cons_of_mem q inside))
        (fun w inside => values w (List.mem_cons_of_mem v inside)) wider
      have first : Weight.distance p v ≤ Weight.distance q v := by
        unfold BeanType.fits at fits
        unfold Weight.distance
        cases given : v.runtimeType with
        | none => exact Nat.le_refl 0
        | some t =>
          obtain ⟨member, concrete⟩ := values v List.mem_cons_self t given
          rw [given] at fits
          exact layered.distanceOf_mono (specificIn p List.mem_cons_self)
            (generalIn q List.mem_cons_self) (takes_of_accepts wide) member concrete
            (takes_of_accepts fits)
      simp only [List.zipWith_cons_cons, List.sum_cons]
      omega

/-- More specific parameters never weigh more: in a layered hierarchy, if arguments of classes,
primitives and containers fit two lists of parameter types, and each of the second takes that of the
first, then the arguments are at most as far from the first. With one argument that is not `null` they
are nearer, if the types differ and the second is a class or a primitive. Only 2³⁰ superclasses can
hide this from a weight of 32 bits. -/
theorem Layered.typeDifference_mono (layered : Layered U) (specificIn : ∀ p ∈ specific, p ∈ U)
    (generalIn : ∀ q ∈ general, q ∈ U)
    (values : ∀ v ∈ arguments, ∀ t, v.runtimeType = some t → t ∈ U ∧ t.isConcrete = true)
    (fit : List.Forall₂ (fun p v => p.fits v = true) specific arguments)
    (fit' : List.Forall₂ (fun q v => q.fits v = true) general arguments)
    (wider : List.Forall₂ (fun q p => q.accepts p = true) general specific) :
    Weight.typeDifference specific arguments ≤ Weight.typeDifference general arguments ∧
    ∀ p q v t, specific = [p] → general = [q] → arguments = [v] → v.runtimeType = some t →
      (p == q) = false → q.form = .ofClass ∨ q.form = .ofPrimitive →
      Weight.typeDifference specific arguments < Weight.typeDifference general arguments ∨
        Weight.typeDifference specific arguments = Weight.greatest ∧ 2 ^ 30 ≤ t.lineage.length := by
  rw [Weight.typeDifference_eq fit, Weight.typeDifference_eq fit']
  refine ⟨?_, ?_⟩
  · have below := layered.sum_distance_mono specificIn generalIn values fit wider
    omega
  · rintro p q v t rfl rfl rfl given apart kind
    have wide := takes_of_accepts (List.forall₂_cons.mp wider).1
    have takes : Takes p t := by
      have fits := (List.forall₂_cons.mp fit).1
      unfold BeanType.fits at fits
      rw [given] at fits
      exact takes_of_accepts fits
    obtain ⟨member, concrete⟩ := values v List.mem_cons_self t given
    -- A primitive takes no type but itself, and the types differ.
    have isClass : q.form = .ofClass := by
      refine kind.resolve_right fun primitive => ?_
      cases wide with
      | same equal => cases (BEq.symm equal).symm.trans apart
      | object => cases primitive
      | above declared =>
        unfold isDeclared at declared
        rw [primitive] at declared
        cases declared
      | array | collection => cases primitive
    have more := layered.steps_lt isClass (specificIn p List.mem_cons_self)
      (generalIn q List.mem_cons_self) wide apart member concrete takes
    -- Weights end at the greatest, which only a long line of superclasses reaches.
    have enough := Weight.steps_le_length q t.lineage
    have bonus := Bool.toNat_le p.isInterface
    simp only [List.zipWith_cons_cons, List.zipWith_nil_left, List.sum_cons, List.sum_nil,
      Nat.add_zero, Weight.distance, given, Weight.distanceOf, Weight.greatest]
    omega

end Lists

namespace Garage

theorem layered : Layered {t | t ∈ all} where
  toCoherent := coherent
  extendsClass := by
    change ∀ t ∈ all, ∀ s, t.superclass? = some s → s.form = .ofClass
    simp [all, superclass?, turning, part, gear, number, int, plainClass, BeanType.form]
  implementsInterface := by
    change ∀ t ∈ all, ∀ i ∈ t.interfaces, i.isInterface = true
    simp [all, BeanType.interfaces, turning, part, gear, number, int, plainClass, isInterface,
      BeanType.form]

def spare : Value := .object gear (.named "spare")

theorem values_of_spare : ∀ v ∈ [spare, Value.int 4], ∀ t, v.runtimeType = some t →
    t ∈ {t | t ∈ all} ∧ t.isConcrete = true := by
  intro v member t given
  rcases List.mem_pair.mp member with rfl | rfl
  · cases given
    exact ⟨by change gear ∈ all; simp [all], rfl⟩
  · cases given
    exact ⟨by change int ∈ all; simp [all], rfl⟩

theorem typeDifference_mono_of_garage :
    Weight.typeDifference [turning, number] [spare, .int 4] ≤
      Weight.typeDifference [object, object] [spare, .int 4] ∧
    (Weight.typeDifference [part] [spare] < Weight.typeDifference [object] [spare] ∨
      Weight.typeDifference [part] [spare] = Weight.greatest ∧ 2 ^ 30 ≤ gear.lineage.length) ∧
    Weight.typeDifference [part] [spare] = 2 ∧ Weight.typeDifference [object] [spare] = 4 := by
  have inside {types : List BeanType} (listed : types ⊆ all) : ∀ t ∈ types, t ∈ {t | t ∈ all} :=
    fun t member => listed member
  refine ⟨?_, ?_, by decide, by decide⟩
  · exact (layered.typeDifference_mono (inside (by simp [all])) (inside (by simp [all]))
      values_of_spare (.cons rfl (.cons rfl .nil)) (.cons rfl (.cons rfl .nil))
      (.cons rfl (.cons rfl .nil))).1
  · have one : ∀ v ∈ [spare], ∀ t, v.runtimeType = some t →
        t ∈ {t | t ∈ all} ∧ t.isConcrete = true :=
      fun v member => values_of_spare v (List.mem_cons.mpr (.inl (List.mem_singleton.mp member)))
    exact (layered.typeDifference_mono (inside (by simp [all])) (inside (by simp [all])) one
      (.cons rfl .nil) (.cons rfl .nil) (.cons rfl .nil)).2 part object spare gear rfl rfl rfl rfl rfl
        (.inl rfl)

end Garage

end BeanType

end BeanWiring

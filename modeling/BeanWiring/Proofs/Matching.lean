import BeanWiring.Container.Fetching
import BeanWiring.Proofs.Work
import Mathlib.Data.List.Perm.Subperm
import Mathlib.Data.List.ReduceOption

/-!
Matching the declared values of a definition with the parameters of an executable. Which holder a
parameter takes hangs on the values alone; a binding follows from what is taken, and no holder is
taken twice.
-/
namespace BeanWiring

def Holder.isRenewed (h : Holder DeclaredValue) : Bool := h.converted.isNone && h.value.isReresolved

def Holder.declared (g : Holder ResolvedValue) : Holder DeclaredValue := g.withValue g.value.source

/-- What a holder is resolved to: the hints and the source stay, a converted value stands for
itself, and so does a literal that needs no resolution. -/
def Holder.ResolvesTo (h : Holder DeclaredValue) (g : Holder ResolvedValue) : Prop :=
  ∃ v, g = h.withValue ⟨v, h.value⟩ ∧ (∀ w, h.converted = some w → v = w) ∧
    ∀ w, h.converted = none → h.value = .value w → h.value.isReresolved = false → v = w

theorem Holder.ResolvesTo.declared_eq {h : Holder DeclaredValue} {g : Holder ResolvedValue}
    (resolves : h.ResolvesTo g) : g.declared = h := by
  obtain ⟨v, rfl, -, -⟩ := resolves
  rfl

namespace ArgumentValues

section
variable {V : Type}

def holders (values : ArgumentValues V) : List (Holder V) :=
  values.indexed.map (·.2) ++ values.generic

def slotted (values : ArgumentValues V) : List (HolderSlot × Holder V) :=
  values.indexed.map (fun (i, h) => (.indexed i, h)) ++
    values.generic.zipIdx.map (fun (h, position) => (.generic position, h))

theorem length_slotted (values : ArgumentValues V) : values.slotted.length = values.count := by
  simp [slotted, count]

theorem map_snd_slotted (values : ArgumentValues V) :
    values.slotted.map (·.2) = values.holders := by
  have indexed : values.indexed.map (fun p => (HolderSlot.indexed p.1, p.2).2) =
      values.indexed.map (·.2) := rfl
  have generic : values.generic.zipIdx.map (fun p => (HolderSlot.generic p.2, p.1).2) =
      values.generic := List.zipIdx_map_fst 0 values.generic
  simp only [slotted, holders, List.map_append, List.map_map, Function.comp_def, generic]

theorem indexed?_some {values : ArgumentValues V} {index : Nat} {type : Option BeanType}
    {name : Option String} {slot : HolderSlot} {h : Holder V}
    (found : values.indexed? index type name = some (slot, h)) :
    ∃ i, slot = .indexed i ∧ i.toNat = index ∧ (i, h) ∈ values.indexed := by
  unfold indexed? at found
  split at found
  · cases found
  · rename_i i g entry
    split at found
    · cases found
      have same := List.find?_some entry
      exact ⟨i, rfl, by simpa using same, List.mem_of_find?_eq_some entry⟩
    · cases found

def ResolveTo (declared : ArgumentValues DeclaredValue) (values : ArgumentValues ResolvedValue) :
    Prop :=
  List.Forall₂ (fun p q => p.1 = q.1 ∧ p.2.ResolvesTo q.2) declared.indexed values.indexed ∧
    List.Forall₂ Holder.ResolvesTo declared.generic values.generic

theorem ResolveTo.map_declared {declared : ArgumentValues DeclaredValue}
    {values : ArgumentValues ResolvedValue} (resolves : declared.ResolveTo values) :
    values.holders.map Holder.declared = declared.holders := by
  have indexed : (values.indexed.map (·.2)).map Holder.declared = declared.indexed.map (·.2) := by
    rw [eq_comm, ← List.forall₂_eq_eq_eq, List.forall₂_map_left_iff, List.map_map,
      List.forall₂_map_right_iff]
    exact resolves.1.imp fun _ _ each => each.2.declared_eq.symm
  have generic : values.generic.map Holder.declared = declared.generic := by
    rw [eq_comm, ← List.forall₂_eq_eq_eq, List.forall₂_map_right_iff]
    exact resolves.2.imp fun _ _ each => each.declared_eq.symm
  rw [holders, holders, List.map_append, indexed, generic]

variable [HolderValue V]

theorem genericFrom?_some {type : Option BeanType} {name : Option String} {used : List HolderSlot}
    {position : Nat} {hs : List (Holder V)} {slot : HolderSlot} {h : Holder V}
    (found : genericFrom? type name used position hs = some (slot, h)) :
    ∃ q, slot = .generic q ∧ .generic q ∉ used ∧ (h, q) ∈ hs.zipIdx position := by
  induction hs generalizing position with
  | nil => cases found
  | cons g rest ih =>
    unfold genericFrom? at found
    split at found
    · rename_i free
      cases found
      simp only [Bool.and_eq_true, Bool.not_eq_true', List.contains_eq_mem,
        decide_eq_false_iff_not] at free
      exact ⟨position, rfl, free.1, List.mem_cons_self⟩
    · obtain ⟨q, hslot, unused, member⟩ := ih found
      exact ⟨q, hslot, unused, List.mem_cons_of_mem _ member⟩

theorem generic?_some {values : ArgumentValues V} {type : Option BeanType} {name : Option String}
    {used : List HolderSlot} {slot : HolderSlot} {h : Holder V}
    (found : values.generic? type name used = some (slot, h)) :
    ∃ q, slot = .generic q ∧ .generic q ∉ used ∧ (h, q) ∈ values.generic.zipIdx :=
  genericFrom?_some found

end

/-- Whether a slot may be taken for the parameter at `index`: that under the index itself, or one
without an index that was not used before. -/
def IsFree (used : List HolderSlot) (index : Nat) : HolderSlot → Prop
  | .indexed i => i.toNat = index
  | .generic q => .generic q ∉ used

theorem forParameter?_some {values : ArgumentValues ResolvedValue} {autowiring : Bool}
    {arity index : Nat} {parameter : Parameter} {used : List HolderSlot} {slot : HolderSlot}
    {h : Holder ResolvedValue}
    (found : values.forParameter? autowiring arity index parameter used = some (slot, h)) :
    (slot, h) ∈ values.slotted ∧ IsFree used index slot := by
  have generic {type : Option BeanType} {name : Option String}
      (chosen : values.generic? type name used = some (slot, h)) :
      (slot, h) ∈ values.slotted ∧ IsFree used index slot := by
    obtain ⟨q, rfl, unused, member⟩ := generic?_some chosen
    exact ⟨List.mem_append_right _ (List.mem_map.mpr ⟨(h, q), member, rfl⟩), unused⟩
  unfold forParameter? find? at found
  split at found
  · rename_i p chosen
    cases found
    split at chosen
    · rename_i p under
      cases chosen
      obtain ⟨i, rfl, same, member⟩ := indexed?_some under
      exact ⟨List.mem_append_left _ (List.mem_map.mpr ⟨(i, h), member, rfl⟩), same⟩
    · exact generic chosen
  · split at found
    · exact generic found
    · cases found

/-- The holders that parameters take, the first of them at `index`, and none for a parameter that is
left to the container. -/
def takenFrom (values : ArgumentValues ResolvedValue) (autowiring : Bool) (arity : Nat) :
    (index : Nat) → List Parameter → (used : List HolderSlot) →
      List (Option (HolderSlot × Holder ResolvedValue))
  | _, [], _ => []
  | index, parameter :: rest, used =>
    match values.forParameter? autowiring arity index parameter used with
    | some (slot, h) =>
      some (slot, h) :: values.takenFrom autowiring arity (index + 1) rest (slot :: used)
    | none => none :: values.takenFrom autowiring arity (index + 1) rest used

def taken (values : ArgumentValues ResolvedValue) (autowiring : Bool) (e : Executable) :
    List (Option (HolderSlot × Holder ResolvedValue)) :=
  values.takenFrom autowiring e.arity 0 e.parameters []

theorem mem_slotted_of_mem_takenFrom {values : ArgumentValues ResolvedValue} {autowiring : Bool}
    {arity index : Nat} {parameters : List Parameter} {used : List HolderSlot}
    {p : HolderSlot × Holder ResolvedValue}
    (member : some p ∈ values.takenFrom autowiring arity index parameters used) :
    p ∈ values.slotted := by
  induction parameters generalizing index used with
  | nil => cases member
  | cons parameter rest ih =>
    unfold takenFrom at member
    split at member
    · rename_i slot h found
      rcases List.mem_cons.mp member with same | later
      · cases same
        exact (forParameter?_some found).1
      · exact ih later
    · rcases List.mem_cons.mp member with same | later
      · cases same
      · exact ih later

/-- No slot is taken twice: one with an index only for the parameter at that index, another only if
it was not used before. -/
theorem takenFrom_slots_nodup (values : ArgumentValues ResolvedValue) (autowiring : Bool)
    (arity index : Nat) (parameters : List Parameter) (used : List HolderSlot)
    (passed : ∀ i, .indexed i ∈ used → i.toNat < index) :
    let slots := (values.takenFrom autowiring arity index parameters used).reduceOption.map (·.1)
    slots.Nodup ∧ (∀ slot ∈ slots, slot ∉ used) ∧ ∀ i, .indexed i ∈ slots → index ≤ i.toNat := by
  induction parameters generalizing index used with
  | nil => simp [takenFrom]
  | cons parameter rest ih =>
    unfold takenFrom
    split
    · rename_i slot h found
      have free := (forParameter?_some found).2
      have passed' : ∀ i, .indexed i ∈ slot :: used → i.toNat < index + 1 := by
        intro i member
        rcases List.mem_cons.mp member with same | earlier
        · subst same
          exact Nat.lt_succ_of_le (Nat.le_of_eq free)
        · exact Nat.lt_succ_of_lt (passed i earlier)
      obtain ⟨nodup, unused, above⟩ := ih (index + 1) (slot :: used) passed'
      simp only [List.reduceOption_cons_of_some, List.map_cons, List.nodup_cons,
        List.forall_mem_cons]
      refine ⟨⟨fun again => unused slot again List.mem_cons_self, nodup⟩, ⟨?_, ?_⟩, ?_⟩
      · cases slot with
        | indexed i =>
          exact fun earlier =>
            absurd (passed i earlier) (Nat.not_lt_of_le (Nat.le_of_eq free.symm))
        | generic q => exact free
      · exact fun s member earlier => unused s member (List.mem_cons_of_mem _ earlier)
      · intro i member
        rcases List.mem_cons.mp member with same | later
        · subst same
          exact Nat.le_of_eq free.symm
        · exact Nat.le_of_succ_le (above i later)
    · have passed' : ∀ i, .indexed i ∈ used → i.toNat < index + 1 :=
        fun i earlier => Nat.lt_succ_of_lt (passed i earlier)
      obtain ⟨nodup, unused, above⟩ := ih (index + 1) used passed'
      rw [List.reduceOption_cons_of_none]
      exact ⟨nodup, unused, fun i member => Nat.le_of_succ_le (above i member)⟩

end ArgumentValues

namespace Value

theorem convertArgument_eq_ok {value argument : Value} {bean : String} {point : InjectionPoint} :
    value.convertArgument bean point = .ok argument ↔ value.convert point.type = .ok argument := by
  unfold convertArgument
  cases value.convert point.type <;> simp [Except.mapError]

end Value

def Provenance.isAutowired : Provenance → Bool
  | .autowired | .autowiredEmpty => true
  | _ => false

namespace Binding

theorem ofHolder_eq_ok {slot : HolderSlot} {h : Holder ResolvedValue} {bean : String}
    {point : InjectionPoint} {b : BoundArgument} :
    ofHolder slot h bean point = .ok b ↔
      (∃ v, h.converted = some v ∧ b = ⟨h.value.value, v, .value v, slot.provenance⟩) ∨
      (h.converted = none ∧ ∃ argument, h.value.value.convert point.type = .ok argument ∧
        b = ⟨h.value.value, argument,
          if h.value.source.isReresolved then .declared h.value.source else .value argument,
          slot.provenance⟩) := by
  unfold ofHolder
  cases converted : h.converted with
  | some v =>
    constructor
    · intro made
      exact .inl ⟨v, rfl, (Except.ok.inj made).symm⟩
    · rintro (⟨w, same, rfl⟩ | ⟨impossible, -⟩)
      · cases same
        rfl
      · cases impossible
  | none =>
    cases made : h.value.value.convertArgument bean point with
    | error failure =>
      constructor
      · nofun
      · rintro (⟨w, impossible, -⟩ | ⟨-, argument, same, -⟩)
        · cases impossible
        · cases made.symm.trans (Value.convertArgument_eq_ok.mpr same)
    | ok argument =>
      constructor
      · intro same
        exact .inr ⟨rfl, argument, Value.convertArgument_eq_ok.mp made, (Except.ok.inj same).symm⟩
      · rintro (⟨w, impossible, -⟩ | ⟨-, argument', same, rfl⟩)
        · cases impossible
        · cases made.symm.trans (Value.convertArgument_eq_ok.mpr same)
          rfl

theorem ofHolder_recipe_isValue {slot : HolderSlot} {h : Holder ResolvedValue} {bean : String}
    {point : InjectionPoint} {b : BoundArgument} (made : ofHolder slot h bean point = .ok b) :
    b.recipe.isValue = !h.declared.isRenewed := by
  rcases ofHolder_eq_ok.mp made with ⟨v, converted, rfl⟩ | ⟨converted, argument, -, rfl⟩
  · simp [Recipe.isValue, Holder.isRenewed, Holder.declared, Holder.withValue, converted]
  · simp only [Holder.isRenewed, Holder.declared, Holder.withValue, converted]
    cases h.value.source.isReresolved <;> rfl

/-- How the arguments of the parameters from `index` on follow from the holders taken: those of
holders are the holders' own, the others are found in the container as they are. -/
inductive Follows (bean : String) (e : Executable) :
    (index : Nat) → List Parameter → List (Option (HolderSlot × Holder ResolvedValue)) →
      Binding → Prop
  | nil {index : Nat} : Follows bean e index [] [] []
  | declared {index : Nat} {parameter : Parameter} {rest : List Parameter} {slot : HolderSlot}
      {h : Holder ResolvedValue} {taken : List (Option (HolderSlot × Holder ResolvedValue))}
      {b : BoundArgument} {bound : Binding} :
      ofHolder slot h bean (e.injectionPoint bean index parameter) = .ok b →
        Follows bean e (index + 1) rest taken bound →
        Follows bean e index (parameter :: rest) (some (slot, h) :: taken) (b :: bound)
  | autowired {index : Nat} {parameter : Parameter} {rest : List Parameter}
      {taken : List (Option (HolderSlot × Holder ResolvedValue))} {value : Value}
      {provenance : Provenance} {bound : Binding} :
      provenance.isAutowired = true → Follows bean e (index + 1) rest taken bound →
        Follows bean e index (parameter :: rest) (none :: taken)
          (⟨value, value, .autowired, provenance⟩ :: bound)

theorem Follows.length_eq {bean : String} {e : Executable} {index : Nat}
    {parameters : List Parameter} {taken : List (Option (HolderSlot × Holder ResolvedValue))}
    {bound : Binding} (follows : Follows bean e index parameters taken bound) :
    taken.length = parameters.length ∧ bound.length = parameters.length := by
  induction follows with
  | nil => exact ⟨rfl, rfl⟩
  | declared _ _ ih => simp only [List.length_cons, ih, and_self]
  | autowired _ _ ih => simp only [List.length_cons, ih, and_self]

end Binding

theorem Lookup.isAutowired_of_autowired {lookup : Lookup} {type : BeanType} {fallback : Bool}
    {found : Autowired} (made : lookup.autowired type fallback = .ok found) :
    found.provenance.isAutowired = true := by
  unfold autowired at made
  split at made
  · cases made
    rfl
  · split at made
    · cases made
      rfl
    · cases made

namespace Work

theorem autowire_ok {fetch : Fetch} {ctx : Context} {bean : String} {point : InjectionPoint}
    {fallback : Bool} {found : Autowired} {c c' : Container}
    (run : (autowire fetch ctx bean point fallback).run.run c = (.ok found, c')) :
    found.provenance.isAutowired = true := by
  unfold autowire at run
  split at run
  · split at run
    · rw [← (Attempt.run_pure_eq_ok.mp run).1]
      rfl
    · cases run
  · obtain ⟨lookup, m, -, rest⟩ := Attempt.run_bind_eq_ok.mp run
    rw [Attempt.run_liftExcept] at rest
    exact Lookup.isAutowired_of_autowired (congrArg Prod.fst rest)

theorem bindParameter_ok {s : Setting} {e : Executable} {values : ArgumentValues ResolvedValue}
    {index : Nat} {parameter : Parameter} {p p' : Progress} {c c' : Container}
    (bound : (bindParameter s e values index parameter p).run.run c = (.ok p', c')) :
    (∃ slot h b,
      values.forParameter? s.autowiring e.arity index parameter p.used = some (slot, h) ∧
        Binding.ofHolder slot h s.bean (e.injectionPoint s.bean index parameter) = .ok b ∧
        p' = { p with used := slot :: p.used, bound := p.bound ++ [b] } ∧ c' = c) ∨
    ∃ found,
      values.forParameter? s.autowiring e.arity index parameter p.used = none ∧
        (autowire s.fetch s.context s.bean (e.injectionPoint s.bean index parameter)
          s.fallback).run.run c = (.ok found, c') ∧
        p' = ⟨p.used, p.bound ++ [⟨found.value, found.value, .autowired, found.provenance⟩],
          Graph.distinct (p.names ++ found.names)⟩ := by
  unfold bindParameter at bound
  split at bound
  · rename_i slot h chosen
    obtain ⟨b, m, converted, rest⟩ := Attempt.run_bind_eq_ok.mp bound
    obtain ⟨made, rfl⟩ := Attempt.run_liftM_eq_ok.mp converted
    obtain ⟨rfl, rfl⟩ := Attempt.run_pure_eq_ok.mp rest
    exact .inl ⟨slot, h, b, chosen, made, rfl, rfl⟩
  · rename_i chosen
    split at bound
    · obtain ⟨r, m, run, rest⟩ := Attempt.run_bind_eq_ok.mp bound
      cases r with
      | error e => cases rest
      | ok found =>
        obtain ⟨rfl, rfl⟩ := Attempt.run_pure_eq_ok.mp rest
        exact .inr ⟨found, chosen, Attempt.run_of_lift_run run, rfl⟩
    · cases bound

theorem bindFrom_ok {s : Setting} {e : Executable} {values : ArgumentValues ResolvedValue}
    {index : Nat} {parameters : List Parameter} {p p' : Progress} {c c' : Container}
    (bound : (bindFrom s e values index parameters p).run.run c = (.ok p', c')) :
    ∃ b, p'.bound = p.bound ++ b ∧ Binding.Follows s.bean e index parameters
      (values.takenFrom s.autowiring e.arity index parameters p.used) b := by
  induction parameters generalizing index p c with
  | nil =>
    cases (Attempt.run_pure_eq_ok.mp bound).1
    exact ⟨[], (List.append_nil _).symm, .nil⟩
  | cons parameter rest ih =>
    obtain ⟨q, m, first, later⟩ := Attempt.run_bind_eq_ok.mp bound
    obtain ⟨b, same, follows⟩ := ih later
    rcases bindParameter_ok first with ⟨slot, h, a, chosen, made, rfl, -⟩ | ⟨found, chosen, run, rfl⟩
    · simp only [ArgumentValues.takenFrom, chosen]
      exact ⟨a :: b, by rw [same, List.append_assoc]; rfl, .declared made follows⟩
    · simp only [ArgumentValues.takenFrom, chosen]
      exact ⟨_ :: b, by rw [same, List.append_assoc]; rfl, .autowired (autowire_ok run) follows⟩

theorem bindDeclared_ok {s : Setting} {e : Executable} {values : ArgumentValues ResolvedValue}
    {b : Binding} {c c' : Container} (bound : (bindDeclared s e values).run.run c = (.ok b, c')) :
    Binding.Follows s.bean e 0 e.parameters (values.taken s.autowiring e) b := by
  obtain ⟨p, m, first, rest⟩ := Attempt.run_bind_eq_ok.mp bound
  obtain ⟨_, _, _, last⟩ := Attempt.run_bind_eq_ok.mp rest
  obtain ⟨b', same, follows⟩ := bindFrom_ok first
  rw [← (Attempt.run_pure_eq_ok.mp last).1, same]
  exact follows

end Work

namespace Attempt

theorem resolveHolder_ok {create : Creator} {ctx : Context} {bean : String}
    {h : Holder DeclaredValue} {g : Holder ResolvedValue} {c c' : Container}
    (resolved : (resolveHolder create ctx bean h).run.run c = (.ok g, c')) : h.ResolvesTo g := by
  unfold resolveHolder at resolved
  split at resolved
  · rename_i v converted
    refine ⟨v, (run_pure_eq_ok.mp resolved).1.symm, ?_, ?_⟩
    · exact fun w same => Option.some.inj (converted.symm.trans same)
    · exact fun w none => absurd (none.symm.trans converted) nofun
  · rename_i converted
    obtain ⟨v, m, first, rest⟩ := run_bind_eq_ok.mp resolved
    refine ⟨v, (run_pure_eq_ok.mp rest).1.symm, ?_, ?_⟩
    · exact fun w some => absurd (converted.symm.trans some) nofun
    · intro w _ literal plain
      rw [literal] at first plain
      cases w with
      | str t => cases plain
      | _ => exact (run_pure_eq_ok.mp first).1.symm

theorem resolveArguments_ok {create : Creator} {ctx : Context} {bean : String} {d : Definition}
    {values : ArgumentValues ResolvedValue} {c c' : Container}
    (resolved : (resolveArguments create ctx bean d).run.run c = (.ok values, c')) :
    d.arguments.ResolveTo values := by
  obtain ⟨indexed, m, first, rest⟩ := run_bind_eq_ok.mp resolved
  obtain ⟨generic, m', second, last⟩ := run_bind_eq_ok.mp rest
  rw [← (run_pure_eq_ok.mp last).1]
  constructor
  · refine forall₂_of_mapM_ok first fun p _ q _ _ each => ?_
    obtain ⟨g, _, found, rest⟩ := run_bind_eq_ok.mp each
    cases (run_pure_eq_ok.mp rest).1
    exact ⟨rfl, resolveHolder_ok found⟩
  · exact forall₂_of_mapM_ok second fun h _ g _ _ each => resolveHolder_ok each

end Attempt

end BeanWiring

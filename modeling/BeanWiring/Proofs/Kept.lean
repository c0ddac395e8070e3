import BeanWiring.Proofs.Matching

/-!
What is kept of a match. An argument is kept as a value unless it was satisfied from the container
or comes from a holder whose value has to be found anew.
-/
namespace BeanWiring

namespace KeptArguments

def length : KeptArguments → Nat
  | .resolved arguments => arguments.length
  | .prepared recipes => recipes.length

def isPrepared : KeptArguments → Bool
  | .resolved _ => false
  | .prepared _ => true

end KeptArguments

structure Resolution.Keeps (r : Resolution) (d : Definition) (values : ArgumentValues ResolvedValue)
    (s : Work.Setting) (b : Binding) : Prop where
  resolved : d.arguments.ResolveTo values
  bound : ∃ c c', (Work.bindDeclared s r.executable values).run.run c = (.ok b, c')
  kept : r.arguments = b.kept
  notVoid : d.factoryMethod.isSome → r.executable.returnType.isVoid = false

def Resolution.KeptFor (r : Resolution) (d : Definition) : Prop :=
  ∃ values s b, r.Keeps d values s b

/-- The resolution keeps a match of the declared values of a definition that a search may choose: a
weight that marks unfitting arguments is never the least. -/
def Resolution.ChosenFor (r : Resolution) (d : Definition) : Prop :=
  ∃ values s b, r.Keeps d values s b ∧
    b.weight d.lenient r.executable.parameterTypes < Weight.greatest

theorem Resolution.ChosenFor.keptFor {r : Resolution} {d : Definition} (chosen : r.ChosenFor d) :
    r.KeptFor d := by
  obtain ⟨values, s, b, keeps, -⟩ := chosen
  exact ⟨values, s, b, keeps⟩

namespace Binding

variable {bean : String} {e : Executable} {index : Nat} {parameters : List Parameter}
  {taken : List (Option (HolderSlot × Holder ResolvedValue))} {b : Binding}

theorem length_kept (b : Binding) : b.kept.length = b.length := by
  unfold kept
  split <;> simp [KeptArguments.length, arguments]

theorem isPrepared_kept (b : Binding) : b.kept.isPrepared = b.any (!·.recipe.isValue) := by
  unfold kept
  cases values : b.all (·.recipe.isValue) with
  | true => simpa [KeptArguments.isPrepared] using List.all_eq_true.mp values
  | false => simpa [KeptArguments.isPrepared] using List.all_eq_false.mp values

theorem ofHolder_provenance {slot : HolderSlot} {h : Holder ResolvedValue} {point : InjectionPoint}
    {a : BoundArgument} (made : ofHolder slot h bean point = .ok a) :
    a.provenance.isAutowired = false := by
  have plain : slot.provenance.isAutowired = false := by cases slot <;> rfl
  rcases ofHolder_eq_ok.mp made with ⟨v, -, rfl⟩ | ⟨-, argument, -, rfl⟩
  · exact plain
  · exact plain

theorem Follows.exists_not_value_iff (follows : Follows bean e index parameters taken b) :
    (∃ a ∈ b, a.recipe.isValue = false) ↔ (∃ a ∈ b, a.provenance.isAutowired = true) ∨
      ∃ slot h, some (slot, h) ∈ taken ∧ h.declared.isRenewed = true := by
  induction follows with
  | nil => simp
  | declared made _ ih =>
    rename_i slot h taken a bound _
    have first : (∃ slot' h', some (slot', h') ∈ some (slot, h) :: taken ∧
        h'.declared.isRenewed = true) ↔ h.declared.isRenewed = true ∨
          ∃ slot' h', some (slot', h') ∈ taken ∧ h'.declared.isRenewed = true := by
      constructor
      · rintro ⟨slot', h', member, renewed⟩
        rcases List.mem_cons.mp member with same | later
        · cases same
          exact .inl renewed
        · exact .inr ⟨slot', h', later, renewed⟩
      · rintro (renewed | ⟨slot', h', later, renewed⟩)
        · exact ⟨slot, h, List.mem_cons_self, renewed⟩
        · exact ⟨slot', h', List.mem_cons_of_mem _ later, renewed⟩
    rw [first, List.exists_mem_cons_iff, List.exists_mem_cons_iff, ih, ofHolder_recipe_isValue made,
      ofHolder_provenance made, Bool.not_eq_false', or_left_comm]
    simp
  | autowired auto _ _ => simp [auto, Recipe.isValue]

theorem Follows.exists_holder (follows : Follows bean e index parameters taken b)
    {source : DeclaredValue} (member : .declared source ∈ b.map (·.recipe)) :
    ∃ slot h, some (slot, h) ∈ taken ∧ h.converted = none ∧ h.value.source = source := by
  induction follows with
  | nil => cases member
  | declared made _ ih =>
    rename_i slot h taken a bound _
    rcases List.mem_cons.mp member with same | later
    · refine ⟨slot, h, List.mem_cons_self, ?_⟩
      rcases ofHolder_eq_ok.mp made with ⟨v, -, rfl⟩ | ⟨unconverted, argument, -, rfl⟩
      · cases same
      · dsimp only at same
        split at same
        · exact ⟨unconverted, (Recipe.declared.inj same).symm⟩
        · cases same
    · obtain ⟨slot', h', present, found⟩ := ih later
      exact ⟨slot', h', List.mem_cons_of_mem _ present, found⟩
  | autowired auto _ ih =>
    rcases List.mem_cons.mp member with same | later
    · cases same
    · obtain ⟨slot, h, present, found⟩ := ih later
      exact ⟨slot, h, List.mem_cons_of_mem _ present, found⟩

end Binding

namespace Resolution.Keeps

variable {r : Resolution} {d : Definition} {values : ArgumentValues ResolvedValue}
  {s : Work.Setting} {b : Binding}

theorem follows (keeps : r.Keeps d values s b) :
    Binding.Follows s.bean r.executable 0 r.executable.parameters
      (values.taken s.autowiring r.executable) b := by
  obtain ⟨c, c', run⟩ := keeps.bound
  exact Work.bindDeclared_ok run

theorem length_eq (keeps : r.Keeps d values s b) : r.arguments.length = r.executable.arity := by
  rw [keeps.kept, Binding.length_kept]
  exact keeps.follows.length_eq.2

theorem isPrepared_iff (keeps : r.Keeps d values s b) :
    r.arguments.isPrepared = true ↔ (∃ a ∈ b, a.provenance.isAutowired = true) ∨
      ∃ slot h, some (slot, h) ∈ values.taken s.autowiring r.executable ∧
        h.declared.isRenewed = true := by
  rw [← keeps.follows.exists_not_value_iff, keeps.kept, Binding.isPrepared_kept]
  simp

theorem resolved_eq {e : Executable} {arguments : List Value}
    (keeps : Resolution.Keeps ⟨e, .resolved arguments⟩ d values s b) : arguments = b.arguments := by
  have kept := keeps.kept
  unfold Binding.kept at kept
  split at kept
  · exact KeptArguments.resolved.inj kept
  · cases kept

theorem prepared_eq {e : Executable} {recipes : List Recipe}
    (keeps : Resolution.Keeps ⟨e, .prepared recipes⟩ d values s b) :
    recipes = b.map (·.recipe) := by
  have kept := keeps.kept
  unfold Binding.kept at kept
  split at kept
  · cases kept
  · exact KeptArguments.prepared.inj kept

theorem exists_unconverted (keeps : r.Keeps d values s b) {recipes : List Recipe}
    {source : DeclaredValue} (prepared : r.arguments = .prepared recipes)
    (member : .declared source ∈ recipes) :
    ∃ h ∈ d.arguments.holders, h.converted = none ∧ h.value = source := by
  obtain ⟨e, arguments | kept⟩ := r
  · cases prepared
  · cases prepared
    obtain ⟨slot, h, taken, found⟩ := keeps.follows.exists_holder (keeps.prepared_eq ▸ member)
    have slotted := ArgumentValues.mem_slotted_of_mem_takenFrom taken
    refine ⟨h.declared, ?_, found⟩
    rw [← keeps.resolved.map_declared, ← ArgumentValues.map_snd_slotted]
    exact List.mem_map_of_mem (List.mem_map_of_mem slotted)

theorem exists_holder (keeps : r.Keeps d values s b) {recipes : List Recipe}
    {source : DeclaredValue} (prepared : r.arguments = .prepared recipes)
    (member : .declared source ∈ recipes) : ∃ h ∈ d.arguments.holders, h.value = source := by
  obtain ⟨h, held, -, same⟩ := keeps.exists_unconverted prepared member
  exact ⟨h, held, same⟩

end Resolution.Keeps

end BeanWiring

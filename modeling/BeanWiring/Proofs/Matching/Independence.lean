import BeanWiring.Proofs.Matching
import Mathlib.Data.List.Nodup

/-!
Bindings that need not be found anew. When every argument can be kept as a value, no parameter was
left to the container; then each holder is taken by exactly one parameter, so none of them is
resolved from beans or properties, and matching comes to the same wherever it is done.
-/
namespace BeanWiring

namespace Binding

theorem Follows.declared_of_values {bean : String} {e : Executable} {index : Nat}
    {parameters : List Parameter} {taken : List (Option (HolderSlot × Holder ResolvedValue))}
    {bound : Binding} (follows : Follows bean e index parameters taken bound)
    (values : bound.all (·.recipe.isValue) = true) :
    ∀ t ∈ taken, ∃ slot h, t = some (slot, h) ∧ h.declared.isRenewed = false := by
  induction follows with
  | nil => simp
  | declared made _ ih =>
    rw [List.all_cons, Bool.and_eq_true, ofHolder_recipe_isValue made, Bool.not_eq_true'] at values
    exact List.forall_mem_cons.mpr ⟨⟨_, _, rfl, values.1⟩, ih values.2⟩
  | autowired _ _ _ =>
    rw [List.all_cons, Bool.and_eq_true] at values
    cases values.1

end Binding

namespace ArgumentValues

theorem taken_perm_slotted {values : ArgumentValues ResolvedValue} {autowiring : Bool}
    {e : Executable} (enough : values.count ≤ e.arity)
    (length : (values.taken autowiring e).length = e.arity)
    (declared : ∀ t ∈ values.taken autowiring e, t.isSome) :
    (values.taken autowiring e).reduceOption.Perm values.slotted := by
  have nodup : (values.taken autowiring e).reduceOption.Nodup :=
    List.Nodup.of_map _ (values.takenFrom_slots_nodup autowiring e.arity 0 e.parameters [] nofun).1
  have subset : (values.taken autowiring e).reduceOption ⊆ values.slotted :=
    fun p member => mem_slotted_of_mem_takenFrom (List.reduceOption_mem_iff.mp member)
  have all : (values.taken autowiring e).reduceOption.length = e.arity :=
    (List.reduceOption_length_eq_iff.mpr declared).trans length
  apply (nodup.subperm subset).perm_of_length_le
  rw [length_slotted, all]
  exact enough

theorem takenFrom_eq_of_arity_eq {values : ArgumentValues ResolvedValue} {arity : Nat}
    (same : arity = values.count) (autowiring autowiring' : Bool) (index : Nat)
    (parameters : List Parameter) (used : List HolderSlot) :
    values.takenFrom autowiring arity index parameters used =
      values.takenFrom autowiring' arity index parameters used := by
  have each (index : Nat) (parameter : Parameter) (used : List HolderSlot) :
      values.forParameter? autowiring arity index parameter used =
        values.forParameter? autowiring' arity index parameter used := by
    simp [forParameter?, same]
  induction parameters generalizing index used with
  | nil => rfl
  | cons parameter rest ih => simp only [takenFrom, each, ih]

theorem ResolveTo.count_eq {declared : ArgumentValues DeclaredValue}
    {values : ArgumentValues ResolvedValue} (resolves : declared.ResolveTo values) :
    values.count = declared.count := by
  unfold count
  rw [resolves.1.length_eq, resolves.2.length_eq]

end ArgumentValues

namespace Work

theorem bindFrom_of_follows {s : Setting} {e : Executable} {values : ArgumentValues ResolvedValue}
    {bean : String} {index : Nat} {parameters : List Parameter} {p : Progress} {b : Binding}
    (follows : Binding.Follows bean e index parameters
      (values.takenFrom s.autowiring e.arity index parameters p.used) b)
    (declared : ∀ t ∈ values.takenFrom s.autowiring e.arity index parameters p.used, t.isSome)
    (c : Container) :
    ∃ used, (bindFrom s e values index parameters p).run.run c =
      (.ok ⟨used, p.bound ++ b, p.names⟩, c) := by
  induction parameters generalizing index p b with
  | nil =>
    cases follows
    exact ⟨p.used, by rw [List.append_nil]; rfl⟩
  | cons parameter rest ih =>
    cases chosen : values.forParameter? s.autowiring e.arity index parameter p.used with
    | none =>
      simp only [ArgumentValues.takenFrom, chosen] at declared
      exact absurd (declared none List.mem_cons_self) Bool.false_ne_true
    | some taken =>
      obtain ⟨slot, h⟩ := taken
      simp only [ArgumentValues.takenFrom, chosen] at follows declared
      cases follows with
      | declared made follows =>
        rename_i a b
        have here :
            Binding.ofHolder slot h s.bean (e.injectionPoint s.bean index parameter) = .ok a := by
          -- The point names the bean only in the error, and no error arose.
          have point := Binding.ofHolder_eq_ok.mp made
          exact Binding.ofHolder_eq_ok.mpr point
        have step : (bindParameter s e values index parameter p).run.run c =
            (.ok { p with used := slot :: p.used, bound := p.bound ++ [a] }, c) := by
          simp only [bindParameter, chosen, here]
          rfl
        obtain ⟨used, rest⟩ := ih (p := { p with used := slot :: p.used, bound := p.bound ++ [a] })
          follows fun t member => declared t (List.mem_cons_of_mem _ member)
        refine ⟨used, ?_⟩
        unfold bindFrom
        rw [Attempt.run_bind_of_ok step, rest, List.append_assoc]
        rfl

end Work

namespace Attempt

theorem run_resolveHolder_of_fixed {h : Holder DeclaredValue} {g : Holder ResolvedValue}
    (resolves : h.ResolvesTo g) (fixed : h.isRenewed = false) (create : Creator) (ctx : Context)
    (bean : String) (c : Container) :
    (resolveHolder create ctx bean h).run.run c = (.ok g, c) := by
  obtain ⟨v, rfl, converted, literal⟩ := resolves
  unfold resolveHolder
  split
  · rename_i w same
    rw [converted w same]
    rfl
  · rename_i none
    unfold Holder.isRenewed at fixed
    rw [none] at fixed
    cases source : h.value with
    | value w =>
      rw [source] at fixed
      have same := literal w none source (by rw [source]; exact fixed)
      subst same
      cases v with
      | str t => cases fixed
      | _ => rfl
    | _ => rw [source] at fixed; cases fixed

theorem run_mapM_of_forall₂ {α β ε : Type} {xs : List α} {ys : List β} {f : α → ExceptT ε Work β}
    {c : Container} (each : List.Forall₂ (fun a b => (f a).run.run c = (.ok b, c)) xs ys) :
    (xs.mapM f).run.run c = (.ok ys, c) := by
  induction each with
  | nil => rfl
  | cons first _ ih =>
    rw [List.mapM_cons, run_bind_of_ok first, run_bind_of_ok ih]
    rfl

theorem run_resolveArguments_of_fixed {d : Definition} {values : ArgumentValues ResolvedValue}
    (resolves : d.arguments.ResolveTo values)
    (fixed : ∀ h ∈ d.arguments.holders, h.isRenewed = false) (create : Creator) (ctx : Context)
    (bean : String) (c : Container) :
    (resolveArguments create ctx bean d).run.run c = (.ok values, c) := by
  have indexed : (d.arguments.indexed.mapM fun p =>
      return (p.1, ← resolveHolder create ctx bean p.2) : Attempt _).run.run c =
        (.ok values.indexed, c) := by
    apply run_mapM_of_forall₂
    have plain : ∀ p ∈ d.arguments.indexed, p.2.isRenewed = false :=
      fun p member => fixed _ (List.mem_append_left _ (List.mem_map_of_mem member))
    refine List.Forall₂.imp ?_ ((List.forall₂_and_left _ _).mpr ⟨plain, resolves.1⟩)
    rintro ⟨index, h⟩ ⟨_, g⟩ ⟨plain, rfl, resolves⟩
    exact run_bind_of_ok (run_resolveHolder_of_fixed resolves plain create ctx bean c)
  have generic : (d.arguments.generic.mapM (resolveHolder create ctx bean)).run.run c =
      (.ok values.generic, c) := by
    apply run_mapM_of_forall₂
    have plain : ∀ h ∈ d.arguments.generic, h.isRenewed = false :=
      fun h member => fixed _ (List.mem_append_right _ member)
    refine List.Forall₂.imp ?_ ((List.forall₂_and_left _ _).mpr ⟨plain, resolves.2⟩)
    rintro h g ⟨plain, resolves⟩
    exact run_resolveHolder_of_fixed resolves plain create ctx bean c
  unfold resolveArguments
  rw [run_bind_of_ok indexed, run_bind_of_ok generic]
  rfl

/-- Once all arguments of an executable can be kept as values, the declared values resolve to the
same in any container and context, for any bean and setting, and are bound in the same way. -/
theorem matching_of_values {create : Creator} {ctx : Context} {bean : String} {d : Definition}
    {s : Work.Setting} {e : Executable} {values : ArgumentValues ResolvedValue} {b : Binding}
    {c₀ c₁ c₂ c₃ : Container} (room : d.arguments.count ≤ e.arity)
    (resolved : (resolveArguments create ctx bean d).run.run c₀ = (.ok values, c₁))
    (bound : (Work.bindDeclared s e values).run.run c₂ = (.ok b, c₃))
    (kept : b.all (·.recipe.isValue) = true) (create' : Creator) (ctx' : Context) (bean' : String)
    (s' : Work.Setting) (c c' : Container) :
    (resolveArguments create' ctx' bean' d).run.run c = (.ok values, c) ∧
      (Work.bindDeclared s' e values).run.run c' = (.ok b, c') := by
  have resolves := resolveArguments_ok resolved
  have follows := Work.bindDeclared_ok bound
  have declared := follows.declared_of_values kept
  have enough : values.count ≤ e.arity :=
    resolves.count_eq ▸ room
  have isSome : ∀ t ∈ values.taken s.autowiring e, t.isSome := by
    intro t member
    obtain ⟨slot, h, rfl, -⟩ := declared t member
    rfl
  have perm := ArgumentValues.taken_perm_slotted enough follows.length_eq.1 isSome
  -- Every holder is taken, so what can be said of those taken can be said of all.
  have fixed : ∀ h ∈ d.arguments.holders, h.isRenewed = false := by
    intro h member
    rw [← resolves.map_declared, ← ArgumentValues.map_snd_slotted, List.map_map] at member
    obtain ⟨⟨slot, g⟩, slotted, rfl⟩ := List.mem_map.mp member
    have taken := List.reduceOption_mem_iff.mp (perm.mem_iff.mpr slotted)
    obtain ⟨_, _, same, plain⟩ := declared _ taken
    cases same
    exact plain
  have arity : e.arity = values.count := by
    have length := perm.length_eq
    rw [List.reduceOption_length_eq_iff.mpr isSome, ArgumentValues.length_slotted] at length
    exact follows.length_eq.1.symm.trans length
  have same := ArgumentValues.takenFrom_eq_of_arity_eq arity s.autowiring s'.autowiring 0
    e.parameters []
  refine ⟨run_resolveArguments_of_fixed resolves fixed create' ctx' bean' c, ?_⟩
  unfold ArgumentValues.taken at follows isSome
  rw [same] at follows isSome
  obtain ⟨used, matched⟩ := Work.bindFrom_of_follows (p := ⟨[], [], []⟩) follows isSome c'
  unfold Work.bindDeclared
  rw [run_bind_of_ok matched]
  rfl

theorem matching_of_values_of_gear :
    let gear : Value := .object (.plainClass "Gear") (.named "g")
    let e : Executable := ⟨.plainClass "Wheel", .constructor, true,
      [⟨.long, none⟩, ⟨.plainClass "Gear", none⟩], .makes (.plainClass "Wheel"), none⟩
    let d : Definition := { Definition.initial .initial with
      arguments :=
        ⟨[(0, ⟨.value (.int 3), none, none, none⟩)], [⟨.reference "gear", none, none, some gear⟩]⟩ }
    let values : ArgumentValues ResolvedValue :=
      ⟨[(0, ⟨⟨.int 3, .value (.int 3)⟩, none, none, none⟩)],
        [⟨⟨gear, .reference "gear"⟩, none, none, some gear⟩]⟩
    let create : Creator := fun _ name _ _ => throw (.noSuchBeanNamed name)
    let c := Container.new .initial
    (resolveArguments create (Context.new 1) "wheel" d).run.run c = (.ok values, c) ∧
      (Work.bindDeclared ⟨fetcher create, Context.new 1, "wheel", false, false⟩ e values).run.run c =
        (.ok [⟨.int 3, .long 3, .value (.long 3), .declaredIndexed⟩,
          ⟨gear, gear, .value gear, .declaredGeneric⟩], c) := by
  intro gear e d values create c
  have room : d.arguments.count ≤ e.arity := by decide
  have resolved : (resolveArguments create (Context.new 1) "wheel" d).run.run c =
      (.ok values, c) := rfl
  have bound :
      (Work.bindDeclared ⟨fetcher create, Context.new 1, "wheel", true, true⟩ e values).run.run
      c = (.ok [⟨.int 3, .long 3, .value (.long 3), .declaredIndexed⟩,
        ⟨gear, gear, .value gear, .declaredGeneric⟩], c) := rfl
  exact matching_of_values room resolved bound rfl create (Context.new 1) "wheel" _ c c

end Attempt

end BeanWiring

import BeanWiring.Proofs.Candidates
import BeanWiring.Proofs.Settled.Decision

/-!
The executables a creation may come to use. Which of them are candidates hangs on the definition and
its class, and for a definition with one factory method on the method remembered for it.
-/
namespace BeanWiring

/-- The executables that may come to be used for a definition: the constructors of its class, or the
methods of the factory method's name, and what was found out about the definition before. -/
inductive Container.MayUse (c : Container) (d : Definition) : Executable → Prop
  | constructor {beanClass : BeanClass} {e : Executable} : d.factoryMethod.isSome = false →
      d.beanClass = some beanClass → e ∈ beanClass.constructors → MayUse c d e
  | method {beanClass : BeanClass} {e : Executable} : c.owner? d = some beanClass →
      e ∈ beanClass.methods → d.namesMethod e = true → MayUse c d e
  | remembered {e : Executable} : d.unique = true → c.factoryMethod? d = some e → MayUse c d e
  | kept {r : Resolution} : c.resolution? d = some r → MayUse c d r.executable

namespace Creation

variable {n : Creation} {c c' : Container} {beanClass : BeanClass}

theorem favoured_of_kept (ungiven : n.explicit = none) (beanClass : BeanClass) :
    n.favoured true beanClass = .ok none := by
  unfold favoured
  rw [ungiven]
  rfl

theorem favoured_subset {isKept : Bool} {given : Option (List Executable)}
    (favours : n.favoured isKept beanClass = .ok given) :
    ∀ L, given = some L → L ⊆ beanClass.constructors := by
  intro L same e member
  subst same
  unfold favoured at favours
  split at favours
  · cases favours
  · split at favours
    · rename_i only sole
      cases favours
      cases List.mem_singleton.mp member
      unfold BeanClass.soleConstructor? at sole
      split at sole
      · rename_i lone
        split at sole
        · cases sole
          exact lone ▸ List.mem_singleton_self e
        · cases sole
      · cases sole
    · split at favours
      · cases favours
      · split at favours
        · rename_i first default
          cases favours
          cases List.mem_singleton.mp member
          exact List.mem_of_find?_eq_some (Option.filter_eq_some_iff.mp default).1
        · cases favours

theorem constructors_ok {given : Option (List Executable)} {candidates : List Executable}
    (among : ∀ L, given = some L → L ⊆ beanClass.constructors)
    (run : (n.constructors beanClass given).run.run c = (.ok candidates, c')) :
    c' = c ∧ candidates ⊆ beanClass.constructors ∧
      ∀ create ctx m, ((n.again create ctx).constructors beanClass given).run.run m =
        (.ok candidates, m) := by
  cases given with
  | some L =>
    obtain ⟨rfl, rfl⟩ := Attempt.run_pure_eq_ok.mp run
    exact ⟨rfl, fun e member => among L rfl (Executable.mem_ranked.mp member), fun _ _ _ => rfl⟩
  | none =>
    have run' : (liftExcept (beanClass.constructorCandidates n.bean n.definition) :
        Attempt _).run.run c = (.ok candidates, c') := run
    rw [Attempt.run_liftExcept] at run'
    have listed : beanClass.constructorCandidates n.bean n.definition = .ok candidates :=
      congrArg Prod.fst run'
    refine ⟨(congrArg Prod.snd run').symm, fun e member => ?_, fun create ctx m => ?_⟩
    · exact (BeanClass.mem_constructorCandidates listed member).1
    · change (liftExcept (beanClass.constructorCandidates n.bean n.definition) :
        Attempt _).run.run m = _
      rw [Attempt.run_liftExcept, listed]

theorem factoryMethods_ok_iff {candidates : List Executable} :
    (n.factoryMethods beanClass).run.run c = (.ok candidates, c') ↔ c' = c ∧
      ((n.definition.unique = true ∧ ∃ method, c.factoryMethod? n.definition = some method ∧
        (method.declaring == beanClass.type) = true ∧ candidates = [method]) ∨
      ((∀ method, n.definition.unique = true → c.factoryMethod? n.definition = some method →
        (method.declaring == beanClass.type) = false) ∧
        beanClass.methodCandidates n.bean n.definition n.definition.factoryBean.isNone =
          .ok candidates)) := by
  have all : (factoryMethods.all n beanClass).run.run c = (.ok candidates, c') ↔ c' = c ∧
      beanClass.methodCandidates n.bean n.definition n.definition.factoryBean.isNone =
        .ok candidates := by
    unfold factoryMethods.all
    rw [Attempt.run_liftExcept, Prod.mk.injEq, and_comm, eq_comm (a := c)]
  unfold factoryMethods
  rw [Attempt.run_get_bind]
  cases unique : n.definition.unique with
  | false => simpa [unique] using all
  | true =>
    cases remembered : c.factoryMethod? n.definition with
    | none => simpa [unique, remembered] using all
    | some method =>
      cases belongs : method.declaring == beanClass.type with
      | false => simpa [unique, remembered, belongs] using all
      | true =>
        simp only [if_true, belongs, Attempt.run_pure_eq_ok]
        constructor
        · rintro ⟨rfl, rfl⟩
          exact ⟨rfl, .inl ⟨trivial, method, rfl, belongs, rfl⟩⟩
        · rintro ⟨rfl, ⟨-, found, same, -, rfl⟩ | ⟨other, -⟩⟩
          · cases same
            exact ⟨rfl, rfl⟩
          · cases belongs.symm.trans (other method trivial rfl)

theorem factoryMethods_mayUse {c₀ : Container} {candidates : List Executable}
    (owned : c₀.owner? n.definition = some beanClass)
    (method : c.factoryMethod? n.definition = c₀.factoryMethod? n.definition)
    (run : (n.factoryMethods beanClass).run.run c = (.ok candidates, c')) :
    ∀ e ∈ candidates, c₀.MayUse n.definition e := by
  intro e member
  obtain ⟨rfl, ⟨unique, found, remembered, -, rfl⟩ | ⟨-, listed⟩⟩ := factoryMethods_ok_iff.mp run
  · cases List.mem_singleton.mp member
    exact .remembered unique (method ▸ remembered)
  · obtain ⟨inside, -, -, names⟩ :=
      BeanClass.mem_overloads.mp (BeanClass.mem_methodCandidates listed member)
    exact .method owned inside names

/-- Where the method chosen is the one remembered for a definition that has only one, the candidates
are what they were or that method alone. -/
theorem factoryMethods_again {candidates : List Executable} {chosen : Executable}
    (run : (n.factoryMethods beanClass).run.run c = (.ok candidates, c'))
    (among : chosen ∈ candidates) (create : Creator) (ctx : Context) {m : Container}
    (remembers : n.definition.unique = true → m.factoryMethod? n.definition = some chosen) :
    ∃ L, (L = candidates ∨ L = [chosen]) ∧
      ((n.again create ctx).factoryMethods beanClass).run.run m = (.ok L, m) := by
  obtain ⟨rfl, first⟩ := factoryMethods_ok_iff.mp run
  by_cases belongs : n.definition.unique = true ∧ (chosen.declaring == beanClass.type) = true
  · obtain ⟨unique, belongs⟩ := belongs
    refine ⟨[chosen], .inr rfl, factoryMethods_ok_iff.mpr ⟨rfl, .inl ?_⟩⟩
    exact ⟨unique, chosen, remembers unique, belongs, rfl⟩
  · rcases first with ⟨unique, found, -, declared, rfl⟩ | ⟨-, listed⟩
    · cases List.mem_singleton.mp among
      exact absurd ⟨unique, declared⟩ belongs
    · refine ⟨candidates, .inl rfl, factoryMethods_ok_iff.mpr ⟨rfl, .inr ⟨?_, listed⟩⟩⟩
      intro method unique remembered
      obtain rfl := Option.some.inj ((remembers unique).symm.trans remembered)
      exact Bool.eq_false_iff.mpr fun declared => belongs ⟨unique, declared⟩

end Creation

end BeanWiring

import BeanWiring.Proofs.Watching
import BeanWiring.Proofs.Effects

/-!
What creation does in the two containers of a watch. A singleton that suits its concerned definitions
can be registered, and a choice kept if the type it gives its bean suits them.
-/
namespace BeanWiring

variable {w : Watch} {c c' origin : Container} {d : Definition} {e : Executable} {name : String}
  {value : Value}

theorem Container.decisions_keeping (c : Container) (d : Definition) (r : Resolution) :
    (c.keeping d r).decisions = c.decisions ++ [(d.serial, r)] := by
  unfold keeping
  split <;> rfl

theorem Container.grows_keeping (c : Container) (d : Definition) (r : Resolution) :
    c.Grows (c.keeping d r) := by
  refine ⟨?_, c.decisions_keeping d r ▸ List.prefix_append _ _⟩
  unfold keeping
  split <;> exact List.prefix_rfl

namespace Watch

namespace Keeps

theorem suits_of_held (keeps : w.Keeps origin c) (held : c.singletons.get? name = some value) :
    w.Suits name value := by
  intro d e means named
  obtain ⟨k, owns, settled⟩ := keeps.settled d e means
  obtain ⟨type, tells, own⟩ := (Container.owns_instance named).mp owns
  refine ⟨k, ?_, settled⟩
  rw [(Container.tells_of_held held).mp tells, Option.bind_some, ← keeps.classOfType?, own]

theorem registerSingleton (keeps : w.Keeps origin c) (closed : w.Closed c)
    (suits : w.Suits name value) :
    w.Keeps origin { c with singletons := c.singletons.insert name value } where
  lawful := keeps.lawful.frame rfl rfl rfl rfl
  definitions := keeps.definitions
  classes := keeps.classes
  held other none := by
    rw [Registry.get?_insert] at none
    split at none
    · cases none
    · exact keeps.held other none
  remembered := keeps.remembered
  directed := keeps.directed
  settled d e means := by
    refine keeps.settled_of_step closed rfl rfl (fun d e factoryBean means named => ?_) means
    by_cases same : name = factoryBean
    · subst same
      obtain ⟨k, own, settled⟩ := suits d e means named
      obtain ⟨type, typed, listed⟩ := Option.bind_eq_some_iff.mp own
      refine .inr ⟨type, k, ?_, (keeps.classOfType? type).trans listed, settled⟩
      exact (Container.tells_of_held (Registry.get?_insert_self _ _ _)).mpr typed
    · refine .inl ⟨?_, fun _ _ => rfl⟩
      exact (Registry.get?_insert _ _ _ _).trans (if_neg same)

/-- What is told of a bean that is there does not hang on what is kept for its definition. What is told
of one that is not there is settled by the type that its creation is now known to give. -/
theorem keeping (keeps : w.Keeps origin c) (closed : w.Closed c)
    {r : Resolution} (member : d ∈ w.known) (lawful : (c.keeping d r).Lawful w.known)
    (static : d.factoryMethod.isSome = true → r.executable.isStatic = d.factoryBean.isNone)
    (tunes : w.Tunes (d.serial, r)) : w.Keeps origin (c.keeping d r) := by
  have own (named : d.factoryMethod.isSome = true) := c.factoryMethod?_keeping r named
  have other := c.factoryMethods_keeping d r
  refine ⟨lawful, keeps.definitions, keeps.classes, keeps.held, fun serial none => ?_,
    fun d' member' e remembered => ?_, fun d₀ e means => ?_⟩
  · rcases other serial with same | ⟨named, rfl⟩
    · exact keeps.remembered serial (same ▸ none)
    · cases (own named).symm.trans none
  · rcases other d'.serial with same | ⟨named, same⟩
    · exact keeps.directed d' member' e (same.symm.trans remembered)
    · cases keeps.lawful.eq_of_serial_eq member member' same
      cases (own named).symm.trans remembered
      exact static named
  · refine keeps.settled_of_step (m := c.keeping d r) closed rfl rfl ?_ means
    intro d₀ e factoryBean means behind
    cases held : c.singletons.get? factoryBean with
    | some value =>
      obtain ⟨k, typed, settled⟩ := keeps.suits_of_held held d₀ e means behind
      obtain ⟨type, typed, listed⟩ := Option.bind_eq_some_iff.mp typed
      refine .inr ⟨type, k, ?_, (keeps.classOfType? type).trans listed, settled⟩
      exact (Container.tells_of_held (c := c.keeping d r) held).mpr typed
    | none =>
      -- Only for the bean of the definition itself is anything else remembered than before.
      by_cases mine : d.factoryMethod.isSome = true ∧ c.definitions.get? factoryBean = some d
      · obtain ⟨named, registered⟩ := mine
        obtain ⟨k, listed, settled⟩ :=
          tunes d₀ e factoryBean d means behind (keeps.definitions ▸ registered) named rfl
        refine .inr ⟨r.executable.returnType, k, ?_, ?_, settled⟩
        · exact (Container.tells_of_remembered (c := c.keeping d r) held registered named
            (own named)).mpr rfl
        · exact (keeps.classOfType? _).trans listed
      · refine .inl ⟨held, fun d' registered => ?_⟩
        rcases other d'.serial with same | ⟨named, same⟩
        · exact same
        · have known := keeps.lawful.registered factoryBean d' registered
          cases keeps.lawful.eq_of_serial_eq member known same
          exact absurd ⟨named, registered⟩ mine

end Keeps

namespace Pair

theorem method (pair : w.Pair c c') (used : w.opening.Uses d) :
    c'.factoryMethod? d = c.factoryMethod? d ∨ ∃ e, w.Means d e ∧
      (c.factoryMethod? d = none ∨ c.factoryMethod? d = some e) ∧
      (c'.factoryMethod? d = none ∨ c'.factoryMethod? d = some e) :=
  (pair.methods d.serial).of_uses pair.plain used

theorem registerSingleton (opens : w.Opens) (pair : w.Pair c c') (suits : w.Suits name value) :
    w.Pair { c with singletons := c.singletons.insert name value }
      { c' with singletons := c'.singletons.insert name value } where
  same := by rw [pair.same]
  grown := pair.grown.trans ⟨List.prefix_rfl, List.prefix_rfl⟩
  plain := pair.plain.registerSingleton (pair.closed opens).1 suits
  asked := pair.asked.registerSingleton (pair.closed opens).2 suits
  methods := pair.methods

theorem keeping (opens : w.Opens) (pair : w.Pair c c') {r : Resolution} (member : d ∈ w.known)
    (lawful : (c.keeping d r).Lawful w.known) (lawful' : (c'.keeping d r).Lawful w.known)
    (static : d.factoryMethod.isSome = true → r.executable.isStatic = d.factoryBean.isNone)
    (tunes : w.Tunes (d.serial, r)) :
    w.Pair (c.keeping d r) (c'.keeping d r) where
  same := by
    unfold Container.keeping Container.withResolution
    rw [pair.same]
  grown := pair.grown.trans (c.grows_keeping d r)
  plain := pair.plain.keeping (pair.closed opens).1 member lawful static tunes
  asked := pair.asked.keeping (pair.closed opens).2 member lawful' static tunes
  methods serial := by
    unfold Container.keeping
    dsimp only
    split
    · rw [Registry.get?_insert, Registry.get?_insert]
      split
      · exact .refl serial _
      · exact pair.methods serial
    · exact pair.methods serial

end Pair

end Watch

end BeanWiring

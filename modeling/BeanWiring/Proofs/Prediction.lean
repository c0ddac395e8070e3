import BeanWiring.Proofs.Lawful
import BeanWiring.Proofs.Termination

/-!
What a container tells about types, apart from how it finds out. A prediction answers what the state
tells, and the factory methods it remembers are those that would be found again: remembering them
changes nothing of what the state tells.
-/
namespace BeanWiring

namespace Container

def ownerBy (c : Container) (typeOf : String → Option BeanType) (d : Definition) : Option BeanClass :=
  match d.factoryBean with
  | some factoryBean => (typeOf factoryBean).bind c.classOfType?
  | none => d.beanClass

def typeWithin (c : Container) : (steps : Nat) → String → Option BeanType
  | steps, name =>
    match c.singletons.get? name, c.definitions.get? name with
    | some bean, _ => bean.runtimeType
    | none, none => none
    | none, some d =>
      if d.factoryMethod.isSome && (c.factoryMethod? d).isNone then
        match steps with
        | 0 => none
        | steps + 1 =>
          ((c.ownerBy (c.typeWithin steps) d).bind (·.uniqueMethod? d d.factoryBean.isNone)).map
            (·.returnType)
      else c.knownType? d

def Tells (c : Container) (name : String) (type : BeanType) : Prop :=
  ∃ steps, c.typeWithin steps name = some type

def Owns (c : Container) (d : Definition) (k : BeanClass) : Prop :=
  ∃ steps, c.ownerBy (c.typeWithin steps) d = some k

def Finds (c : Container) (d : Definition) (e : Executable) : Prop :=
  ∃ k, c.Owns d k ∧ k.uniqueMethod? d d.factoryBean.isNone = some e

/-- The bean is told only by the factory method of its definition, which is not remembered. -/
structure Needs (c : Container) (name : String) (d : Definition) : Prop where
  absent : c.singletons.get? name = none
  registered : c.definitions.get? name = some d
  named : d.factoryMethod.isSome = true
  forgotten : c.factoryMethod? d = none

variable {c c' : Container} {name : String} {type type' : BeanType} {d : Definition} {steps : Nat}
  {k k' : BeanClass} {e e' : Executable}

theorem needs_iff (absent : c.singletons.get? name = none)
    (registered : c.definitions.get? name = some d) :
    (d.factoryMethod.isSome && (c.factoryMethod? d).isNone) = true ↔ c.Needs name d := by
  rw [Bool.and_eq_true, Option.isNone_iff_eq_none]
  exact ⟨fun ⟨named, forgotten⟩ => ⟨absent, registered, named, forgotten⟩,
    fun needs => ⟨needs.named, needs.forgotten⟩⟩

theorem typeWithin_of_needs (needs : c.Needs name d) :
    c.typeWithin (steps + 1) name =
      ((c.ownerBy (c.typeWithin steps) d).bind (·.uniqueMethod? d d.factoryBean.isNone)).map
        (·.returnType) := by
  conv => lhs; unfold typeWithin
  simp [needs.absent, needs.registered, needs.named, needs.forgotten]

theorem typeWithin_zero_of_needs (needs : c.Needs name d) : c.typeWithin 0 name = none := by
  unfold typeWithin
  simp [needs.absent, needs.registered, needs.named, needs.forgotten]

theorem typeWithin_of_not_needs (told : ∀ d, ¬c.Needs name d) :
    c.typeWithin steps name = c.typeWithin 0 name := by
  unfold typeWithin
  cases held : c.singletons.get? name with
  | some bean => rfl
  | none =>
    cases registered : c.definitions.get? name with
    | none => rfl
    | some d => simp only [if_neg fun untold => told d ((needs_iff held registered).mp untold)]

theorem typeWithin_succ (told : c.typeWithin steps name = some type) :
    c.typeWithin (steps + 1) name = some type := by
  induction steps generalizing name type with
  | zero =>
    by_cases needs : ∃ d, c.Needs name d
    · obtain ⟨d, needs⟩ := needs
      rw [typeWithin_zero_of_needs needs] at told
      cases told
    · rwa [typeWithin_of_not_needs (not_exists.mp needs)]
  | succ steps ih =>
    by_cases needs : ∃ d, c.Needs name d
    · obtain ⟨d, needs⟩ := needs
      rw [typeWithin_of_needs needs] at told ⊢
      cases behind : d.factoryBean with
      | none => simpa only [ownerBy, behind] using told
      | some factoryBean =>
        simp only [ownerBy, behind] at told ⊢
        cases step : c.typeWithin steps factoryBean with
        | none =>
          rw [step] at told
          cases told
        | some type =>
          rw [step] at told
          rwa [ih step]
    · rw [typeWithin_of_not_needs (not_exists.mp needs)] at told ⊢
      exact told

theorem typeWithin_mono (told : c.typeWithin steps name = some type) {more : Nat}
    (enough : steps ≤ more) : c.typeWithin more name = some type := by
  induction enough with
  | refl => exact told
  | step _ ih => exact typeWithin_succ ih

theorem Tells.unique (told : c.Tells name type) (told' : c.Tells name type') : type = type' := by
  obtain ⟨steps, told⟩ := told
  obtain ⟨steps', told'⟩ := told'
  have one := typeWithin_mono told (Nat.le_max_left steps steps')
  have other := typeWithin_mono told' (Nat.le_max_right steps steps')
  exact Option.some.inj (one.symm.trans other)

theorem owns_static (static : d.factoryBean = none) : c.Owns d k ↔ d.beanClass = some k := by
  unfold Owns ownerBy
  simp only [static, exists_const]

theorem owns_instance {factoryBean : String} (behind : d.factoryBean = some factoryBean) :
    c.Owns d k ↔ ∃ type, c.Tells factoryBean type ∧ c.classOfType? type = some k := by
  unfold Owns ownerBy Tells
  simp only [behind, Option.bind_eq_some_iff]
  constructor
  · rintro ⟨steps, type, told, listed⟩
    exact ⟨type, ⟨steps, told⟩, listed⟩
  · rintro ⟨type, ⟨steps, told⟩, listed⟩
    exact ⟨steps, type, told, listed⟩

theorem Owns.unique (owns : c.Owns d k) (owns' : c.Owns d k') : k = k' := by
  cases behind : d.factoryBean with
  | none =>
    rw [owns_static behind] at owns owns'
    exact Option.some.inj (owns.symm.trans owns')
  | some factoryBean =>
    obtain ⟨type, told, listed⟩ := (owns_instance behind).mp owns
    obtain ⟨type', told', listed'⟩ := (owns_instance behind).mp owns'
    rw [told.unique told'] at listed
    exact Option.some.inj (listed.symm.trans listed')

theorem Finds.unique (finds : c.Finds d e) (finds' : c.Finds d e') : e = e' := by
  obtain ⟨k, owns, listed⟩ := finds
  obtain ⟨k', owns', listed'⟩ := finds'
  rw [owns.unique owns'] at listed
  exact Option.some.inj (listed.symm.trans listed')

theorem Finds.opens (finds : c.Finds d e) : d.Opens e := by
  obtain ⟨k, owns, listed⟩ := finds
  refine BeanClass.opens_of_mem_overloads (BeanClass.mem_of_uniqueMethod? listed) fun static => ?_
  exact ⟨(owns_static static).mp owns, by rw [static]; rfl⟩

theorem Finds.named (finds : c.Finds d e) : d.factoryMethod.isSome = true := finds.opens.named

theorem exists_of_typeWithin (needs : c.Needs name d) (told : c.typeWithin steps name = some type) :
    ∃ e less k, (less < steps ∧ c.ownerBy (c.typeWithin less) d = some k) ∧
      k.uniqueMethod? d d.factoryBean.isNone = some e ∧ e.returnType = type := by
  cases steps with
  | zero =>
    rw [typeWithin_zero_of_needs needs] at told
    cases told
  | succ less =>
    rw [typeWithin_of_needs needs, Option.map_eq_some_iff] at told
    obtain ⟨e, found, returns⟩ := told
    obtain ⟨k, owned, listed⟩ := Option.bind_eq_some_iff.mp found
    exact ⟨e, less, k, ⟨Nat.lt_succ_self less, owned⟩, listed, returns⟩

theorem tells_of_needs (needs : c.Needs name d) :
    c.Tells name type ↔ ∃ e, c.Finds d e ∧ e.returnType = type := by
  constructor
  · rintro ⟨steps, told⟩
    obtain ⟨e, less, k, ⟨-, owned⟩, listed, returns⟩ := exists_of_typeWithin needs told
    exact ⟨e, ⟨k, ⟨less, owned⟩, listed⟩, returns⟩
  · rintro ⟨e, ⟨k, ⟨steps, owned⟩, listed⟩, returns⟩
    refine ⟨steps + 1, ?_⟩
    rw [typeWithin_of_needs needs, owned, Option.bind_some, listed, Option.map_some, returns]

theorem tells_of_not_needs (told : ∀ d, ¬c.Needs name d) :
    c.Tells name type ↔ c.typeWithin 0 name = some type := by
  unfold Tells
  constructor
  · rintro ⟨steps, within⟩
    rwa [typeWithin_of_not_needs told] at within
  · exact fun within => ⟨0, within⟩

theorem tells_of_held {bean : Value} (held : c.singletons.get? name = some bean) :
    c.Tells name type ↔ bean.runtimeType = some type := by
  rw [tells_of_not_needs fun d needs => absurd (needs.absent.symm.trans held) nofun]
  unfold typeWithin
  simp only [held]

theorem tells_of_unregistered (absent : c.singletons.get? name = none)
    (unregistered : c.definitions.get? name = none) : ¬c.Tells name type := by
  rw [tells_of_not_needs fun d needs => absurd (needs.registered.symm.trans unregistered) nofun]
  unfold typeWithin
  simp [absent, unregistered]

theorem tells_of_known (absent : c.singletons.get? name = none)
    (registered : c.definitions.get? name = some d)
    (known : d.factoryMethod.isSome = true → c.factoryMethod? d ≠ none) :
    c.Tells name type ↔ c.knownType? d = some type := by
  have told : ¬(d.factoryMethod.isSome && (c.factoryMethod? d).isNone) = true := by
    rw [needs_iff absent registered]
    exact fun needs => known needs.named needs.forgotten
  rw [tells_of_not_needs]
  · unfold typeWithin
    simp only [absent, registered, if_neg told]
  · intro other needs
    cases registered.symm.trans needs.registered
    exact known needs.named needs.forgotten

theorem tells_of_remembered (absent : c.singletons.get? name = none)
    (registered : c.definitions.get? name = some d) (named : d.factoryMethod.isSome = true)
    (remembered : c.factoryMethod? d = some e) : c.Tells name type ↔ e.returnType = type := by
  rw [tells_of_known absent registered fun _ => by rw [remembered]; nofun]
  unfold knownType?
  rw [if_pos named, remembered, Option.map_some, Option.some.injEq]

theorem tells_of_unchanged (definitions : c'.definitions = c.definitions)
    (held : c'.singletons.get? name = c.singletons.get? name)
    (remembered : ∀ d, c.definitions.get? name = some d → c'.factoryMethod? d = c.factoryMethod? d)
    (finds : ∀ d e fewer k, fewer < steps → c.Needs name d → c.ownerBy (c.typeWithin fewer) d = some k →
      k.uniqueMethod? d d.factoryBean.isNone = some e → c'.Finds d e)
    (told : c.typeWithin steps name = some type) : c'.Tells name type := by
  have tells : c.Tells name type := ⟨steps, told⟩
  cases there : c.singletons.get? name with
  | some bean =>
    rw [tells_of_held there] at tells
    exact (tells_of_held (held.trans there)).mpr tells
  | none =>
    have absent := held.trans there
    cases registered : c.definitions.get? name with
    | none => exact absurd tells (tells_of_unregistered there registered)
    | some d =>
      have registered' : c'.definitions.get? name = some d := by rw [definitions, registered]
      have same := remembered d registered
      by_cases needs : c.Needs name d
      · obtain ⟨e, fewer, k, ⟨less, owned⟩, lists, returns⟩ := exists_of_typeWithin needs told
        refine (tells_of_needs ⟨absent, registered', needs.named, same.trans needs.forgotten⟩).mpr ?_
        exact ⟨e, finds d e fewer k less needs owned lists, returns⟩
      · have known : d.factoryMethod.isSome = true → c.factoryMethod? d ≠ none :=
          fun named forgotten => needs ⟨there, registered, named, forgotten⟩
        rw [tells_of_known there registered known] at tells
        rw [tells_of_known absent registered' (by rwa [same])]
        unfold knownType? at tells ⊢
        rwa [same]

/-- The second container tells what the first one does. It knows the same, and where only one of them
remembers a factory method, the other finds that method. -/
structure Matches (c c' : Container) : Prop where
  definitions : c'.definitions = c.definitions
  singletons : c'.singletons = c.singletons
  classes : c'.classes = c.classes
  methods : ∀ name d, c.definitions.get? name = some d →
    c'.factoryMethod? d = c.factoryMethod? d ∨
    (c.factoryMethod? d = none ∧ ∃ e, c'.factoryMethod? d = some e ∧ c.Finds d e) ∨
    (c'.factoryMethod? d = none ∧ ∃ e, c.factoryMethod? d = some e ∧ c'.Finds d e)

namespace Matches

theorem classOfType? (agree : c.Matches c') : c'.classOfType? = c.classOfType? := by
  funext type
  unfold Container.classOfType?
  rw [agree.classes]

theorem tells_of_remembered (agree : c.Matches c') (absent : c.singletons.get? name = none)
    (registered : c.definitions.get? name = some d) (named : d.factoryMethod.isSome = true)
    (remembered : c.factoryMethod? d = some e) : c'.Tells name e.returnType := by
  have absent' : c'.singletons.get? name = none := by rw [agree.singletons, absent]
  have registered' : c'.definitions.get? name = some d := by rw [agree.definitions, registered]
  rcases agree.methods name d registered with equal | ⟨none, -⟩ | ⟨forgotten, e', own, finds⟩
  · exact (Container.tells_of_remembered absent' registered' named (equal.trans remembered)).mpr rfl
  · cases remembered.symm.trans none
  · cases remembered.symm.trans own
    exact (tells_of_needs ⟨absent', registered', named, forgotten⟩).mpr ⟨e, finds, rfl⟩

theorem tells_of_finds (agree : c.Matches c') (needs : c.Needs name d) (finds : c.Finds d e)
    (found : c'.Finds d e) : c'.Tells name e.returnType := by
  have absent : c'.singletons.get? name = none := by rw [agree.singletons, needs.absent]
  have registered : c'.definitions.get? name = some d := by
    rw [agree.definitions, needs.registered]
  rcases agree.methods name d needs.registered with equal | ⟨-, e', own, finds'⟩ | ⟨-, e', own, -⟩
  · have forgotten := equal.trans needs.forgotten
    exact (tells_of_needs ⟨absent, registered, needs.named, forgotten⟩).mpr ⟨e, found, rfl⟩
  · cases finds.unique finds'
    exact (Container.tells_of_remembered absent registered needs.named own).mpr rfl
  · cases needs.forgotten.symm.trans own

/-- What is told with the help of what is found for the factory bean, by induction on the steps. -/
theorem tells (agree : c.Matches c') (told : c.Tells name type) : c'.Tells name type := by
  obtain ⟨steps, told⟩ := told
  induction steps using Nat.strongRecOn generalizing name type with
  | ind steps ih =>
    cases held : c.singletons.get? name with
    | some bean =>
      have held' : c'.singletons.get? name = some bean := by rw [agree.singletons, held]
      exact (tells_of_held held').mpr ((tells_of_held held).mp ⟨steps, told⟩)
    | none =>
      have absent : c'.singletons.get? name = none := by rw [agree.singletons, held]
      cases registered : c.definitions.get? name with
      | none => exact absurd ⟨steps, told⟩ (tells_of_unregistered held registered)
      | some d =>
        have registered' : c'.definitions.get? name = some d := by rw [agree.definitions, registered]
        cases named : d.factoryMethod.isSome with
        | false =>
          have plain (m : Container) : d.factoryMethod.isSome = true → m.factoryMethod? d ≠ none :=
            fun some => absurd (named.symm.trans some) nofun
          have known := (tells_of_known held registered (plain c)).mp ⟨steps, told⟩
          refine (tells_of_known absent registered' (plain c')).mpr ?_
          simpa [knownType?, named] using known
        | true =>
          cases remembered : c.factoryMethod? d with
          | some e =>
            obtain rfl :=
              (Container.tells_of_remembered held registered named remembered).mp ⟨steps, told⟩
            exact agree.tells_of_remembered held registered named remembered
          | none =>
            have needs : c.Needs name d := ⟨held, registered, named, remembered⟩
            obtain ⟨e, less, k, ⟨fewer, owned⟩, listed, rfl⟩ := exists_of_typeWithin needs told
            have owns : c'.Owns d k := by
              cases behind : d.factoryBean with
              | none => exact (owns_static behind).mpr ((owns_static behind).mp ⟨less, owned⟩)
              | some factoryBean =>
                simp only [ownerBy, behind, Option.bind_eq_some_iff] at owned
                obtain ⟨type, told, listed⟩ := owned
                refine (owns_instance behind).mpr ⟨type, ih less fewer told, ?_⟩
                rw [agree.classOfType?, listed]
            exact agree.tells_of_finds needs ⟨k, ⟨less, owned⟩, listed⟩ ⟨k, owns, listed⟩

theorem owns (agree : c.Matches c') (owned : c.Owns d k) : c'.Owns d k := by
  cases behind : d.factoryBean with
  | none => exact (owns_static behind).mpr ((owns_static behind).mp owned)
  | some factoryBean =>
    obtain ⟨type, told, listed⟩ := (owns_instance behind).mp owned
    exact (owns_instance behind).mpr ⟨type, agree.tells told, by rw [agree.classOfType?, listed]⟩

theorem finds (agree : c.Matches c') (found : c.Finds d e) : c'.Finds d e :=
  found.imp fun _ => And.imp_left agree.owns

theorem of_finds (definitions : c'.definitions = c.definitions)
    (singletons : c'.singletons = c.singletons)
    (classes : c'.classes = c.classes)
    (methods : ∀ name d, c.definitions.get? name = some d → c'.factoryMethod? d = c.factoryMethod? d ∨
      ∃ e, c.Finds d e ∧ c'.Finds d e ∧ (c.factoryMethod? d = none ∨ c.factoryMethod? d = some e) ∧
        (c'.factoryMethod? d = none ∨ c'.factoryMethod? d = some e)) : c.Matches c' := by
  refine ⟨definitions, singletons, classes, fun name d registered => ?_⟩
  rcases methods name d registered with same | ⟨e, finds, finds', none | own, none' | own'⟩
  · exact .inl same
  · exact .inl (none'.trans none.symm)
  · exact .inr (.inl ⟨none, e, own', finds⟩)
  · exact .inr (.inr ⟨none', e, own, finds'⟩)
  · exact .inl (own'.trans own.symm)

end Matches

/-- The second container remembers more factory methods, each found in the first for a definition
with `P`. -/
structure Fills (P : Definition → Prop) (c c' : Container) : Prop where
  rest : c' = { c with factoryMethods := c'.factoryMethods }
  methods : ∀ serial, c'.factoryMethods.get? serial = c.factoryMethods.get? serial ∨
    ∃ name d e, c.definitions.get? name = some d ∧ d.serial = serial ∧ P d ∧
      c.factoryMethod? d = none ∧ c.Finds d e ∧ c'.factoryMethod? d = some e

namespace Fills

variable {P : Definition → Prop} {known : List Definition}

theorem refl (P : Definition → Prop) (c : Container) : c.Fills P c := ⟨rfl, fun _ => .inl rfl⟩

theorem method (fills : c.Fills P c') (sound : c.Sound known)
    (registered : c.definitions.get? name = some d) :
    c'.factoryMethod? d = c.factoryMethod? d ∨
      P d ∧ c.factoryMethod? d = none ∧ ∃ e, c'.factoryMethod? d = some e ∧ c.Finds d e := by
  rcases fills.methods d.serial with same | ⟨other, d', e, found, serial, holds, none, finds, own⟩
  · exact .inl same
  · have equal := sound.eq_of_serial_eq (sound.registered other d' found)
      (sound.registered name d registered) serial
    subst equal
    exact .inr ⟨holds, none, e, own, finds⟩

theorem agree (fills : c.Fills P c') (sound : c.Sound known) : c.Matches c' ∧ c'.Matches c := by
  have definitions : c'.definitions = c.definitions := by rw [fills.rest]
  have singletons : c'.singletons = c.singletons := by rw [fills.rest]
  have classes : c'.classes = c.classes := by rw [fills.rest]
  refine ⟨⟨definitions, singletons, classes, fun name d registered => ?_⟩,
    ⟨definitions.symm, singletons.symm, classes.symm, fun name d registered => ?_⟩⟩
  · exact (fills.method sound registered).imp_right fun filled => .inl filled.2
  · rw [definitions] at registered
    rcases fills.method sound registered with same | filled
    · exact .inl same.symm
    · exact .inr (.inr filled.2)

theorem tells_iff (fills : c.Fills P c') (sound : c.Sound known) :
    c'.Tells name type ↔ c.Tells name type :=
  ⟨(fills.agree sound).2.tells, (fills.agree sound).1.tells⟩

theorem finds_iff (fills : c.Fills P c') (sound : c.Sound known) : c'.Finds d e ↔ c.Finds d e :=
  ⟨(fills.agree sound).2.finds, (fills.agree sound).1.finds⟩

theorem owns_iff (fills : c.Fills P c') (sound : c.Sound known) : c'.Owns d k ↔ c.Owns d k :=
  ⟨(fills.agree sound).2.owns, (fills.agree sound).1.owns⟩

theorem sound (fills : c.Fills P c') (sound : c.Sound known) : c'.Sound known := by
  rw [fills.rest]
  exact sound.frame rfl rfl rfl

theorem remember (fills : c.Fills P c') (registered : c.definitions.get? name = some d) (holds : P d)
    (forgotten : c.factoryMethod? d = none) (finds : c.Finds d e) :
    c.Fills P { c' with factoryMethods := c'.factoryMethods.insert d.serial e } where
  rest := by rw [fills.rest]
  methods serial := by
    rw [Registry.get?_insert]
    split
    · rename_i same
      refine .inr ⟨name, d, e, registered, same, holds, forgotten, finds, ?_⟩
      exact Registry.get?_insert_self _ _ _
    · refine (fills.methods serial).imp_right ?_
      rintro ⟨other, d', e', found, same, holds', none, finds', own⟩
      refine ⟨other, d', e', found, same, holds', none, finds', ?_⟩
      unfold Container.factoryMethod?
      rwa [Registry.get?_insert, if_neg (by rwa [same])]

end Fills

/-- The type of the first bean is told by way of the second, in more steps. -/
def Leads (c : Container) (first second : String) : Prop :=
  ∀ steps type, c.typeWithin steps first = some type →
    ∃ fewer type, fewer < steps ∧ c.typeWithin fewer second = some type

theorem Leads.not_tells (leads : c.Leads name name) : ¬c.Tells name type := by
  rintro ⟨steps, told⟩
  induction steps using Nat.strongRecOn generalizing type with
  | ind steps ih =>
    obtain ⟨fewer, other, less, told⟩ := leads steps type told
    exact ih fewer less told

theorem Needs.leads (needs : c.Needs name d) {factoryBean : String}
    (behind : d.factoryBean = some factoryBean) : c.Leads name factoryBean := by
  intro steps type told
  obtain ⟨e, fewer, k, ⟨less, owned⟩, -, -⟩ := exists_of_typeWithin needs told
  simp only [ownerBy, behind, Option.bind_eq_some_iff] at owned
  obtain ⟨type, told, -⟩ := owned
  exact ⟨fewer, type, less, told⟩

theorem Leads.trans {first second third : String} (leads : c.Leads first second)
    (further : c.Leads second third) : c.Leads first third := by
  intro steps type told
  obtain ⟨fewer, type, less, told⟩ := leads steps type told
  obtain ⟨fewest, type, lesser, told⟩ := further fewer type told
  exact ⟨fewest, type, Nat.lt_trans lesser less, told⟩

end Container

namespace Work

variable {P : Definition → Prop} {c : Container} {known : List Definition} {name : String}
  {d : Definition} {α : Type}

def Predicts (P : Definition → Prop) (c : Container) (x : Work (Option α)) (Q : α → Prop) : Prop :=
  c.Fills P (x.run c).2 ∧ ∀ a, (x.run c).1 = some a ↔ Q a

theorem Predicts.of_run {x : Work (Option α)} {a : Option α} {Q : α → Prop}
    (run : x.run c = (a, c)) (holds : ∀ b, a = some b ↔ Q b) : Predicts P c x Q := by
  unfold Predicts
  rw [run]
  exact ⟨.refl P c, holds⟩

theorem Predicts.of_nothing {x : Work (Option α)} {Q : α → Prop} (run : x.run c = (none, c))
    (never : ∀ a, ¬Q a) : Predicts P c x Q :=
  .of_run run fun a => ⟨nofun, fun holds => absurd holds (never a)⟩

theorem classOfPredicted_predicts {predict : String → Work (Option BeanType)}
    (predicts : Predicts P c (predict name) (c.Tells name)) :
    Predicts P c (classOfPredicted predict name)
      fun k => ∃ type, c.Tells name type ∧ c.classOfType? type = some k := by
  obtain ⟨fills, told⟩ := predicts
  unfold Predicts classOfPredicted
  rw [run_bind]
  cases answer : ((predict name).run c).1 with
  | none =>
    rw [answer] at told
    refine ⟨fills, fun k => ⟨nofun, ?_⟩⟩
    rintro ⟨type, tells, -⟩
    cases (told type).mpr tells
  | some type =>
    have tells := (told type).mp answer
    have listed : ((predict name).run c).2.classOfType? type = c.classOfType? type := by
      rw [fills.rest]
      rfl
    refine ⟨fills, fun k => ?_⟩
    change ((predict name).run c).2.classOfType? type = some k ↔ _
    rw [listed]
    refine ⟨fun own => ⟨type, tells, own⟩, ?_⟩
    rintro ⟨other, tells', own⟩
    rwa [tells.unique tells']

theorem methodOwner_predicts {classOf : String → Work (Option BeanClass)}
    (classes : ∀ factoryBean, d.factoryBean = some factoryBean → Predicts P c (classOf factoryBean)
      fun k => ∃ type, c.Tells factoryBean type ∧ c.classOfType? type = some k) :
    c.Fills P ((methodOwner classOf d).run c).2 ∧
    (∀ k, ((methodOwner classOf d).run c).1.1 = some k ↔ c.Owns d k) ∧
    ((methodOwner classOf d).run c).1.2 = d.factoryBean.isNone := by
  unfold methodOwner
  cases behind : d.factoryBean with
  | none => exact ⟨.refl P c, fun k => (Container.owns_static behind).symm, rfl⟩
  | some factoryBean =>
    obtain ⟨fills, told⟩ := classes factoryBean behind
    exact ⟨fills, fun k => (told k).trans (Container.owns_instance behind).symm, rfl⟩

theorem findMethod_finds {classOf : String → Work (Option BeanClass)}
    (classes : ∀ factoryBean, d.factoryBean = some factoryBean → Predicts P c (classOf factoryBean)
      fun k => ∃ type, c.Tells factoryBean type ∧ c.classOfType? type = some k) :
    (∀ e, ((findMethod classOf d).run c).1 = some e ↔ c.Finds d e) ∧
    ∃ m, c.Fills P m ∧
      ((findMethod classOf d).run c).2 = match ((findMethod classOf d).run c).1 with
        | some e => { m with factoryMethods := m.factoryMethods.insert d.serial e }
        | none => m := by
  obtain ⟨fills, owned, static⟩ := methodOwner_predicts classes
  unfold findMethod
  rw [run_bind]
  generalize (methodOwner classOf d).run c = result at fills owned static
  obtain ⟨⟨owner, isStatic⟩, m⟩ := result
  subst static
  have finds (e : Executable) :
      owner.bind (·.uniqueMethod? d d.factoryBean.isNone) = some e ↔ c.Finds d e := by
    rw [Option.bind_eq_some_iff]
    exact exists_congr fun k => and_congr_left fun _ => owned k
  dsimp only
  generalize owner.bind (·.uniqueMethod? d d.factoryBean.isNone) = found at finds
  cases found with
  | none => exact ⟨finds, m, fills, rfl⟩
  | some method => exact ⟨finds, m, fills, rfl⟩

theorem findMethod_predicts (registered : c.definitions.get? name = some d) (holds : P d)
    (forgotten : c.factoryMethod? d = none) {classOf : String → Work (Option BeanClass)}
    (classes : ∀ factoryBean, d.factoryBean = some factoryBean → Predicts P c (classOf factoryBean)
      fun k => ∃ type, c.Tells factoryBean type ∧ c.classOfType? type = some k) :
    Predicts P c (findMethod classOf d) (c.Finds d) ∧
      ∀ e, c.Finds d e → ((findMethod classOf d).run c).2.factoryMethod? d = some e := by
  obtain ⟨finds, m, fills, state⟩ := findMethod_finds classes
  unfold Predicts
  rw [state]
  cases found : ((findMethod classOf d).run c).1 with
  | none =>
    have never (e : Executable) : ¬c.Finds d e := fun own =>
      absurd (found.symm.trans ((finds e).mpr own)) nofun
    exact ⟨⟨fills, found ▸ finds⟩, fun e own => absurd own (never e)⟩
  | some method =>
    have own := (finds method).mp found
    refine ⟨⟨fills.remember registered holds forgotten own, found ▸ finds⟩, fun e own' => ?_⟩
    rw [← own.unique own']
    exact Registry.get?_insert_self _ _ _

theorem predictBy_of_not_needs (search : Definition → Work (Option BeanType))
    (told : ∀ d, ¬c.Needs name d) : (predictBy search name).run c = (c.typeWithin 0 name, c) := by
  unfold predictBy Container.typeWithin
  rw [run_bind, show (get : Work Container).run c = (c, c) from rfl]
  cases held : c.singletons.get? name with
  | some bean => rfl
  | none =>
    cases registered : c.definitions.get? name with
    | none => rfl
    | some d =>
      simp only [if_neg fun untold => told d ((Container.needs_iff held registered).mp untold)]
      rfl

theorem predictBy_of_needs (search : Definition → Work (Option BeanType))
    (needs : c.Needs name d) : (predictBy search name).run c = (search d).run c := by
  have forgotten := (Container.needs_iff needs.absent needs.registered).mpr needs
  unfold predictBy
  rw [run_bind, show (get : Work Container).run c = (c, c) from rfl]
  simp only [needs.absent, needs.registered, if_pos forgotten]

theorem predictWithin_of_not_needs (told : ∀ d, ¬c.Needs name d) (steps : Nat) (busy : List String) :
    (predictWithin steps busy name).run c = (c.typeWithin 0 name, c) := by
  cases steps <;> exact predictBy_of_not_needs _ told

theorem predictWithin_of_needs (needs : c.Needs name d) (steps : Nat) {busy : List String}
    (free : name ∉ busy) :
    (predictWithin (steps + 1) busy name).run c =
      let m := ((findMethod (classOfPredicted (predictWithin steps (name :: busy))) d).run c).2
      (m.knownType? d, m) := by
  have apart : ¬busy.contains name = true := fun member => free (List.contains_iff_mem.mp member)
  rw [predictWithin, predictBy_of_needs _ needs, if_neg apart]
  rfl

theorem predictWithin_of_busy (needs : c.Needs name d) (steps : Nat) {busy : List String}
    (entered : name ∈ busy) : (predictWithin steps busy name).run c = (none, c) := by
  cases steps with
  | zero => exact predictBy_of_needs _ needs
  | succ steps =>
    rw [predictWithin, predictBy_of_needs _ needs, if_pos (List.contains_iff_mem.mpr entered)]
    rfl

/-- A prediction tells what the state tells. The definitions it looks into have `P` if that of the bean
has it and, with a definition, that of its factory bean; the beans being predicted lead to this one. -/
theorem predictWithin_predicts (sound : c.Sound known)
    (behind : ∀ d factoryBean d', P d → d.factoryBean = some factoryBean → c.Needs factoryBean d' → P d')
    {steps : Nat} {busy : List String} (start : ∀ d, c.Needs name d → P d)
    (enough : (c.definitions.keys.filter (· ∉ busy)).length ≤ steps)
    (leads : ∀ other ∈ busy, c.Leads other name) :
    Predicts P c (predictWithin steps busy name) (c.Tells name) := by
  induction steps generalizing busy name with
  | zero =>
    by_cases needs : ∃ d, c.Needs name d
    · obtain ⟨d, needs⟩ := needs
      -- There are no steps left, so all that is defined is being predicted.
      have entered : name ∈ busy := by
        by_contra free
        exact absurd (unpredicted_cons needs.registered free) (by omega)
      refine .of_nothing (predictWithin_of_busy needs 0 entered) ?_
      exact fun type => (leads name entered).not_tells
    · have told := not_exists.mp needs
      refine .of_run (predictWithin_of_not_needs told 0 busy) ?_
      exact fun type => (Container.tells_of_not_needs told).symm
  | succ steps ih =>
    by_cases needs : ∃ d, c.Needs name d
    · obtain ⟨d, needs⟩ := needs
      by_cases entered : name ∈ busy
      · refine .of_nothing (predictWithin_of_busy needs _ entered) ?_
        exact fun type => (leads name entered).not_tells
      · unfold Predicts
        rw [predictWithin_of_needs needs steps entered]
        dsimp only
        have fewer := unpredicted_cons needs.registered entered
        have holds := start d needs
        have classes : ∀ factoryBean, d.factoryBean = some factoryBean →
            Predicts P c (classOfPredicted (predictWithin steps (name :: busy)) factoryBean)
              fun k => ∃ type, c.Tells factoryBean type ∧ c.classOfType? type = some k := by
          intro factoryBean named
          refine classOfPredicted_predicts (ih (fun d' => behind d factoryBean d' holds named) ?_ ?_)
          · omega
          · intro other member
            rcases List.mem_cons.mp member with rfl | member
            · exact needs.leads named
            · exact (leads other member).trans (needs.leads named)
        obtain ⟨⟨fills, -⟩, own⟩ :=
          findMethod_predicts needs.registered holds needs.forgotten classes
        refine ⟨fills, fun type => ?_⟩
        rw [Container.tells_of_needs needs]
        unfold Container.knownType?
        rw [if_pos needs.named, Option.map_eq_some_iff]
        constructor
        · rintro ⟨e, remembered, returns⟩
          refine ⟨e, ?_, returns⟩
          rcases fills.method sound needs.registered with same | ⟨-, -, e', own', finds⟩
          · rw [remembered, needs.forgotten] at same
            cases same
          · cases own'.symm.trans remembered
            exact finds
        · rintro ⟨e, finds, returns⟩
          exact ⟨e, own e finds, returns⟩
    · have told := not_exists.mp needs
      refine .of_run (predictWithin_of_not_needs told _ busy) ?_
      exact fun type => (Container.tells_of_not_needs told).symm

theorem predict_predicts (sound : c.Sound known) (name : String) :
    Predicts (fun _ => True) c (predict name) (c.Tells name) := by
  refine predictWithin_predicts sound (fun _ _ _ _ _ _ => trivial) (fun _ _ => trivial) ?_ nofun
  exact Nat.le_trans (List.length_filter_le _ _) (Nat.le_of_eq (List.length_map _))

theorem introspect_finds (sound : c.Sound known) (d : Definition) :
    (∀ k, ((methodOwner classOfBean d).run c).1.1 = some k ↔ c.Owns d k) ∧
    (∀ e, ((introspect d).run c).1 = some e ↔ c.Finds d e) ∧
    ∃ m, c.Fills (fun _ => True) m ∧
      ((introspect d).run c).2 = match ((introspect d).run c).1 with
        | some e => { m with factoryMethods := m.factoryMethods.insert d.serial e }
        | none => m := by
  have classes (factoryBean : String) (_ : d.factoryBean = some factoryBean) :
      Predicts (fun _ => True) c (classOfBean factoryBean) _ :=
    classOfPredicted_predicts (predict_predicts sound factoryBean)
  exact ⟨(methodOwner_predicts classes).2.1, findMethod_finds classes⟩

end Work

end BeanWiring

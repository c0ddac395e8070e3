import BeanWiring.Proofs.Reentry

/-!
Obtaining a bean by its name. However it is asked for, it comes down to fetching it, so a bean with a
singleton definition is registered once it has been obtained.
-/
namespace BeanWiring

/-- The ways in which a bean is asked for by its name, with what comes of it: it is fetched, perhaps
with arguments, by its type, for a reference, and for a parameter that it alone fits. What comes of
it for a parameter that several beans fit, or for a factory bean, is told for success only. -/
inductive Obtains (name : String) (c : Container) : Except BeanError Value → Container → Prop
  | fetched {room : Nat} {ctx : Context} {explicit : Option (List Value)}
      {r : Except BeanError Value} {c' : Container} :
      (Attempt.fetch (createWithin .full room) ctx name explicit).run.run c = (r, c') →
      Obtains name c r c'
  | byType {type : BeanType} {r : Except BeanError Value} {m c' : Container} :
      (Work.chooseByType type).run c = (.ok name, m) →
      (Attempt.beanOfType type).run.run c = (r, c') → Obtains name c r c'
  | referred {room : Nat} {ctx : Context} {bean noun : String} {r : Except BeanError Value}
      {c' : Container} :
      (Attempt.resolveDeclared (createWithin .full room) ctx bean noun (.reference name)).run.run c =
        (r, c') → Obtains name c r c'
  | alone {room : Nat} {ctx : Context} {point : InjectionPoint} {requester : String}
      {required : Bool} {names : List String} {r : Except BeanError Value} {m c' : Container} :
      (Work.choose point requester required).run c = (.ok (.one name), m) →
      (Work.resolveDependency (Attempt.fetcher (createWithin .full room) ctx) point requester
        required).run c = (⟨names, r⟩, c') → Obtains name c r c'
  | among {room : Nat} {ctx : Context} {point : InjectionPoint} {requester : String}
      {required : Bool} {names : List String} {beans : List Value} {i : Nat} {v : Value}
      {m c' : Container} :
      (Work.choose point requester required).run c = (.ok (.all names), m) →
      (names.mapM (Attempt.fetcher (createWithin .full room) ctx)).run.run m = (.ok beans, c') →
      names[i]? = some name → beans[i]? = some v → Obtains name c (.ok v) c'
  | factoryBean {n : Creation} {room : Nat} {beanClass : BeanClass} {v : Value} {c' : Container} :
      n.create = createWithin .full room → n.definition.factoryBean = some name →
      n.factoryTarget.run.run c = (.ok (some v, beanClass), c') → Obtains name c (.ok v) c'

variable {known : List Definition} {name : String} {d : Definition} {v : Value}
  {c c' : Container} {room : Nat} {ctx : Context} {explicit : Option (List Value)}

theorem Attempt.registered_of_fetch {create : Creator} (defined : c.definitions.get? name = some d)
    (singleton : d.scope = .singleton)
    (run : (fetch create ctx name explicit).run.run c = (.ok v, c')) :
    c'.singletons.get? name = some v := by
  unfold fetch at run
  rw [run_get_bind] at run
  split at run
  · rename_i bean held
    obtain ⟨rfl, rfl⟩ := run_pure_eq_ok.mp run
    split at held
    · exact held
    · cases held
  · rw [defined] at run
    dsimp only at run
    rw [singleton] at run
    cases held : c.singletons.get? name with
    | some bean =>
      rw [held] at run
      obtain ⟨rfl, rfl⟩ := run_pure_eq_ok.mp run
      exact held
    | none =>
      rw [held] at run
      obtain ⟨bean, m, -, rest⟩ := run_bind_eq_ok.mp run
      rw [run_bind_lift] at rest
      obtain ⟨rfl, rfl⟩ := run_pure_eq_ok.mp rest
      exact Registry.get?_insert_self _ _ _

theorem Attempt.fetch_eq_creation {create : Creator} (defined : c.definitions.get? name = some d)
    (singleton : d.scope = .singleton) (absent : c.singletons.get? name = none) :
    (fetch create ctx name explicit).run.run c = (do
      let bean ← create ctx name d explicit
      Work.registerSingleton name bean
      pure bean : Attempt Value).run.run c := by
  unfold fetch
  rw [run_get_bind, absent, defined]
  dsimp only
  rw [singleton]
  cases explicit <;> rfl

theorem Attempt.run_beanOfType {type : BeanType} {m : Container}
    (chosen : (Work.chooseByType type).run c = (.ok name, m)) :
    (beanOfType type).run.run c = (fetch (createWithin .full m.settings.maxDepth.toNat)
      (.new m.settings.maxDepth.toNat) name none).run.run m := by
  have first : (ExceptT.mk (Work.chooseByType type) : Attempt String).run.run c = (.ok name, m) :=
    chosen
  have placed : (context ⟨none, []⟩).run.run m = (.ok (.new m.settings.maxDepth.toNat), m) := rfl
  unfold beanOfType
  rw [run_bind_of_ok first]
  unfold bean
  rw [run_bind_of_ok placed]
  rfl

theorem Attempt.fetch_of_reference {create : Creator} {bean noun : String}
    {r : Except BeanError Value}
    (run : (resolveDeclared create ctx bean noun (.reference name)).run.run c = (r, c')) :
    ∃ m, (fetch create ctx name none).run.run
        { c with events := c.events ++ [.resolvingReference bean name noun] } = (r, m) ∧
      c'.singletons = m.singletons := by
  unfold resolveDeclared at run
  rw [run_bind_lift] at run
  obtain ⟨fetched, m, ran⟩ : ∃ fetched m, (fetch create ctx name none).run.run
    { c with events := c.events ++ [.resolvingReference bean name noun] } = (fetched, m) := ⟨_, _, rfl⟩
  change ((fetch create ctx name none >>= _ : Attempt Value).run.run
    { c with events := c.events ++ [.resolvingReference bean name noun] }) = _ at run
  cases fetched with
  | error e =>
    rw [run_bind_of_error ran] at run
    cases run
    exact ⟨_, ran, rfl⟩
  | ok value =>
    rw [run_bind_of_ok ran, run_bind_lift] at run
    cases run
    exact ⟨m, ran, rfl⟩

theorem Work.fetch_of_dependency {fetch : String → Attempt Value} {point : InjectionPoint}
    {requester : String} {required : Bool} {names : List String} {r : Except BeanError Value}
    {m : Container} (chosen : (choose point requester required).run c = (.ok (.one name), m))
    (run : (resolveDependency fetch point requester required).run c = (⟨names, r⟩, c')) :
    (fetch name).run.run m = (r, c') := by
  unfold resolveDependency at run
  rw [run_bind, chosen] at run
  change (gather fetch point.type (.one name)).run m = _ at run
  unfold gather at run
  rw [run_bind] at run
  cases run
  rfl

theorem Creation.fetch_of_factoryTarget {n : Creation} {beanClass : BeanClass}
    (named : n.definition.factoryBean = some name)
    (run : n.factoryTarget.run.run c = (.ok (some v, beanClass), c')) :
    ∃ m, (Attempt.fetch n.create n.context name none).run.run c = (.ok v, m) ∧
      c'.singletons = m.singletons := by
  unfold factoryTarget at run
  rw [named] at run
  dsimp only at run
  split at run
  · cases run
  · obtain ⟨bean, m, fetched, rest⟩ := Attempt.run_bind_eq_ok.mp run
    rw [Attempt.run_bind_lift, Attempt.run_get_bind] at rest
    split at rest
    · obtain ⟨same, rfl⟩ := Attempt.run_pure_eq_ok.mp rest
      cases same
      exact ⟨m, fetched, rfl⟩
    · cases rest

def Container.Holds (c : Container) (name : String) (d : Definition) (held : Option Value) : Prop :=
  c.definitions.get? name = some d ∧ ∀ v, held = some v → c.singletons.get? name = some v

theorem Container.Holds.registerSingleton {m : Container} {held : Option Value} {other : String}
    (there : m.Holds name d held) (absent : m.singletons.get? other = none) (bean : Value)
    (holds : c.Holds name d held) :
    Holds { c with singletons := c.singletons.insert other bean } name d held := by
  refine ⟨holds.1, fun v same => ?_⟩
  have apart : other ≠ name := by
    rintro rfl
    cases (there.2 v same).symm.trans absent
  dsimp only
  rw [Registry.get?_insert, if_neg apart]
  exact holds.2 v same

/-- Creation anywhere from known definitions, of one bean only while no singleton is registered under
its name. An inner bean is told apart from it, unless it has the same name and definition. -/
def Realm.awaiting (known : List Definition) (name : String) (d : Definition) : Realm where
  place _ := True
  known := (· ∈ known)
  asked c other d' := d' ∈ known ∧ ((IsInnerName name → d.Outermost known) → other = name → d' = d →
    c.singletons.get? name = none)
  begun _ := (· ∈ known)

theorem Realm.awaiting_respects (singleton : d.scope = .singleton) (held : Option Value) :
    (Realm.awaiting known name d).Respects known fun c => c.Holds name d held where
  knows _ := Iff.rfl
  push _ _ _ := trivial
  asks c other d' lawful _ found absent := by
    refine ⟨lawful.registered other d' found, ?_⟩
    rintro - rfl rfl
    exact absent singleton
  inside c other d' _ holds generated member inside := by
    refine ⟨member, ?_⟩
    rintro apart rfl rfl
    exact absurd (apart generated) inside
  begins _ _ _ _ _ _ _ asked _ := ⟨trivial, asked.1⟩
  concerns _ _ member := member
  frame c c' definitions singletons _ _ holds := by
    unfold Container.Holds
    rw [definitions, singletons]
    exact holds
  registerSingleton _ _ _ _ bean there _ absent _ holds := there.registerSingleton absent bean holds
  keepResolution _ _ _ _ _ _ _ _ _ _ holds := holds

theorem Container.Lawful.awaits (lawful : c.Lawful known) (name : String)
    (singleton : d.scope = .singleton) (held : Option Value) :
    (Realm.awaiting known name d).Upholds fun c => c.Lawful known ∧ c.Holds name d held :=
  (Realm.awaiting_respects singleton held).upholds lawful.catalogued

namespace Obtains

theorem kept {w : Realm} {I : Container → Prop} {r : Except BeanError Value} (upholds : w.Upholds I)
    (anywhere : ∀ ctx, w.place ctx) (obtains : Obtains name c r c') (inv : I c) : I c' := by
  -- Each way of obtaining a bean is a piece of work that upholds what the realm upholds.
  have creates := upholds.createWithin upholds.full_self
  have fetches (room : Nat) (ctx : Context) (other : String) :=
    upholds.fetch (creates room) (anywhere ctx) other none
  cases obtains with
  | @fetched room ctx explicit _ _ run =>
    exact (upholds.fetch (creates room) (anywhere ctx) name explicit).kept inv run
  | @byType type _ _ _ _ run =>
    have answers : Work.Agree I (Request.beanOfType type).perform _ _ :=
      upholds.conducts.asked anywhere rfl
    refine answers.kept (a := .bean r) inv ?_
    exact congrArg (fun p : Except BeanError Value × Container => (Answer.bean p.1, p.2)) run
  | @referred room ctx _ _ _ _ run =>
    have offers : w.Offers I (DeclaredValue.reference name).family :=
      fun _ member => absurd member List.not_mem_nil
    exact (upholds.resolveDeclared (creates room) (anywhere ctx) _ _ _ offers).kept inv run
  | alone _ run => exact (upholds.resolveDependency (fetches _ _) _ _ _).kept inv run
  | among chosen run _ _ =>
    have inv := (upholds.choose _ _ _).kept inv chosen
    exact (Attempt.Agree.mapM (Q := fun _ _ => True) fun other _ => fetches _ _ other).kept inv run
  | @factoryBean n room _ _ _ within _ run =>
    have targets : Attempt.Agree I n.factoryTarget (n.elsewhere n.host n.create).factoryTarget _ :=
      upholds.factoryTarget (within.symm ▸ creates room) (anywhere n.context)
    exact targets.kept inv run

theorem registered_of_mapM {names : List String} {beans : List Value} {i : Nat}
    (lawful : c.Lawful known) (defined : c.definitions.get? name = some d)
    (singleton : d.scope = .singleton)
    (run : (names.mapM (Attempt.fetcher (createWithin .full room) ctx)).run.run c = (.ok beans, c'))
    (named : names[i]? = some name) (given : beans[i]? = some v) :
    c'.singletons.get? name = some v := by
  have there := lawful.awaits name singleton none
  have stays := lawful.awaits name singleton (some v)
  induction names generalizing c beans i with
  | nil => cases named
  | cons first rest ih =>
    rw [List.mapM_cons] at run
    obtain ⟨bean, m, fetched, later⟩ := Attempt.run_bind_eq_ok.mp run
    obtain ⟨others, m', mapped, last⟩ := Attempt.run_bind_eq_ok.mp later
    obtain ⟨rfl, rfl⟩ := Attempt.run_pure_eq_ok.mp last
    have first : Obtains first c (.ok bean) m := .fetched fetched
    obtain ⟨lawful', defined', -⟩ := first.kept there (fun _ => trivial) ⟨lawful, defined, nofun⟩
    cases i with
    | zero =>
      cases named
      cases given
      have held := Attempt.registered_of_fetch defined singleton fetched
      have place : (Realm.awaiting known name d).place ctx := trivial
      have each := fun other (_ : other ∈ rest) =>
        stays.fetch (stays.createWithin stays.full_self room) place other none
      have maps := Attempt.Agree.mapM (Q := fun _ _ => True) each
      have inv : m.Lawful known ∧ m.Holds name d (some v) :=
        ⟨lawful', defined', fun w same => Option.some.inj same ▸ held⟩
      exact (maps.kept inv mapped).2.2 v rfl
    | succ i => exact ih lawful' defined' mapped named given

theorem fetches {r : Except BeanError Value} (obtains : Obtains name c r c')
    (lawful : c.Lawful known) (defined : c.definitions.get? name = some d)
    (singleton : d.scope = .singleton) :
    (∃ room ctx explicit m m', m.Lawful known ∧ m.definitions.get? name = some d ∧
      m.singletons.get? name = c.singletons.get? name ∧
      (Attempt.fetch (createWithin .full room) ctx name explicit).run.run m = (r, m') ∧
      c'.singletons = m'.singletons) ∨
    ∃ v, r = .ok v ∧ c'.singletons.get? name = some v := by
  -- What comes before the fetching, a choice or an event, is done with the bean left alone.
  have untouched := (Realm.within_respects_singleton name c.definitions
    (c.singletons.get? name)).upholds lawful.catalogued
  have here := And.intro lawful (And.intro (Eq.refl c.definitions) (Eq.refl (c.singletons.get? name)))
  cases obtains with
  | fetched run => exact .inl ⟨_, _, _, c, c', lawful, defined, rfl, run, rfl⟩
  | byType chosen run =>
    obtain ⟨lawful', definitions, same⟩ := (untouched.chooseByType _).kept here chosen
    rw [Attempt.run_beanOfType chosen] at run
    exact .inl ⟨_, _, none, _, c', lawful', definitions ▸ defined, same, run, rfl⟩
  | @referred room ctx bean noun _ _ run =>
    have told := untouched.emit c (.resolvingReference bean name noun) here
    obtain ⟨m, fetched, after⟩ := Attempt.fetch_of_reference run
    exact .inl ⟨room, ctx, none, _, m, told.1, defined, rfl, fetched, after⟩
  | @alone room ctx _ _ _ _ _ m _ chosen run =>
    obtain ⟨lawful', definitions, same⟩ := (untouched.choose _ _ _).kept here chosen
    have fetched := Work.fetch_of_dependency chosen run
    exact .inl ⟨room, ctx, none, m, c', lawful', definitions ▸ defined, same, fetched, rfl⟩
  | among chosen run named given =>
    obtain ⟨lawful', definitions, same⟩ := (untouched.choose _ _ _).kept here chosen
    refine .inr ⟨_, rfl, ?_⟩
    exact registered_of_mapM lawful' (definitions ▸ defined) singleton run named given
  | @factoryBean n room _ _ _ within named run =>
    obtain ⟨m, fetched, after⟩ := Creation.fetch_of_factoryTarget named run
    rw [within] at fetched
    exact .inl ⟨room, n.context, none, c, m, lawful, defined, rfl, fetched, after⟩

theorem registered (obtains : Obtains name c (.ok v) c') (lawful : c.Lawful known)
    (defined : c.definitions.get? name = some d) (singleton : d.scope = .singleton) :
    c'.singletons.get? name = some v := by
  rcases obtains.fetches lawful defined singleton with
    ⟨room, ctx, explicit, m, m', -, defined', -, run, same⟩ | ⟨w, same, held⟩
  · rw [same]
    exact Attempt.registered_of_fetch defined' singleton run
  · cases same
    exact held

theorem holds (obtains : Obtains name c (.ok v) c') (lawful : c.Lawful known)
    (defined : c.definitions.get? name = some d) (singleton : d.scope = .singleton) :
    c'.Lawful known ∧ c'.Holds name d (some v) := by
  have upholds := lawful.awaits name singleton none
  obtain ⟨lawful', defined', -⟩ := obtains.kept upholds (fun _ => trivial) ⟨lawful, defined, nofun⟩
  have registered := obtains.registered lawful defined singleton
  exact ⟨lawful', defined', fun w same => Option.some.inj same ▸ registered⟩

end Obtains

end BeanWiring

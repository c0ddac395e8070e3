import BeanWiring.Proofs.Singletons.Obtaining

/-!
Singletons. Once a bean with a singleton definition is there, it is what everybody obtains under its
name and nobody creates it again, until something else is registered under that name.
-/
namespace BeanWiring

variable {known : List Definition} {name : String} {d : Definition} {v : Value}
  {c c' : Container} {room : Nat} {ctx : Context} {explicit : Option (List Value)}

theorem Creation.Decides.singletons {n : Creation} {I : Container → Prop} {call : Call}
    (decides : n.Decides I call c) : ∃ m, I m ∧ c.singletons = m.singletons := by
  cases decides with
  | replayed _ _ _ _ inv => exact ⟨c, inv, rfl⟩
  | given _ _ inv => exact ⟨c, inv, rfl⟩
  | found _ _ _ _ _ _ inv => exact ⟨_, inv, rfl⟩

theorem Container.Lawful.singleton_of_call {n : Creation} {r : Except BeanError Call}
    (lawful : c.Lawful known) (full : n.host = .full) (within : n.create = createWithin .full room)
    (inside : n.bean ∈ n.context.path) (member : n.definition ∈ known)
    (run : n.call.run.run c = (r, c')) : c'.singletons.get? n.bean = c.singletons.get? n.bean := by
  have upholds := (Realm.within_respects_singleton n.bean c.definitions
    (c.singletons.get? n.bean)).upholds lawful.catalogued
  obtain ⟨failed, decided⟩ := upholds.conducts.decides full within inside member ⟨lawful, rfl, rfl⟩
  cases r with
  | error e => exact (failed e c' run).2.2
  | ok call =>
    obtain ⟨m, held, same⟩ := (decided call c' run).2.singletons
    rw [same]
    exact held.2.2

theorem Container.Lawful.singleton_of_perform {n : Creation} {r : Except BeanError Value}
    (lawful : c.Lawful known) (full : n.host = .full) (within : n.create = createWithin .full room)
    (inside : n.bean ∈ n.context.path) (member : n.definition ∈ known)
    (run : n.perform.run.run c = (r, c')) : c'.singletons.get? n.bean = c.singletons.get? n.bean := by
  obtain ⟨decision, m, decided⟩ : ∃ decision m, n.call.run.run c = (decision, m) := ⟨_, _, rfl⟩
  have held := lawful.singleton_of_call full within inside member decided
  unfold Creation.perform at run
  cases decision with
  | error e =>
    rw [Attempt.run_bind_of_error decided] at run
    cases run
    exact held
  | ok call =>
    rw [Attempt.run_bind_of_ok decided] at run
    have upholds := lawful.upholds
    obtain ⟨complete, decides⟩ :=
      (upholds.conducts.decides full within trivial member ⟨lawful, trivial⟩).2 call m decided
    have lawful' := (upholds.decided member decides).1
    -- Making the call registers nothing, so what held when it was decided on still does.
    have stays := (Realm.within_respects_singleton n.bean m.definitions
      (c.singletons.get? n.bean)).upholds lawful.catalogued
    have hosts := full.symm ▸ stays.full_self
    have makes : Attempt.Agree _ (n.instantiate call) ((n.elsewhere n.host n.create).instantiate call)
        _ := Realm.Works.instantiate hosts complete
    exact (makes.kept ⟨lawful', rfl, held⟩ run).2.2

theorem Container.Lawful.singleton_of_creation {r : Except BeanError Value}
    (lawful : c.Lawful known) (member : d ∈ known)
    (run : (createWithin .full room ctx name d explicit).run.run c = (r, c')) :
    c'.singletons.get? name = c.singletons.get? name := by
  cases room with
  | zero => cases run; rfl
  | succ room =>
    cases began : ctx.begin name with
    | error e =>
      rw [createWithin_refused began] at run
      cases run
      rfl
    | ok inside =>
      rw [createWithin_begun began] at run
      have told := lawful.upholds.emit c (.creating name) ⟨lawful, trivial⟩
      exact told.1.singleton_of_perform rfl rfl (Context.begin_path began) member run

def Request.Registers (name : String) : Request → Prop
  | .define other _ | .registerSingleton other _ => other = name
  | _ => False

/-- What may happen after a state while nothing is registered under a name by request. Other requests
are answered; in the midst of one, beans are asked for, with or without success, singletons are
registered where there are none, and much else changes. -/
inductive Meanwhile (name : String) (c : Container) : Container → Prop
  | now : Meanwhile name c c
  | answered {m : Container} {request : Request} : Meanwhile name c m →
      ¬request.Registers name → Meanwhile name c (request.perform.run m).2
  | asked {m m' : Container} {other : String} {r : Except BeanError Value} : Meanwhile name c m →
      Obtains other m r m' → Meanwhile name c m'
  | registered {m : Container} {other : String} {v : Value} : Meanwhile name c m →
      m.singletons.get? other = none →
      Meanwhile name c { m with singletons := m.singletons.insert other v }
  | changed {m m' : Container} {known : List Definition} : Meanwhile name c m →
      m'.definitions = m.definitions → m'.singletons = m.singletons → m'.Lawful known →
      Meanwhile name c m'

/-- The creation is of a bean with no singleton registered under its name, now or when it has come to
its call. It is inside no other creation of that bean, and nobody has obtained the bean before. -/
structure Creation.IsFirst (n : Creation) (c : Container) : Prop where
  absent : c.singletons.get? n.bean = none
  undecided : (n.call.run.run c).2.singletons.get? n.bean = none
  outermost : n.bean ∉ n.context.path.tail
  unobtained : ∀ known m v m', m.Lawful known → m.definitions.get? n.bean = some n.definition →
    Obtains n.bean m (.ok v) m' → ¬Meanwhile n.bean m' c

theorem Request.untouched_of_telling {request : Request} (telling : request.isAsking = false)
    (other : ¬request.Registers name) (c : Container) :
    (request.perform.run c).2.definitions.get? name = c.definitions.get? name ∧
      (request.perform.run c).2.singletons.get? name = c.singletons.get? name := by
  have registered (key : String) (apart : key ≠ name) (d : Definition) (m : Container)
      (definitions : m.definitions = c.definitions) (singletons : m.singletons = c.singletons) :
      ((Work.register key d).run m).2.definitions.get? name = c.definitions.get? name ∧
      ((Work.register key d).run m).2.singletons.get? name = c.singletons.get? name := by
    obtain ⟨inserted, replaced, added, -⟩ := Work.run_register key d m
    rw [inserted, Registry.get?_insert, if_neg apart, definitions]
    refine ⟨rfl, ?_⟩
    cases contains : m.definitions.contains key with
    | true => rw [replaced contains, Registry.get?_erase, if_neg apart, singletons]
    | false => rw [added contains, singletons]
  cases request with
  | define key d => exact registered key other _ _ rfl rfl
  | registerSingleton key value =>
    have apart : key ≠ name := other
    refine ⟨rfl, ?_⟩
    change (c.singletons.insert key value).get? name = _
    rw [Registry.get?_insert, if_neg apart]
  | build | registerClass | setProperty | registerDependent => exact ⟨rfl, rfl⟩
  | clearResolution key =>
    exact clearResolution_leaves (P := fun m => m.definitions.get? name = c.definitions.get? name ∧
      m.singletons.get? name = c.singletons.get? name) ⟨rfl, rfl⟩ fun _ _ => ⟨rfl, rfl⟩
  | _ => cases telling

namespace Container.Lawful

theorem perform_holds {request : Request} {held : Option Value} (lawful : c.Lawful known)
    (singleton : d.scope = .singleton) (other : ¬request.Registers name)
    (holds : c.Holds name d held) : (request.perform.run c).2.Holds name d held := by
  cases asks : request.isAsking with
  | true =>
    have upholds := lawful.awaits name singleton held
    exact (upholds.conducts.asked (fun _ => trivial) asks c ⟨lawful, holds⟩).2.1.2
  | false =>
    obtain ⟨definitions, singletons⟩ := Request.untouched_of_telling asks other c
    unfold Holds
    rw [definitions, singletons]
    exact holds

theorem meanwhile_holds {held : Option Value} (lawful : c.Lawful known)
    (singleton : d.scope = .singleton) (meanwhile : Meanwhile name c c')
    (holds : c.Holds name d held) : (∃ known, c'.Lawful known) ∧ c'.Holds name d held := by
  induction meanwhile with
  | now => exact ⟨⟨known, lawful⟩, holds⟩
  | @answered _ request _ other ih =>
    -- The request may enrol definitions, so more of them are known afterwards.
    obtain ⟨⟨known, lawful⟩, holds⟩ := ih
    exact ⟨⟨_, lawful.perform request⟩, lawful.perform_holds singleton other holds⟩
  | asked _ obtains ih =>
    obtain ⟨⟨known, lawful⟩, holds⟩ := ih
    have upholds := lawful.awaits name singleton held
    have kept := obtains.kept upholds (fun _ => trivial) ⟨lawful, holds⟩
    exact ⟨⟨known, kept.1⟩, kept.2⟩
  | registered _ absent ih =>
    obtain ⟨⟨known, lawful⟩, holds⟩ := ih
    exact ⟨⟨known, lawful.frame rfl rfl rfl rfl⟩, holds.registerSingleton absent _ holds⟩
  | changed _ definitions singletons lawful ih =>
    refine ⟨⟨_, lawful⟩, ?_⟩
    unfold Holds
    rw [definitions, singletons]
    exact ih.2

theorem singleton_stays {held : Option Value} (lawful : c.Lawful known) (holds : c.Holds name d held)
    (singleton : d.scope = .singleton) {requests : List Request}
    (untouched : ∀ request ∈ requests, ¬request.Registers name) :
    Request.EachCreation (fun n m => (∃ known, m.Lawful known) ∧ m.Holds name d held ∧
      ((IsInnerName name → d.Outermost m.built) → n.bean = name → n.definition = d → n.IsFirst m))
      requests c ∧
    ((Request.performAll requests).run c).2.Holds name d held := by
  refine And.imp_right (fun ⟨_, _, final⟩ => final) (Request.eachCreation
    (J := fun m => ∃ known, m.Lawful known ∧ m.Holds name d held) ?_ ?_ ⟨known, lawful, holds⟩
    (Request.along_of_forall (fun request member _ => untouched request member) c))
  · rintro _ m ⟨known, lawful, holds⟩ _
    have upholds := lawful.awaits name singleton held
    refine ⟨_, _, upholds.conducts, fun _ => trivial, ?_, ⟨lawful, holds⟩, fun m inv => ⟨known, inv⟩⟩
    intro ctx inside bean d' explicit m _ inv asked began
    have told := upholds.emit m (.creating bean) inv
    refine ⟨⟨known, told.1⟩, told.2, ?_⟩
    rintro outermost rfl rfl
    have absent := asked.2 (told.1.built ▸ outermost) rfl rfl
    have undecided := told.1.singleton_of_call
      (n := ⟨.full, inside.creator, inside, bean, d', explicit⟩) rfl rfl (Context.begin_path began)
      asked.1 rfl
    refine ⟨absent, undecided.trans absent, ?_, ?_⟩
    · obtain ⟨path, apart⟩ := Context.begin_ok began
      change bean ∉ inside.path.tail
      rw [path]
      exact apart
    · -- Whoever had obtained it before would have left it registered, but it is not there.
      intro known m₀ v m₁ lawful₀ defined₀ obtains meanwhile
      have held := obtains.holds lawful₀ defined₀ singleton
      have still := (held.1.meanwhile_holds singleton meanwhile held.2).2.2 v rfl
      cases still.symm.trans absent
  · rintro request m ⟨known, lawful, holds⟩ other telling
    exact ⟨_, lawful.perform request, lawful.perform_holds singleton other holds⟩

theorem obtained_again {v w : Value} {m m' : Container} (lawful : c.Lawful known)
    (defined : c.definitions.get? name = some d) (singleton : d.scope = .singleton)
    (first : Obtains name c (.ok v) c') (meanwhile : Meanwhile name c' m)
    (again : Obtains name m (.ok w) m') : w = v := by
  obtain ⟨lawful₁, holds₁⟩ := first.holds lawful defined singleton
  obtain ⟨⟨known, lawful₂⟩, holds₂⟩ := lawful₁.meanwhile_holds singleton meanwhile holds₁
  have upholds := lawful₂.awaits name singleton (some v)
  have still := (again.kept upholds (fun _ => trivial) ⟨lawful₂, holds₂⟩).2.2 v rfl
  have registered := again.registered lawful₂ holds₂.1 singleton
  exact Option.some.inj (registered.symm.trans still)

theorem singleton_of_failure {e : BeanError} (lawful : c.Lawful known)
    (defined : c.definitions.get? name = some d) (singleton : d.scope = .singleton)
    (fails : Obtains name c (.error e) c') : c'.singletons.get? name = c.singletons.get? name := by
  rcases fails.fetches lawful defined singleton with
    ⟨room, ctx, explicit, m, m', lawful', defined', same, run, after⟩ | ⟨v, impossible, -⟩
  · rw [after, ← same]
    cases held : m.singletons.get? name with
    | some bean =>
      have stays := lawful'.awaits name singleton (some bean)
      have asked : Obtains name m (.error e) m' := .fetched run
      have inv : m.Lawful known ∧ m.Holds name d (some bean) :=
        ⟨lawful', defined', fun _ same => same ▸ held⟩
      exact (asked.kept stays (fun _ => trivial) inv).2.2 bean rfl
    | none =>
      rw [Attempt.fetch_eq_creation defined' singleton held] at run
      obtain ⟨r, m'', created⟩ : ∃ r m'',
        (createWithin .full room ctx name d explicit).run.run m = (r, m'') := ⟨_, _, rfl⟩
      cases r with
      | error e' =>
        rw [Attempt.run_bind_of_error created] at run
        cases run
        rw [lawful'.singleton_of_creation (lawful'.registered name d defined') created, held]
      | ok bean =>
        rw [Attempt.run_bind_of_ok created] at run
        cases run
  · cases impossible

end Container.Lawful

theorem Request.singleton_of_replaced (defined : c.definitions.contains name = true)
    (d : Definition) : ((define name d).perform.run c).2.singletons.get? name = none := by
  have erased (m : Container) (contains : m.definitions.contains name = true) (d : Definition) :
      ((Work.register name d).run m).2.singletons.get? name = none := by
    rw [(Work.run_register name d m).2.1 contains, Registry.get?_erase, if_pos rfl]
  exact erased ((Work.enroll d).run c).2 defined _

/-- Of a bean with a singleton definition there is one instance as long as nothing else is registered
under its name. A creation of it begins only where none is registered, in no other creation of it and
before anybody has obtained it, and what it gives is registered at once, so that after one has
succeeded no other begins. At any time, in the midst of a request too, whoever obtains the bean
obtains what is then registered, and the same as anybody before; who asks for it in vain leaves the
registry as it was. Replacing the definition, be it by one that was registered before, drops the
instance, and what is fetched next is created from the new one. Left out are inner beans with the same
name and definition. -/
theorem Container.Reachable.singleton_discipline (reachable : Reachable known c)
    (defined : c.definitions.get? name = some d) (singleton : d.scope = .singleton) :
    (∀ requests : List Request, (∀ request ∈ requests, ¬request.Registers name) →
      Request.EachCreation (fun n m => (∃ known, m.Lawful known) ∧
        m.Holds name d (c.singletons.get? name) ∧
        ((IsInnerName name → d.Outermost m.built) → n.bean = name → n.definition = d →
          n.IsFirst m)) requests c ∧
      ((Request.performAll requests).run c).2.Holds name d (c.singletons.get? name)) ∧
    (∀ known m, Lawful known m → m.definitions.get? name = some d →
      (∀ v m', Obtains name m (.ok v) m' → m'.singletons.get? name = some v ∧
        ∀ m₁, Meanwhile name m' m₁ → ∀ w m₂, Obtains name m₁ (.ok w) m₂ → w = v) ∧
      (∀ e m', Obtains name m (.error e) m' → m'.singletons.get? name = m.singletons.get? name) ∧
      (m.singletons.get? name = none → ∀ room ctx explicit,
        (Attempt.fetch (createWithin .full room) ctx name explicit).run.run m = (do
          let bean ← createWithin .full room ctx name d explicit
          Work.registerSingleton name bean
          pure bean : Attempt Value).run.run m)) ∧
    ∀ d', ((Request.define name d').perform.run c).2.singletons.get? name = none := by
  have contains : c.definitions.contains name = true := by
    unfold Registry.contains
    rw [defined]
    rfl
  refine ⟨fun requests untouched => ?_, fun known m lawful defined => ⟨?_, ?_, ?_⟩,
    Request.singleton_of_replaced contains⟩
  · exact reachable.lawful.singleton_stays ⟨defined, fun _ held => held⟩ singleton untouched
  · intro v m' obtains
    refine ⟨obtains.registered lawful defined singleton, fun m₁ meanwhile w m₂ again => ?_⟩
    exact lawful.obtained_again defined singleton obtains meanwhile again
  · exact fun e m' fails => lawful.singleton_of_failure defined singleton fails
  · exact fun absent room ctx explicit => Attempt.fetch_eq_creation defined singleton absent

/-! A coin that is made, and one that is found each time it is struck. -/
namespace Coin

def made : Executable where
  declaring := .plainClass "Mint"
  kind := .method "strike" true (.plainClass "Coin")
  isPublic := true
  parameters := []
  effect := .makes (.plainClass "Coin")
  label := none

def found : Executable := { made with effect := .gives (.object (.plainClass "Coin") (.named "old")) }

def definition (strike : Executable) : Definition :=
  { Definition.initial .initial with
    serial := 1
    beanClass := some ⟨.plainClass "Mint", [], [strike]⟩
    factoryMethod := some "strike" }

def defined : Container :=
  ((Request.define "coin" (definition made)).perform.run (.new .initial)).2

def coin : Value := .object (.plainClass "Coin") (.made 1)

def fetched : Container :=
  ((Attempt.fetch (createWithin .full 100) (.new 100) "coin" none).run.run defined).2

theorem singleton_discipline_of_coin :
    fetched.singletons.get? "coin" = some coin ∧
    (∀ m, Meanwhile "coin" fetched m → ∀ v m', Obtains "coin" m (.ok v) m' → v = coin) ∧
    ∀ d, ((Request.define "coin" d).perform.run defined).2.singletons.get? "coin" = none := by
  have fresh := Container.Reachable.initially
  have reachable : Container.Reachable _ defined := fresh.step (.define "coin" (definition made))
  have registered : defined.definitions.get? "coin" = some (definition made) := rfl
  obtain ⟨-, obtained, dropped⟩ := reachable.singleton_discipline registered rfl
  have run : (Attempt.fetch (createWithin .full 100) (.new 100) "coin" none).run.run defined =
      (.ok coin, fetched) := by
    refine Prod.ext ?_ rfl
    rfl
  obtain ⟨held, same⟩ := (obtained _ _ reachable.lawful registered).1 coin fetched (.fetched run)
  exact ⟨held, same, dropped⟩

/-- What is created from a new definition may be what was there before. -/
theorem old_coin_found :
    ((Request.performAll [.define "coin" (definition found), .bean "coin" none,
      .define "coin" (definition found), .bean "coin" none]).run (.new .initial)).1 =
    [.done, .bean (.ok (.object (.plainClass "Coin") (.named "old"))),
      .done, .bean (.ok (.object (.plainClass "Coin") (.named "old")))] := by
  rfl

end Coin

end BeanWiring

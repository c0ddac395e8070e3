import BeanWiring.Proofs.Watching.Requests
import BeanWiring.Proofs.Wiring.InnerBeans

/-!
Questions about the types of beans, put in between the requests of a run. They leave nothing behind but
factory methods, and the requests do not tell that they were asked, as long as the factory methods of
the definitions they look into can be told as before.
-/
namespace BeanWiring

/-- A request of a run, or a question put in between: whether the named bean would fit the type. -/
inductive Watched
  | made (request : Request)
  | inserted (name : String) (type : BeanType)

namespace Watched

def requests : List Watched → List Request
  | [] => []
  | .made request :: rest => request :: requests rest
  | .inserted .. :: rest => requests rest

/-- Answers the requests of a run; what the questions come to is not told. -/
def performAll : List Watched → Work (List Answer)
  | [] => pure []
  | .made request :: rest => return (← request.perform) :: (← performAll rest)
  | .inserted name type :: rest => do
    let _ ← Work.isTypeMatch name type
    performAll rest

end Watched

namespace Container

def methodOwner? (c : Container) (d : Definition) : Option BeanClass :=
  ((Work.methodOwner Work.classOfBean d).run c).1.1

def introspected? (c : Container) (d : Definition) : Option Executable :=
  ((Work.introspect d).run c).1

/-- The definitions there are at the start, with those of their factory beans, and so on. -/
inductive Reaches (c : Container) (start : Definition → Prop) : Definition → Prop
  | start {d : Definition} : start d → c.Reaches start d
  | behind {d d' : Definition} {factoryBean : String} : c.Reaches start d →
      d.factoryBean = some factoryBean → c.definitions.get? factoryBean = some d' → c.Reaches start d'

theorem Reaches.congr {c c' : Container} {start : Definition → Prop} {d : Definition}
    (reached : c.Reaches start d) (definitions : c'.definitions = c.definitions) :
    c'.Reaches start d := by
  induction reached with
  | start holds => exact .start holds
  | behind _ named registered ih => exact .behind ih named (definitions ▸ registered)

/-- From one state to a later one the definition means the factory method `e`, whatever is invoked in
between under the name of its factory bean and kept for the definition of that. -/
structure Retains (c c' : Container) (d : Definition) (e : Executable) : Prop where
  settled : ∃ k, c.methodOwner? d = some k ∧ d.SettledBy k e
  told : c'.Uses d → c'.introspected? d = some e
  made : ∀ i ∈ c'.invocations.drop c.invocations.length, d.factoryBean = some i.bean →
    ∀ value, i.result = .ok value →
      ∃ k, value.runtimeType.bind c.classOfType? = some k ∧ d.SettledBy k e
  chosen : ∀ factoryBean d', d.factoryBean = some factoryBean →
    c.definitions.get? factoryBean = some d' → d'.factoryMethod.isSome = true →
    ∀ kept ∈ c'.decisions.drop c.decisions.length, d'.serial = kept.1 →
      ∃ k, c.classOfType? kept.2.executable.returnType = some k ∧ d.SettledBy k e

/-- Where two states remember different factory methods for a definition that was out of use before them
and is in use now, it means the one that is remembered, in both. -/
def Recovers (before c c' : Container) : Prop :=
  ∀ d, ¬before.Uses d → c.Uses d → c'.factoryMethod? d ≠ c.factoryMethod? d →
    ∃ e, (c.introspected? d = some e ∧ c'.introspected? d = some e) ∧
      (c.factoryMethod? d = none ∨ c.factoryMethod? d = some e) ∧
      (c'.factoryMethod? d = none ∨ c'.factoryMethod? d = some e)

theorem Recovers.of_definitions {before c c' : Container}
    (same : c.definitions = before.definitions) : before.Recovers c c' := by
  intro d unused used
  unfold Uses at used
  rw [same] at used
  exact absurd used unused

end Container

/-- The request leaves the factory methods alone that definitions looked into are found to mean. -/
def Request.Steady (looked : Definition → Prop) (request : Request) (c : Container) : Prop :=
  ∀ d e, c.Reaches looked d → c.Uses d → c.introspected? d = some e →
    c.Retains (request.perform.run c).2 d e

/-- In the run without the questions and in that with them, requests leave the factory methods alone
that questions before them found. What questions found for definitions that were out of use since is
still right where these come back into use. -/
def Watched.Steady : (looked : Definition → Prop) → List Watched → Container → Container → Prop
  | _, [], _, _ => True
  | looked, .made request :: rest, c, c' =>
    request.Steady looked c ∧ request.Steady looked c' ∧
      c.Recovers (request.perform.run c).2 (request.perform.run c').2 ∧
      Steady (c.Reaches looked) rest (request.perform.run c).2 (request.perform.run c').2
  | looked, .inserted name type :: rest, c, c' =>
    let asked := ((Work.isTypeMatch name type).run c').2
    Steady (fun d => looked d ∨ asked.factoryMethod? d ≠ c'.factoryMethod? d) rest c asked

namespace Watch

variable {w : Watch} {d : Definition} {e : Executable} {name : String} {request : Request}

/-- The containers when a request is made: what only one of them remembers is found in both, or belongs
to a definition that is no longer registered. -/
structure Mirrors (w : Watch) : Prop where
  same : w.opening' = { w.opening with factoryMethods := w.opening'.factoryMethods }
  lawful : w.opening.Lawful w.known
  lawful' : w.opening'.Lawful w.known
  directed : w.opening.Directed w.known
  directed' : w.opening'.Directed w.known
  methods : ∀ serial, w.opening'.factoryMethods.get? serial = w.opening.factoryMethods.get? serial ∨
    w.Stale serial ∨ ∃ d e, w.Means d e ∧ w.opening'.Finds d e ∧ d.serial = serial ∧
      (w.opening.factoryMethods.get? serial = none ∨ w.opening.factoryMethods.get? serial = some e) ∧
      (w.opening'.factoryMethods.get? serial = none ∨ w.opening'.factoryMethods.get? serial = some e)

structure Steady (w : Watch) (request : Request) : Prop where
  closed : ∀ d factoryBean d', w.concerned d → d.factoryBean = some factoryBean →
    w.opening.definitions.get? factoryBean = some d' → w.concerned d'
  retains : ∀ d e, w.Means d e → w.opening.Retains (request.perform.run w.opening).2 d e ∧
    w.opening'.Retains (request.perform.run w.opening').2 d e
  recovers : w.opening.Recovers (request.perform.run w.opening).2 (request.perform.run w.opening').2

theorem Steady.calm (steady : w.Steady request) : w.Calm (request.perform.run w.opening).2 where
  suits i member value gives d e means named :=
    (steady.retains d e means).1.made i member named value gives
  tunes kept member d e factoryBean d' means behind registered named serial :=
    (steady.retains d e means).1.chosen factoryBean d' behind registered named kept member serial

namespace Mirrors

theorem method (mirrors : w.Mirrors) (registered : w.opening.definitions.get? name = some d) :
    w.opening'.factoryMethod? d = w.opening.factoryMethod? d ∨
      ∃ e, w.Means d e ∧ w.opening'.Finds d e ∧
        (w.opening.factoryMethod? d = none ∨ w.opening.factoryMethod? d = some e) ∧
        (w.opening'.factoryMethod? d = none ∨ w.opening'.factoryMethod? d = some e) := by
  have member := mirrors.lawful.registered name d registered
  rcases mirrors.methods d.serial with
    same | ⟨d', known, -, same, unused⟩ | ⟨d', e, means, finds, same, one, other⟩
  · exact .inl same
  · cases mirrors.lawful.eq_of_serial_eq known member same
    exact absurd (Container.uses_of_registered registered) unused
  · have known := means.used.mem_known mirrors.lawful.toSound
    cases mirrors.lawful.eq_of_serial_eq known member same
    exact .inr ⟨e, means, finds, one, other⟩

theorem agree (mirrors : w.Mirrors) :
    w.opening.Matches w.opening' ∧ w.opening'.Matches w.opening := by
  have definitions : w.opening'.definitions = w.opening.definitions := by rw [mirrors.same]
  have singletons : w.opening'.singletons = w.opening.singletons := by rw [mirrors.same]
  have classes : w.opening'.classes = w.opening.classes := by rw [mirrors.same]
  constructor
  · refine .of_finds definitions singletons classes fun name d registered => ?_
    refine (mirrors.method registered).imp_right ?_
    rintro ⟨e, means, finds, one, other⟩
    exact ⟨e, means.finds, finds, one, other⟩
  · refine .of_finds definitions.symm singletons.symm classes.symm fun name d registered => ?_
    refine (mirrors.method (definitions ▸ registered)).imp Eq.symm ?_
    rintro ⟨e, means, finds, one, other⟩
    exact ⟨e, finds, means.finds, other, one⟩

theorem differs (mirrors : w.Mirrors) (serial : Nat) :
    w.Differs serial (w.opening.factoryMethods.get? serial) (w.opening'.factoryMethods.get? serial) := by
  rcases mirrors.methods serial with same | stale | ⟨d, e, means, -, same, one, other⟩
  · exact .inl same
  · exact .inr (.inl stale)
  · exact .inr (.inr ⟨d, e, means, same, one, other⟩)

theorem widen (mirrors : w.Mirrors) {concerned : Definition → Prop}
    (wider : ∀ d, w.concerned d → concerned d) : Mirrors { w with concerned := concerned } where
  same := mirrors.same
  lawful := mirrors.lawful
  lawful' := mirrors.lawful'
  directed := mirrors.directed
  directed' := mirrors.directed'
  methods serial := by
    refine (mirrors.methods serial).imp_right (Or.imp ?_ ?_)
    · rintro ⟨d, known, concerned, rest⟩
      exact ⟨d, known, wider d concerned, rest⟩
    · rintro ⟨d, e, means, rest⟩
      exact ⟨d, e, ⟨wider d means.concerned, means.used, means.finds⟩, rest⟩

theorem steady (mirrors : w.Mirrors) (steady : request.Steady w.concerned w.opening)
    (steady' : request.Steady w.concerned w.opening')
    (recovers : w.opening.Recovers (request.perform.run w.opening).2
      (request.perform.run w.opening').2) :
    Watch.Steady { w with concerned := w.opening.Reaches w.concerned } request where
  closed _ _ _ reached := reached.behind
  retains d e means := by
    have found := ((Work.introspect_finds mirrors.lawful.toSound d).2.1 e).mpr means.finds
    have found' := ((Work.introspect_finds mirrors.lawful'.toSound d).2.1 e).mpr
      (mirrors.agree.1.finds means.finds)
    have definitions : w.opening'.definitions = w.opening.definitions := by rw [mirrors.same]
    have used : w.opening'.Uses d := by
      rw [mirrors.same]
      exact means.used
    exact ⟨steady d e means.concerned means.used found,
      steady' d e (means.concerned.congr definitions) used found'⟩
  recovers := recovers

theorem opens (mirrors : w.Mirrors) (steady : w.Steady request) : w.Opens where
  pair := {
    same := mirrors.same
    grown := .refl _
    plain := {
      lawful := mirrors.lawful
      definitions := rfl
      classes := rfl
      held := fun _ none => none
      remembered := fun _ none => none
      directed := mirrors.directed
      settled := fun d e means => by
        obtain ⟨k, own, settled⟩ := (steady.retains d e means).1.settled
        exact ⟨k, ((Work.introspect_finds mirrors.lawful.toSound d).1 k).mp own, settled⟩ }
    asked := {
      lawful := mirrors.lawful'
      definitions := by rw [mirrors.same]
      classes := by rw [mirrors.same]
      held := fun _ none => none
      remembered := fun _ none => none
      directed := mirrors.directed'
      settled := fun d e means => by
        obtain ⟨k, own, settled⟩ := (steady.retains d e means).2.settled
        exact ⟨k, ((Work.introspect_finds mirrors.lawful'.toSound d).1 k).mp own, settled⟩ }
    methods := mirrors.differs }
  behind d _ factoryBean d' means named registered :=
    steady.closed d factoryBean d' means.concerned named registered

theorem introspect (mirrors : w.Mirrors) (opens : w.Opens) (d : Definition) :
    w.opening'.introspected? d = w.opening.introspected? d ∧
    ((Work.introspect d).run w.opening').2 = { ((Work.introspect d).run w.opening).2 with
      factoryMethods := ((Work.introspect d).run w.opening').2.factoryMethods } ∧
    ∀ serial, w.Differs serial (((Work.introspect d).run w.opening).2.factoryMethods.get? serial)
      (((Work.introspect d).run w.opening').2.factoryMethods.get? serial) := by
  have predicts := Work.predict_predicts mirrors.lawful.toSound
  have predicts' := Work.predict_predicts mirrors.lawful'.toSound
  obtain ⟨-, finds, m, fills, state⟩ := Work.introspect_finds mirrors.lawful.toSound d
  obtain ⟨-, finds', m', fills', state'⟩ := Work.introspect_finds mirrors.lawful'.toSound d
  have same : w.opening'.introspected? d = w.opening.introspected? d := by
    refine Option.ext fun e => ?_
    exact (finds' e).trans (opens.pair.finds_iff.trans (finds e).symm)
  refine ⟨same, ?_, ?_⟩
  · unfold Container.introspected? at same
    rw [state', state, same]
    cases ((Work.introspect d).run w.opening).1 with
    | none =>
      dsimp only
      rw [fills'.rest, fills.rest, mirrors.same]
    | some e =>
      dsimp only
      rw [fills'.rest, fills.rest, mirrors.same]
  · have asks (name : String) (serial : Nat) :
        w.Differs serial (((Work.predict name).run w.opening).2.factoryMethods.get? serial)
          (((Work.predict name).run w.opening').2.factoryMethods.get? serial) := by
      have same : Work.Same w True (Work.predict name) _ := Work.predict_same opens name
      have calm : w.Calm ((Work.predict name).run w.opening).2 := by
        rw [(predicts name).1.rest]
        constructor
        · intro i member
          rw [List.drop_length] at member
          cases member
        · intro kept member
          rw [List.drop_length] at member
          cases member
      exact (same.alike trivial _ _ opens.pair calm).2.1.methods serial
    obtain ⟨owner, differs⟩ := opens.pair.methodOwner (d := d) Work.predict fun factoryBean _ =>
      ⟨predicts factoryBean, predicts' factoryBean, asks factoryBean⟩
    exact differs_of_findMethod owner differs

theorem alike (mirrors : w.Mirrors) (steady : w.Steady request) :
    (request.perform.run w.opening').1 = (request.perform.run w.opening).1 ∧
    (request.perform.run w.opening').2 = { (request.perform.run w.opening).2 with
      factoryMethods := (request.perform.run w.opening').2.factoryMethods } ∧
    ∀ serial, w.Differs serial ((request.perform.run w.opening).2.factoryMethods.get? serial)
      ((request.perform.run w.opening').2.factoryMethods.get? serial) := by
  have opens := mirrors.opens steady
  by_cases asks : request.isAsking = true
  · by_cases predicts : ∀ name, request ≠ .introspect name
    · have same : Work.Same w True request.perform _ := Request.perform_same opens asks predicts
      obtain ⟨answers, pair, -⟩ := same.alike trivial _ _ opens.pair steady.calm
      exact ⟨answers, pair.same, pair.methods⟩
    · simp only [ne_eq, not_forall, not_not] at predicts
      obtain ⟨name, rfl⟩ := predicts
      have definitions : w.opening'.definitions = w.opening.definitions := by rw [mirrors.same]
      unfold Request.perform Request.withDefinition
      rw [Work.run_bind, Work.run_bind, show (get : Work Container).run w.opening = (_, _) from rfl,
        show (get : Work Container).run w.opening' = (_, _) from rfl]
      dsimp only
      rw [definitions]
      split
      · rename_i d _
        obtain ⟨answers, states, differs⟩ := mirrors.introspect opens d
        exact ⟨congrArg Answer.method answers, states, differs⟩
      · exact ⟨rfl, mirrors.same, mirrors.differs⟩
  · have telling := Bool.eq_false_iff.mpr asks
    have run : request.perform.run w.opening' = ((request.perform.run w.opening).1,
        { (request.perform.run w.opening).2 with factoryMethods := w.opening'.factoryMethods }) := by
      conv => lhs; rw [mirrors.same]
      exact Request.telling_blind telling _ _
    rw [run, Request.factoryMethods_of_telling telling]
    exact ⟨rfl, rfl, mirrors.differs⟩

theorem perform (mirrors : w.Mirrors) (steady : w.Steady request) :
    (request.perform.run w.opening').1 = (request.perform.run w.opening).1 ∧
    Mirrors ⟨w.known ++ request.enrolls w.opening, w.concerned, (request.perform.run w.opening).2,
      (request.perform.run w.opening').2⟩ := by
  obtain ⟨answers, states, differs⟩ := mirrors.alike steady
  have enrolls : request.enrolls w.opening' = request.enrolls w.opening := by
    rw [mirrors.same]
    cases request <;> rfl
  have lawful := mirrors.lawful.perform request
  have lawful' := mirrors.lawful'.perform request
  have directed := mirrors.directed.perform mirrors.lawful request
  have directed' := mirrors.directed'.perform mirrors.lawful' request
  rw [enrolls] at lawful' directed'
  refine ⟨answers, states, lawful, lawful', directed, directed', fun serial => ?_⟩
  have introspects := Work.introspect_finds lawful.toSound
  have introspects' := Work.introspect_finds lawful'.toSound
  have uses {d : Definition} (used : (request.perform.run w.opening).2.Uses d) :
      (request.perform.run w.opening').2.Uses d := by
    rw [states]
    exact used
  -- What differed for a definition differs still, unless the definition has been replaced by now; and
  -- it may have come back.
  rcases differs serial with same | ⟨d, known, concerned, rfl, unused⟩ |
    ⟨d, e, means, rfl, one, other⟩
  · exact .inl same
  · by_cases after : (request.perform.run w.opening).2.Uses d
    · by_cases same : (request.perform.run w.opening').2.factoryMethod? d =
        (request.perform.run w.opening).2.factoryMethod? d
      · exact .inl same
      · obtain ⟨e, ⟨told, told'⟩, one, other⟩ := steady.recovers d unused after same
        have finds := ((introspects d).2.1 e).mp told
        have finds' := ((introspects' d).2.1 e).mp told'
        exact .inr (.inr ⟨d, e, ⟨concerned, after, finds⟩, finds', rfl, one, other⟩)
    · exact .inr (.inl ⟨d, List.mem_append_left _ known, concerned, rfl, after⟩)
  · by_cases after : (request.perform.run w.opening).2.Uses d
    · obtain ⟨retains, retains'⟩ := steady.retains d e means
      have finds := ((introspects d).2.1 e).mp (retains.told after)
      have finds' := ((introspects' d).2.1 e).mp (retains'.told (uses after))
      exact .inr (.inr ⟨d, e, ⟨means.concerned, after, finds⟩, finds', rfl, one, other⟩)
    · have known := means.used.mem_known mirrors.lawful.toSound
      exact .inr (.inl ⟨d, List.mem_append_left _ known, means.concerned, rfl, after⟩)

theorem question (mirrors : w.Mirrors) {name : String} (type : BeanType)
    (found : ∀ d, ((Work.isTypeMatch name type).run w.opening').2.factoryMethod? d ≠
      w.opening'.factoryMethod? d → w.concerned d) :
    Mirrors { w with opening' := ((Work.isTypeMatch name type).run w.opening').2 } := by
  have definitions : w.opening'.definitions = w.opening.definitions := by rw [mirrors.same]
  have sound := mirrors.lawful'.toSound
  obtain ⟨fills, -⟩ := Work.predict_predicts sound name
  change Mirrors { w with opening' := ((Work.predict name).run w.opening').2 }
  have lawful := mirrors.lawful'.perform (.isTypeMatch name type)
  rw [show (Request.isTypeMatch name type).enrolls _ = [] from rfl, List.append_nil] at lawful
  refine ⟨?_, mirrors.lawful, lawful, mirrors.directed, mirrors.directed'.fills sound fills,
    fun serial => ?_⟩
  · dsimp only
    rw [fills.rest, mirrors.same]
  · dsimp only
    rcases fills.methods serial with same | ⟨name, d, e, registered, same, -, none, finds, own⟩
    · rw [same]
      refine (mirrors.methods serial).imp_right (Or.imp_right ?_)
      rintro ⟨d, e, means, finds, same, one, other⟩
      exact ⟨d, e, ⟨means.concerned, means.used, means.finds⟩, (fills.finds_iff sound).mpr finds,
        same, one, other⟩
    · subst same
      rw [definitions] at registered
      have concerned : w.concerned d := found d fun same => by
        cases own.symm.trans (same.trans none)
      have means : w.Means d e :=
        ⟨concerned, Container.uses_of_registered registered, mirrors.agree.2.finds finds⟩
      refine .inr (.inr ⟨d, e, ⟨means.concerned, means.used, means.finds⟩,
        (fills.finds_iff sound).mpr finds, rfl, ?_, .inr own⟩)
      rcases mirrors.method registered with same | ⟨e', means', -, one, -⟩
      · exact .inl (same.symm.trans none)
      · rwa [means.unique means']

theorem performAll (mirrors : w.Mirrors) {steps : List Watched}
    (steady : Watched.Steady w.concerned steps w.opening w.opening') :
    ((Watched.performAll steps).run w.opening').1 =
      ((Request.performAll (Watched.requests steps)).run w.opening).1 ∧
    ∃ methods, ((Watched.performAll steps).run w.opening').2 =
      { ((Request.performAll (Watched.requests steps)).run w.opening).2 with
        factoryMethods := methods } := by
  induction steps generalizing w with
  | nil => exact ⟨rfl, w.opening'.factoryMethods, mirrors.same⟩
  | cons step rest ih =>
    cases step with
    | made request =>
      obtain ⟨here, here', recovers, later⟩ := steady
      have wider : Mirrors { w with concerned := w.opening.Reaches w.concerned } :=
        mirrors.widen fun _ => .start
      obtain ⟨answers, next⟩ := wider.perform (mirrors.steady here here' recovers)
      obtain ⟨others, methods, state⟩ := ih next later
      exact ⟨congrArg₂ List.cons answers others, methods, state⟩
    | inserted name type =>
      let found (d : Definition) :=
        ((Work.isTypeMatch name type).run w.opening').2.factoryMethod? d ≠ w.opening'.factoryMethod? d
      have wider : Mirrors { w with concerned := fun d => w.concerned d ∨ found d } :=
        mirrors.widen fun _ => .inl
      exact ih (wider.question type fun _ => .inr) steady

end Mirrors

end Watch

/-- Questions about types are not seen: with any number of them put in between the requests of a run,
the requests are answered alike, the same is invoked, and the states differ in nothing but the factory
methods remembered. -/
theorem Container.Reachable.questions_unseen {known : List Definition} {c : Container}
    (reachable : Reachable known c) (steps : List Watched)
    (steady : Watched.Steady (fun _ => False) steps c c) :
    ((Watched.performAll steps).run c).1 =
      ((Request.performAll (Watched.requests steps)).run c).1 ∧
    ∃ methods, ((Watched.performAll steps).run c).2 =
      { ((Request.performAll (Watched.requests steps)).run c).2 with factoryMethods := methods } := by
  have mirrors : Watch.Mirrors ⟨known, fun _ => False, c, c⟩ :=
    ⟨rfl, reachable.lawful, reachable.lawful, reachable.directed, reachable.directed, fun _ => .inl rfl⟩
  exact mirrors.performAll steady

/-! A mint that strikes medals, each asked about before it is struck. -/
namespace Mint

def medal : BeanType := .plainClass "Medal"

def built : Executable where
  declaring := .plainClass "Mint"
  kind := .constructor
  isPublic := true
  parameters := []
  effect := .makes (.plainClass "Mint")
  label := none

def strike : Executable := { built with kind := .method "strike" false medal, effect := .makes medal }

def mint : BeanClass := ⟨.plainClass "Mint", [built], [strike]⟩

def works : Definition :=
  { Definition.initial .initial with
    serial := 1
    beanClass := some mint }

def struck : Definition :=
  { Definition.initial .initial with
    serial := 2
    factoryBean := some "mint"
    factoryMethod := some "strike"
    unique := true
    scope := .prototype }

def ready : Container :=
  ((Request.performAll [.define "mint" works, .define "medal" struck]).run (.new .initial)).2

def steps : List Watched := [.inserted "medal" medal, .made (.bean "medal" none)]

theorem definitions_ready : ready.definitions = ⟨[("mint", works), ("medal", struck)]⟩ := rfl

theorem works_or_struck {c : Container} {d : Definition} (definitions : c.definitions = ready.definitions)
    (used : c.Uses d) : d = works ∨ d = struck := by
  obtain ⟨name, d', registered, member⟩ := used
  rw [definitions, definitions_ready] at registered
  simp only [Registry.get?, Registry.lookup] at registered
  split at registered
  · cases registered
    exact .inl (List.mem_singleton.mp member)
  · split at registered
    · cases registered
      exact .inr (List.mem_singleton.mp member)
    · cases registered

def given (c : Container) : Container := ((Request.bean "medal" none).perform.run c).2

theorem settled : struck.SettledBy mint strike := ⟨rfl, fun _ _ _ => rfl⟩

theorem retains {c : Container} (definitions : c.definitions = ready.definitions)
    (owner : c.methodOwner? struck = some mint) (told : (given c).introspected? struck = some strike)
    (listed : c.classOfType? mint.type = some mint)
    (made : (given c).invocations.drop c.invocations.length =
      [⟨"mint", built, none, [], .ok (.object mint.type (.made 1))⟩,
        ⟨"medal", strike, some (.object mint.type (.made 1)), [], .ok (.object medal (.made 2))⟩]) :
    c.Retains (given c) struck strike where
  settled := ⟨mint, owner, settled⟩
  told _ := told
  made i member named value gives := by
    rw [made] at member
    rcases List.mem_pair.mp member with rfl | rfl
    · cases gives
      exact ⟨mint, listed, settled⟩
    · exact absurd named (by decide)
  chosen factoryBean d' named registered method := by
    cases named
    rw [definitions, definitions_ready] at registered
    cases registered
    cases method

theorem steady {c : Container} {looked : Definition → Prop}
    (definitions : c.definitions = ready.definitions) (idle : c.introspected? works = none)
    (told : c.introspected? struck = some strike) (retains : c.Retains (given c) struck strike) :
    (Request.bean "medal" none).Steady looked c := by
  rintro d e - used found
  rcases works_or_struck definitions used with rfl | rfl
  · cases found.symm.trans idle
  · cases found.symm.trans told
    exact retains

theorem questions_unseen_of_medal :
    Watched.Steady (fun _ => False) steps ready ready ∧
    ((Watched.performAll steps).run ready).1 = [.bean (.ok (.object medal (.made 2)))] := by
  have fresh := Container.Reachable.initially
  have reachable : Container.Reachable _ ready :=
    (fresh.step (.define "mint" works)).step (.define "medal" struck)
  have steady : Watched.Steady (fun _ => False) steps ready ready := by
    have asks : (Request.bean "medal" none).isAsking = true := rfl
    have definitions : (given ready).definitions = ready.definitions :=
      (Request.asking_wires asks ready).definitions
    refine ⟨?_, ?_, .of_definitions definitions, trivial⟩
    · exact steady rfl rfl rfl (retains rfl rfl rfl rfl rfl)
    · exact steady rfl rfl rfl (retains rfl rfl rfl rfl rfl)
  refine ⟨steady, ?_⟩
  rw [(reachable.questions_unseen steps steady).1]
  rfl

def coin : BeanType := .plainClass "Coin"

def press : Executable :=
  { built with
    declaring := .plainClass "Press"
    kind := .method "strike" false coin
    effect := .makes coin }

def coiner : Executable := { press with kind := .constructor, effect := .makes press.declaring }

def presses : Definition :=
  { Definition.initial .initial with beanClass := some ⟨press.declaring, [coiner], [press]⟩ }

/-- The works are replaced after the question. -/
def replaced : List Watched :=
  [.inserted "medal" medal, .made (.define "mint" presses), .made (.beanOfType coin)]

def stamp : Executable := { strike with label := some "stamp" }

def stamping : Definition :=
  { Definition.initial .initial with beanClass := some { mint with methods := [stamp] } }

/-- The works are replaced while the name of the medal is taken by another bean. -/
def returned : List Watched :=
  [.inserted "medal" medal, .made (.define "medal" presses), .made (.define "mint" stamping),
    .made (.define "medal" struck), .made (.bean "medal" none)]

def labels (c : Container) : List (Option String) := c.invocations.map (·.executable.label)

/-- A question can decide what is invoked for a definition declared unique that leaves a choice, and what
it found is told even when another method would be found, also after the definition was replaced and is
registered again. -/
theorem question_changes :
    (Lamp.told ((Request.performAll [.bean "lamp" none]).run Lamp.factory).2 = [(some "shown", [])] ∧
      Lamp.told ((Watched.performAll [.inserted "lamp" (.plainClass "Lamp"),
        .made (.bean "lamp" none)]).run Lamp.factory).2 = [(some "hidden", [])]) ∧
    (((Request.performAll (Watched.requests replaced)).run ready).1 =
        [.done, .bean (.ok (.object coin (.made 2)))] ∧
      ((Watched.performAll replaced).run ready).1 = [.done, .bean (.error
        (.noSuchBean "Coin" "no bean of this type is registered"))]) ∧
    labels ((Request.performAll (Watched.requests returned)).run ready).2 = [none, some "stamp"] ∧
    labels ((Watched.performAll returned).run ready).2 = [none, none] := by
  exact ⟨⟨rfl, rfl⟩, ⟨rfl, rfl⟩, by decide +kernel, by decide +kernel⟩

end Mint

end BeanWiring

import BeanWiring.Proofs.Prediction

/-!
Two containers that differ in the factory methods they remember, because one of them was asked for
types. A watch follows the two through one request. Where only one of them remembers a factory method,
both find that method, as long as it can be told which class lists it; predicting types keeps this up.
-/
namespace BeanWiring

/-- The class lists the factory method that the definition means. For a definition declared unique it
leaves a creation no choice. -/
structure Blueprint.SettledBy (d : Definition) (k : BeanClass) (e : Executable) : Prop where
  listed : k.uniqueMethod? d d.factoryBean.isNone = some e
  alone : d.unique = true → (e.declaring == k.type) = true →
    ∀ bean, k.methodCandidates bean d d.factoryBean.isNone = .ok [e]

theorem BeanClass.isStatic_of_uniqueMethod? {k : BeanClass} {d : Definition} {isStatic : Bool}
    {e : Executable} (listed : k.uniqueMethod? d isStatic = some e) : e.isStatic = isStatic :=
  (mem_overloads.mp (mem_of_uniqueMethod? listed)).2.2.1

/-- A method remembered for a known definition is one of its factory bean's if it names one, else a static
one. -/
def Container.Directed (known : List Definition) (c : Container) : Prop :=
  ∀ d ∈ known, ∀ e, c.factoryMethod? d = some e → e.isStatic = d.factoryBean.isNone

theorem Container.Directed.fills {known : List Definition} {c c' : Container} {P : Definition → Prop}
    (directed : c.Directed known) (sound : c.Sound known) (fills : c.Fills P c') : c'.Directed known := by
  intro d member e remembered
  rcases fills.methods d.serial with same | ⟨name, d', e', registered, serial, -, -, finds, own⟩
  · exact directed d member e (same.symm.trans remembered)
  · cases sound.eq_of_serial_eq (sound.registered name d' registered) member serial
    cases own.symm.trans remembered
    obtain ⟨k, -, listed⟩ := finds
    exact BeanClass.isStatic_of_uniqueMethod? listed

namespace Container

def Uses (c : Container) (d : Definition) : Prop :=
  ∃ name d', c.definitions.get? name = some d' ∧ d ∈ DeclaredValue.familyOfDefinition d'

variable {c c' m : Container} {d : Definition}

theorem uses_of_registered {name : String} (registered : c.definitions.get? name = some d) :
    c.Uses d :=
  ⟨name, d, registered, by rw [DeclaredValue.familyOfDefinition_eq]; exact List.mem_cons_self⟩

theorem Uses.inside (uses : c.Uses d) {h : Holder DeclaredValue} (held : h ∈ d.arguments.holders)
    {inner : Definition} (within : inner ∈ h.value.family) : c.Uses inner := by
  obtain ⟨name, d', registered, member⟩ := uses
  exact ⟨name, d', registered,
    DeclaredValue.familyOfDefinition_catalogued d' d member h held inner within⟩

theorem Uses.mem_known {known : List Definition} (uses : c.Uses d) (sound : c.Sound known) :
    d ∈ known := by
  obtain ⟨name, d', registered, member⟩ := uses
  have known := sound.registered name d' registered
  exact DeclaredValue.mem_of_family d' sound.catalogued known d member

structure Grows (c c' : Container) : Prop where
  invocations : c.invocations <+: c'.invocations
  decisions : c.decisions <+: c'.decisions

namespace Grows

theorem refl (c : Container) : c.Grows c := ⟨List.prefix_rfl, List.prefix_rfl⟩

theorem trans (first : c.Grows m) (later : m.Grows c') : c.Grows c' :=
  ⟨first.invocations.trans later.invocations, first.decisions.trans later.decisions⟩

end Grows

end Container

/-- Two containers in which the same request is made: one as it is, and one that was asked for types
as well, of beans with `concerned` definitions. -/
structure Watch where
  known : List Definition
  concerned : Definition → Prop
  opening : Container
  opening' : Container

namespace Watch

variable (w : Watch)

structure Means (d : Definition) (e : Executable) : Prop where
  concerned : w.concerned d
  used : w.opening.Uses d
  finds : w.opening.Finds d e

def Stale (serial : Nat) : Prop :=
  ∃ d ∈ w.known, w.concerned d ∧ d.serial = serial ∧ ¬w.opening.Uses d

def Differs (serial : Nat) (method method' : Option Executable) : Prop :=
  method' = method ∨ w.Stale serial ∨ ∃ d e, w.Means d e ∧ d.serial = serial ∧
    (method = none ∨ method = some e) ∧ (method' = none ∨ method' = some e)

/-- What holds of each container on its own in the course of the request. -/
structure Keeps (origin c : Container) : Prop where
  lawful : c.Lawful w.known
  definitions : c.definitions = w.opening.definitions
  classes : c.classes = w.opening.classes
  held : ∀ name, c.singletons.get? name = none → origin.singletons.get? name = none
  remembered : ∀ serial, c.factoryMethods.get? serial = none →
    origin.factoryMethods.get? serial = none
  directed : c.Directed w.known
  settled : ∀ d e, w.Means d e → ∃ k, c.Owns d k ∧ d.SettledBy k e

/-- The two containers at one point of the request. -/
structure Pair (c c' : Container) : Prop where
  same : c' = { c with factoryMethods := c'.factoryMethods }
  grown : w.opening.Grows c
  plain : w.Keeps w.opening c
  asked : w.Keeps w.opening' c'
  methods : ∀ serial, w.Differs serial (c.factoryMethods.get? serial) (c'.factoryMethods.get? serial)

/-- A look below a concerned definition meets concerned definitions only. -/
def Closed (c : Container) : Prop :=
  ∀ d factoryBean d', (∃ e, w.Means d e) → d.factoryBean = some factoryBean →
    c.Needs factoryBean d' → ∃ e, w.Means d' e

structure Opens : Prop where
  pair : w.Pair w.opening w.opening'
  behind : ∀ d e factoryBean d', w.Means d e → d.factoryBean = some factoryBean →
    w.opening.definitions.get? factoryBean = some d' → w.concerned d'

variable {w} {c c' m m' : Container} {d d' : Definition} {e e' : Executable} {name : String}
  {P : Definition → Prop} {serial : Nat}

theorem Means.unique (means : w.Means d e) (means' : w.Means d e') : e = e' :=
  means.finds.unique means'.finds

namespace Keeps

variable {origin : Container}

theorem finds (keeps : w.Keeps origin c) (means : w.Means d e) : c.Finds d e := by
  obtain ⟨k, owns, settled⟩ := keeps.settled d e means
  exact ⟨k, owns, settled.listed⟩

theorem mem_known (keeps : w.Keeps origin c) (used : w.opening.Uses d) : d ∈ w.known := by
  have used : c.Uses d := by
    unfold Container.Uses
    rw [keeps.definitions]
    exact used
  exact used.mem_known keeps.lawful.toSound

theorem eq_of_serial_eq (keeps : w.Keeps origin c) (used : w.opening.Uses d) (member : d' ∈ w.known)
    (same : d.serial = d'.serial) : d = d' :=
  keeps.lawful.eq_of_serial_eq (keeps.mem_known used) member same

theorem fills (keeps : w.Keeps origin c) (fills : c.Fills P c') : w.Keeps origin c' := by
  have sound := keeps.lawful.toSound
  have found (serial : Nat) (e : Executable) (remembered : c'.factoryMethods.get? serial = some e) :
      ∃ d ∈ w.known, d.serial = serial ∧ d.Opens e := by
    rcases fills.methods serial with same | ⟨name, d, e', registered, same, -, -, finds, own⟩
    · exact keeps.lawful.remembers serial e (same ▸ remembered)
    · subst same
      cases own.symm.trans remembered
      exact ⟨d, sound.registered name d registered, rfl, finds.opens⟩
  have rest := fills.rest
  refine ⟨⟨fills.sound sound, ?_, found⟩, ?_, ?_, ?_, fun serial none => ?_,
    keeps.directed.fills sound fills, fun d e means => ?_⟩
  · rw [rest]
    exact keeps.lawful.tries
  · rw [rest]
    exact keeps.definitions
  · rw [rest]
    exact keeps.classes
  · rw [rest]
    exact keeps.held
  · refine keeps.remembered serial ?_
    rcases fills.methods serial with same | ⟨-, d, e, -, same, -, none, -⟩
    · rw [← same, none]
    · exact same ▸ none
  · obtain ⟨k, owns, settled⟩ := keeps.settled d e means
    exact ⟨k, (fills.owns_iff sound).mpr owns, settled⟩

end Keeps

namespace Differs

theorem refl (serial : Nat) (method : Option Executable) : w.Differs serial method method := .inl rfl

theorem of_uses {method method' : Option Executable} {origin : Container}
    (keeps : w.Keeps origin c) (differs : w.Differs d.serial method method')
    (used : w.opening.Uses d) :
    method' = method ∨
      ∃ e, w.Means d e ∧ (method = none ∨ method = some e) ∧ (method' = none ∨ method' = some e) := by
  have member := keeps.mem_known used
  rcases differs with same | ⟨d', known, -, same, unused⟩ | ⟨d', e, means, same, one, other⟩
  · exact .inl same
  · cases keeps.lawful.eq_of_serial_eq known member same
    exact absurd used unused
  · cases keeps.eq_of_serial_eq means.used member same
    exact .inr ⟨e, means, one, other⟩

theorem of_registered {method method' : Option Executable} {origin : Container}
    (keeps : w.Keeps origin c) (differs : w.Differs d.serial method method')
    (registered : c.definitions.get? name = some d) :
    method' = method ∨
      ∃ e, w.Means d e ∧ (method = none ∨ method = some e) ∧ (method' = none ∨ method' = some e) :=
  of_uses keeps differs (Container.uses_of_registered (keeps.definitions ▸ registered))

end Differs

namespace Pair

theorem definitions (pair : w.Pair c c') : c'.definitions = c.definitions := by rw [pair.same]

theorem singletons (pair : w.Pair c c') : c'.singletons = c.singletons := by rw [pair.same]

theorem agree (pair : w.Pair c c') : c.Matches c' ∧ c'.Matches c := by
  have classes : c'.classes = c.classes := by rw [pair.same]
  have methods (name : String) (d : Definition) (registered : c.definitions.get? name = some d) :=
    (pair.methods d.serial).of_registered pair.plain registered
  constructor
  · refine .of_finds pair.definitions pair.singletons classes fun name d registered => ?_
    refine (methods name d registered).imp_right ?_
    rintro ⟨e, means, one, other⟩
    exact ⟨e, pair.plain.finds means, pair.asked.finds means, one, other⟩
  · refine .of_finds pair.definitions.symm pair.singletons.symm classes.symm fun name d registered => ?_
    refine (methods name d (pair.definitions ▸ registered)).imp Eq.symm ?_
    rintro ⟨e, means, one, other⟩
    exact ⟨e, pair.asked.finds means, pair.plain.finds means, other, one⟩

theorem tells_iff (pair : w.Pair c c') {type : BeanType} : c'.Tells name type ↔ c.Tells name type :=
  ⟨pair.agree.2.tells, pair.agree.1.tells⟩

theorem owns_iff (pair : w.Pair c c') {k : BeanClass} : c'.Owns d k ↔ c.Owns d k :=
  ⟨pair.agree.2.owns, pair.agree.1.owns⟩

theorem finds_iff (pair : w.Pair c c') : c'.Finds d e ↔ c.Finds d e :=
  ⟨pair.agree.2.finds, pair.agree.1.finds⟩

theorem behind (opens : w.Opens) (pair : w.Pair c c') {factoryBean : String} (means : w.Means d e)
    (named : d.factoryBean = some factoryBean)
    (needs : c.Needs factoryBean d' ∨ c'.Needs factoryBean d') : ∃ e', w.Means d' e' := by
  have absent : w.opening.singletons.get? factoryBean = none := by
    refine needs.elim (fun needs => pair.plain.held _ needs.absent) fun needs => ?_
    refine pair.plain.held _ ?_
    rw [← pair.singletons, needs.absent]
  have registered : w.opening.definitions.get? factoryBean = some d' := by
    rw [← pair.plain.definitions]
    refine needs.elim (fun needs => needs.registered) fun needs => ?_
    rw [← pair.definitions, needs.registered]
  have found : d'.factoryMethod.isSome = true := needs.elim (·.named) (·.named)
  -- What is not remembered now was remembered by neither, or by one that finds it.
  have untold : w.opening.factoryMethod? d' = none ∨ ∃ e', w.Means d' e' := by
    rcases needs with needs | needs
    · exact .inl (pair.plain.remembered _ needs.forgotten)
    · rcases Differs.of_registered opens.pair.plain (opens.pair.methods d'.serial) registered with
        same | ⟨e', means', -⟩
      · exact .inl (same.symm.trans (pair.asked.remembered _ needs.forgotten))
      · exact .inr ⟨e', means'⟩
  refine untold.elim (fun forgotten => ?_) id
  obtain ⟨k, owns, -⟩ := means.finds
  obtain ⟨type, tells, -⟩ := (Container.owns_instance named).mp owns
  obtain ⟨e', finds, -⟩ := (Container.tells_of_needs ⟨absent, registered, found, forgotten⟩).mp tells
  exact ⟨e', opens.behind d e factoryBean d' means named registered,
    Container.uses_of_registered registered, finds⟩

theorem closed (opens : w.Opens) (pair : w.Pair c c') : w.Closed c ∧ w.Closed c' := by
  constructor
  · rintro d factoryBean d' ⟨e, means⟩ named needs
    exact pair.behind opens means named (.inl needs)
  · rintro d factoryBean d' ⟨e, means⟩ named needs
    exact pair.behind opens means named (.inr needs)

end Pair

theorem Differs.symm {method method' : Option Executable} (differs : w.Differs serial method method') :
    w.Differs serial method' method := by
  rcases differs with same | stale | ⟨d, e, means, same, one, other⟩
  · exact .inl same.symm
  · exact .inr (.inl stale)
  · exact .inr (.inr ⟨d, e, means, same, other, one⟩)

theorem Keeps.fill {origin : Container} (keeps : w.Keeps origin c) {methods : Nat → Option Executable}
    (differs : ∀ serial, w.Differs serial (c.factoryMethods.get? serial) (methods serial))
    (fills : c.Fills (fun d => ∃ e, w.Means d e) m) (serial : Nat) :
    w.Differs serial (m.factoryMethods.get? serial) (methods serial) := by
  rcases fills.methods serial with same | ⟨name, d, e', registered, same, ⟨e, means⟩, none, finds, own⟩
  · rw [same]
    exact differs serial
  · subst same
    rw [finds.unique (keeps.finds means)] at own
    refine .inr (.inr ⟨d, e, means, rfl, .inr own, ?_⟩)
    rcases (differs d.serial).of_registered keeps registered with equal | ⟨e₁, means₁, -, other⟩
    · exact .inl (equal.trans none)
    · rwa [means.unique means₁]

theorem differs_of_findMethod {classOf : String → Work (Option BeanClass)}
    (owner : ((Work.methodOwner classOf d).run c).1 = ((Work.methodOwner classOf d).run c').1)
    (differs : ∀ serial, w.Differs serial
      (((Work.methodOwner classOf d).run c).2.factoryMethods.get? serial)
      (((Work.methodOwner classOf d).run c').2.factoryMethods.get? serial)) :
    ∀ serial, w.Differs serial (((Work.findMethod classOf d).run c).2.factoryMethods.get? serial)
      (((Work.findMethod classOf d).run c').2.factoryMethods.get? serial) := by
  unfold Work.findMethod
  rw [Work.run_bind, Work.run_bind, ← owner]
  dsimp only
  split
  · intro serial
    change w.Differs serial ((Registry.insert _ _ _).get? serial) ((Registry.insert _ _ _).get? serial)
    rw [Registry.get?_insert, Registry.get?_insert]
    split
    · exact .refl serial _
    · exact differs serial
  · exact differs

theorem state_classOfPredicted (predict : String → Work (Option BeanType)) (c : Container) :
    ((Work.classOfPredicted predict name).run c).2 = ((predict name).run c).2 := by
  unfold Work.classOfPredicted
  rw [Work.run_bind]
  split <;> rfl

theorem Pair.methodOwner (pair : w.Pair c c') (predict : String → Work (Option BeanType))
    (predicts : ∀ factoryBean, d.factoryBean = some factoryBean →
      Work.Predicts (fun _ => True) c (predict factoryBean) (c.Tells factoryBean) ∧
      Work.Predicts (fun _ => True) c' (predict factoryBean) (c'.Tells factoryBean) ∧
      ∀ serial, w.Differs serial (((predict factoryBean).run c).2.factoryMethods.get? serial)
        (((predict factoryBean).run c').2.factoryMethods.get? serial)) :
    ((Work.methodOwner (Work.classOfPredicted predict) d).run c).1 =
      ((Work.methodOwner (Work.classOfPredicted predict) d).run c').1 ∧
    ∀ serial, w.Differs serial
      (((Work.methodOwner (Work.classOfPredicted predict) d).run c).2.factoryMethods.get? serial)
      (((Work.methodOwner (Work.classOfPredicted predict) d).run c').2.factoryMethods.get? serial) := by
  obtain ⟨-, owned, static⟩ := Work.methodOwner_predicts fun factoryBean named =>
    Work.classOfPredicted_predicts (predicts factoryBean named).1
  obtain ⟨-, owned', static'⟩ := Work.methodOwner_predicts fun factoryBean named =>
    Work.classOfPredicted_predicts (predicts factoryBean named).2.1
  constructor
  · refine Prod.ext (Option.ext fun k => ?_) (static.trans static'.symm)
    exact (owned k).trans (pair.owns_iff.symm.trans (owned' k).symm)
  · unfold Work.methodOwner
    cases named : d.factoryBean with
    | none => exact pair.methods
    | some factoryBean =>
      have differs := (predicts factoryBean named).2.2
      rwa [← state_classOfPredicted, ← state_classOfPredicted] at differs

theorem Keeps.predictWithin {origin : Container} (keeps : w.Keeps origin c)
    {methods : Nat → Option Executable}
    (differs : ∀ serial, w.Differs serial (c.factoryMethods.get? serial) (methods serial))
    (closed : w.Closed c) (needs : c.Needs name d) (means : w.Means d e)
    {steps : Nat} {busy : List String}
    (enough : (c.definitions.keys.filter (· ∉ busy)).length ≤ steps)
    (leads : ∀ other ∈ busy, c.Leads other name) (serial : Nat) :
    w.Differs serial (((Work.predictWithin steps busy name).run c).2.factoryMethods.get? serial)
      (methods serial) := by
  have start : ∀ d', c.Needs name d' → ∃ e, w.Means d' e := by
    intro d' needs'
    cases needs.registered.symm.trans needs'.registered
    exact ⟨e, means⟩
  have predicts := Work.predictWithin_predicts keeps.lawful.toSound closed start enough leads
  exact keeps.fill differs predicts.1 serial

section Predicting

variable (opens : w.Opens) (pair : w.Pair c c') {steps : Nat} {busy : List String}
  (enough : (c.definitions.keys.filter (· ∉ busy)).length ≤ steps)
  (leads : ∀ other ∈ busy, c.Leads other name ∧ c'.Leads other name)
include opens pair enough leads

theorem differs_of_apart (apart : ∀ d, c.Needs name d → ¬c'.Needs name d) (serial : Nat) :
    w.Differs serial (((Work.predictWithin steps busy name).run c).2.factoryMethods.get? serial)
      (((Work.predictWithin steps busy name).run c').2.factoryMethods.get? serial) := by
  obtain ⟨closed, closed'⟩ := pair.closed opens
  have method {d : Definition} (registered : c.definitions.get? name = some d) :=
    (pair.methods d.serial).of_registered pair.plain registered
  by_cases needs : ∃ d, c.Needs name d
  · obtain ⟨d, needs⟩ := needs
    have told : ∀ d', ¬c'.Needs name d' := by
      intro d' needs'
      have same := needs'.registered
      rw [pair.definitions, needs.registered] at same
      cases same
      exact apart d needs needs'
    rw [Work.predictWithin_of_not_needs told]
    rcases method needs.registered with same | ⟨e, means, -⟩
    · refine absurd ⟨?_, ?_, needs.named, same.trans needs.forgotten⟩ (told d)
      · rw [pair.singletons, needs.absent]
      · rw [pair.definitions, needs.registered]
    · exact pair.plain.predictWithin pair.methods closed needs means enough
        (fun other member => (leads other member).1) serial
  · have told := not_exists.mp needs
    rw [Work.predictWithin_of_not_needs told]
    by_cases needs' : ∃ d, c'.Needs name d
    · obtain ⟨d, needs'⟩ := needs'
      have registered : c.definitions.get? name = some d := by
        rw [← pair.definitions, needs'.registered]
      rcases method registered with same | ⟨e, means, -⟩
      · refine absurd ⟨?_, registered, needs'.named, same.symm.trans needs'.forgotten⟩ (told d)
        rw [← pair.singletons, needs'.absent]
      · refine (pair.asked.predictWithin (fun serial => (pair.methods serial).symm) closed' needs' means
          ?_ (fun other member => (leads other member).2) serial).symm
        rwa [pair.definitions]
    · rw [Work.predictWithin_of_not_needs (not_exists.mp needs')]
      exact pair.methods serial

theorem predictWithin_differs (serial : Nat) :
    w.Differs serial (((Work.predictWithin steps busy name).run c).2.factoryMethods.get? serial)
      (((Work.predictWithin steps busy name).run c').2.factoryMethods.get? serial) := by
  have enough' : (c'.definitions.keys.filter (· ∉ busy)).length ≤ steps := pair.definitions ▸ enough
  induction steps generalizing busy name serial with
  | zero =>
    -- Out of steps, both have come upon a bean that is being predicted, or only one has to look.
    by_cases both : ∃ d, c.Needs name d ∧ c'.Needs name d
    · obtain ⟨d, needs, needs'⟩ := both
      have entered : name ∈ busy := by
        by_contra free
        exact absurd (Work.unpredicted_cons needs.registered free) (by omega)
      rw [Work.predictWithin_of_busy needs _ entered, Work.predictWithin_of_busy needs' _ entered]
      exact pair.methods serial
    · refine differs_of_apart opens pair enough leads (fun d needs needs' => ?_) serial
      exact both ⟨d, needs, needs'⟩
  | succ steps ih =>
    by_cases both : ∃ d, c.Needs name d ∧ c'.Needs name d
    · obtain ⟨d, needs, needs'⟩ := both
      by_cases entered : name ∈ busy
      · rw [Work.predictWithin_of_busy needs _ entered, Work.predictWithin_of_busy needs' _ entered]
        exact pair.methods serial
      · rw [Work.predictWithin_of_needs needs steps entered,
          Work.predictWithin_of_needs needs' steps entered]
        have fewer := Work.unpredicted_cons needs.registered entered
        have fewer' := Work.unpredicted_cons needs'.registered entered
        have inside : ∀ factoryBean, d.factoryBean = some factoryBean →
            ∀ other ∈ name :: busy, c.Leads other factoryBean ∧ c'.Leads other factoryBean := by
          intro factoryBean named other member
          have here := And.intro (needs.leads named) (needs'.leads named)
          rcases List.mem_cons.mp member with rfl | member
          · exact here
          · exact ⟨(leads other member).1.trans here.1, (leads other member).2.trans here.2⟩
        have predicts {m origin : Container} (keeps : w.Keeps origin m) {factoryBean : String}
            (enough : (m.definitions.keys.filter (· ∉ name :: busy)).length ≤ steps)
            (leads : ∀ other ∈ name :: busy, m.Leads other factoryBean) :=
          Work.predictWithin_predicts (P := fun _ => True) keeps.lawful.toSound
            (fun _ _ _ _ _ _ => trivial) (fun _ _ => trivial) enough leads
        obtain ⟨owner, differs⟩ := pair.methodOwner (Work.predictWithin steps (name :: busy))
          fun factoryBean named =>
            ⟨predicts pair.plain (by omega) fun other member => (inside _ named other member).1,
              predicts pair.asked (by omega) fun other member => (inside _ named other member).2,
              fun serial => ih (by omega) (inside _ named) serial (by omega)⟩
        exact differs_of_findMethod owner differs serial
    · refine differs_of_apart opens pair enough leads (fun d needs needs' => ?_) serial
      exact both ⟨d, needs, needs'⟩

end Predicting

variable {c₁ c₁' : Container}

/-- The concerned definitions mean what they meant if each of their factory beans is told as it was, or
to be of a class that settles it. By induction on the steps in which the factory bean was told. -/
theorem Keeps.settled_of_step {origin : Container} (keeps : w.Keeps origin c) (closed : w.Closed c)
    (definitions : m.definitions = c.definitions) (classes : m.classes = c.classes)
    (step : ∀ d e factoryBean, w.Means d e → d.factoryBean = some factoryBean →
      (m.singletons.get? factoryBean = c.singletons.get? factoryBean ∧
        ∀ d', c.definitions.get? factoryBean = some d' → m.factoryMethod? d' = c.factoryMethod? d') ∨
      ∃ type k, m.Tells factoryBean type ∧ c.classOfType? type = some k ∧ d.SettledBy k e)
    (means : w.Means d e) : ∃ k, m.Owns d k ∧ d.SettledBy k e := by
  have listed (type : BeanType) : m.classOfType? type = c.classOfType? type := by
    unfold Container.classOfType?
    rw [classes]
  -- Whatever the factory bean was told by, its own factory bean was told in fewer steps.
  obtain ⟨k, ⟨steps, owned⟩, settled⟩ := keeps.settled d e means
  induction steps using Nat.strongRecOn generalizing d e k with
  | ind steps ih =>
    cases named : d.factoryBean with
    | none =>
      refine ⟨k, (Container.owns_static named).mpr ?_, settled⟩
      exact (Container.owns_static named).mp ⟨steps, owned⟩
    | some factoryBean =>
      rcases step d e factoryBean means named with ⟨held, remembered⟩ | ⟨type, k', tells, own, settled'⟩
      · simp only [Container.ownerBy, named, Option.bind_eq_some_iff] at owned
        obtain ⟨type, told, own⟩ := owned
        refine ⟨k, (Container.owns_instance named).mpr ⟨type, ?_, (listed type).trans own⟩, settled⟩
        refine Container.tells_of_unchanged definitions held remembered ?_ told
        intro d' e' fewer k' less needs owned lists
        obtain ⟨e₁, means'⟩ := closed d factoryBean d' ⟨e, means⟩ named needs
        cases Container.Finds.unique ⟨k', ⟨fewer, owned⟩, lists⟩ (keeps.finds means')
        obtain ⟨k₁, owns, settled₁⟩ := keeps.settled d' e' means'
        cases owns.unique ⟨fewer, owned⟩
        obtain ⟨k₂, owns₂, settled₂⟩ := ih fewer less means' k' settled₁ owned
        exact ⟨k₂, owns₂, settled₂.listed⟩
      · refine ⟨k', (Container.owns_instance named).mpr ⟨type, tells, ?_⟩, settled'⟩
        rw [listed, own]

namespace Keeps

variable {origin : Container}

theorem frame (keeps : w.Keeps origin c) (definitions : m.definitions = c.definitions)
    (classes : m.classes = c.classes) (singletons : m.singletons = c.singletons)
    (factoryMethods : m.factoryMethods = c.factoryMethods) (resolutions : m.resolutions = c.resolutions)
    (built : m.built = c.built) : w.Keeps origin m where
  lawful := keeps.lawful.frame definitions resolutions factoryMethods built
  definitions := definitions.trans keeps.definitions
  classes := classes.trans keeps.classes
  held := singletons ▸ keeps.held
  remembered := factoryMethods ▸ keeps.remembered
  directed d member e own := by
    unfold Container.factoryMethod? at own
    rw [factoryMethods] at own
    exact keeps.directed d member e own
  settled d e means := by
    have agree : c.Matches m := ⟨definitions, singletons, classes, fun name d _ => .inl (by
      unfold Container.factoryMethod?
      rw [factoryMethods])⟩
    obtain ⟨k, owns, settled⟩ := keeps.settled d e means
    exact ⟨k, agree.owns owns, settled⟩

end Keeps

def Suits (w : Watch) (bean : String) (value : Value) : Prop :=
  ∀ d e, w.Means d e → d.factoryBean = some bean →
    ∃ k, value.runtimeType.bind w.opening.classOfType? = some k ∧ d.SettledBy k e

/-- What is kept for the definition of the factory bean of a concerned definition gives it a type that
settles the factory method. -/
def Tunes (w : Watch) (kept : Nat × Resolution) : Prop :=
  ∀ d e factoryBean d', w.Means d e → d.factoryBean = some factoryBean →
    w.opening.definitions.get? factoryBean = some d' → d'.factoryMethod.isSome = true →
    d'.serial = kept.1 →
    ∃ k, w.opening.classOfType? kept.2.executable.returnType = some k ∧ d.SettledBy k e

/-- All that was invoked since the request was made, under the name of the factory bean of a concerned
definition, settles the factory method, and so does all that was kept. -/
structure Calm (w : Watch) (c : Container) : Prop where
  suits : ∀ i ∈ c.invocations.drop w.opening.invocations.length,
    ∀ value, i.result = .ok value → w.Suits i.bean value
  tunes : ∀ kept ∈ c.decisions.drop w.opening.decisions.length, w.Tunes kept

theorem Calm.before (calm : w.Calm m) (grows : c.Grows m) : w.Calm c := by
  obtain ⟨⟨invoked, invocations⟩, decided, decisions⟩ := grows
  refine ⟨fun i member => calm.suits i ?_, fun kept member => calm.tunes kept ?_⟩
  · rw [← invocations, List.drop_append]
    exact List.mem_append_left _ member
  · rw [← decisions, List.drop_append]
    exact List.mem_append_left _ member

theorem Keeps.classOfType? {origin : Container} (keeps : w.Keeps origin c) (type : BeanType) :
    c.classOfType? type = w.opening.classOfType? type := by
  unfold Container.classOfType?
  rw [keeps.classes]

namespace Pair

theorem frame (pair : w.Pair c c') (same : m' = { m with factoryMethods := m'.factoryMethods })
    (definitions : m.definitions = c.definitions) (classes : m.classes = c.classes)
    (singletons : m.singletons = c.singletons) (factoryMethods : m.factoryMethods = c.factoryMethods)
    (factoryMethods' : m'.factoryMethods = c'.factoryMethods)
    (resolutions : m.resolutions = c.resolutions) (built : m.built = c.built)
    (grows : c.Grows m) : w.Pair m m' where
  same := same
  grown := pair.grown.trans grows
  plain := pair.plain.frame definitions classes singletons factoryMethods resolutions built
  asked := by
    have before := pair.same
    refine pair.asked.frame ?_ ?_ ?_ factoryMethods' ?_ ?_
    all_goals
      rw [same, before]
      assumption
  methods := by
    rw [factoryMethods, factoryMethods']
    exact pair.methods

end Pair

end Watch

end BeanWiring

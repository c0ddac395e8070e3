import BeanWiring.Proofs.Wiring.Dependencies

/-!
Where dependencies are lost sight of. An inner bean is wired with other beans under a generated name,
and nothing is wired with it: as long as no bean is given such a name, all chains of edges end there.
-/
namespace BeanWiring

def Request.introduces : Request → List String
  | .define name _ | .registerSingleton name _ | .registerDependent name _ => [name]
  | _ => []

/-- The container knows no bean by a name generated for inner beans, and none depends on one. -/
structure Container.Apart (c : Container) : Prop where
  names : ∀ name, c.Knows name → ¬IsInnerName name
  edges : ∀ name bean, c.graph.Leads name bean → ¬IsInnerName name

theorem Attempt.context_spares (start : Outset) (c : Container) (bean : String) :
    Spares [] bean c (context start) fun _ _ => True := by
  refine .get_bind ?_
  split <;> exact Spares.except.mono fun _ _ _ _ => trivial

theorem Attempt.bean_spares (name : String) (explicit : Option (List Value)) (c : Container) :
    Spares [] "" c (Attempt.bean name explicit) fun _ _ => True := by
  refine .bind (context_spares _ c "") fun ctx m _ _ => ?_
  have fetches : Spares ctx.path "" m (fetch (createWithin .full ctx.room) ctx name explicit) _ :=
    fetch_spares (createWithin_wires ctx.room) name explicit
  exact fetches.outermost.mono fun _ _ _ _ => trivial

theorem Attempt.dependency_spares (start : Outset) (name : String) (point : InjectionPoint)
    (required : Bool) (c : Container) :
    Spares [] "" c (Attempt.dependency start name point required) fun _ _ => True := by
  refine .bind (context_spares start c "") fun ctx m _ _ => ?_
  have fetches (other : String) (c : Container) : Spares ctx.path "" c
      (fetch (createWithin .full ctx.room) ctx other none) _ :=
    fetch_spares (createWithin_wires ctx.room) other none
  have looks := Work.resolveDependency_spares fetches point name required (c := m)
  exact ⟨looks.1.outermost, fun _ _ => trivial⟩

theorem Request.asking_wires {request : Request} (asks : request.isAsking = true) (c : Container) :
    c.Wires [] "" [] (request.perform.run c).2 := by
  have remembers := Realm.remembers_wires [] "" c
  cases request with
  | bean name explicit => exact (Attempt.bean_spares name explicit c).1
  | beanOfType type =>
    have chooses : Attempt.Spares [] "" c (ExceptT.mk (Work.chooseByType type) : Attempt String)
        fun _ _ => True := ⟨(Work.Spares.of_agree (remembers.chooseByType type)).1, fun _ _ => trivial⟩
    have answers : Attempt.Spares [] "" c (Attempt.beanOfType type) fun _ _ => True :=
      .bind chooses fun name m _ _ => Attempt.bean_spares name none m
    exact answers.1
  | lookup start name point required =>
    exact (Attempt.dependency_spares start name point required c).1
  | isTypeMatch name type => exact (Work.Spares.of_agree (remembers.isTypeMatch name type)).1
  | introspect name =>
    exact introspect_leaves (.refl c [] "") fun d _ =>
      (Work.Spares.of_agree (remembers.introspect (d := d) trivial)).1
  | _ => cases asks

namespace Container

theorem graph_register (name : String) (d : Definition) (c : Container) :
    ((Work.register name d).run c).2.graph = c.graph := by
  unfold Work.register
  cases d.beanClass <;> simp only [Work.run_bind] <;> split <;> rfl

namespace Apart

variable {c c' : Container}

theorem new (settings : Settings) : (Container.new settings).Apart where
  names _ knows := by rcases knows with defined | held <;> cases ‹_›
  edges _ _ leads := by cases leads

theorem frame (apart : c.Apart) {introduced : List String}
    (apartNames : ∀ name ∈ introduced, ¬IsInnerName name)
    (known : ∀ name, c'.Knows name → c.Knows name ∨ name ∈ introduced)
    (edges : ∀ name bean, c'.graph.Leads name bean →
      c.graph.Leads name bean ∨ c.Knows name ∨ name ∈ introduced) : c'.Apart where
  names name knows := (known name knows).elim (apart.names name) (apartNames name)
  edges name bean leads := by
    rcases edges name bean leads with old | knows | new
    · exact apart.edges name bean old
    · exact apart.names name knows
    · exact apartNames name new

theorem register (apart : c.Apart) {name : String} (apartName : ¬IsInnerName name) (d : Definition) :
    ((Work.register name d).run c).2.Apart := by
  obtain ⟨definitions, erased, kept, -, -, -⟩ := Work.run_register name d c
  have singletons : ∀ other, (((Work.register name d).run c).2.singletons.get? other).isSome = true →
      (c.singletons.get? other).isSome = true := by
    intro other held
    cases replaced : c.definitions.contains name with
    | false =>
      rw [kept replaced] at held
      exact held
    | true =>
      rw [erased replaced, Registry.get?_erase] at held
      split at held
      · cases held
      · exact held
  refine apart.frame (List.forall_mem_singleton.mpr apartName) (fun other knows => ?_) ?_
  · rcases knows with defined | held
    · rw [definitions, Registry.get?_insert] at defined
      split at defined
      · rename_i same
        exact .inr (List.mem_singleton.mpr same.symm)
      · exact .inl (.inl defined)
    · exact .inl (.inr (singletons other held))
  · intro other bean leads
    rw [graph_register] at leads
    exact .inl leads

theorem registerSingleton (apart : c.Apart) {name : String} (apartName : ¬IsInnerName name)
    (value : Value) : Apart { c with singletons := c.singletons.insert name value } := by
  refine apart.frame (List.forall_mem_singleton.mpr apartName) (fun other knows => ?_) fun _ _ => .inl
  rcases knows with defined | held
  · exact .inl (.inl defined)
  · dsimp only at held
    rw [Registry.get?_insert] at held
    split at held
    · rename_i same
      exact .inr (List.mem_singleton.mpr same.symm)
    · exact .inl (.inr held)

theorem registerDependent (apart : c.Apart) {name : String} (apartName : ¬IsInnerName name)
    (bean : String) : Apart { c with graph := c.graph.register name bean } := by
  refine apart.frame (List.forall_mem_singleton.mpr apartName) (fun other knows => .inl knows) ?_
  intro other bean' leads
  rcases Graph.mem_register.mp leads with old | new
  · exact .inl old
  · exact .inr (.inr (List.mem_singleton.mpr (congrArg Edge.dependency new)))

theorem perform (apart : c.Apart) {request : Request}
    (apartNames : ∀ name ∈ request.introduces, ¬IsInnerName name) :
    (request.perform.run c).2.Apart := by
  have same {c' : Container} (definitions : c'.definitions = c.definitions)
      (singletons : c'.singletons = c.singletons) (graph : c'.graph = c.graph) : c'.Apart := by
    refine apart.frame (List.forall_mem_nil _) (fun name knows => .inl ?_) fun _ _ leads => .inl ?_
    · unfold Knows at knows
      rwa [definitions, singletons] at knows
    · rwa [graph] at leads
  cases asks : request.isAsking with
  | true =>
    have wires := Request.asking_wires asks c
    refine apart.frame (List.forall_mem_nil _) (fun name knows => .inl (wires.known name knows)) ?_
    intro name bean leads
    exact (wires.only _ leads).imp_right fun new => .inl new.1
  | false =>
    cases request with
    | bean | beanOfType | lookup | isTypeMatch | introspect => cases asks
    | define name d =>
      have apartName := apartNames name List.mem_cons_self
      have enrolled : ((Work.enroll d).run c).2.Apart := same rfl rfl rfl
      exact enrolled.register apartName _
    | build | registerClass | setProperty => exact same rfl rfl rfl
    | registerSingleton name value =>
      exact apart.registerSingleton (apartNames name List.mem_cons_self) value
    | registerDependent name bean =>
      exact apart.registerDependent (apartNames name List.mem_cons_self) bean
    | clearResolution name =>
      exact Request.clearResolution_leaves apart fun d _ => same rfl rfl rfl

theorem performAll (apart : c.Apart) {requests : List Request}
    (apartNames : ∀ request ∈ requests, ∀ name ∈ request.introduces, ¬IsInnerName name) :
    ((Request.performAll requests).run c).2.Apart := by
  induction requests generalizing c with
  | nil => exact apart
  | cons request rest ih =>
    have next := apart.perform (apartNames request List.mem_cons_self)
    exact ih next fun other member => apartNames other (List.mem_cons_of_mem _ member)

/-- No link of a chain of edges starts at an inner bean. -/
theorem isDependent_iff (apart : c.Apart) {name bean : String} :
    c.graph.isDependent name bean = true ↔
      Relation.TransGen (fun x y => ¬IsInnerName x ∧ c.graph.Leads x y) name bean := by
  have same : c.graph.Leads = fun x y => ¬IsInnerName x ∧ c.graph.Leads x y := by
    funext x y
    exact propext ⟨fun leads => ⟨apart.edges x y leads, leads⟩, fun link => link.2⟩
  rw [Graph.isDependent_iff, ← same]

theorem inner_end (apart : c.Apart) {inner : String} (isInner : IsInnerName inner) (bean : String) :
    c.graph.isDependent inner bean = false := by
  refine Bool.eq_false_iff.mpr fun depends => ?_
  obtain ⟨next, ⟨apartName, -⟩, -⟩ := Relation.TransGen.head'_iff.mp (apart.isDependent_iff.mp depends)
  exact apartName isInner

theorem hidden_by_inner (apart : c.Apart) {name bean : String}
    (wired : ∀ inner, c.graph.Leads name inner → IsInnerName inner) (apartBean : ¬IsInnerName bean) :
    c.graph.isDependent name bean = false := by
  refine Bool.eq_false_iff.mpr fun depends => ?_
  obtain ⟨inner, ⟨-, leads⟩, chain⟩ := Relation.TransGen.head'_iff.mp (apart.isDependent_iff.mp depends)
  have isInner := wired inner leads
  rcases Relation.ReflTransGen.cases_head chain with same | ⟨next, ⟨apartName, -⟩, -⟩
  · exact apartBean (same ▸ isInner)
  · exact apartName isInner

end Apart

variable {known : List Definition} {c c' : Container}

/-- As long as no bean is given the name of an inner bean: each inner bean is wired with the beans it
is created with, but none is wired with it, so no bean depends on what only inner beans inside it were
wired with. -/
theorem Reachable.chains_end_at_inner_beans (reachable : Reachable known c) (apart : c.Apart)
    {requests : List Request}
    (apartNames : ∀ request ∈ requests, ∀ name ∈ request.introduces, ¬IsInnerName name)
    (ran : ((Request.performAll requests).run c).2 = c') :
    Request.EachCreation (fun n m => IsInnerName n.bean → n.Registers m) requests c ∧
    (∀ inner, IsInnerName inner → ∀ bean, c'.graph.isDependent inner bean = false) ∧
    (∀ name bean, (∀ inner, c'.graph.Leads name inner → IsInnerName inner) → ¬IsInnerName bean →
      c'.graph.isDependent name bean = false) ∧
    ∀ name bean, c'.graph.isDependent name bean = true ↔
      Relation.TransGen (fun x y => ¬IsInnerName x ∧ c'.graph.Leads x y) name bean := by
  have after : c'.Apart := ran ▸ apart.performAll apartNames
  refine ⟨?_, fun inner isInner => after.inner_end isInner,
    fun name bean => after.hidden_by_inner, fun name bean => after.isDependent_iff⟩
  refine Request.eachCreation_of_lawful reachable.lawful ?_ requests
  intro known room n m full within inside _ _ _
  exact Creation.registers full within inside

end Container

/-! A clock with an inner dial, which refers to a motor. -/
namespace Clock

def constructor (type part : String) : Executable where
  declaring := .plainClass type
  kind := .constructor
  isPublic := true
  parameters := [⟨.plainClass part, none⟩]
  effect := .makes (.plainClass type)
  label := none

def definition (type part : String) (argument : DeclaredValue) : Definition :=
  { Definition.initial .initial with
    beanClass := some ⟨.plainClass type, [constructor type part], []⟩
    arguments := ⟨[], [⟨argument, none, none, none⟩]⟩ }

def dial : Definition := definition "Dial" "Motor" (.reference "motor")

def requests : List Request :=
  [.registerSingleton "motor" (.object (.plainClass "Motor") (.named "motor")),
    .define "clock" (definition "Clock" "Dial" (.inner dial)), .bean "clock" none]

def made : Container := ((Request.performAll requests).run (.new .initial)).2

theorem not_isInnerName_of_head {name : String} (head : name.toList.head? ≠ some '(') :
    ¬IsInnerName name := by
  rintro ⟨serial, rfl⟩
  simp at head

theorem requests_apart :
    ∀ request ∈ requests, ∀ name ∈ request.introduces, ¬IsInnerName name := by
  intro request member name introduced
  have listed : name ∈ ["motor", "clock"] := List.mem_flatMap.mpr ⟨request, member, introduced⟩
  apply not_isInnerName_of_head
  rcases List.mem_pair.mp listed with rfl | rfl <;> decide

theorem made_graph : made.graph = ⟨[⟨"motor", "(inner bean)#0"⟩]⟩ := by decide +kernel

/-- The dial inside the clock depends on the motor, and the clock does not. -/
theorem chains_end_at_inner_beans_of_clock :
    made.graph.dependencies "(inner bean)#0" = ["motor"] ∧
    made.graph.isDependent "(inner bean)#0" "clock" = false ∧
    made.graph.isDependent "motor" "clock" = false := by
  have fresh := Container.Reachable.initially
  obtain ⟨-, ends, hidden, -⟩ := fresh.chains_end_at_inner_beans (.new .initial) requests_apart
    (show _ = made from rfl)
  refine ⟨by rw [made_graph]; rfl, ends _ ⟨0, rfl⟩ "clock", hidden "motor" "clock" ?_ ?_⟩
  · intro inner leads
    have edge : (⟨"motor", inner⟩ : Edge) ∈ made.graph.edges := leads
    rw [made_graph] at edge
    exact ⟨0, congrArg Edge.dependent (List.mem_singleton.mp edge)⟩
  · exact not_isInnerName_of_head (by decide)

end Clock

end BeanWiring

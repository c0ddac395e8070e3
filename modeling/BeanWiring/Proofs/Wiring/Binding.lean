import BeanWiring.Proofs.Effects
import BeanWiring.Proofs.Wiring

/-!
What a bean is wired with while its arguments are found. Declared values wire it with the beans they
refer to. Autowired ones come from the beans they name, which are registered for it when all parameters
of an executable are bound, and not before.
-/
namespace BeanWiring

/-- How a value for a parameter of a type comes from the beans of the given names: it is the one bean,
or a container of all of them. What is no bean comes from none. -/
inductive Container.Supplies (c : Container) (type : BeanType) : List String → Value → Prop
  | point (point : InjectionPoint) : c.Supplies type [] (.point point)
  | empty {value : Value} : type.emptyValue? = some value → c.Supplies type [] value
  | one {name : String} {value : Value} : c.Provides name value → c.Supplies type [name] value
  | all {names : List String} {beans : List Value} :
      List.Forall₂ c.Provides names beans → c.Supplies type names (type.gather names beans)

def BoundArgument.SuppliedBy (c : Container) (type : BeanType) (a : BoundArgument)
    (names : List String) : Prop :=
  if a.provenance.isAutowired then c.Supplies type names a.argument else names = []

inductive Binding.SuppliedBy (c : Container) : List Parameter → Binding → List String → Prop
  | nil : SuppliedBy c [] [] []
  | cons {parameter : Parameter} {parameters : List Parameter} {a : BoundArgument} {b : Binding}
      {used names : List String} : a.SuppliedBy c parameter.type used →
      SuppliedBy c parameters b names →
      SuppliedBy c (parameter :: parameters) (a :: b) (used ++ names)

namespace Container.Wires

variable {c c' : Container} {path : List String} {bean : String} {names used : List String}

theorem supplies {type : BeanType} {value : Value} (later : c.Wires path bean names c')
    (supplies : c.Supplies type used value) : c'.Supplies type used value := by
  cases supplies with
  | point p => exact .point p
  | empty nothing => exact .empty nothing
  | one provides => exact .one (later.provides provides)
  | all provide => exact .all (provide.imp fun _ _ => later.provides)

theorem supplied {type : BeanType} {a : BoundArgument} (later : c.Wires path bean names c')
    (supplied : a.SuppliedBy c type used) : a.SuppliedBy c' type used := by
  unfold BoundArgument.SuppliedBy at supplied ⊢
  split at supplied
  · rename_i autowired
    rw [if_pos autowired]
    exact later.supplies supplied
  · rename_i declared
    rw [if_neg declared]
    exact supplied

theorem suppliedBy {parameters : List Parameter} {b : Binding}
    (later : c.Wires path bean names c') (supplied : b.SuppliedBy c parameters used) :
    b.SuppliedBy c' parameters used := by
  induction supplied with
  | nil => exact .nil
  | cons supplied _ ih => exact .cons (later.supplied supplied) ih

theorem knows (later : c.Wires path bean names c') {name : String} (knows : c.Knows name) :
    c'.Knows name := by
  rcases knows with defined | held
  · exact .inl (later.definitions ▸ defined)
  · obtain ⟨value, found⟩ := Option.isSome_iff_exists.mp held
    exact .inr (by rw [later.held name value found]; rfl)

end Container.Wires

variable {c : Container} {create : Creator} {ctx : Context} {path : List String} {bean : String}

theorem Realm.remembers_wires (path : List String) (bean : String) (c : Container) :
    Realm.Remembers (fun _ => True) (c.Wires path bean []) where
  registered _ _ _ _ _ := trivial
  rememberMethod _ _ _ wires _ _ _ := wires.frame rfl rfl List.prefix_rfl rfl

theorem Work.emit_spares (event : Event) :
    Spares path bean c (emit event)
      fun _ c' => c'.singletons = c.singletons ∧ c'.definitions = c.definitions :=
  ⟨(Container.Wires.refl c path bean).frame rfl rfl List.prefix_rfl rfl, rfl, rfl⟩

theorem Work.registerDependent_wires {name : String} (knows : c.Knows name) :
    Wires path bean c (registerDependent name bean) fun _ names _ => names = [name] :=
  ⟨[name], (Container.Wires.refl c path bean).connect knows, rfl⟩

namespace Attempt

theorem fetch_spares (creates : create.Wires) (name : String) (explicit : Option (List Value)) :
    Spares ctx.path bean c (fetch create ctx name explicit)
      fun value c' => c'.Knows name ∧ c'.Provides name value := by
  have registered {m : Container} {value : Value} (held : m.singletons.get? name = some value) :
      m.Knows name ∧ m.Provides name value := ⟨.inr (by rw [held]; rfl), .inl held⟩
  refine .get_bind ?_
  split
  · rename_i value cached
    have held : c.singletons.get? name = some value := by
      split at cached
      · exact cached
      · cases cached
    exact .bind (.lift (Work.emit_spares _)) fun _ m _ same => .pure (registered (same.1 ▸ held))
  · split
    · rename_i value _ held
      exact .pure (registered held)
    · exact .throw _
    · rename_i d defined
      have known : (c.definitions.get? name).isSome = true := by rw [defined]; rfl
      split
      · rename_i value _ held
        exact .pure (registered held)
      · rename_i nothing
        refine .bind (creates ctx name d explicit c bean) fun value m wires ⟨apart, _, absent⟩ => ?_
        have defined : (m.definitions.get? name).isSome = true := wires.definitions ▸ known
        have kept := (Container.Wires.refl m ctx.path bean).register apart defined (absent nothing) value
        have registers : Work.Spares ctx.path bean m (Work.registerSingleton name value)
            fun _ m => m.singletons.get? name = some value := ⟨kept, Registry.get?_insert_self _ _ _⟩
        exact .bind (.lift registers) fun _ m' _ held => .pure (registered held)
      · refine (creates ctx name d explicit c bean).mono fun value m wires ⟨_, gave, _⟩ => ?_
        exact ⟨.inl (wires.definitions ▸ known), .inr gave⟩

theorem evaluate_spares (text : String) :
    Spares path bean c (evaluate text) fun _ _ => True := by
  refine .get_bind ?_
  split
  · exact .pure trivial
  · exact .throw _

mutual

theorem resolveDeclared_wires (creates : create.Wires) (argumentName : String) {c : Container} :
    (declared : DeclaredValue) →
      Wires ctx.path bean c (resolveDeclared create ctx bean argumentName declared)
        fun _ names _ => names = declared.references
  | .value v => by
    rw [DeclaredValue.references]
    cases v with
    | str text =>
      exact (Wires.of_spares (evaluate_spares text)).mono fun _ _ _ _ nothing => nothing.1
    | _ => exact .pure rfl
  | .reference name => by
    rw [DeclaredValue.references]
    refine .bind_spares (.lift (Work.emit_spares _)) fun _ _ _ _ => ?_
    refine .bind_spares (fetch_spares creates name none) fun value m _ ⟨knows, _⟩ => ?_
    refine .bind (.lift (Work.registerDependent_wires knows)) fun _ _ _ _ only => ?_
    exact .pure (by rw [only]; rfl)
  | .inner d => by
    rw [DeclaredValue.references]
    have named : Work.Spares ctx.path bean c Work.nextInnerName fun _ _ => True :=
      ⟨(Container.Wires.refl c ctx.path bean).frame rfl rfl List.prefix_rfl rfl, trivial⟩
    refine .bind_spares (.lift named) fun name m _ _ => ?_
    exact (Wires.of_spares (creates ctx name d none m bean)).mono fun _ _ _ _ made => made.1
  | .list items => by
    rw [DeclaredValue.references]
    refine .bind (resolveDeclaredAll_wires creates argumentName items) fun _ names _ _ same => ?_
    exact .pure (by rw [same, List.append_nil])

theorem resolveDeclaredAll_wires (creates : create.Wires) (argumentName : String) {c : Container} :
    (items : List DeclaredValue) →
      Wires ctx.path bean c (resolveDeclaredAll create ctx bean argumentName items)
        fun _ names _ => names = DeclaredValue.referencesOfItems items
  | [] => by
    rw [DeclaredValue.referencesOfItems]
    exact .pure rfl
  | item :: rest => by
    rw [DeclaredValue.referencesOfItems]
    refine .bind (resolveDeclared_wires creates argumentName item) fun _ _ _ _ first => ?_
    refine .bind (resolveDeclaredAll_wires creates argumentName rest) fun _ _ _ _ others => ?_
    exact .pure (by rw [first, others, List.append_nil])

end

theorem resolveHolder_wires (creates : create.Wires) (h : Holder DeclaredValue) :
    Wires ctx.path bean c (resolveHolder create ctx bean h) fun _ names _ => names = h.references := by
  unfold resolveHolder Holder.references
  cases h.converted with
  | some value => exact .pure rfl
  | none =>
    refine .bind (resolveDeclared_wires creates _ h.value) fun _ _ _ _ same => ?_
    exact .pure (by rw [same, List.append_nil])

theorem mapM_wires {α β : Type} {f : α → Attempt β} (references : α → List String) {xs : List α}
    (each : ∀ x ∈ xs, ∀ c, Wires path bean c (f x) fun _ names _ => names = references x) :
    Wires path bean c (xs.mapM f) fun _ names _ => names = xs.flatMap references := by
  induction xs generalizing c with
  | nil => exact .pure rfl
  | cons x rest ih =>
    have later := fun y member => each y (List.mem_cons_of_mem x member)
    rw [List.mapM_cons, List.flatMap_cons]
    refine .bind (each x List.mem_cons_self c) fun _ _ _ _ first => ?_
    refine .bind (ih later) fun _ _ _ _ others => ?_
    exact .pure (by rw [first, others, List.append_nil])

theorem resolveArguments_wires (creates : create.Wires) (d : Definition) :
    Wires ctx.path bean c (resolveArguments create ctx bean d)
      fun _ names _ => names = d.references := by
  have all : d.references = d.arguments.indexed.flatMap (·.2.references) ++
      d.arguments.generic.flatMap Holder.references := by
    unfold Blueprint.references ArgumentValues.holders
    rw [List.flatMap_append, List.flatMap_map]
  rw [all]
  refine .bind (mapM_wires (·.2.references) fun (index, h) _ c => ?_) fun _ _ _ _ indexed => ?_
  · refine .bind (resolveHolder_wires creates h) fun _ _ _ _ same => ?_
    exact .pure (by rw [same, List.append_nil])
  · refine .bind (mapM_wires _ fun h _ c => resolveHolder_wires creates h) fun _ _ _ _ generic => ?_
    exact .pure (by rw [indexed, generic, List.append_nil])

end Attempt

theorem Container.pick_ne_nothing {point : InjectionPoint} {names : List String} {choice : Choice}
    (picked : c.pick point true names = .ok choice) : choice ≠ .nothing := by
  rintro rfl
  unfold pick at picked
  split at picked
  · cases picked
  · cases picked
  · cases picked
  · cases picked
  · cases chosen : c.determine point.type point.name _ <;> rw [chosen] at picked <;> cases picked

namespace Work

section Lookup

variable {fetch : String → Attempt Value}
  (fetches : ∀ name c, Attempt.Spares path bean c (fetch name)
    fun value c' => c'.Knows name ∧ c'.Provides name value)
include fetches

theorem mapM_fetch_spares (names : List String) (c : Container) :
    Attempt.Spares path bean c (names.mapM fetch)
      fun beans c' => (∀ name ∈ names, c'.Knows name) ∧ List.Forall₂ c'.Provides names beans := by
  induction names generalizing c with
  | nil => exact .pure ⟨nofun, .nil⟩
  | cons name rest ih =>
    rw [List.mapM_cons]
    refine .bind (fetches name c) fun bean m _ ⟨knows, provides⟩ => ?_
    refine .bind (ih m) fun beans c' later ⟨others, provide⟩ => ?_
    refine .pure ⟨?_, .cons (later.provides provides) provide⟩
    exact List.forall_mem_cons.mpr ⟨later.knows knows, others⟩

theorem gather_spares (type : BeanType) (choice : Choice) :
    Spares path bean c (gather fetch type choice) fun lookup c' =>
      choice ≠ .nothing → ∀ value, lookup.result = .ok value →
        (∀ name ∈ lookup.names, c'.Knows name) ∧ c'.Supplies type lookup.names value := by
  cases choice with
  | nothing => exact .pure fun meant => absurd rfl meant
  | one name =>
    refine .bind (fetches name c) fun r m _ holds => .pure fun _ value same => ?_
    obtain ⟨knows, provides⟩ := holds value same
    exact ⟨List.forall_mem_singleton.mpr knows, .one provides⟩
  | all names =>
    refine .bind (mapM_fetch_spares fetches names c) fun r m _ holds => ?_
    cases r with
    | error e => exact .pure fun _ => nofun
    | ok beans =>
      refine .pure fun _ value same => ?_
      cases same
      obtain ⟨known, provide⟩ := holds beans rfl
      exact ⟨known, .all provide⟩

theorem resolveDependency_spares (point : InjectionPoint) (requester : String) (required : Bool) :
    Spares path bean c (resolveDependency fetch point requester required) fun lookup c' =>
      required = true → ∀ value, lookup.result = .ok value →
        (∀ name ∈ lookup.names, c'.Knows name) ∧ c'.Supplies point.type lookup.names value := by
  have chooses : Spares path bean c (choose point requester required) fun r _ =>
      required = true → ∀ choice, r = .ok choice → choice ≠ .nothing := by
    have agree := (Realm.remembers_wires path bean c).choose point requester required
    refine ⟨(Spares.of_agree agree).1, ?_⟩
    rintro rfl choice same
    exact Container.pick_ne_nothing same
  refine .bind chooses fun r m _ meant => ?_
  cases r with
  | error e => exact .pure fun _ => nofun
  | ok choice =>
    have gathers := gather_spares fetches (c := m) point.type choice
    exact ⟨gathers.1, fun must => gathers.2 (meant must choice rfl)⟩

end Lookup

theorem autowired_supplies {lookup : Lookup} {type : BeanType} {fallback : Bool} {found : Autowired}
    (supplies : ∀ value, lookup.result = .ok value →
      (∀ name ∈ lookup.names, c.Knows name) ∧ c.Supplies type lookup.names value)
    (made : lookup.autowired type fallback = .ok found) :
    (∀ name ∈ found.names, c.Knows name) ∧ c.Supplies type found.names found.value := by
  unfold Lookup.autowired at made
  split at made
  · rename_i value result
    cases made
    exact supplies value result
  · split at made
    · rename_i value empty
      cases made
      split at empty
      · exact ⟨nofun, .empty empty⟩
      · cases empty
    · cases made

theorem autowire_spares (creates : create.Wires) (requester : String) (point : InjectionPoint)
    (fallback : Bool) :
    Attempt.Spares ctx.path bean c (autowire (Attempt.fetcher create) ctx requester point fallback)
      fun found c' => (∀ name ∈ found.names, c'.Knows name) ∧
        c'.Supplies point.type found.names found.value := by
  have fetches : ∀ name c, Attempt.Spares (ctx.push point).path bean c
      (Attempt.fetcher create (ctx.push point) name) _ :=
    fun name c => Attempt.fetch_spares creates name none
  unfold autowire
  split
  · split
    · exact .pure ⟨nofun, .point _⟩
    · exact .throw _
  · refine .bind (.lift (resolveDependency_spares fetches point requester true)) ?_
    intro lookup m _ found
    refine Attempt.Spares.except.mono ?_
    rintro a c' _ ⟨made, rfl⟩
    exact autowired_supplies (found rfl) made

theorem registerAutowired_wires (noun : String) (names : List String)
    (known : ∀ name ∈ names, c.Knows name) :
    Wires path bean c (registerAutowired bean noun names) fun _ wired _ => wired = names := by
  induction names generalizing c with
  | nil => exact .pure rfl
  | cons name rest ih =>
    obtain ⟨knows, others⟩ := List.forall_mem_cons.mp known
    refine .bind (registerDependent_wires knows) fun _ _ m wires only => ?_
    refine .bind (.of_spares (emit_spares _)) ?_
    rintro _ _ m' later ⟨rfl, -⟩
    refine (ih fun name member => ?_).mono fun _ _ _ _ same => ?_
    · exact later.knows (wires.knows (others name member))
    · rw [only, same]
      rfl

section Binding

variable (creates : create.Wires) (autowiring fallback : Bool) (e : Executable)
  (values : ArgumentValues ResolvedValue)
include creates

theorem bindParameter_spares (index : Nat) (parameter : Parameter) (p : Progress) :
    Attempt.Spares ctx.path bean c
      (bindParameter ⟨Attempt.fetcher create, ctx, bean, autowiring, fallback⟩ e values index
        parameter p)
      fun p' c' => ∃ a used, p'.bound = p.bound ++ [a] ∧
        (∀ name, name ∈ p'.names ↔ name ∈ p.names ∨ name ∈ used) ∧
        (∀ name ∈ used, c'.Knows name) ∧ a.SuppliedBy c' parameter.type used := by
  unfold bindParameter
  dsimp only
  split
  · rename_i slot h _
    refine .bind .liftM fun a m _ ⟨made, _⟩ => .pure ⟨a, [], rfl, by simp, nofun, ?_⟩
    unfold BoundArgument.SuppliedBy
    rw [Binding.ofHolder_provenance made]
    rfl
  · split
    · refine .bind (.lift (autowire_spares creates bean _ fallback).result) fun r m _ found => ?_
      cases r with
      | error failure => exact .throw _
      | ok a =>
        obtain ⟨⟨knows, supplies⟩, run⟩ := found a rfl
        refine .pure ⟨_, a.names, rfl, fun name => ?_, knows, ?_⟩
        · rw [Graph.mem_distinct, List.mem_append]
        · unfold BoundArgument.SuppliedBy
          rw [if_pos (autowire_ok run)]
          exact supplies
    · exact .throw _

theorem bindFrom_spares (index : Nat) (parameters : List Parameter) (p : Progress) (c : Container) :
    Attempt.Spares ctx.path bean c
      (bindFrom ⟨Attempt.fetcher create, ctx, bean, autowiring, fallback⟩ e values index parameters p)
      fun p' c' => ∃ b used, p'.bound = p.bound ++ b ∧
        (∀ name, name ∈ p'.names ↔ name ∈ p.names ∨ name ∈ used) ∧
        (∀ name ∈ used, c'.Knows name) ∧ Binding.SuppliedBy c' parameters b used := by
  induction parameters generalizing index p c with
  | nil => exact .pure ⟨[], [], by simp, by simp, nofun, .nil⟩
  | cons parameter rest ih =>
    refine .bind (bindParameter_spares creates autowiring fallback e values index parameter p) ?_
    intro q m _ ⟨a, used, bound, named, knows, supplied⟩
    refine (ih (index + 1) q m).mono ?_
    rintro p' c' later ⟨b, more, bound', named', knows', supplied'⟩
    refine ⟨a :: b, used ++ more, ?_, fun name => ?_, ?_, .cons (later.supplied supplied) supplied'⟩
    · rw [bound', bound, List.append_assoc]
      rfl
    · rw [named', named, List.mem_append, or_assoc]
    · exact List.forall_mem_append.mpr ⟨fun name member => later.knows (knows name member), knows'⟩

theorem bindDeclared_wires :
    Wires ctx.path bean c
      (bindDeclared ⟨Attempt.fetcher create, ctx, bean, autowiring, fallback⟩ e values).run
      fun r names c' => (∀ failure, r = .error failure → names = []) ∧
        ∀ b, r = .ok b → b.SuppliedBy c' e.parameters names := by
  refine Wires.bind (f := ExceptT.bindCont fun p : Progress => do
    registerAutowired bean e.noun p.names
    pure p.bound)
    (.of_spares (bindFrom_spares creates autowiring fallback e values 0 e.parameters ⟨[], [], []⟩ c)) ?_
  rintro r _ m wires ⟨rfl, bound⟩
  cases r with
  | error failure => exact .pure ⟨fun _ _ => rfl, nofun⟩
  | ok p =>
    obtain ⟨b, used, same, named, knows, supplied⟩ := bound p rfl
    have named : ∀ name, name ∈ p.names ↔ name ∈ used := fun name => (named name).trans (by simp)
    have registers : Wires ctx.path bean m (registerAutowired bean e.noun p.names)
        fun _ wired _ => wired = p.names :=
      registerAutowired_wires e.noun p.names fun name member => knows name ((named name).mp member)
    obtain ⟨_, registers, rfl⟩ := registers
    refine ⟨used, registers.congr_names named, nofun, fun b' given => ?_⟩
    cases given
    rw [same]
    exact registers.suppliedBy supplied

end Binding

end Work

end BeanWiring

import BeanWiring.Container.Fetching
import BeanWiring.Proofs.Conversion
import BeanWiring.Proofs.Registry
import BeanWiring.Proofs.Work

/-!
Containers in which every bean but one is there already. What is looked up for that one bean is then
the same in all containers like this one, wherever the request stands, and looking it up changes
nothing but the journal's events and the graph.
-/
namespace BeanWiring

variable {α β ε : Type}

namespace Container

/-- Both containers have the same definitions, singletons, classes and properties. -/
structure Alike (c c₀ : Container) : Prop where
  definitions : c.definitions = c₀.definitions
  singletons : c.singletons = c₀.singletons
  classes : c.classes = c₀.classes
  properties : c.properties = c₀.properties

/-- Every bean but the named one is a singleton that is there. -/
def Settled (c : Container) (bean : String) : Prop :=
  ∀ name d, c.definitions.get? name = some d → name ≠ bean → ∃ v, c.singletons.get? name = some v

/-- The second container differs from the first only in its events and its graph. -/
def Quiet (c c' : Container) : Prop :=
  ∃ events graph, c' = { c with events := events, graph := graph }

theorem Alike.refl (c : Container) : c.Alike c := ⟨rfl, rfl, rfl, rfl⟩

theorem Alike.trans {c₁ c₂ c₃ : Container} (first : c₁.Alike c₂) (second : c₂.Alike c₃) :
    c₁.Alike c₃ :=
  ⟨first.definitions.trans second.definitions, first.singletons.trans second.singletons,
    first.classes.trans second.classes, first.properties.trans second.properties⟩

theorem Quiet.alike {c c' : Container} (quiet : c.Quiet c') : c'.Alike c := by
  obtain ⟨events, graph, rfl⟩ := quiet
  exact ⟨rfl, rfl, rfl, rfl⟩

theorem Quiet.trans {c₁ c₂ c₃ : Container} (first : c₁.Quiet c₂) (second : c₂.Quiet c₃) :
    c₁.Quiet c₃ := by
  obtain ⟨events, graph, rfl⟩ := first
  obtain ⟨events', graph', rfl⟩ := second
  exact ⟨events', graph', rfl⟩

theorem Alike.quiet {c c₀ : Container} (alike : c.Alike c₀) (events : List Event) (graph : Graph) :
    Alike { c with events := events, graph := graph } c₀ :=
  ⟨alike.definitions, alike.singletons, alike.classes, alike.properties⟩

end Container

/-- In all containers like `c₀` the work gives `a` and changes only the events and the graph. -/
def Work.Gives (c₀ : Container) (x : Work α) (a : α) : Prop :=
  ∀ c, c.Alike c₀ → ∃ events graph, x.run c = (a, { c with events := events, graph := graph })

def Attempt.Gives (c₀ : Container) (x : ExceptT ε Work α) (r : Except ε α) : Prop :=
  Work.Gives c₀ x.run r

variable {c₀ : Container} {bean : String}

namespace Work.Gives

theorem pure (a : α) : Gives c₀ (Pure.pure a) a := fun c _ => ⟨c.events, c.graph, rfl⟩

theorem bind {x : Work α} {f : α → Work β} {a : α} {b : β} (first : Gives c₀ x a)
    (rest : Gives c₀ (f a) b) : Gives c₀ (x >>= f) b := by
  intro c alike
  obtain ⟨events, graph, run⟩ := first c alike
  rw [run_bind, run]
  exact rest _ (alike.quiet events graph)

theorem get_bind {f : Container → Work β} {b : β}
    (rest : ∀ c, c.Alike c₀ → Gives c₀ (f c) b) : Gives c₀ (get >>= f) b :=
  fun c alike => rest c alike c alike

theorem emit (event : Event) : Gives c₀ (Work.emit event) () := fun _ _ => ⟨_, _, rfl⟩

theorem registerDependent (dependency dependent : String) :
    Gives c₀ (Work.registerDependent dependency dependent) () := fun _ _ => ⟨_, _, rfl⟩

end Work.Gives

namespace Attempt.Gives

theorem pure (a : α) : Gives c₀ (Pure.pure a : ExceptT ε Work α) (.ok a) := Work.Gives.pure _

theorem throw (e : ε) : Gives c₀ (throw e : ExceptT ε Work α) (.error e) := Work.Gives.pure _

theorem except (r : Except ε α) : Gives c₀ (liftExcept r : ExceptT ε Work α) r := by
  intro c _
  exact ⟨c.events, c.graph, run_liftExcept r c⟩

theorem liftM (r : Except ε α) : Gives c₀ (MonadLiftT.monadLift r : ExceptT ε Work α) r := by
  cases r with
  | error e => exact throw e
  | ok a => exact pure a

theorem lift {x : Work α} {a : α} (gives : Work.Gives c₀ x a) :
    Gives c₀ (MonadLiftT.monadLift x : ExceptT ε Work α) (.ok a) := by
  intro c alike
  obtain ⟨events, graph, run⟩ := gives c alike
  refine ⟨events, graph, ?_⟩
  change ((.ok (x.run c).1 : Except ε α), (x.run c).2) = _
  rw [run]

theorem bind {x : ExceptT ε Work α} {f : α → ExceptT ε Work β} {a : α} {r : Except ε β}
    (first : Gives c₀ x (.ok a)) (rest : Gives c₀ (f a) r) : Gives c₀ (x >>= f) r := by
  intro c alike
  obtain ⟨events, graph, run⟩ := first c alike
  obtain ⟨events', graph', run'⟩ := rest _ (alike.quiet events graph)
  exact ⟨events', graph', (run_bind_of_ok run).trans run'⟩

theorem bind_error {x : ExceptT ε Work α} {f : α → ExceptT ε Work β} {e : ε}
    (first : Gives c₀ x (.error e)) : Gives c₀ (x >>= f) (.error e) := by
  intro c alike
  obtain ⟨events, graph, run⟩ := first c alike
  exact ⟨events, graph, run_bind_of_error run⟩

theorem get_bind {f : Container → Attempt β} {r : Except BeanError β}
    (rest : ∀ c, c.Alike c₀ → Gives c₀ (f c) r) : Gives c₀ (get >>= f) r :=
  fun c alike => rest c alike c alike

theorem mapM {xs : List α} {ys : List β} {f : α → ExceptT ε Work β}
    (each : List.Forall₂ (fun a b => Gives c₀ (f a) (.ok b)) xs ys) :
    Gives c₀ (xs.mapM f) (.ok ys) := by
  induction each with
  | nil => exact pure []
  | cons first _ ih =>
    rw [List.mapM_cons]
    exact bind first (bind ih (pure _))

end Attempt.Gives

theorem Work.Gives.run_eq {x : Work α} {a a' : α} {c c' : Container} (gives : Gives c₀ x a)
    (alike : c.Alike c₀) (run : x.run c = (a', c')) : a' = a ∧ c.Quiet c' := by
  obtain ⟨events, graph, given⟩ := gives c alike
  have same : (a', c') = (a, { c with events := events, graph := graph }) := run.symm.trans given
  exact ⟨congrArg Prod.fst same, events, graph, congrArg Prod.snd same⟩

theorem Attempt.Gives.run_eq {x : ExceptT ε Work α} {r r' : Except ε α} {c c' : Container}
    (gives : Gives c₀ x r) (alike : c.Alike c₀) (run : x.run.run c = (r', c')) :
    r' = r ∧ c.Quiet c' :=
  Work.Gives.run_eq gives alike run

section Prediction

theorem Work.predict_gives {name : String} {v : Value} (held : c₀.singletons.get? name = some v) :
    Work.Gives c₀ (Work.predict name) v.runtimeType := by
  refine .get_bind fun c _ => ?_
  have there (c : Container) (alike : c.Alike c₀) : c.singletons.get? name = some v := by
    rw [alike.singletons, held]
  cases c.definitions.entries.length
  all_goals
    refine .get_bind fun c alike => ?_
    rw [there c alike]
    exact .pure _

namespace Container

def holdsFitting (c : Container) (type : BeanType) (name : String) : Bool :=
  ((c.singletons.get? name).bind Value.runtimeType).any type.accepts

theorem exists_fits_of_holdsFitting {c : Container} {type : BeanType} {name : String}
    (holds : c.holdsFitting type name = true) :
    ∃ v, c.singletons.get? name = some v ∧ type.fits v = true := by
  unfold holdsFitting at holds
  cases held : c.singletons.get? name with
  | none => simp [held] at holds
  | some v =>
    cases typed : v.runtimeType with
    | none => simp [held, typed] at holds
    | some valueType =>
      have accepts : type.accepts valueType = true := by simpa [held, typed] using holds
      exact ⟨v, rfl, by simpa [BeanType.fits, typed] using accepts⟩

theorem Settled.exists_of_mem_beanNames (settled : c₀.Settled bean) {name : String}
    (member : name ∈ c₀.beanNames) (other : name ≠ bean) :
    ∃ v, c₀.singletons.get? name = some v := by
  rcases List.mem_append.mp member with defined | held
  · obtain ⟨d, found⟩ := Registry.exists_of_mem_keys defined
    exact settled name d found other
  · exact Registry.exists_of_mem_keys (List.mem_of_mem_filter held)

theorem determine_mem {c : Container} {type : BeanType} {parameterName : Option String}
    {candidates : List String} {name : String}
    (determined : c.determine type parameterName candidates = .ok name) : name ∈ candidates := by
  unfold determine at determined
  split at determined
  · cases determined
  · rename_i primary
    cases determined
    unfold primary? at primary
    split at primary
    · cases primary
    · rename_i single
      cases primary
      exact List.mem_of_mem_filter (single ▸ List.mem_singleton_self name)
    · cases primary
  · split at determined
    · rename_i called
      cases determined
      obtain ⟨wanted, -, found⟩ := Option.bind_eq_some_iff.mp called
      exact List.mem_of_find?_eq_some found
    · cases determined

theorem Alike.pick_eq {c : Container} (alike : c.Alike c₀) (point : InjectionPoint)
    (required : Bool) (names : List String) :
    c.pick point required names = c₀.pick point required names := by
  unfold pick determine primary?
  rw [alike.definitions]

end Container

theorem Work.matching_gives {type : BeanType} {names : List String}
    (held : ∀ name ∈ names, ∃ v, c₀.singletons.get? name = some v) :
    Work.Gives c₀ (Work.matching type names) (names.filter (c₀.holdsFitting type)) := by
  induction names with
  | nil => exact .pure []
  | cons name rest ih =>
    obtain ⟨v, there⟩ := held name List.mem_cons_self
    have later := ih fun name member => held name (List.mem_cons_of_mem _ member)
    have first : Work.Gives c₀ (Work.isTypeMatch name type) (c₀.holdsFitting type name) := by
      rw [Container.holdsFitting, there]
      exact (predict_gives there).bind (.pure _)
    refine first.bind ?_
    cases holds : c₀.holdsFitting type name with
    | true =>
      rw [List.filter_cons_of_pos holds]
      exact later.bind (.pure _)
    | false =>
      rw [List.filter_cons_of_neg (by simp [holds])]
      exact later

def Container.fitting (c : Container) (bean : String) (type : BeanType) : List String :=
  (c.beanNames.filter (· != bean)).filter (c.holdsFitting type)

theorem Work.candidatesFor_gives (settled : c₀.Settled bean) (type : BeanType) :
    Work.Gives c₀ (Work.candidatesFor bean type) (c₀.fitting bean type) := by
  refine .get_bind fun c alike => ?_
  have names : c.beanNames = c₀.beanNames := by
    unfold Container.beanNames
    rw [alike.definitions, alike.singletons]
  rw [names]
  refine matching_gives fun name member => ?_
  obtain ⟨named, other⟩ := List.mem_filter.mp member
  exact settled.exists_of_mem_beanNames named (by simpa using other)

end Prediction

section Lookup

def Choice.IsHeld (c : Container) (type : BeanType) : Choice → Prop
  | .nothing => False
  | .one name => ∃ v, c.singletons.get? name = some v ∧ type.fits v = true
  | .all names => type.element?.isSome ∧ ∀ name ∈ names, ∃ v, c.singletons.get? name = some v

theorem Container.pick_isHeld {c : Container} {point : InjectionPoint} {names : List String}
    {choice : Choice} (picked : c.pick point true names = .ok choice)
    (held : ∀ name ∈ names, ∃ v, c.singletons.get? name = some v ∧
      (point.type.element?.getD point.type).fits v = true) : choice.IsHeld c point.type := by
  unfold pick at picked
  cases items : point.type.element? with
  | some element =>
    rw [items] at picked
    cases names with
    | nil => cases picked
    | cons name rest =>
      cases picked
      refine ⟨by rw [items]; rfl, fun name member => ?_⟩
      obtain ⟨v, there, -⟩ := held name member
      exact ⟨v, there⟩
  | none =>
    rw [items] at picked held
    match names with
    | [] => cases picked
    | [name] =>
      cases picked
      exact held name List.mem_cons_self
    | name :: other :: rest =>
      cases determined : c.determine point.type point.name (name :: other :: rest) with
      | error e => simp [determined, Except.map] at picked
      | ok chosen =>
        simp only [determined, Except.map, Except.ok.injEq] at picked
        subst picked
        exact held chosen (determine_mem determined)

theorem Work.choose_gives (settled : c₀.Settled bean) (point : InjectionPoint) :
    ∃ r, Work.Gives c₀ (Work.choose point bean true) r ∧
      ∀ choice, r = .ok choice → choice.IsHeld c₀ point.type := by
  let type := point.type.element?.getD point.type
  refine ⟨c₀.pick point true (c₀.fitting bean type), ?_, fun choice picked => ?_⟩
  · refine (candidatesFor_gives settled type).bind (.get_bind fun c alike => ?_)
    rw [alike.pick_eq]
    exact .pure _
  · refine Container.pick_isHeld picked fun name member => ?_
    exact Container.exists_fits_of_holdsFitting (List.mem_filter.mp member).2

theorem BeanType.fits_gather {type : BeanType} (items : type.element?.isSome) (names : List String)
    (beans : List Value) : type.fits (type.gather names beans) = true := by
  cases type with
  | array element => exact accepts_self _
  | collection kind element => cases kind <;> rfl
  | map key value => rfl
  | _ => cases items

theorem BeanType.fits_emptyValue {type : BeanType} {v : Value} (empty : type.emptyValue? = some v) :
    type.fits v = true := by
  cases type with
  | array element =>
    cases empty
    exact accepts_self _
  | collection kind element => cases kind <;> cases empty <;> rfl
  | map key value =>
    cases empty
    rfl
  | _ => cases empty

theorem Work.gather_gives {type : BeanType} {choice : Choice} (held : choice.IsHeld c₀ type) :
    ∃ lookup, (∀ v, lookup.result = .ok v → type.fits v = true) ∧
      ∀ fetch : String → Attempt Value,
        (∀ name v, c₀.singletons.get? name = some v → Attempt.Gives c₀ (fetch name) (.ok v)) →
        Work.Gives c₀ (Work.gather fetch type choice) lookup := by
  cases choice with
  | nothing => cases held
  | one name =>
    obtain ⟨v, there, fits⟩ := held
    refine ⟨⟨[name], .ok v⟩, fun w same => Except.ok.inj same ▸ fits, fun fetch fetches => ?_⟩
    exact (show Work.Gives c₀ (fetch name).run _ from fetches name v there).bind (.pure _)
  | all names =>
    obtain ⟨items, each⟩ := held
    let beans := names.map fun name => (c₀.singletons.get? name).getD .null
    refine ⟨⟨names, .ok (type.gather names beans)⟩, fun w same => ?_, fun fetch fetches => ?_⟩
    · exact Except.ok.inj same ▸ type.fits_gather items names beans
    · have fetched : Attempt.Gives c₀ (names.mapM fetch) (.ok beans) := by
        refine .mapM (List.forall₂_map_right_iff.mpr (List.forall₂_same.mpr fun name member => ?_))
        obtain ⟨v, there⟩ := each name member
        rw [there]
        exact fetches name v there
      exact Work.Gives.bind fetched (.pure _)

end Lookup

theorem Attempt.fetch_gives {name : String} {v : Value} (held : c₀.singletons.get? name = some v)
    (create : Creator) (ctx : Context) :
    Attempt.Gives c₀ (Attempt.fetch create ctx name none) (.ok v) := by
  refine .get_bind fun c alike => ?_
  have there : c.singletons.get? name = some v := by rw [alike.singletons, held]
  simp only [Option.isNone_none, if_true, there]
  exact (Attempt.Gives.lift (.emit _)).bind (.pure _)

/-- What is found for a parameter hangs neither on where the request stands nor on how beans are
created, and it fits the parameter. -/
theorem Work.autowire_gives (settled : c₀.Settled bean) (point : InjectionPoint)
    (ordinary : BeanType.injectionPoint.accepts point.type = false) :
    ∃ lookup : Lookup, (∀ v, lookup.result = .ok v → point.type.fits v = true) ∧
      ∀ create ctx fallback,
        Attempt.Gives c₀ (Work.autowire (Attempt.fetcher create) ctx bean point fallback)
          (lookup.autowired point.type fallback) := by
  obtain ⟨r, chosen, held⟩ := choose_gives settled point
  obtain ⟨lookup, fits, found⟩ : ∃ lookup : Lookup,
      (∀ v, lookup.result = .ok v → point.type.fits v = true) ∧
      ∀ create ctx, Work.Gives c₀
        (Work.resolveDependency (Attempt.fetcher create ctx) point bean true) lookup := by
    cases r with
    | error e => exact ⟨⟨[], .error e⟩, nofun, fun create ctx => chosen.bind (.pure _)⟩
    | ok choice =>
      obtain ⟨lookup, fits, gathered⟩ := gather_gives (held choice rfl)
      refine ⟨lookup, fits, fun create ctx => chosen.bind (gathered _ fun name v there => ?_)⟩
      exact Attempt.fetch_gives there create ctx
  refine ⟨lookup, fits, fun create ctx fallback => ?_⟩
  unfold Work.autowire
  rw [ordinary]
  exact (Attempt.Gives.lift (found create _)).bind (.except _)

namespace Lookup

variable {lookup : Lookup} {type : BeanType} {fallback : Bool} {found : Autowired}

theorem autowired_true_of_ok (made : lookup.autowired type fallback = .ok found) :
    lookup.autowired type true = .ok found := by
  unfold autowired at made ⊢
  split at made
  · exact made
  · rename_i e _
    cases fallback with
    | true => exact made
    | false => cases made

theorem autowired_fits (fits : ∀ v, lookup.result = .ok v → type.fits v = true)
    (made : lookup.autowired type fallback = .ok found) : type.fits found.value = true := by
  unfold autowired at made
  split at made
  · rename_i value same
    cases made
    exact fits value same
  · split at made
    · rename_i nothing empty
      cases made
      split at empty
      · exact BeanType.fits_emptyValue empty
      · cases empty
    · cases made

end Lookup

end BeanWiring

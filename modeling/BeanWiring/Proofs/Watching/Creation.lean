import BeanWiring.Proofs.OneAttempt
import BeanWiring.Proofs.Repetition
import BeanWiring.Proofs.Watching.Effects
import BeanWiring.Proofs.Watching.Sameness

/-!
Creation does the same in the two containers of a watch. A declared unique factory method that only one
of them remembers is the only candidate in the other; what a creation keeps is in step with what its
invocation gives.
-/
namespace BeanWiring

variable {w : Watch} {given : Prop} {c c' : Container}

def Creator.Same (w : Watch) (create : Creator) : Prop :=
  ∀ ctx bean d explicit, Attempt.Same w (w.opening.Uses d) (create ctx bean d explicit)
    (w.Still (w.Suits bean))

theorem Work.registerSingleton_same (opens : w.Opens) {name : String} {value : Value}
    (suits : given → w.Suits name value) :
    Work.Same w given (Work.registerSingleton name value) (w.Still fun _ => True) where
  grows _ := ⟨List.prefix_rfl, List.prefix_rfl⟩
  alike fulfilled _ _ pair _ := ⟨rfl, pair.registerSingleton opens (suits fulfilled), trivial⟩

namespace Attempt

variable {create : Creator} {ctx : Context} {bean : String}

theorem evaluate_same (text : String) : Same w given (evaluate text) (w.Still fun _ => True) := by
  refine .get_bind (fun _ _ => rfl) fun c => ?_
  split
  · exact .pure fun _ => trivial
  · exact .throw _

theorem fetch_same (opens : w.Opens) (creates : create.Same w) (ctx : Context) (name : String)
    (explicit : Option (List Value)) :
    Same w given (fetch create ctx name explicit) (w.Still (w.Suits name)) := by
  refine .get_bind (fun _ _ => rfl) fun c => ?_
  have suits {value : Value} (held : c.singletons.get? name = some value) :
      (given ∧ ∃ c', w.Pair c c') → w.Suits name value := by
    rintro ⟨-, c', pair⟩
    exact pair.plain.suits_of_held held
  split
  · rename_i value cached
    refine .bind (.lift (Work.emit_same _)) fun _ => .pure fun fulfilled => suits ?_ fulfilled.1
    split at cached
    · exact cached
    · cases cached
  · split
    · rename_i value _ held
      exact .pure (suits held)
    · exact .throw _
    · rename_i d registered
      have asked : (given ∧ ∃ c', w.Pair c c') → w.opening.definitions.get? name = some d := by
        rintro ⟨-, c', pair⟩
        rw [← pair.plain.definitions, registered]
      have creates := (creates ctx name d explicit).provided fun fulfilled =>
        Container.uses_of_registered (asked fulfilled)
      split
      · rename_i value _ held
        exact .pure (suits held)
      · refine .bind creates fun value => ?_
        refine .bind (.lift (Work.registerSingleton_same opens fun fulfilled => ?_)) fun _ => ?_
        · exact fulfilled.2
        · exact .pure fun fulfilled => fulfilled.1.2
      · exact creates

theorem fetcher_same (opens : w.Opens) (creates : create.Same w) (ctx : Context) (name : String) :
    Same w given (fetcher create ctx name) (w.Still fun _ => True) :=
  (fetch_same opens creates ctx name none).mono fun _ _ _ _ still => ⟨still.1, trivial⟩

mutual

theorem resolveDeclared_same (opens : w.Opens) (creates : create.Same w) (argumentName : String) :
    (declared : DeclaredValue) → (given → ∀ inner ∈ declared.family, w.opening.Uses inner) →
      Same w given (resolveDeclared create ctx bean argumentName declared) (w.Still fun _ => True)
  | .value v, _ => by
    cases v with
    | str text => exact evaluate_same text
    | _ => exact .pure fun _ => trivial
  | .reference name, _ => by
    refine .bind (.lift (Work.emit_same _)) fun _ => ?_
    refine .bind (fetch_same opens creates ctx name none) fun value => ?_
    exact .bind (.lift (Work.registerDependent_same _ _)) fun _ => .pure fun _ => trivial
  | .inner d, inside => by
    have own : d ∈ (DeclaredValue.inner d).family := by
      rw [DeclaredValue.family, DeclaredValue.familyOfDefinition_eq]
      exact List.mem_cons_self
    refine .bind (.lift Work.nextInnerName_same) fun name => ?_
    have made : Same w (given ∧ True) (create ctx name d none) _ :=
      (creates ctx name d none).provided fun fulfilled => inside fulfilled.1 d own
    exact made.mono fun _ _ _ _ still => ⟨still.1, trivial⟩
  | .list items, inside =>
    .bind (resolveDeclaredAll_same opens creates argumentName items inside) fun _ =>
      .pure fun _ => trivial

theorem resolveDeclaredAll_same (opens : w.Opens) (creates : create.Same w) (argumentName : String) :
    (items : List DeclaredValue) →
      (given → ∀ inner ∈ DeclaredValue.familyOfItems items, w.opening.Uses inner) →
      Same w given (resolveDeclaredAll create ctx bean argumentName items) (w.Still fun _ => True)
  | [], _ => .pure fun _ => trivial
  | item :: rest, inside => by
    refine .bind (resolveDeclared_same opens creates argumentName item
      fun fulfilled inner member => ?_) fun _ => ?_
    · exact inside fulfilled inner (List.mem_append_left _ member)
    · have others := resolveDeclaredAll_same opens creates argumentName rest fun fulfilled inner member =>
        inside fulfilled inner (List.mem_append_right _ member)
      exact .bind (others.provided And.left) fun _ => .pure fun _ => trivial

end

section Arguments

variable (opens : w.Opens) (creates : create.Same w)
include opens creates

theorem resolveHolder_same (h : Holder DeclaredValue)
    (inside : given → ∀ inner ∈ h.value.family, w.opening.Uses inner) :
    Same w given (resolveHolder create ctx bean h) (w.Still fun _ => True) := by
  unfold resolveHolder
  split
  · exact .pure fun _ => trivial
  · exact .bind (resolveDeclared_same opens creates _ h.value inside) fun _ => .pure fun _ => trivial

theorem resolveArguments_same {d : Definition} (used : given → w.opening.Uses d) :
    Same w given (resolveArguments create ctx bean d) (w.Still fun _ => True) := by
  have inside {h : Holder DeclaredValue} (held : h ∈ d.arguments.holders) :
      given → ∀ inner ∈ h.value.family, w.opening.Uses inner :=
    fun fulfilled _ within => (used fulfilled).inside held within
  refine .bind (.mapM fun (index, h) member => ?_) fun _ => ?_
  · have held : h ∈ d.arguments.holders := List.mem_append_left _ (List.mem_map_of_mem member)
    exact .bind (resolveHolder_same opens creates h (inside held)) fun _ => .pure fun _ => trivial
  · refine .bind (.mapM fun h member => ?_) fun _ => .pure fun _ => trivial
    have held : h ∈ d.arguments.holders := List.mem_append_right _ member
    exact resolveHolder_same opens creates h fun fulfilled => inside held fulfilled.1

theorem replayRecipe_same (point : InjectionPoint) (recipe : Recipe)
    (inside : given → ∀ source, recipe = .declared source → ∀ inner ∈ source.family, w.opening.Uses inner) :
    Same w given (replayRecipe .full create ctx bean point recipe) (w.Still fun _ => True) := by
  cases recipe with
  | autowired =>
    refine .bind (Work.autowire_same opens (fetcher_same opens creates) ctx bean point true) fun _ => ?_
    exact .pure fun _ => trivial
  | declared source =>
    exact resolveDeclared_same opens creates _ source fun fulfilled => inside fulfilled source rfl
  | value v =>
    cases v with
    | str text => exact evaluate_same text
    | _ => exact .pure fun _ => trivial

theorem replayFrom_same (e : Executable) (index : Nat) (parameters : List Parameter)
    (recipes : List Recipe)
    (inside : given → ∀ source, .declared source ∈ recipes →
      ∀ inner ∈ source.family, w.opening.Uses inner) :
    Same w given (replayFrom .full create ctx bean e index parameters recipes)
      (w.Still fun _ => True) := by
  induction parameters generalizing given index recipes with
  | nil => exact .pure fun _ => trivial
  | cons parameter parameters ih =>
    cases recipes with
    | nil => exact .pure fun _ => trivial
    | cons recipe recipes =>
      refine .bind (replayRecipe_same opens creates _ recipe
        fun fulfilled source same => ?_) fun value => ?_
      · exact inside fulfilled source (same ▸ List.mem_cons_self)
      · split
        · exact .throw _
        · refine .bind (ih (index + 1) recipes fun fulfilled source member => ?_) fun arguments => ?_
          · exact inside fulfilled.1 source (List.mem_cons_of_mem recipe member)
          · exact .pure fun _ => trivial

theorem remembered_same {d : Definition} (used : given → w.opening.Uses d)
    (explicit : Option (List Value)) :
    Same w given (remembered .full create ctx bean d explicit) (w.Still fun _ => True) := by
  refine .get_bind (fun _ _ => rfl) fun c => ?_
  split
  · exact .pure fun _ => trivial
  · rename_i r entry
    refine .bind (P := fun _ => True) ?_ fun _ => .pure fun _ => trivial
    obtain ⟨e, arguments | recipes⟩ := r
    · exact .bind (.lift (Work.emit_same _)) fun _ => .pure fun _ => trivial
    · refine .bind (.lift (Work.emit_same _)) fun _ => ?_
      refine replayFrom_same opens creates e 0 e.parameters recipes ?_
      rintro ⟨⟨fulfilled, c', pair⟩, -⟩ source member inner within
      have kept : c.resolution? d = some ⟨e, .prepared recipes⟩ := by
        split at entry
        · exact entry
        · cases entry
      have known := pair.plain.mem_known (used fulfilled)
      obtain ⟨values, s, b, keeps⟩ := pair.plain.lawful.keptFor known kept
      obtain ⟨h, held, rfl⟩ := keeps.exists_holder rfl member
      exact (used fulfilled).inside held within

end Arguments

end Attempt

theorem Search.run_same {kind : SearchKind} {lenient : Bool} {eligible : Executable → Bool}
    {bind : Executable → Work (Except Unsatisfied Binding)} {S : Executable → Prop}
    (each : ∀ e, Work.Same w given (bind e) (w.Still fun _ => True)) {candidates : List Executable}
    (listed : given → ∀ e ∈ candidates, S e) {s : Search} (bounded : s.weight ≤ Weight.greatest)
    (sofar : given → ∀ best, s.best = some best → S best.executable) :
    Work.Same w given (run kind lenient eligible bind s candidates)
      (w.Still fun found => ∀ best, found.best = some best → S best.executable) := by
  induction candidates generalizing given s with
  | nil => exact .pure sofar
  | cons candidate rest ih =>
    have later (fulfilled : given) (e : Executable) (member : e ∈ rest) : S e :=
      listed fulfilled e (List.mem_cons_of_mem candidate member)
    unfold run
    split
    · exact .pure sofar
    · split
      · refine .bind (each candidate) fun r => ?_
        refine ih (fun e => (each e).provided And.left) (fun fulfilled => later fulfilled.1) ?_ ?_
        · exact (step_best (P := fun _ => True) bounded (fun _ _ => trivial) fun _ _ _ => trivial).1
        · intro fulfilled
          refine (step_best (P := fun best => S best.executable) bounded (sofar fulfilled.1) ?_).2
          exact fun _ _ _ => listed fulfilled.1 candidate List.mem_cons_self
      · exact ih each later bounded sofar

def Creation.Fits (n : Creation) (call : Call) : Prop :=
  n.definition.factoryMethod.isSome = true →
    call.executable.isStatic = n.definition.factoryBean.isNone ∧
    call.target.isNone = n.definition.factoryBean.isNone

/-- The containers once a call is decided on: a pair, or what comes of one when both keep the choice. -/
inductive Watch.Decided (w : Watch) (n : Creation) (call : Call) : Container → Container → Prop
  | following {c c' : Container} : w.Pair c c' → w.Decided n call c c'
  | keeping {c c' : Container} {r : Resolution} : w.Pair c c' → r.executable = call.executable →
      n.Fits call → w.Decided n call (c.keeping n.definition r) (c'.keeping n.definition r)

theorem BeanClass.isStatic_of_mem_methodCandidates {k : BeanClass} {bean : String} {d : Definition}
    {isStatic : Bool} {candidates : List Executable} {e : Executable}
    (listed : k.methodCandidates bean d isStatic = .ok candidates) (member : e ∈ candidates) :
    e.isStatic = isStatic := (mem_overloads.mp (mem_methodCandidates listed member)).2.2.1

namespace Creation

variable {n : Creation} {call : Call} (opens : w.Opens) (full : n.host = .full)
  (creates : n.create.Same w) (used : given → w.opening.Uses n.definition)

section Searching

include opens creates

theorem source_same (used : given → w.opening.Uses n.definition) :
    Attempt.Same w given n.source (w.Still fun _ => True) := by
  unfold source
  split
  · exact .pure fun _ => trivial
  · refine .bind (Attempt.resolveArguments_same opens creates used) fun values => ?_
    split
    · exact .pure fun _ => trivial
    · exact .bind (.lift (Work.emit_same _)) fun _ => .throw _

theorem bindCandidate_same (kind : SearchKind) (source : ArgumentSource) (autowiring fallback : Bool)
    (candidate : Executable) :
    Work.Same w given (n.bindCandidate kind source autowiring fallback candidate)
      (w.Still fun _ => True) := by
  have fetches (ctx : Context) (name : String) :
      Attempt.Same w given (Attempt.fetcher n.create ctx name) _ :=
    Attempt.fetcher_same opens creates ctx name
  refine .bind (Work.bind_same opens fetches n.context n.bean autowiring fallback candidate source).run
    fun r => ?_
  split
  · exact .pure fun _ => trivial
  · exact .bind (Work.emit_same _) fun _ => .pure fun _ => trivial

theorem search_same (kind : SearchKind) (source : ArgumentSource) (minCount : Nat) (autowiring : Bool)
    {candidates : List Executable} {S : Executable → Prop} (listed : given → ∀ e ∈ candidates, S e) :
    Work.Same w given (n.search kind source minCount autowiring candidates)
      (w.Still fun found => ∀ best, found.best = some best → S best.executable) := by
  have each (e : Executable) : Work.Same w given
      (n.bindCandidate kind source autowiring (candidates.length == 1) e) _ :=
    n.bindCandidate_same opens creates kind source autowiring _ e
  refine .bind (Search.run_same each listed (Int.le_refl _) fun _ => nofun) fun found => ?_
  split
  · exact .pure And.right
  · exact .bind (Work.emit_same _) fun _ => .pure fun fulfilled => fulfilled.1.2

end Searching

theorem suppressAll_same (full : n.host = .full) (failures : List Unsatisfied) :
    Work.Same w given (n.suppressAll failures) (w.Still fun _ => True) := by
  induction failures generalizing given with
  | nil => exact .pure fun _ => trivial
  | cons failure rest ih =>
    have suppresses {given : Prop} :
        Work.Same w given (n.host.suppress (.unsatisfied failure)) (w.Still fun _ => True) := by
      rw [full]
      exact Work.suppress_same _
    exact .bind (Work.emit_same _) fun _ => .bind suppresses fun _ => ih

theorem exhausted_same (full : n.host = .full) (failures : List Unsatisfied) (noMatch : String)
    {R : Call → Container → Container → Prop} :
    Attempt.Same w given (n.exhausted failures noMatch) R := by
  unfold exhausted
  split
  · exact .throw _
  · exact .bind (.lift (suppressAll_same full _)) fun _ => .throw _

theorem kept_same {x : Work Unit} {arguments : KeptArguments}
    (state : ∀ c, (x.run c).2 = if n.explicit.isNone then
      c.keeping n.definition ⟨call.executable, arguments⟩ else c)
    (fits : given → n.Fits call) :
    Attempt.Same w given (do let _ ← (liftM x : Attempt Unit); pure call) (w.Decided n) where
  grows c := by
    change c.Grows (x.run c).2
    rw [state]
    split
    · exact c.grows_keeping n.definition _
    · exact .refl c
  alike fulfilled c c' pair _ := by
    refine ⟨rfl, ?_⟩
    change w.Decided n call (x.run c).2 (x.run c').2
    rw [state, state]
    split
    · exact .keeping pair rfl (fits fulfilled)
    · exact .following pair

theorem fits_of_plain (plain : n.definition.factoryMethod.isSome = false) : n.Fits call :=
  fun named => absurd (plain.symm.trans named) nofun

section Constructors

variable (plain : n.definition.factoryMethod.isSome = false)
include opens full creates plain

theorem constructorAmong_same (used : given → w.opening.Uses n.definition) (beanClass : BeanClass)
    (autowiring : Bool) (candidates : List Executable) :
    Attempt.Same w given (n.constructorAmong beanClass autowiring candidates) (w.Decided n) := by
  unfold constructorAmong
  split
  · exact kept_same (fun c => run_keep plain) fun _ => fits_of_plain plain
  · refine .bind (source_same opens creates used) fun (source, minCount) => ?_
    refine .bind (.lift (search_same opens creates .constructor source minCount autowiring
      (S := fun _ => True) fun _ _ _ => trivial)) fun found => ?_
    split
    · exact exhausted_same full _ _
    · split
      · exact .throw _
      · exact kept_same (fun c => run_keep plain) fun _ => fits_of_plain plain

theorem byConstructor_same (used : given → w.opening.Uses n.definition)
    (constructors : Option (List Executable)) :
    Attempt.Same w given (n.byConstructor constructors) (w.Decided n) := by
  refine .bind (P := fun _ => True) ?_ fun found => ?_
  · unfold remembered
    rw [full]
    exact Attempt.remembered_same opens creates used n.explicit
  · split
    · exact .return_ fun _ _ _ pair => .following pair
    · split
      · exact .throw _
      · rename_i beanClass _
        have listed : Attempt.Same w (given ∧ True) (n.constructors beanClass constructors)
            (w.Still fun _ => True) := by
          cases constructors with
          | some constructors => exact .pure fun _ => trivial
          | none => exact Attempt.Same.except.mono fun _ _ _ _ still => ⟨still.1, trivial⟩
        refine .bind listed fun candidates => ?_
        exact constructorAmong_same opens full creates plain (fun fulfilled => used fulfilled.1.1)
          beanClass _ candidates

end Constructors

section Methods

include opens creates

theorem factoryTarget_same :
    Attempt.Same w given n.factoryTarget (w.Still fun (factoryBean, beanClass) =>
      factoryBean.isNone = n.definition.factoryBean.isNone ∧
      ∀ e, w.Means n.definition e → n.definition.SettledBy beanClass e) := by
  unfold factoryTarget
  split
  · rename_i name named
    split
    · exact .throw _
    · refine .bind (Attempt.fetch_same opens creates n.context name none) fun factoryBean => ?_
      refine .bind (.lift (Work.registerDependent_same _ _)) fun _ => ?_
      refine .get_bind (fun _ _ => rfl) fun c => ?_
      split
      · rename_i beanClass own
        refine .pure fun fulfilled => ⟨by rw [named]; rfl, fun e means => ?_⟩
        obtain ⟨⟨⟨-, suits⟩, -⟩, c', pair⟩ := fulfilled
        obtain ⟨k, listed, settled⟩ := suits n.definition e means named
        obtain ⟨type, typed, own⟩ := Option.bind_eq_some_iff.mp own
        rw [typed, Option.bind_some, ← pair.plain.classOfType?, own] at listed
        cases listed
        exact settled
      · exact .throw _
  · rename_i static
    split
    · rename_i beanClass own
      refine .pure fun _ => ⟨by rw [static]; rfl, fun e means => ?_⟩
      obtain ⟨k, owns, settled⟩ := opens.pair.plain.settled n.definition e means
      cases own.symm.trans ((Container.owns_static static).mp owns)
      exact settled
    · exact .throw _

end Methods

def offered (n : Creation) (beanClass : BeanClass) (remembered : Option Executable) :
    Except BeanError (List Executable) :=
  match if n.definition.unique then remembered else none with
  | some method =>
    if method.declaring == beanClass.type then .ok [method]
    else beanClass.methodCandidates n.bean n.definition n.definition.factoryBean.isNone
  | none => beanClass.methodCandidates n.bean n.definition n.definition.factoryBean.isNone

theorem run_factoryMethods (beanClass : BeanClass) (c : Container) :
    (n.factoryMethods beanClass).run.run c =
      (n.offered beanClass (c.factoryMethod? n.definition), c) := by
  unfold factoryMethods offered
  rw [Attempt.run_get_bind]
  cases if n.definition.unique then c.factoryMethod? n.definition else none with
  | none => exact Attempt.run_liftExcept _ c
  | some method =>
    dsimp only
    split
    · rfl
    · exact Attempt.run_liftExcept _ c

theorem offered_of_settledBy {beanClass : BeanClass} {e : Executable}
    (settled : n.definition.SettledBy beanClass e) {remembered : Option Executable}
    (means : remembered = none ∨ remembered = some e) :
    n.offered beanClass remembered = n.offered beanClass none := by
  rcases means with rfl | rfl
  · rfl
  · unfold offered
    cases unique : n.definition.unique with
    | false => rfl
    | true =>
      simp only [if_true]
      split
      · rename_i own
        exact (settled.alone unique own n.bean).symm
      · rfl

include opens used in
theorem factoryMethods_same {beanClass : BeanClass}
    (settled : given → ∀ e, w.Means n.definition e → n.definition.SettledBy beanClass e) :
    Attempt.Same w given (n.factoryMethods beanClass)
      (w.Still fun candidates => ∀ e ∈ candidates, e.isStatic = n.definition.factoryBean.isNone) where
  grows c := by
    rw [run_factoryMethods]
    exact .refl c
  alike fulfilled c c' pair _ := by
    -- Where only one of them remembers a method, the class settles that the other finds just this
    -- one.
    have same : n.offered beanClass (c'.factoryMethod? n.definition) =
        n.offered beanClass (c.factoryMethod? n.definition) := by
      rcases pair.method (used fulfilled) with same | ⟨e, means, one, other⟩
      · rw [same]
      · have settled := settled fulfilled e means
        rw [offered_of_settledBy settled other, offered_of_settledBy settled one]
    rw [run_factoryMethods, run_factoryMethods, same]
    refine ⟨rfl, ?_⟩
    cases listed : n.offered beanClass (c.factoryMethod? n.definition) with
    | error failure => exact pair
    | ok candidates =>
      refine ⟨pair, fun e member => ?_⟩
      unfold offered at listed
      have known := opens.pair.plain.mem_known (used fulfilled)
      have all (listed : beanClass.methodCandidates n.bean n.definition
          n.definition.factoryBean.isNone = .ok candidates) :=
        BeanClass.isStatic_of_mem_methodCandidates listed member
      split at listed
      · rename_i method remembered
        split at listed
        · cases listed
          cases List.mem_singleton.mp member
          split at remembered
          · exact pair.plain.directed n.definition known e remembered
          · cases remembered
        · exact all listed
      · exact all listed

section Deciding

variable (named : n.definition.factoryMethod.isSome = true)
include opens full creates used

include named in
theorem methodAmong_same {factoryBean : Option Value} (beanClass : BeanClass)
    {candidates : List Executable}
    (target : given → factoryBean.isNone = n.definition.factoryBean.isNone)
    (listed : given → ∀ e ∈ candidates, e.isStatic = n.definition.factoryBean.isNone) :
    Attempt.Same w given (n.methodAmong factoryBean beanClass candidates) (w.Decided n) := by
  unfold methodAmong
  split
  · rename_i only lone
    refine kept_same (fun c => run_keepMethod named) fun fulfilled _ => ⟨?_, target fulfilled⟩
    exact listed fulfilled only (bareCandidate?_mem (Option.filter_eq_some_iff.mp lone).1)
  · refine .bind (source_same opens creates used) fun (source, minCount) => ?_
    refine .bind (.lift (search_same opens creates .factoryMethod source minCount
      n.definition.autowire fun fulfilled => listed fulfilled.1)) fun found => ?_
    split
    · exact exhausted_same full _ _
    · rename_i best chosen
      dsimp only
      split
      · exact .throw _
      · split
        · exact .throw _
        · refine kept_same (fun c => run_keepMethod named) fun fulfilled _ => ?_
          obtain ⟨⟨fulfilled, -⟩, fits⟩ := fulfilled
          exact ⟨fits best chosen, target fulfilled⟩

theorem byFactoryMethod_same (named : n.definition.factoryMethod.isSome = true) :
    Attempt.Same w given n.byFactoryMethod (w.Decided n) := by
  refine .bind (factoryTarget_same opens creates) fun (factoryBean, beanClass) => ?_
  refine .bind (P := fun _ => True) ?_ fun found => ?_
  · unfold remembered
    rw [full]
    exact Attempt.remembered_same opens creates (fun fulfilled => used fulfilled.1) n.explicit
  · cases found with
    | some found => exact .return_ fun _ _ _ pair => .following pair
    | none =>
      refine .bind (factoryMethods_same opens (fun fulfilled => used fulfilled.1.1)
        fun fulfilled => fulfilled.1.2.2) fun candidates => ?_
      exact methodAmong_same opens full creates (fun fulfilled => used fulfilled.1.1.1) named
        beanClass (fun fulfilled => fulfilled.1.1.2.1) And.right

theorem call_same : Attempt.Same w given n.call (w.Decided n) := by
  unfold Creation.call
  by_cases named : n.definition.factoryMethod.isSome = true
  · rw [if_pos named]
    exact byFactoryMethod_same opens full creates used named
  · rw [if_neg named]
    split
    · exact .throw _
    · refine .get_bind (fun _ _ => rfl) fun c => .bind .except fun constructors => ?_
      exact byConstructor_same opens full creates (Bool.eq_false_iff.mpr named)
        (fun fulfilled => used fulfilled.1.1) constructors

end Deciding

end Creation

theorem Work.invoke_same (bean : String) (e : Executable) (target : Option Value)
    (arguments : List Value) :
    Work.Same w given (Work.invoke bean e target arguments)
      (w.Still fun r => ∀ value, r = .ok value → w.Suits bean value) := by
  have performs : Work.Same w given (Work.perform e arguments) (w.Still fun _ => True) := by
    unfold Work.perform
    split
    · exact .pure fun _ => trivial
    · exact .pure fun _ => trivial
    · split <;> exact .pure fun _ => trivial
    · exact .bind (Work.makeObject_same _) fun _ => .pure fun _ => trivial
  refine .bind performs fun r => ?_
  have grows (c : Container) : c.Grows { c with
      invocations := c.invocations ++ [⟨bean, e, target, arguments, r⟩] } :=
    ⟨List.prefix_append _ _, List.prefix_rfl⟩
  refine ⟨grows, fun _ c c' pair calm => ⟨rfl, ?_, calm.suits ⟨bean, e, target, arguments, r⟩ ?_⟩⟩
  · refine pair.frame ?_ rfl rfl rfl rfl rfl rfl rfl (grows c)
    change ({ c' with invocations := c'.invocations ++ _ } : Container) = _
    rw [pair.same]
    rfl
  · change _ ∈ (c.invocations ++ [_]).drop w.opening.invocations.length
    rw [List.drop_append_of_le_length pair.grown.invocations.length_le]
    exact List.mem_append_right _ List.mem_cons_self

theorem Work.instantiate_same (bean : String) (e : Executable) (target : Option Value)
    (arguments : List Value) :
    Work.Same w given (Work.instantiate bean e target arguments)
      (w.Still fun r => ∀ value, r = .ok value → w.Suits bean value) := by
  unfold Work.instantiate
  split
  · exact .pure fun _ => nofun
  · split
    · exact .pure fun _ => nofun
    · refine .bind (Work.invoke_same bean e target arguments) fun r => ?_
      cases r with
      | error text => exact .pure fun _ => nofun
      | ok value =>
        dsimp only
        split
        · exact .pure fun _ => nofun
        · refine .pure fun fulfilled value' same => ?_
          cases same
          exact fulfilled.2 value rfl

namespace Creation

variable {n : Creation}

theorem instantiate_same (full : n.host = .full) (call : Call) :
    Attempt.Same w given (n.instantiate call) (w.Still (w.Suits n.bean)) := by
  unfold instantiate
  rw [full]
  refine .bind (.lift (Work.instantiate_same n.bean _ _ _)) fun r => ?_
  cases r with
  | ok value => exact .pure fun fulfilled => fulfilled.2 value rfl
  | error text => exact .throw _

theorem pair_of_decided (opens : w.Opens) (used : w.opening.Uses n.definition) {call : Call}
    (decided : w.Decided n call c c') (lawful : c.Lawful w.known) (lawful' : c'.Lawful w.known)
    (calm : w.Calm c) : w.Pair c c' := by
  cases decided with
  | following pair => exact pair
  | @keeping c c' r pair same fits =>
    refine pair.keeping opens (opens.pair.plain.mem_known used) lawful lawful' (fun named => ?_)
      (calm.tunes _ ?_)
    · rw [same]
      exact (fits named).1
    · rw [c.decisions_keeping, List.drop_append_of_le_length pair.grown.decisions.length_le]
      exact List.mem_append_right _ List.mem_cons_self

theorem perform_same (opens : w.Opens) (full : n.host = .full) {room : Nat}
    (within : n.create = createWithin .full room) (creates : n.create.Same w) :
    Attempt.Same w (w.opening.Uses n.definition) n.perform (w.Still (w.Suits n.bean)) where
  grows c := by
    have decides : Attempt.Same w (w.opening.Uses n.definition) n.call _ :=
      call_same opens full creates id
    refine (decides.grows c).trans ?_
    change Container.Grows _ ((n.call >>= n.instantiate).run.run c).2
    cases run : n.call.run.run c with
    | mk decision m =>
      cases decision with
      | error e =>
        rw [Attempt.run_bind_of_error run]
        exact .refl m
      | ok call =>
        have instantiates : Attempt.Same w True (n.instantiate call) _ := instantiate_same full call
        rw [Attempt.run_bind_of_ok run]
        exact instantiates.grows m
  alike used c c' pair calm := by
    obtain ⟨decision, m, run⟩ : ∃ decision m, n.call.run.run c = (decision, m) := ⟨_, _, rfl⟩
    obtain ⟨decision', m', run'⟩ : ∃ decision m, n.call.run.run c' = (decision, m) := ⟨_, _, rfl⟩
    have calls := (call_same opens full creates id).alike used c c' pair
    rw [show n.call.run.run c = _ from run, show n.call.run.run c' = _ from run'] at calls
    have lawful {origin c m : Container} (keeps : w.Keeps origin c) {call : Call}
        (run : n.call.run.run c = (.ok call, m)) : m.Lawful w.known := by
      have upholds := keeps.lawful.upholds
      have member := keeps.mem_known used
      obtain ⟨-, decides⟩ :=
        (upholds.conducts.decides full within trivial member ⟨keeps.lawful, trivial⟩).2 call m run
      exact (upholds.decided member decides).1
    unfold perform at calm ⊢
    cases decision with
    | error e =>
      rw [Attempt.run_bind_of_error run] at calm
      obtain ⟨same, paired⟩ := calls calm
      cases same
      change ((n.call >>= _).run.run c').1 = ((n.call >>= _).run.run c).1 ∧ _
      rw [Attempt.run_bind_of_error run, Attempt.run_bind_of_error run']
      exact ⟨rfl, paired⟩
    | ok call =>
      rw [Attempt.run_bind_of_ok run] at calm
      have instantiates : Attempt.Same w True (n.instantiate call) _ := instantiate_same full call
      obtain ⟨same, decided⟩ := calls (calm.before (instantiates.grows m))
      cases same
      have paired := pair_of_decided opens used decided (lawful pair.plain run)
        (lawful pair.asked run') (calm.before (instantiates.grows m))
      have later := instantiates.alike trivial m m' paired calm
      change ((n.call >>= _).run.run c').1 = ((n.call >>= _).run.run c).1 ∧ _
      rw [Attempt.run_bind_of_ok run, Attempt.run_bind_of_ok run']
      exact later

end Creation

theorem createWithin_same (opens : w.Opens) (room : Nat) :
    Creator.Same w (createWithin .full room) := by
  induction room with
  | zero => exact fun _ _ _ _ => .throw _
  | succ room ih =>
    intro ctx bean d explicit
    refine .bind .except fun inside => .bind (.lift (Work.emit_same _)) fun _ => ?_
    have performs := Creation.perform_same (n := ⟨.full, createWithin .full room, inside, bean, d,
      explicit⟩) opens rfl rfl ih
    exact performs.provided fun fulfilled => fulfilled.1.1

end BeanWiring

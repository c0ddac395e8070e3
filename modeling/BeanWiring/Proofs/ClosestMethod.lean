import BeanWiring.Container.Runs
import BeanWiring.Proofs.Assignability
import BeanWiring.Proofs.Ways

/-!
Which factory method a creation chooses. A search through methods tries every one that has room for the
arguments, so methods of all arities compete on their weights. What makes the choice ambiguous is only
looked for under strict resolution, among methods of the arity of the choice.
-/
namespace BeanWiring

namespace Executable

/-- Whether another executable takes as many parameters, but not of the same types. -/
def overloads (e f : Executable) : Bool := e.arity == f.arity && !e.sameParameterTypes f

theorem overloads_self (e : Executable) : e.overloads e = false := by
  have itself : e.sameParameterTypes e = true := beq_self_eq_true _
  simp [overloads, itself]

end Executable

theorem SearchKind.ties_factoryMethod (lenient : Bool) (best e : Executable) :
    SearchKind.ties .factoryMethod lenient best e = (!lenient && best.overloads e) :=
  Bool.and_assoc ..

namespace Trial

structure Lightest (lenient : Bool) (trials : List Trial) (best : Trial) (weight : Int) : Prop where
  least : ∀ t ∈ trials, ∀ w, t.weight? lenient = some w → weight ≤ w
  first : (weighing lenient weight trials).head? = some best

/-- The trials that matched with the given weight and take as many parameters as the executable, but
not of the same types. -/
def rivals (lenient : Bool) (weight : Int) (best : Executable) (trials : List Trial) : List Trial :=
  (weighing lenient weight trials).filter fun t => best.overloads t.candidate

theorem weight?_of_empty {e : Executable} (empty : e.parameters = []) (lenient : Bool) :
    weight? lenient ⟨e, .ok []⟩ ≠ none := by
  have light : Binding.weight [] lenient e.parameterTypes < Weight.greatest := by
    unfold Executable.parameterTypes
    rw [empty]
    cases lenient <;> decide
  unfold weight?
  simp only [light, if_true]
  exact Option.some_ne_none _

end Trial

namespace Search

variable {lenient : Bool} {s : Search} {trials : List Trial} {best : Selected}

/-- The choice never ties with itself, so it makes no difference that it is among the trials. -/
theorem contested_factoryMethod (lenient : Bool) (best : Trial) (later : List Trial) :
    contested .factoryMethod lenient (best :: later) =
      let rivals := (best :: later).filter fun t => best.candidate.overloads t.candidate
      if !lenient && !rivals.isEmpty then best.candidate :: rivals.map (·.candidate) else [] := by
  have others : (best :: later).filter (fun t => best.candidate.overloads t.candidate) =
      later.filter fun t => best.candidate.overloads t.candidate := by
    simp [best.candidate.overloads_self]
  unfold contested
  simp only [SearchKind.ties_factoryMethod, others]
  cases lenient with
  | true => simp
  | false =>
    simp only [Bool.not_false, Bool.true_and]
    cases later.filter fun t => best.candidate.overloads t.candidate with
    | nil => rfl
    | cons rival rivals => rfl

theorem Tallies.lightest {kind : SearchKind} (tallies : s.Tallies kind lenient trials)
    (chosen : s.best = some best) : Trial.Lightest lenient trials best.trial s.weight where
  least := tallies.least
  first := by
    rw [tallies.first, chosen]
    rfl

theorem Tallies.best_of_singleton {kind : SearchKind} {found : Selected}
    (tallies : s.Tallies kind lenient [found.trial]) (matched : found.trial.weight? lenient ≠ none) :
    s.best = some found := by
  cases chosen : s.best with
  | none => exact absurd (tallies.unmatched chosen _ List.mem_cons_self) matched
  | some best =>
    have same := List.mem_singleton.mp (tallies.best_matched chosen).1
    cases best
    cases same
    rfl

theorem Tallies.ambiguous_factoryMethod (tallies : s.Tallies .factoryMethod lenient trials)
    (chosen : s.best = some best) :
    s.ambiguous =
      let rivals := Trial.rivals lenient s.weight best.executable trials
      if !lenient && !rivals.isEmpty then best.executable :: rivals.map (·.candidate) else [] := by
  obtain ⟨later, lightest⟩ := tallies.best_weighing chosen
  rw [tallies.ambiguous, lightest, contested_factoryMethod]
  unfold Trial.rivals
  rw [lightest]
  rfl

theorem run_methods {σ : Type} (lenient : Bool) (eligible : Executable → Bool)
    (bind : Executable → StateM σ (Except Unsatisfied Binding)) (candidates : List Executable)
    (c : σ) :
    ∃ found trials c',
      (run .factoryMethod lenient eligible bind start candidates).run c = (found, c') ∧
      candidates.filter eligible = trials.map (·.candidate) ∧
      ((trials.map (·.candidate)).mapM bind).run c = (trials.map (·.outcome), c') ∧
      found.Tallies .factoryMethod lenient trials := by
  obtain ⟨found, trials, seen, unseen, c', ran, rfl, -, listed, bound, tallies, ends⟩ :=
    run_invariant eligible bind
      (fun s trials _ => s.Tallies .factoryMethod lenient trials)
      (fun {s trials e rest r c c'} tallies _ _ => tallies.step e r) id candidates tallies_start c
  cases unseen with
  | nil => exact ⟨found, trials, c', ran, by rwa [List.append_nil], bound, tallies⟩
  | cons stop rest => cases ends stop rest rfl

end Search

namespace Creation

variable {n : Creation} {c c₁ m : Container} {factoryBean : Option Value} {beanClass : BeanClass}
  {source : ArgumentSource} {minCount : Nat} {declared : List Executable}

/-- The trials of a search through methods: public ones first, then those with more parameters, then
as declared, all that have room for the arguments, bound one after another. -/
structure TriesMethods (n : Creation) (source : ArgumentSource) (declared : List Executable)
    (trials : List Trial) (c c' : Container) : Prop where
  inOrder : Executable.InOrder (trials.map (·.candidate))
  asDeclared : ∀ isPublic arity,
    (trials.map (·.candidate)).filter (fun e => e.isPublic == isPublic && e.arity == arity) =
      declared.filter fun e => n.isEligible e && (e.isPublic == isPublic && e.arity == arity)
  bound : ((trials.map (·.candidate)).mapM
    (n.bindCandidate .factoryMethod source n.definition.autowire (declared.length == 1))).run c =
      (trials.map (·.outcome), c')

/-- Whether a method that was found for the definition earlier is taken for the only one: it is declared
to be that, and belongs to the class. -/
def HasOnly (n : Creation) (c : Container) (beanClass : BeanClass) (method : Executable) : Prop :=
  n.definition.unique = true ∧ c.factoryMethod? n.definition = some method ∧
    (method.declaring == beanClass.type) = true

/-- The methods that are open to a definition: the one found earlier if it is taken for the only one,
else those of its name that it admits, static ones unless there is a factory bean. -/
def OpenMethods (n : Creation) (c : Container) (beanClass : BeanClass) (declared : List Executable) :
    Prop :=
  (∃ method, n.HasOnly c beanClass method ∧ declared = [method]) ∨
  (∀ method, ¬n.HasOnly c beanClass method) ∧
    declared = beanClass.methods.filter fun e =>
      n.definition.admits e && e.isStatic == n.definition.factoryBean.isNone &&
        n.definition.namesMethod e

theorem exists_openMethods {candidates : List Executable} {c' : Container}
    (listed : (n.factoryMethods beanClass).run.run c = (.ok candidates, c')) :
    ∃ declared, n.OpenMethods c beanClass declared ∧ candidates = Executable.ranked declared := by
  obtain ⟨-, ⟨unique, method, found, belongs, rfl⟩ | ⟨others, all⟩⟩ :=
    factoryMethods_ok_iff.mp listed
  · exact ⟨[method], .inl ⟨method, ⟨unique, found, belongs⟩, rfl⟩, rfl⟩
  · have nothing : ∀ method, ¬n.HasOnly c beanClass method := by
      rintro method ⟨unique, found, belongs⟩
      cases belongs.symm.trans (others method unique found)
    exact ⟨_, .inr ⟨nothing, rfl⟩, BeanClass.methodCandidates_ok all⟩

theorem search_methods (sourced : n.source.run.run c = (.ok (source, minCount), m))
    (declared : List Executable) :
    ∃ trials found m' m'', n.TriesMethods source declared trials m m' ∧
      found.Tallies .factoryMethod n.definition.lenient trials ∧
      (n.search .factoryMethod source minCount n.definition.autowire
        (Executable.ranked declared)).run m = (found, m'') ∧
      m''.invocations = m'.invocations := by
  obtain ⟨found, trials, m', ran, listed, bound, tallies⟩ :=
    Search.run_methods n.definition.lenient (source.suits minCount)
      (n.bindCandidate .factoryMethod source n.definition.autowire
        ((Executable.ranked declared).length == 1)) (Executable.ranked declared) m
  refine ⟨trials, found, m', _, ⟨?_, ?_, ?_⟩, tallies, run_search ran, ?_⟩
  · rw [← listed]
    exact (Executable.inOrder_ranked declared).filter _
  · intro isPublic arity
    rw [← listed, List.filter_filter, suits_eq_isEligible sourced, Executable.filter_ranked]
    · exact List.filter_congr fun e _ => Bool.and_comm ..
    · intro e _ f _ first second
      simp only [Bool.and_eq_true, beq_iff_eq] at first second
      simp [Executable.precedes, first.1, second.1]
  · rwa [Executable.length_ranked] at bound
  · cases found.best <;> rfl

variable {found : Search} {candidates : List Executable} {c' : Container}

theorem byClosestMethod_unmatched (sourced : n.source.run.run c = (.ok (source, minCount), m))
    (searched : (n.search .factoryMethod source minCount n.definition.autowire candidates).run m =
      (found, c')) (unchosen : found.best = none) (factoryBean : Option Value)
    (beanClass : BeanClass) :
    ∃ e k, (n.byClosestMethod factoryBean beanClass candidates).run.run c = (.error e, k) ∧
      ∀ bean noun owner signatures, e ≠ .ambiguousMatch bean noun owner signatures := by
  unfold byClosestMethod
  rw [Attempt.run_bind_of_ok sourced, Attempt.run_bind_lift, searched]
  simp only [unchosen]
  exact exhausted_error ..

theorem byClosestMethod_chosen {trials : List Trial} {best : Selected}
    (sourced : n.source.run.run c = (.ok (source, minCount), m))
    (searched : (n.search .factoryMethod source minCount n.definition.autowire candidates).run m =
      (found, c')) (tallies : found.Tallies .factoryMethod n.definition.lenient trials)
    (chosen : found.best = some best) (factoryBean : Option Value) (beanClass : BeanClass) :
    (n.byClosestMethod factoryBean beanClass candidates).run.run c =
      let rivals := Trial.rivals n.definition.lenient found.weight best.executable trials
      if best.executable.returnType.isVoid then
        (.error (.invalidFactoryMethod n.bean (best.executable.methodName?.getD "") beanClass.name),
          c')
      else if !n.definition.lenient && !rivals.isEmpty then
        (.error (.ambiguousMatch n.bean "factory method" beanClass.name
          ((best.executable :: rivals.map (·.candidate)).map Executable.signature)), c')
      else
        (.ok ⟨best.executable, factoryBean, best.binding.arguments⟩,
          ((n.keepMethod best.executable best.binding.kept).run c').2) := by
  unfold byClosestMethod
  rw [Attempt.run_bind_of_ok sourced, Attempt.run_bind_lift, searched]
  simp only [chosen, tallies.ambiguous_factoryMethod chosen]
  split
  · rfl
  · cases !n.definition.lenient &&
      !(Trial.rivals n.definition.lenient found.weight best.executable trials).isEmpty with
    | true => rfl
    | false => rfl

theorem TriesMethods.mem_iff {trials : List Trial} {c' : Container}
    (tries : n.TriesMethods source declared trials c c') {e : Executable} :
    e ∈ trials.map (·.candidate) ↔ e ∈ declared ∧ n.isEligible e = true := by
  have level := tries.asDeclared e.isPublic e.arity
  have same := congrArg (e ∈ ·) level
  simpa only [List.mem_filter, beq_self_eq_true, Bool.and_true, and_true, eq_iff_iff] using same

theorem arguments_of_isBare (bare : n.isBare = true) :
    n.explicit = none ∧ n.definition.arguments.indexed = [] ∧
      n.definition.arguments.generic = [] := by
  obtain ⟨ungiven, none⟩ := Bool.and_eq_true_iff.mp bare
  refine ⟨Option.isNone_iff_eq_none.mp ungiven, ?_⟩
  simpa [Blueprint.hasArguments, ArgumentValues.isEmpty, ArgumentValues.count] using none

theorem minCount?_of_isBare (bare : n.isBare = true) :
    n.definition.arguments.minCount? = some 0 := by
  obtain ⟨-, indexed, generic⟩ := arguments_of_isBare bare
  simp [ArgumentValues.minCount?, ArgumentValues.count, indexed, generic]

theorem run_source_of_isBare (bare : n.isBare = true) (c : Container) :
    n.source.run.run c = (.ok (.declared ⟨[], []⟩, 0), c) := by
  obtain ⟨ungiven, indexed, generic⟩ := arguments_of_isBare bare
  refine (source_ok_iff ungiven).mpr ⟨_, rfl, minCount?_of_isBare bare, ?_⟩
  unfold Attempt.resolveArguments
  rw [indexed, generic]
  rfl

theorem isEligible_of_isBare (bare : n.isBare = true) (e : Executable) : n.isEligible e = true := by
  simp [isEligible, (arguments_of_isBare bare).1, minCount?_of_isBare bare]

theorem run_bindCandidate_of_empty {e : Executable} (empty : e.parameters = [])
    (kind : SearchKind) (values : ArgumentValues ResolvedValue) (autowiring fallback : Bool)
    (c : Container) :
    (n.bindCandidate kind (.declared values) autowiring fallback e).run c = (.ok [], c) := by
  unfold bindCandidate Work.bind Work.bindDeclared
  rw [empty]
  rfl

theorem TriesMethods.eq_singleton {values : ArgumentValues ResolvedValue} {trials : List Trial}
    {e : Executable} (tries : n.TriesMethods (.declared values) [e] trials c c')
    (eligible : n.isEligible e = true) (empty : e.parameters = []) :
    trials = [⟨e, .ok []⟩] ∧ c' = c := by
  have alone : ∀ f ∈ trials.map (·.candidate), f = e := fun f member =>
    List.mem_singleton.mp (tries.mem_iff.mp member).1
  have candidates : trials.map (·.candidate) = [e] := by
    have level := tries.asDeclared e.isPublic e.arity
    rw [List.filter_eq_self.mpr fun f member => by simp [alone f member]] at level
    rw [level]
    simp [eligible]
  have bound := tries.bound
  obtain ⟨⟨candidate, outcome⟩, rfl, rfl⟩ := List.map_eq_singleton_iff.mp candidates
  simp only [List.map_cons, List.map_nil, List.mapM_cons, List.mapM_nil] at bound
  rw [Work.run_bind, run_bindCandidate_of_empty empty] at bound
  cases bound
  exact ⟨rfl, rfl⟩

theorem chosen_of_bareCandidate {trials : List Trial} {e : Executable}
    (lone : n.bareCandidate? (Executable.ranked declared) = some e)
    (tries : n.TriesMethods source declared trials m c')
    (tallies : found.Tallies .factoryMethod n.definition.lenient trials)
    (sourced : n.source.run.run c = (.ok (source, minCount), m)) :
    found.best = some ⟨e, []⟩ ∧
      Trial.rivals n.definition.lenient found.weight e trials = [] ∧ c' = c := by
  obtain ⟨bare, arity⟩ := bareCandidate?_some lone
  cases sourced.symm.trans (run_source_of_isBare bare c)
  obtain rfl := Executable.eq_singleton_of_ranked (eq_singleton_of_bareCandidate lone)
  have empty : e.parameters = [] := List.eq_nil_of_length_eq_zero arity
  obtain ⟨rfl, rfl⟩ := tries.eq_singleton (isEligible_of_isBare bare e) empty
  refine ⟨?_, ?_, rfl⟩
  · exact tallies.best_of_singleton (Trial.weight?_of_empty empty n.definition.lenient)
  · unfold Trial.rivals Trial.weighing
    simp [List.filter_cons, Executable.overloads_self]

theorem run_perform_of_listed (named : n.definition.factoryMethod.isSome = true)
    (targeted : n.factoryTarget.run.run c = (.ok (factoryBean, beanClass), c₁))
    (unresolved : n.explicit = none → c₁.resolution? n.definition = none)
    (listed : (n.factoryMethods beanClass).run.run c₁ = (.ok candidates, c')) :
    n.perform.run.run c =
      (n.methodAmong factoryBean beanClass candidates >>= n.instantiate).run.run c' := by
  have methods : n.call.run.run c =
      (n.methodAmong factoryBean beanClass candidates).run.run c' := by
    rw [run_call_of_methods named targeted unresolved, Attempt.run_bind_of_ok listed]
  exact Attempt.run_bind_congr methods n.instantiate

/-- The choice of a factory method is the closest of all that match, of any arity, and the first of
these in the order of the trials. A method that returns nothing is not invoked then. Any other is,
unless resolution is strict and another match is as close, takes as many parameters and not of the
same types. -/
theorem perform_closest_method (named : n.definition.factoryMethod.isSome = true)
    (targeted : n.factoryTarget.run.run c = (.ok (factoryBean, beanClass), c₁))
    (unresolved : n.explicit = none → c₁.resolution? n.definition = none)
    (listed : (n.factoryMethods beanClass).run.run c₁ = (.ok candidates, c₁))
    (sourced : n.source.run.run c₁ = (.ok (source, minCount), m)) :
    ∃ declared trials found m', n.OpenMethods c₁ beanClass declared ∧
      n.TriesMethods source declared trials m m' ∧
      ((n.search .factoryMethod source minCount n.definition.autowire candidates).run m).1 = found ∧
      ((found.best = none ∧ (∀ t ∈ trials, t.weight? n.definition.lenient = none) ∧
          ∃ e k, n.perform.run.run c = (.error e, k) ∧
            ∀ bean noun owner signatures, e ≠ .ambiguousMatch bean noun owner signatures) ∨
        ∃ best k, found.best = some best ∧
          Trial.Lightest n.definition.lenient trials best.trial found.weight ∧
          k.invocations = m'.invocations ∧
          n.perform.run.run c =
            let rivals := Trial.rivals n.definition.lenient found.weight best.executable trials
            if best.executable.returnType.isVoid then
              (.error (.invalidFactoryMethod n.bean (best.executable.methodName?.getD "")
                beanClass.name), k)
            else if !n.definition.lenient && !rivals.isEmpty then
              (.error (.ambiguousMatch n.bean "factory method" beanClass.name
                ((best.executable :: rivals.map (·.candidate)).map Executable.signature)), k)
            else
              (do n.keepMethod best.executable best.binding.kept
                  n.instantiate ⟨best.executable, factoryBean, best.binding.arguments⟩ :
                Attempt Value).run.run k) := by
  obtain ⟨declared, opens, rfl⟩ := exists_openMethods listed
  obtain ⟨trials, found, m', m'', tries, tallies, searched, quiet⟩ := search_methods sourced declared
  refine ⟨declared, trials, found, m', opens, tries, by rw [searched], ?_⟩
  rw [run_perform_of_listed named targeted unresolved listed]
  unfold methodAmong
  cases lone : (n.bareCandidate? (Executable.ranked declared)).filter (!·.returnType.isVoid) with
  | some only =>
    obtain ⟨bare, notVoid⟩ := Option.filter_eq_some_iff.mp lone
    obtain ⟨chosen, alone, rfl⟩ := chosen_of_bareCandidate bare tries tallies sourced
    refine .inr ⟨⟨only, []⟩, _, chosen, tallies.lightest chosen, rfl, ?_⟩
    simp only [alone, List.isEmpty_nil, Bool.not_true, Bool.and_false]
    rw [if_neg (by simpa using notVoid)]
    rfl
  | none =>
    cases chosen : found.best with
    | none =>
      obtain ⟨e, k, failed, unambiguous⟩ :=
        byClosestMethod_unmatched sourced searched chosen factoryBean beanClass
      refine .inl ⟨rfl, tallies.unmatched chosen, e, k, ?_, unambiguous⟩
      exact Attempt.run_bind_of_error failed
    | some best =>
      have decided :=
        byClosestMethod_chosen sourced searched tallies chosen factoryBean beanClass
      refine .inr ⟨best, m'', rfl, tallies.lightest chosen, quiet, ?_⟩
      dsimp only at decided ⊢
      split
      · rename_i isVoid
        rw [if_pos isVoid] at decided
        exact Attempt.run_bind_of_error decided
      · rename_i notVoid
        rw [if_neg notVoid] at decided
        split
        · rename_i tie
          rw [if_pos tie] at decided
          exact Attempt.run_bind_of_error decided
        · rename_i untied
          rw [if_neg untied] at decided
          exact Attempt.run_bind_of_ok decided

end Creation

/-! A kiln that fires clay, declared as text: two of its methods take the clay as closely as each other,
and one takes a shelf too, for which nothing is declared. -/
namespace Kiln

def fire (parameters : List BeanType) (returns : BeanType) : Executable where
  declaring := .plainClass "Kiln"
  kind := .method "fire" true returns
  isPublic := true
  parameters := parameters.map (⟨·, none⟩)
  effect := .makes (.plainClass "Pot")
  label := none

def beanClass (methods : List Executable) : BeanClass := ⟨.plainClass "Kiln", [], methods⟩

def creation (methods : List Executable) : Creation where
  host := .full
  create := createWithin .full 0
  context := .new 1
  bean := "pot"
  definition :=
    { Definition.initial .initial with
      beanClass := some (beanClass methods)
      factoryMethod := some "fire"
      lenient := false
      arguments := ArgumentValues.empty.addGeneric ⟨.value (.str "clay"), none, none, none⟩ }
  explicit := none

def methods : List Executable :=
  [fire [.object] (.plainClass "Pot"), fire [.string, .int] (.plainClass "Pot"),
    fire [.string] (.plainClass "Pot")]

def fresh : Container := .new .initial

def attempt (methods : List Executable) : Except BeanError Value :=
  ((creation methods).perform.run.run fresh).1

def undecided : Except BeanError Value → List String
  | .error (.ambiguousMatch _ _ _ signatures) => signatures
  | _ => []

theorem closest_method_of_kiln :
    undecided (attempt methods) = ["Kiln.fire(Object)", "Kiln.fire(String)"] ∧
    ∃ (source : ArgumentSource) (declared : List Executable) (trials : List Trial) (found : Search)
        (best : Selected) (m m' : Container),
      (creation methods).source.run.run fresh = (.ok (source, 1), m) ∧
      (creation methods).OpenMethods fresh (beanClass methods) declared ∧
      (creation methods).TriesMethods source declared trials m m' ∧
      found.best = some best ∧ Trial.Lightest false trials best.trial found.weight := by
  have tie : undecided (attempt methods) = ["Kiln.fire(Object)", "Kiln.fire(String)"] := by
    decide +kernel
  obtain ⟨source, m, sourced⟩ : ∃ source m,
    (creation methods).source.run.run fresh = (.ok (source, 1), m) := ⟨_, _, rfl⟩
  refine ⟨tie, ?_⟩
  obtain ⟨declared, trials, found, m', opens, tries, -,
      ⟨-, -, e, k, failed, other⟩ | ⟨best, k, chosen, lightest, -, -⟩⟩ :=
    Creation.perform_closest_method (n := creation methods) rfl
      (Creation.run_factoryTarget_of_class rfl rfl) (fun _ => rfl) rfl sourced
  -- The search does choose, since a failure to match would not be told as a tie.
  · have fails : attempt methods = .error e := congrArg Prod.fst failed
    rw [fails] at tie
    unfold undecided at tie
    split at tie
    · rename_i same
      exact absurd (Except.error.inj same) (other _ _ _ _)
    · cases tie
  · exact ⟨source, declared, trials, found, best, m, m', sourced, opens, tries, chosen, lightest⟩

def returnsNothing : Except BeanError Value → Option String
  | .error (.invalidFactoryMethod _ method _) => some method
  | _ => none

/-- A method that returns nothing is chosen where it is the closest, or the first of these. -/
example : returnsNothing (attempt [fire [.string] .void, fire [.object] (.plainClass "Pot")]) =
    some "fire" := by
  decide +kernel

end Kiln

end BeanWiring

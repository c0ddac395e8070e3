import BeanWiring.Proofs.ClosestMethod
import BeanWiring.Proofs.Effects.Everywhere
import BeanWiring.Proofs.Ways

/-!
What becomes of the candidates that fail. A search that ends without a choice reports one of the
failures and hands the others to the surroundings, each once and in the order of the candidates. A
search that chooses hands over nothing.
-/
namespace BeanWiring

namespace Unsatisfied

inductive GoesBackTo (last : BeanError) : Unsatisfied → Prop
  | cause {failure : Unsatisfied} : failure.cause? = some last → GoesBackTo last failure
  | further {failure next : Unsatisfied} : failure.cause? = some (.unsatisfied next) →
      GoesBackTo last next → GoesBackTo last failure

def IsFromChoice (failure : Unsatisfied) : Prop :=
  ∃ requiredType candidates, GoesBackTo (.noUniqueBean requiredType candidates) failure

theorem endsInChoice_of_goesBackTo {failure : Unsatisfied} {requiredType : String}
    {candidates : List String} (leads : GoesBackTo (.noUniqueBean requiredType candidates) failure) :
    failure.endsInChoice = true := by
  induction leads with
  | @cause failure same =>
    cases failure with
    | because => cases same
    | causedBy bean point cause =>
      cases same
      rfl
  | @further failure next same _ ih =>
    cases failure with
    | because => cases same
    | causedBy bean point cause =>
      cases same
      exact ih

theorem isFromChoice_of_endsInChoice (failure : Unsatisfied) (ends : failure.endsInChoice = true) :
    failure.IsFromChoice := by
  match failure, ends with
  | .causedBy _ _ (.noUniqueBean requiredType candidates), _ =>
    exact ⟨requiredType, candidates, .cause rfl⟩
  | .causedBy _ _ (.unsatisfied next), ends =>
    obtain ⟨requiredType, candidates, leads⟩ := isFromChoice_of_endsInChoice next ends
    exact ⟨requiredType, candidates, .further rfl leads⟩

theorem endsInChoice_iff {failure : Unsatisfied} :
    failure.endsInChoice = true ↔ failure.IsFromChoice :=
  ⟨isFromChoice_of_endsInChoice failure, fun ⟨_, _, leads⟩ => endsInChoice_of_goesBackTo leads⟩

/-- Of some failures one is reported and the others are not: the last one behind which there is a choice
between beans, or the very last where there is none. -/
def Reports (failures : List Unsatisfied) (reported : Unsatisfied) (others : List Unsatisfied) : Prop :=
  ∃ before after, failures = before ++ reported :: after ∧ others = before ++ after ∧
    (reported.IsFromChoice ∧ (∀ failure ∈ after, ¬failure.IsFromChoice) ∨
      (∀ failure ∈ failures, ¬failure.IsFromChoice) ∧ after = [])

theorem pickReported_eq_none {failures : List Unsatisfied} (nothing : pickReported failures = none) :
    failures = [] := by
  cases failures with
  | nil => rfl
  | cons failure rest =>
    unfold pickReported at nothing
    split at nothing
    · cases nothing
    · split at nothing <;> cases nothing

theorem reports_of_pickReported {failures others : List Unsatisfied} {reported : Unsatisfied}
    (picked : pickReported failures = some (reported, others)) : Reports failures reported others := by
  induction failures generalizing reported others with
  | nil => cases picked
  | cons failure rest ih =>
    unfold pickReported at picked
    split at picked
    · rename_i nothing
      cases picked
      cases pickReported_eq_none nothing
      refine ⟨[], [], rfl, rfl, ?_⟩
      by_cases choice : failure.IsFromChoice
      · exact .inl ⟨choice, nofun⟩
      · exact .inr ⟨fun other member => List.mem_singleton.mp member ▸ choice, rfl⟩
    · rename_i later others' found
      obtain ⟨before, after, rfl, rfl, which⟩ := ih found
      have first : (failure.endsInChoice && !later.endsInChoice) = true ↔
          failure.IsFromChoice ∧ ¬later.IsFromChoice := by
        rw [Bool.and_eq_true, Bool.not_eq_true', ← Bool.not_eq_true, endsInChoice_iff,
          endsInChoice_iff]
      split at picked
      · -- Only this failure goes back to a choice: the one reported of the rest would have to.
        rename_i only
        have alone := first.mp only
        cases picked
        have never := (which.resolve_left fun chosen => alone.2 chosen.1).1
        exact ⟨[], _, rfl, rfl, .inl ⟨alone.1, never⟩⟩
      · rename_i notOnly
        have notAlone := mt first.mpr notOnly
        cases picked
        -- A failure in front of the one told does not come from a choice, or it would have been
        -- told itself.
        refine ⟨failure :: before, after, rfl, rfl, which.imp_right fun ⟨never, last⟩ => ⟨?_, last⟩⟩
        intro other member
        rcases List.mem_cons.mp member with rfl | inside
        · have unchosen := never reported (List.mem_append_right _ List.mem_cons_self)
          exact fun choice => notAlone ⟨choice, unchosen⟩
        · exact never other inside

end Unsatisfied

theorem Realm.serves_suppressed (J : List String → Prop) :
    (Realm.everywhere fun _ => True).Serves fun c => J c.suppressed where
  registered _ _ _ _ _ := trivial
  rememberMethod _ _ _ kept _ _ _ := kept
  push _ _ _ := trivial
  asks _ _ _ _ _ _ := trivial
  inside _ _ _ _ _ _ _ _ _ _ := trivial
  emit _ _ kept := kept
  nextInnerName _ kept := kept
  registerDependent _ _ _ kept := kept
  registerSingleton _ _ _ _ _ _ _ _ _ kept := kept

def Creator.KeepsSuppressed (create : Creator) (J : List String → Prop) : Prop :=
  ∀ ctx bean d explicit c, J c.suppressed →
    J ((create ctx bean d explicit).run.run c).2.suppressed

namespace Creation

variable {n : Creation} {kind : SearchKind} {source : ArgumentSource} {minCount : Nat}
  {autowiring : Bool} {candidates : List Executable} {c m : Container}

theorem search_keepsSuppressed {J : List String → Prop} (keeps : n.create.KeepsSuppressed J)
    (kept : J c.suppressed) :
    J ((n.search kind source minCount autowiring candidates).run c).2.suppressed := by
  have creates : (Realm.everywhere fun _ => True).Agree (fun c => J c.suppressed) n.create
      n.create := by
    intro ctx bean d explicit c _ inv _
    have after := keeps ctx bean d explicit c inv
    refine ⟨rfl, fun e c' run => ?_, fun value c' run => ⟨trivial, ?_⟩⟩
    · rwa [run] at after
    · rwa [run] at after
  have searches : Work.Agree (fun c => J c.suppressed)
      (n.search kind source minCount autowiring candidates)
      ((n.elsewhere n.host n.create).search kind source minCount autowiring candidates) _ :=
    (Realm.serves_suppressed J).search creates trivial kind source minCount autowiring candidates
  exact (searches c kept).2.1

theorem LooksThrough.suppressed {trials : List Trial} {found : Search} {c' : Container}
    (looks : n.LooksThrough kind source minCount autowiring candidates trials found c c') :
    ((n.search kind source minCount autowiring candidates).run c).2.suppressed = c'.suppressed := by
  rw [looks.found]
  cases found.best <;> rfl

theorem suppressed_of_suppressAll (full : n.host = .full) (failures : List Unsatisfied)
    (c : Container) :
    ((n.suppressAll failures).run c).2.suppressed =
      c.suppressed ++ failures.map Unsatisfied.message := by
  induction failures generalizing c with
  | nil => exact (List.append_nil _).symm
  | cons failure rest ih =>
    unfold suppressAll
    rw [Work.run_bind, Work.run_bind, ih, full, List.map_cons, List.append_cons]
    rfl

variable {decide : Attempt Call}

theorem Closest.suppressed_of_chosen (closest : n.Closest kind autowiring candidates decide)
    (sourced : n.source.run.run c = (.ok (source, minCount), m)) {found : Search} {m' : Container}
    (searched : (n.search kind source minCount autowiring candidates).run m = (found, m'))
    {best : Selected} (chosen : found.best = some best) :
    (decide.run.run c).2.suppressed = m'.suppressed := by
  cases closest with
  | constructor beanClass =>
    unfold byClosestConstructor
    rw [Attempt.run_bind_of_ok sourced, Attempt.run_bind_lift, searched]
    simp only [chosen]
    split
    · rfl
    · rw [Attempt.run_bind_lift]
      unfold keep
      split <;> rfl
  | factoryMethod factoryBean beanClass =>
    unfold byClosestMethod
    rw [Attempt.run_bind_of_ok sourced, Attempt.run_bind_lift, searched]
    simp only [chosen]
    split
    · rfl
    · split
      · rfl
      · rw [Attempt.run_bind_lift]
        unfold keepMethod
        split <;> rfl

/-- No failure of a candidate is lost or told twice. Whatever the creations inside keep of the
suppressed texts the trials keep, so these add none themselves. After failures without a choice, one of
them is the error and the texts of all others are added in their order; after a choice none is. -/
theorem Closest.reports_failures (closest : n.Closest kind autowiring candidates decide)
    (full : n.host = .full) (sourced : n.source.run.run c = (.ok (source, minCount), m)) :
    ∃ trials found m', n.LooksThrough kind source minCount autowiring candidates trials found m m' ∧
      (∀ J, n.create.KeepsSuppressed J → J m.suppressed → J m'.suppressed) ∧
      (found.best = none → trials.filterMap Trial.failure? ≠ [] →
        ∃ reported others c', Unsatisfied.Reports (trials.filterMap Trial.failure?) reported others ∧
          decide.run.run c = (.error (.unsatisfied reported), c') ∧
          c'.suppressed = m'.suppressed ++ others.map Unsatisfied.message) ∧
      ∀ best, found.best = some best → (decide.run.run c).2.suppressed = m'.suppressed := by
  obtain ⟨trials, found, m', looks⟩ :=
    n.exists_looksThrough kind source minCount autowiring candidates m
  refine ⟨trials, found, m', looks, ?_, ?_, ?_⟩
  · intro J keeps kept
    rw [← looks.suppressed]
    exact search_keepsSuppressed keeps kept
  · intro unchosen failed
    have searched := looks.found
    rw [unchosen] at searched
    obtain ⟨noMatch, exhausts⟩ := closest.exhausted sourced searched unchosen
    cases picked : Unsatisfied.pickReported found.failures with
    | none =>
      rw [← looks.tallies.failures] at failed
      exact absurd (Unsatisfied.pickReported_eq_none picked) failed
    | some told =>
      obtain ⟨reported, others⟩ := told
      refine ⟨reported, others, ((n.suppressAll others).run m').2, ?_, ?_, ?_⟩
      · rw [← looks.tallies.failures]
        exact Unsatisfied.reports_of_pickReported picked
      · rw [exhausts]
        unfold Creation.exhausted
        rw [picked]
        rfl
      · exact suppressed_of_suppressAll full others m'
  · intro best chosen
    rw [closest.suppressed_of_chosen sourced looks.found chosen, ← looks.suppressed, looks.found]

end Creation

/-! A fuse that could be made of a coil and some wire. There is no wire, and there are two coils. -/
namespace Fuse

def constructor (parts : List String) : Executable where
  declaring := .plainClass "Fuse"
  kind := .constructor
  isPublic := true
  parameters := parts.map (⟨.plainClass ·, none⟩)
  effect := .makes (.plainClass "Fuse")
  label := none

def beanClass : BeanClass :=
  ⟨.plainClass "Fuse", [constructor ["Wire"], constructor ["Coil", "Wire"],
    constructor ["Wire", "Wire", "Coil"]], []⟩

def creation : Creation where
  host := .full
  create := createWithin .full 99
  context := ⟨[], ["fuse"], 100⟩
  bean := "fuse"
  definition :=
    { Definition.initial .initial with beanClass := some beanClass, autowire := true }
  explicit := none

def coil (name : String) : Request := .registerSingleton name (.object (.plainClass "Coil") (.named name))

def stocked : Container := ((Request.performAll [coil "left", coil "right"]).run (.new .initial)).2

def candidates : List Executable := Executable.ranked beanClass.constructors

def decision : Attempt Call := creation.byClosestConstructor beanClass true candidates

def text : Except BeanError Call → String
  | .error e => e.message
  | .ok _ => ""

/-- Three constructors fail. The choice between the coils is told, the wires missing before and after it
are not. -/
theorem reports_failures_of_fuse :
    ∃ source minCount m trials found m' reported others c',
      creation.source.run.run stocked = (.ok (source, minCount), m) ∧
      creation.LooksThrough .constructor source minCount true candidates trials found m m' ∧
      found.best = none ∧ (trials.filterMap Trial.failure?).length = 3 ∧
      Unsatisfied.Reports (trials.filterMap Trial.failure?) reported others ∧
      decision.run.run stocked = (.error (.unsatisfied reported), c') ∧
      reported.message = "Error creating bean with name 'fuse': Unsatisfied dependency expressed " ++
        "through parameter 0 of Fuse(Coil, Wire): No qualifying bean of type 'Coil' available: " ++
        "expected single matching bean but found 2: left,right" ∧
      c'.suppressed = ["Error creating bean with name 'fuse': Unsatisfied dependency expressed " ++
        "through parameter 0 of Fuse(Wire, Wire, Coil): No qualifying bean of type 'Wire' " ++
        "available: expected at least 1 bean which qualifies as autowire candidate for parameter " ++
        "0 of Fuse(Wire, Wire, Coil)",
        "Error creating bean with name 'fuse': Unsatisfied dependency expressed through parameter " ++
        "0 of Fuse(Wire): No qualifying bean of type 'Wire' available: expected at least 1 bean " ++
        "which qualifies as autowire candidate for parameter 0 of Fuse(Wire)"] := by
  have sourced : creation.source.run.run stocked = (.ok (.declared ⟨[], []⟩, 0), stocked) := rfl
  obtain ⟨trials, found, m', looks, -, unmatched, -⟩ := Creation.Closest.reports_failures
    (Creation.Closest.constructor beanClass true candidates) rfl sourced
  have searched : ((creation.search .constructor (.declared ⟨[], []⟩) 0 true candidates).run
      stocked).1 = found := by
    rw [looks.found]
  have unchosen : found.best = none := by
    rw [← searched, ← Option.isNone_iff_eq_none]
    decide +kernel
  have failed : (trials.filterMap Trial.failure?).length = 3 := by
    rw [← looks.tallies.failures, ← searched]
    decide +kernel
  obtain ⟨reported, others, c', reports, ran, -⟩ :=
    unmatched unchosen (fun none => by rw [none] at failed; cases failed)
  have error : (decision.run.run stocked).1 = .error (.unsatisfied reported) := congrArg Prod.fst ran
  have state : (decision.run.run stocked).2 = c' := congrArg Prod.snd ran
  refine ⟨_, _, _, trials, found, m', reported, others, c', sourced, looks, unchosen, failed, reports,
    ran, ?_, ?_⟩
  · change text (.error (.unsatisfied reported)) = _
    rw [← error]
    decide +kernel
  · rw [← state]
    decide +kernel

end Fuse

end BeanWiring

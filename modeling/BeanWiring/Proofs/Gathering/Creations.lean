import BeanWiring.Proofs.Gathering
import BeanWiring.Proofs.Ways

/-!
The lookups that creations make. Whatever a creation did before it comes to a container parameter, it
finds the beans that fit then, in the order in which the container was given them.
-/
namespace BeanWiring

namespace Creation

variable {n : Creation} {c m : Container} {point : InjectionPoint} {fallback : Bool}

/-- The creation, which starts in `c`, comes to `m` and satisfies an injection point from the container
there: for a parameter without declared value in a trial of its search, or for one that is kept as
autowired. -/
inductive LooksUp (n : Creation) (c : Container) : InjectionPoint → Bool → Container → Prop
  | tried {kind : SearchKind} {candidates : List Executable} {decide : Attempt Call}
      {begun m k k' last : Container} {values : ArgumentValues ResolvedValue} {minCount : Nat}
      {trials : List Trial} {found : Search} {before later : List Executable} {e : Executable}
      {outcomes : List (Except Unsatisfied Binding)} {parameters rest : List Parameter}
      {parameter : Parameter} {p : Progress} :
      n.ComesToSearch c kind true candidates decide begun →
      n.source.run.run begun = (.ok (.declared values, minCount), m) →
      n.LooksThrough kind (.declared values) minCount true candidates trials found m last →
      trials.map (·.candidate) = before ++ e :: later →
      (before.mapM (n.bindCandidate kind (.declared values) true (candidates.length == 1))).run m =
        (outcomes, k) →
      e.parameters = parameters ++ parameter :: rest →
      (Work.bindFrom (n.setting true (candidates.length == 1)) e values 0 parameters
        ⟨[], [], []⟩).run.run k = (.ok p, k') →
      values.forParameter? true e.arity parameters.length parameter p.used = none →
      n.LooksUp c (e.injectionPoint n.bean parameters.length parameter) (candidates.length == 1) k'
  | followed {r : Resolution} {target : Option Value} {m k : Container} {earlier later : List Recipe}
      {parameters rest : List Parameter} {parameter : Parameter} {arguments : List Value} :
      n.FollowsKept c r target m →
      r.arguments = .prepared (earlier ++ .autowired :: later) →
      r.executable.parameters = parameters ++ parameter :: rest →
      earlier.length = parameters.length →
      (Attempt.replayFrom n.host n.create n.context n.bean r.executable 0 parameters
        earlier).run.run ((Work.emit (.replayingArguments n.bean r.executable)).run m).2 =
          (.ok arguments, k) →
      n.LooksUp c (r.executable.injectionPoint n.bean parameters.length parameter) true k

section Upheld

variable {w : Realm} {I : Container → Prop} (works : w.Works I)
  (creates : w.Agree I n.create n.create) (place : w.place n.context) (known : w.known n.definition)
include works creates place

theorem ComesToSearch.upheld {kind : SearchKind} {autowiring : Bool} {candidates : List Executable}
    {decide : Attempt Call} (comes : n.ComesToSearch c kind autowiring candidates decide m)
    (inv : I c) : I m := by
  cases comes with
  | constructor => exact inv
  | factoryMethod _ targeted =>
    have targets : Attempt.Agree I n.factoryTarget (n.elsewhere n.host n.create).factoryTarget _ :=
      works.factoryTarget creates place
    exact targets.kept inv targeted

theorem tried_upheld (kind : SearchKind) (source : ArgumentSource) (autowiring fallback : Bool)
    {candidates : List Executable} {outcomes : List (Except Unsatisfied Binding)} (inv : I c)
    (ran : (candidates.mapM (n.bindCandidate kind source autowiring fallback)).run c =
      (outcomes, m)) : I m := by
  induction candidates generalizing c outcomes with
  | nil =>
    cases ran
    exact inv
  | cons e rest ih =>
    have binds : Work.Agree I (n.bindCandidate kind source autowiring fallback e)
        ((n.elsewhere n.host n.create).bindCandidate kind source autowiring fallback e) _ :=
      works.bindCandidate creates place kind source autowiring fallback e
    rw [List.mapM_cons, Work.run_bind, Work.run_bind] at ran
    exact ih (binds c inv).2.1 (Prod.ext rfl (Prod.ext_iff.mp ran).2)

include known

theorem FollowsKept.upheld {r : Resolution} {target : Option Value}
    (follows : n.FollowsKept c r target m) (inv : I c) : I m ∧ r.KeptFor n.definition := by
  cases follows with
  | constructor _ _ _ kept => exact ⟨inv, works.kept c n.definition r inv known kept⟩
  | factoryMethod _ _ targeted kept =>
    have targets : Attempt.Agree I n.factoryTarget (n.elsewhere n.host n.create).factoryTarget _ :=
      works.factoryTarget creates place
    have held := targets.kept inv targeted
    exact ⟨held, works.kept m n.definition r held known kept⟩

theorem LooksUp.upheld (full : n.host = .full) (looks : n.LooksUp c point fallback m) (inv : I c) :
    I m := by
  have hosts : Host.Alike I n.host n.host := full ▸ works.full_self.alike
  cases looks with
  | tried comes sourced _ _ tried _ bound _ =>
    have begun := comes.upheld works creates place inv
    have sources : Attempt.Agree I n.source (n.elsewhere n.host n.create).source _ :=
      works.source creates place known
    have held := tried_upheld works creates place _ _ _ _ (sources.kept begun sourced) tried
    exact (works.bindFrom creates place n.bean true _ _ _ 0 _ ⟨[], [], []⟩).kept held bound
  | @followed r _ m _ earlier later parameters _ _ _ follows prepared _ same ran =>
    obtain ⟨held, values, s, b, keeps⟩ := follows.upheld works creates place known inv
    have offers : ∀ source, .declared source ∈ earlier → w.Offers I source.family := by
      intro source member
      obtain ⟨h, among, rfl⟩ := keeps.exists_holder prepared (List.mem_append_left _ member)
      exact works.offers_holder known among
    have told := works.emit m (.replayingArguments n.bean r.executable) held
    have replays := works.replayFrom hosts creates place n.bean r.executable 0 parameters earlier
      offers same
    exact replays.kept told ran

end Upheld

def Gathers (n : Creation) (defined held : List String) (c : Container) : Prop :=
  ∀ point fallback m, n.LooksUp c point fallback m →
    ∀ element, point.type.element? = some element →
    ∀ found m', (Work.autowire (Attempt.fetcher n.create) n.context n.bean point
      fallback).run.run m = (.ok found, m') → found.provenance = .autowired →
    found.names = (Graph.distinct defined ++ (Graph.distinct held).filter (· ∉ defined)).filter
      (fun name => name != n.bean && ((Work.isTypeMatch name element).run m).1) ∧
    found.names.Nodup ∧
    ∃ k beans, m.Fills (fun _ => True) k ∧
      Attempt.Yields (Attempt.fetcher n.create (n.context.push point)) k found.names beans m' ∧
      List.Forall₂ m'.Provides found.names beans ∧ found.value = point.type.gather found.names beans

end Creation

theorem Lookup.autowired_ok {lookup : Lookup} {type : BeanType} {fallback : Bool} {found : Autowired}
    (ok : lookup.autowired type fallback = .ok found) (supplied : found.provenance = .autowired) :
    lookup = ⟨found.names, .ok found.value⟩ := by
  obtain ⟨names, result⟩ := lookup
  unfold autowired at ok
  split at ok
  · rename_i value same
    cases same
    cases ok
    rfl
  · split at ok
    · cases ok
      cases supplied
    · cases ok

namespace Container

variable {c : Container} {n : Creation} {defined held : List String} {known : List Definition}

theorem Listed.gathers_of_creation (listed : c.Listed defined held) (lawful : c.Lawful known)
    (full : n.host = .full) {room : Nat} (within : n.create = createWithin .full room)
    (member : n.definition ∈ known) : n.Gathers defined held c := by
  intro point fallback m looks element container found m' autowired supplied
  have upholds := (Listed.respected known defined held).upholds lawful.catalogued
  have creates := within.symm ▸ upholds.createWithin upholds.full_self room
  obtain ⟨lawful', listed'⟩ :=
    looks.upheld upholds.toWorks creates trivial member full ⟨lawful, listed⟩
  unfold Work.autowire at autowired
  rw [(BeanType.of_element? container).1] at autowired
  obtain ⟨lookup, k, looked, told⟩ := Attempt.run_bind_eq_ok.mp autowired
  rw [Attempt.run_liftExcept] at told
  obtain ⟨ok, rfl⟩ := Prod.ext_iff.mp told
  have found := Lookup.autowired_ok ok supplied
  subst found
  rw [Attempt.run_lift] at looked
  obtain ⟨same, last⟩ := Prod.ext_iff.mp looked
  exact listed'.gathers lawful'.toSound (within ▸ createWithin_wires room) container
    (Prod.ext (Except.ok.inj same) last)

theorem Listed.each_gathers (listed : c.Listed defined held) (lawful : c.Lawful known)
    {questions : List Request} (asking : ∀ question ∈ questions, question.isAsking = true) :
    Request.EachCreation (fun n m => n.Gathers defined held m) questions c := by
  have upholds := (Listed.respected known defined held).upholds lawful.catalogued
  have asked : Request.Along (fun question _ => question.isAsking = true) questions c :=
    Request.along_of_forall (fun question member _ => asking question member) c
  refine (Request.eachCreation (J := fun m => m.Lawful known ∧ m.Listed defined held) ?_ ?_
    ⟨lawful, listed⟩ asked).1
  · rintro _ m held -
    refine ⟨_, _, upholds.conducts, fun _ => trivial, ?_, held, fun _ held => held⟩
    intro ctx inside bean d explicit m _ held member began
    obtain ⟨lawful, listed⟩ := upholds.emit m (.creating bean) held
    exact listed.gathers_of_creation lawful rfl rfl member
  · rintro question m - asks telling
    cases asks.symm.trans telling

/-- Every creation that begins in answer to questions, whatever was asked and told before, finds all
beans that fit a container parameter, in the order in which definitions were first registered, followed
by the singletons without one in theirs. -/
theorem creations_gather {settings : Settings} {fresh : Container}
    (made : ofSettings settings = .ok fresh) {requests : List Request}
    (ran : ((Request.performAll requests).run fresh).2 = c) {questions : List Request}
    (asking : ∀ question ∈ questions, question.isAsking = true) :
    Request.EachCreation (fun n m => n.Gathers (requests.flatMap Request.defines)
      (requests.flatMap Request.holds) m) questions c := by
  obtain ⟨valid, rfl⟩ := ofSettings_ok made
  obtain ⟨known, lawful⟩ := ran ▸ (Lawful.new valid).performAll requests
  have listed := ran ▸ (Listed.new valid).performAll (.new valid) requests
  exact listed.each_gathers lawful asking

end Container

namespace Harbour

def captain : Definition :=
  let type := BeanType.plainClass "Captain"
  { Definition.initial .initial with
    beanClass := some ⟨type, [⟨type, .constructor, true, [⟨fleet.type, none⟩], .makes type, none⟩], []⟩
    autowire := true }

def manned : Container :=
  ((Request.performAll (requests ++ [.define "captain" captain, .bean "captain" none])).run
    (.new .initial)).2

def passed : List Value → List String
  | [.map entries] => entries.filterMap fun entry => entry.1.string?
  | _ => []

example : manned.invocations.map (fun i => (i.bean, passed i.arguments)) =
    [("ferry", []), ("ferry", []), ("barge", []),
      ("captain", ["ferry", "barge", "tender"])] := by
  decide +kernel

end Harbour

end BeanWiring

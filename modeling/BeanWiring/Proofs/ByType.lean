import BeanWiring.Proofs.Prospects
import BeanWiring.Proofs.Lawful

/-!
One bean looked up by its type. Whether a caller asks for it or a parameter is satisfied with it, the
only bean that fits is meant, else the only primary one. A caller who asks is no bean, but is taken for
one without a name: a bean of the empty name, which a parameter can be satisfied with, is hidden from
callers.
-/
namespace BeanWiring

variable {c m : Container} {known : List Definition} {type : BeanType} {names : List String}

inductive Verdict
  | nothing
  | one (name : String)
  | several (names : List String)

def Verdict.result (type : BeanType) (reason : String) : Verdict → Except BeanError String
  | .nothing => .error (.noSuchBean type.name reason)
  | .one name => .ok name
  | .several names => .error (.noUniqueBean type.name names)

def InjectionPoint.lacking (point : InjectionPoint) : String :=
  "expected at least 1 bean which qualifies as autowire candidate for " ++ point.text

namespace Container

def primaries (c : Container) (names : List String) : List String :=
  names.filter fun name => (c.definitions.get? name).any (·.primary)

/-- What is meant among the beans that fit. Without a primary one, all of them could be. -/
inductive Means (c : Container) : List String → Verdict → Prop
  | nothing : Means c [] .nothing
  | only (name : String) : Means c [name] (.one name)
  | primary {names : List String} {name : String} :
      1 < names.length → c.primaries names = [name] → Means c names (.one name)
  | contested {names : List String} :
      1 < names.length → 1 < (c.primaries names).length →
      Means c names (.several (c.primaries names))
  | alike {names : List String} :
      1 < names.length → c.primaries names = [] → Means c names (.several names)

theorem determine_unnamed (c : Container) (type : BeanType) (names : List String) :
    c.determine type none names =
      match c.primaries names with
      | [] => .error (.noUniqueBean type.name names)
      | [name] => .ok name
      | several => .error (.noUniqueBean type.name several) := by
  unfold determine primary? primaries
  generalize (names.filter fun name => (c.definitions.get? name).any (·.primary)) = marked
  rcases marked with _ | ⟨first, _ | ⟨second, rest⟩⟩ <;> rfl

theorem exists_means (c : Container) (type : BeanType) (reason : String) (names : List String) :
    ∃ verdict, c.Means names verdict ∧ verdict.result type reason =
      match names with
      | [] => .error (.noSuchBean type.name reason)
      | [name] => .ok name
      | names => c.determine type none names := by
  match names with
  | [] => exact ⟨_, .nothing, rfl⟩
  | [name] => exact ⟨_, .only name, rfl⟩
  | first :: second :: rest =>
    have many : 1 < (first :: second :: rest).length := Nat.lt_of_sub_eq_succ rfl
    dsimp only
    rw [determine_unnamed]
    match marked : c.primaries (first :: second :: rest) with
    | [] => exact ⟨_, .alike many marked, rfl⟩
    | [name] => exact ⟨_, .primary many marked, rfl⟩
    | one :: other :: others =>
      have contested : 1 < (c.primaries (first :: second :: rest)).length := by
        rw [marked]
        exact Nat.lt_of_sub_eq_succ rfl
      exact ⟨_, .contested many contested, by rw [marked]; rfl⟩

theorem Means.unique {verdict verdict' : Verdict} (means : c.Means names verdict)
    (means' : c.Means names verdict') : verdict = verdict' := by
  cases means <;> cases means' <;> simp_all

theorem Means.of_definitions {verdict : Verdict} (means : m.Means names verdict)
    (same : m.definitions = c.definitions) : c.Means names verdict := by
  have marked : c.primaries names = m.primaries names := by
    unfold primaries
    rw [same]
  cases means with
  | nothing => exact .nothing
  | only name => exact .only name
  | primary many only => exact .primary many (marked.trans only)
  | contested many several => exact marked ▸ .contested many (marked ▸ several)
  | alike many none => exact .alike many (marked.trans none)

theorem pick_means (c : Container) {point : InjectionPoint} (single : point.type.element? = none)
    (unnamed : point.name = none) (names : List String) :
    ∃ verdict, c.Means names verdict ∧
      c.pick point true names = (verdict.result point.type point.lacking).map .one := by
  obtain ⟨verdict, means, result⟩ := c.exists_means point.type point.lacking names
  refine ⟨verdict, means, ?_⟩
  rw [result]
  unfold pick
  rw [single, unnamed]
  match names with
  | [] => rfl
  | [_] | _ :: _ :: _ => rfl

end Container

namespace Work

theorem chooseByType_means (sound : c.Sound known) (type : BeanType) :
    ∃ verdict m, c.Means ((c.prospects type).filter (· != "")) verdict ∧ c.Fills (fun _ => True) m ∧
      (chooseByType type).run c =
        (verdict.result type "no bean of this type is registered", m) := by
  obtain ⟨fills, fit⟩ := candidatesFor_fits sound "" type
  unfold chooseByType
  rw [run_bind]
  generalize (candidatesFor "" type).run c = result at fills fit
  obtain ⟨names, m⟩ := result
  obtain ⟨verdict, means, result⟩ :=
    m.exists_means type "no bean of this type is registered" names
  subst fit
  have fills : c.Fills (fun _ => True) m := fills
  have same : m.definitions = c.definitions := by rw [fills.rest]
  refine ⟨verdict, m, means.of_definitions same, fills, ?_⟩
  rw [result]
  dsimp only
  match (c.prospects type).filter (· != "") with
  | [] => rfl
  | [_] | _ :: _ :: _ => rfl

theorem choose_means (sound : c.Sound known) {point : InjectionPoint}
    (single : point.type.element? = none) (unnamed : point.name = none) (requester : String) :
    ∃ verdict m, c.Means ((c.prospects point.type).filter (· != requester)) verdict ∧
      c.Fills (fun _ => True) m ∧ (choose point requester true).run c =
        ((verdict.result point.type point.lacking).map .one, m) := by
  obtain ⟨fills, fit⟩ := candidatesFor_fits sound requester point.type
  unfold choose
  rw [single, Option.getD_none, run_bind]
  generalize (candidatesFor requester point.type).run c = result at fills fit
  obtain ⟨names, m⟩ := result
  obtain ⟨verdict, means, picked⟩ := m.pick_means single unnamed names
  subst fit
  have fills : c.Fills (fun _ => True) m := fills
  have same : m.definitions = c.definitions := by rw [fills.rest]
  exact ⟨verdict, m, means.of_definitions same, fills, Prod.ext picked rfl⟩

theorem run_autowire_of_choose {fetch : Fetch} {ctx : Context} {point : InjectionPoint}
    {requester : String} {chosen : Except BeanError String} (single : point.type.element? = none)
    (ordinary : BeanType.injectionPoint.accepts point.type = false)
    (chose : (choose point requester true).run c = (chosen.map .one, m)) (fallback : Bool) :
    (autowire fetch ctx requester point fallback).run.run c =
      (do
        let name ← liftExcept chosen
        return ⟨← fetch (ctx.push point) name, .autowired, [name]⟩ : Attempt Autowired).run.run m := by
  -- An empty container could take the place of the bean only if the type had elements.
  have full : point.type.emptyValue? = none := by
    cases type : point.type <;> first | rfl | (rw [type] at single; cases single)
  have refused (e : BeanError) (names : List String) :
      (⟨names, .error e⟩ : Lookup).autowired point.type fallback = .error e := by
    unfold Lookup.autowired
    simp [full]
  unfold autowire resolveDependency
  rw [if_neg (by rw [ordinary]; exact nofun), Attempt.run_bind_lift, run_bind, chose]
  cases chosen with
  | error e =>
    change (liftExcept ((⟨[], .error e⟩ : Lookup).autowired point.type fallback) :
      Attempt Autowired).run.run m = _
    rw [refused]
    rfl
  | ok name =>
    obtain ⟨r, k, fetched⟩ : ∃ r k, (fetch (ctx.push point) name).run.run m = (r, k) :=
      ⟨_, _, (Prod.eta _).symm⟩
    have gathered : (gather (fetch (ctx.push point)) point.type (.one name)).run m =
        (⟨[name], r⟩, k) := by
      unfold gather
      rw [run_bind, fetched]
      rfl
    change (liftExcept (((gather (fetch (ctx.push point)) point.type (.one name)).run m).1.autowired
      point.type fallback) : Attempt Autowired).run.run
        ((gather (fetch (ctx.push point)) point.type (.one name)).run m).2 =
      (do return ⟨← fetch (ctx.push point) name, .autowired, [name]⟩ : Attempt Autowired).run.run m
    rw [gathered, Attempt.run_liftExcept]
    cases r with
    | error e => rw [refused, Attempt.run_bind_of_error fetched]
    | ok value =>
      rw [Attempt.run_bind_of_ok fetched]
      rfl

end Work

open Attempt

/-- In any state, a caller who asks for a bean of a type and a parameter of that type, which is
neither a container nor for the injection point itself, lead to the bean that is meant among those
that fit, and both fail in the same way if there is none or more than one. A bean with an empty name
is the exception: the parameter can be satisfied with it, for the caller it does not count. -/
theorem Container.Sound.lookups_by_type (sound : c.Sound known) {point : InjectionPoint}
    (single : point.type.element? = none)
    (ordinary : BeanType.injectionPoint.accepts point.type = false) (unnamed : point.name = none)
    {requester : String} (apart : requester ∉ c.prospects point.type) :
    ∃ verdict verdict' m m', c.Fills (fun _ => True) m ∧ c.Fills (fun _ => True) m' ∧
      c.Means ((c.prospects point.type).filter (· != "")) verdict ∧
      c.Means (c.prospects point.type) verdict' ∧
      ("" ∉ c.prospects point.type → verdict = verdict') ∧
      (beanOfType point.type).run.run c =
        (do
          let name ← liftExcept (verdict.result point.type "no bean of this type is registered")
          bean name none : Attempt Value).run.run m ∧
      ∀ fetch ctx fallback, (Work.autowire fetch ctx requester point fallback).run.run c =
        (do
          let name ← liftExcept (verdict'.result point.type point.lacking)
          return ⟨← fetch (ctx.push point) name, .autowired, [name]⟩ : Attempt Autowired).run.run m' := by
  obtain ⟨verdict, m, means, fills, byType⟩ := Work.chooseByType_means sound point.type
  obtain ⟨verdict', m', means', fills', chose⟩ := Work.choose_means sound single unnamed requester
  have all (name : String) (absent : name ∉ c.prospects point.type) :
      (c.prospects point.type).filter (· != name) = c.prospects point.type := by
    refine List.filter_eq_self.mpr fun other member => ?_
    rw [bne_iff_ne]
    exact fun same => absent (same ▸ member)
  rw [all requester apart] at means'
  refine ⟨verdict, verdict', m, m', fills, fills', means, means', fun named => ?_, ?_,
    fun fetch ctx fallback => Work.run_autowire_of_choose single ordinary chose fallback⟩
  · rw [all "" named] at means
    exact means.unique means'
  · have asked : (ExceptT.mk (Work.chooseByType point.type) : Attempt String).run.run c =
        (liftExcept (verdict.result point.type "no bean of this type is registered") :
          Attempt String).run.run m := by
      rw [run_liftExcept]
      exact byType
    exact run_bind_congr asked _

/-! A bench with a gear that has an empty name, and with two lamps of which one is primary. -/
namespace Bench

def lamp : Definition :=
  { Definition.initial .initial with
    beanClass := some ⟨.plainClass "Lamp", [], []⟩
    primary := true }

def requests : List Request :=
  [.registerSingleton "" (.object (.plainClass "Gear") (.named "gear")),
    .registerSingleton "spare" (.object (.plainClass "Lamp") (.named "spare")), .define "lamp" lamp]

def container : Container := ((Request.performAll requests).run (.new .initial)).2

def wanted (type : BeanType) : InjectionPoint := ⟨"clock", "Clock(Part)", 0, type, none⟩

theorem sound : ∃ known, container.Sound known := by
  obtain ⟨known, lawful⟩ := (Container.Lawful.new .initial).performAll requests
  exact ⟨known, lawful.toSound⟩

theorem gears : container.prospects (.plainClass "Gear") = [""] := by decide +kernel

theorem lamps : container.prospects (.plainClass "Lamp") = ["lamp", "spare"] := by decide +kernel

theorem primaries : container.primaries ["lamp", "spare"] = ["lamp"] := by decide +kernel

theorem lookups_by_type_of_bench :
    (∃ m m', (beanOfType (.plainClass "Gear")).run.run container =
        (.error (.noSuchBean "Gear" "no bean of this type is registered"), m) ∧
      ∀ fetch ctx fallback,
        (Work.autowire fetch ctx "clock" (wanted (.plainClass "Gear")) fallback).run.run container =
          (do return ⟨← fetch (ctx.push (wanted (.plainClass "Gear"))) "", .autowired, [""]⟩ :
            Attempt Autowired).run.run m') ∧
    ∃ m m', (beanOfType (.plainClass "Lamp")).run.run container = (bean "lamp" none).run.run m ∧
      ∀ fetch ctx fallback,
        (Work.autowire fetch ctx "clock" (wanted (.plainClass "Lamp")) fallback).run.run container =
          (do return ⟨← fetch (ctx.push (wanted (.plainClass "Lamp"))) "lamp", .autowired, ["lamp"]⟩ :
            Attempt Autowired).run.run m' := by
  obtain ⟨known, sound⟩ := sound
  have apart {type : BeanType} {names : List String} (fit : container.prospects type = names)
      (other : "clock" ∉ names) : "clock" ∉ container.prospects type := fit ▸ other
  constructor
  · obtain ⟨verdict, verdict', m, m', -, -, means, means', -, byType, satisfied⟩ :=
      @Container.Sound.lookups_by_type _ _ sound (wanted (.plainClass "Gear")) rfl rfl rfl "clock"
        (apart gears (by decide))
    change container.Means ((container.prospects (.plainClass "Gear")).filter _) _ at means
    change container.Means (container.prospects (.plainClass "Gear")) _ at means'
    rw [gears] at means means'
    cases means.unique .nothing
    cases means'.unique (.only "")
    exact ⟨m, m', byType, satisfied⟩
  · obtain ⟨verdict, verdict', m, m', -, -, -, means', agree, byType, satisfied⟩ :=
      @Container.Sound.lookups_by_type _ _ sound (wanted (.plainClass "Lamp")) rfl rfl rfl "clock"
        (apart lamps (by decide))
    change container.Means (container.prospects (.plainClass "Lamp")) _ at means'
    change "" ∉ container.prospects (.plainClass "Lamp") → _ at agree
    rw [lamps] at means' agree
    cases agree (by decide)
    cases means'.unique (.primary (by decide) primaries)
    exact ⟨m, m', byType, satisfied⟩

end Bench

end BeanWiring

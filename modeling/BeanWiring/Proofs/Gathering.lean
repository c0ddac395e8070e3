import BeanWiring.Proofs.Fallback
import BeanWiring.Proofs.Listing
import BeanWiring.Proofs.Prospects
import BeanWiring.Proofs.Standing

/-!
What goes into a container dependency. All beans that fit are chosen before the first of them is
fetched, so that what is created on the way adds none and hides none.
-/
namespace BeanWiring

variable {known : List Definition} {c m c' : Container}

namespace Attempt

def beanFrom (start : Outset) (name : String) : Attempt Value := do
  let ctx ← context start
  fetch ctx.creator ctx name none

theorem bean_eq_beanFrom (name : String) : bean name none = beanFrom ⟨none, []⟩ name := rfl

/-- The beans are what getting each of the names in turn gives, the first of them in the first of the
states. -/
inductive Yields (get : String → Attempt Value) :
    Container → List String → List Value → Container → Prop
  | nil {c : Container} : Yields get c [] [] c
  | cons {c m c' : Container} {name : String} {bean : Value} {names : List String}
      {beans : List Value} : (get name).run.run c = (.ok bean, m) → Yields get m names beans c' →
      Yields get c (name :: names) (bean :: beans) c'

theorem Yields.length_eq {get : String → Attempt Value} {names : List String} {beans : List Value}
    (yields : Yields get c names beans c') : beans.length = names.length := by
  induction yields with
  | nil => rfl
  | cons _ _ ih => exact congrArg (· + 1) ih

theorem fetch_settings (sound : c.Sound known) {room : Nat} {ctx : Context} {name : String}
    {r : Except BeanError Value}
    (run : (fetch (createWithin .full room) ctx name none).run.run c = (r, m)) :
    m.Sound known ∧ m.settings = c.settings := by
  have upholds := ((Container.Sound.upheld sound.catalogued).and
    (J := fun m => m.settings = c.settings) fun _ _ same _ _ held => same.trans held).upholds
  have creates := upholds.createWithin upholds.full_self room
  have fetches : Agree _ (fetch (createWithin .full room) ctx name none) _ _ :=
    upholds.fetch creates trivial name none
  exact fetches.kept ⟨sound, rfl⟩ run

theorem yields_of_mapM {get : String → Attempt Value} {names : List String} {beans : List Value}
    (fetched : (names.mapM get).run.run c = (.ok beans, c')) : Yields get c names beans c' := by
  induction names generalizing c beans with
  | nil =>
    obtain ⟨rfl, rfl⟩ := run_pure_eq_ok.mp fetched
    exact .nil
  | cons name rest ih =>
    rw [List.mapM_cons] at fetched
    obtain ⟨bean, m, first, later⟩ := run_bind_eq_ok.mp fetched
    obtain ⟨others, k, rest, last⟩ := run_bind_eq_ok.mp later
    obtain ⟨rfl, rfl⟩ := run_pure_eq_ok.mp last
    exact .cons first (ih rest)

theorem Yields.beanFrom {start : Outset} {ctx : Context}
    (begun : (context start).run.run c = (.ok ctx, c)) {names : List String} {beans : List Value}
    (yields : Yields (fetcher ctx.creator ctx) m names beans c') (sound : m.Sound known)
    (same : m.settings = c.settings) : Yields (Attempt.beanFrom start) m names beans c' := by
  induction yields with
  | nil => exact .nil
  | @cons m _ _ name bean _ _ first _ ih =>
    have here : (context start).run.run m = (.ok ctx, m) := by
      rw [run_context] at begun ⊢
      rw [same]
      exact Prod.ext (Prod.ext_iff.mp begun).1 rfl
    obtain ⟨sound', settings⟩ := fetch_settings sound first
    refine .cons ?_ (ih sound' (settings.trans same))
    unfold Attempt.beanFrom
    rw [run_bind_of_ok here]
    exact first

end Attempt

open Attempt

namespace Work

theorem gathered_of_resolveDependency (sound : c.Sound known) {fetch : String → Attempt Value}
    {point : InjectionPoint} {element : BeanType} (container : point.type.element? = some element)
    {requester : String} {required : Bool} {names : List String} {value : Value}
    (found : (resolveDependency fetch point requester required).run c =
      (⟨names, .ok value⟩, c')) :
    names = (c.prospects element).filter (· != requester) ∧
    ∃ m beans, c.Fills (fun _ => True) m ∧ (names.mapM fetch).run.run m = (.ok beans, c') ∧
      value = point.type.gather names beans := by
  obtain ⟨fills, fit⟩ := candidatesFor_fits sound requester element
  obtain ⟨chosen, m, chose⟩ : ∃ chosen m, (candidatesFor requester element).run c = (chosen, m) :=
    ⟨_, _, rfl⟩
  rw [chose] at fills fit
  by_cases none : chosen = []
  · rw [run_resolveDependency_of_none container chose none] at found
    cases found
  · obtain ⟨r, k, fetched⟩ : ∃ r k, (chosen.mapM fetch : Attempt (List Value)).run.run m = (r, k) :=
      ⟨_, _, rfl⟩
    rcases run_resolveDependency_of_fits container chose none fetched with
      ⟨beans, rfl, looked⟩ | ⟨e, rfl, looked⟩
    · rw [looked] at found
      cases found
      exact ⟨fit, m, beans, fills, fetched, rfl⟩
    · rw [looked] at found
      cases found

end Work

namespace Container

/-- Wherever the beans are listed in this order, a lookup for a container takes the beans that fit in
that order, each of them once. -/
theorem Listed.gathers {defined held : List String} (listed : c.Listed defined held)
    (sound : c.Sound known) {create : Creator} (creates : create.Wires) {ctx : Context}
    {requester : String} {point : InjectionPoint} {element : BeanType}
    (container : point.type.element? = some element) {required : Bool} {names : List String}
    {value : Value} (looked : (Work.resolveDependency (fetcher create ctx) point requester
      required).run c = (⟨names, .ok value⟩, c')) :
    names = (Graph.distinct defined ++ (Graph.distinct held).filter (· ∉ defined)).filter
      (fun name => name != requester && ((Work.isTypeMatch name element).run c).1) ∧
    names.Nodup ∧
    ∃ m beans, c.Fills (fun _ => True) m ∧ Yields (fetcher create ctx) m names beans c' ∧
      List.Forall₂ c'.Provides names beans ∧ value = point.type.gather names beans := by
  obtain ⟨fit, m, beans, fills, fetched, gathered⟩ :=
    Work.gathered_of_resolveDependency sound container looked
  have once : names.Nodup := fit ▸ (listed.nodup_beanNames.filter _).filter _
  have provides : List.Forall₂ c'.Provides names beans := by
    have spares : Spares ctx.path "" _ (names.mapM (fetcher create ctx)) _ :=
      Work.mapM_fetch_spares (fun name _ => fetch_spares creates name none) names m
    have both := spares.2
    rw [fetched] at both
    exact (both beans rfl).2
  refine ⟨?_, once, m, beans, fills, yields_of_mapM fetched, provides, gathered⟩
  rw [fit]
  unfold prospects
  rw [List.filter_filter, listed.beanNames]

end Container

/-! A harbour with a tender that is simply there, and two boats that can be built. -/
namespace Harbour

def boat : BeanType := .plainClass "Boat"

def built : Definition :=
  { Definition.initial .initial with
    beanClass := some ⟨boat, [⟨boat, .constructor, true, [], .makes boat, none⟩], []⟩ }

/-- The ferry is built before the barge is known, and the tender there before either. -/
def requests : List Request :=
  [.registerSingleton "tender" (.object boat (.named "tender")), .define "ferry" built,
    .registerSingleton "crane" (.object (.plainClass "Crane") (.named "crane")),
    .bean "ferry" none, .define "barge" built, .define "ferry" built]

def container : Container := ((Request.performAll requests).run (.new .initial)).2

def fleet : InjectionPoint := ⟨"captain", "Captain(Map)", 0, .map .string boat, none⟩

def lookup (requester : String) : Attempt Lookup :=
  Attempt.dependency ⟨none, []⟩ requester fleet true

theorem looked : (((lookup "captain").run.run container).1.toOption.map fun found =>
    (found.names, found.result.isOk)) = some (["ferry", "barge", "tender"], true) := by
  decide +kernel

end Harbour

end BeanWiring

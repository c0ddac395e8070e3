import BeanWiring.Proofs.Access
import BeanWiring.Proofs.Assignability
import BeanWiring.Proofs.Grounds
import BeanWiring.Proofs.Stability
import BeanWiring.Proofs.Watching.Questions

/-!
What is predicted of a factory method, and what is then invoked. Both are among the methods that the
class offers the definition, which take the same parameter types if anything is predicted. The first
declared is predicted; which one is invoked is for the search to decide.
-/
namespace BeanWiring

def Request.KeepsClasses (request : Request) (c : Container) : Prop :=
  ∀ name, (request.perform.run c).2.classes.get? name = c.classes.get? name

theorem Request.invocations_of_telling {request : Request} (telling : request.isAsking = false)
    (c : Container) : (request.perform.run c).2.invocations = c.invocations := by
  cases request with
  | define name d => exact (Work.run_register name _ _).2.2.2.2.2.2.2
  | build | registerClass | registerSingleton | setProperty | registerDependent => rfl
  | clearResolution name =>
    exact clearResolution_leaves (P := (·.invocations = c.invocations)) rfl fun _ _ => rfl
  | _ => cases telling

namespace Container

/-- The factory bean kept its class since `origin`, as far as it shows in the invocations of the method
kept for the definition. For a definition declared unique the class lists those methods of its own that
any class lists. -/
structure StaysWith (origin c : Container) (d : Definition) (k : BeanClass) : Prop where
  kept : ∀ r, c.resolution? d = some r →
    ∀ i ∈ c.invocations.drop origin.invocations.length, i.executable = r.executable →
      ∀ value, i.target = some value → value.runtimeType.bind c.classOfType? = some k
  own : d.unique = true → ∀ e, c.Lists d e → (e.declaring == k.type) = true →
    e ∈ k.overloads d false

variable {origin c : Container} {d : Definition} {k : BeanClass} {e : Executable}

theorem StaysWith.mem_overloads (stays : origin.StaysWith c d k) (grounded : origin.Grounded d c)
    (proposes : origin.Proposes d k e) : e ∈ k.overloads d false := by
  rcases proposes with offered | ⟨unique, own, type, k', registered, offered⟩
  · exact offered
  · refine stays.own unique e ⟨type, k', ?_, offered⟩ own
    rw [classOfType?_congr grounded.classes, registered]

theorem Grounded.telling (grounded : origin.Grounded d c) {request : Request}
    (telling : request.isAsking = false) (keeps : request.KeepsClasses c) :
    origin.Grounded d (request.perform.run c).2 := by
  have invocations := Request.invocations_of_telling telling c
  refine ⟨fun name => (keeps name).trans (grounded.classes name), ?_, fun r kept => ?_, fun e told => ?_⟩
  · exact invocations ▸ grounded.journal
  · rw [invocations]
    refine grounded.kept r ?_
    unfold resolution? at kept ⊢
    rcases Request.resolution?_of_telling telling c with same | ⟨name, d', -, -, erased⟩
    · exact same ▸ kept
    · rw [erased, Registry.get?_erase] at kept
      split at kept
      · cases kept
      · exact kept
  · unfold factoryMethod? at told
    rw [Request.factoryMethods_of_telling telling] at told
    exact grounded.remembered e told

end Container

namespace Creation

variable {n : Creation} {call : Call} {c c' m origin : Container} {k : BeanClass}
  {target : Option Value}

theorem mem_overloads_of_call (ungiven : n.explicit = none)
    (named : n.definition.factoryMethod.isSome = true)
    (behind : n.definition.factoryBean.isSome = true)
    (targeted : n.factoryTarget.run.run c = (.ok (target, k), m))
    (grounded : origin.Grounded n.definition m) (stays : origin.StaysWith m n.definition k)
    (decided : n.call.run.run c = (.ok call, c')) :
    call.executable ∈ k.overloads n.definition false := by
  rw [run_call_of_factoryMethod named] at decided
  obtain ⟨_, _, _, targeted', ways⟩ := byFactoryMethod_ok_iff.mp decided
  cases targeted.symm.trans targeted'
  refine stays.mem_overloads grounded ?_
  rcases ways with ⟨e, arguments, remembers, rfl⟩ | ⟨m', candidates, m'', nothing, listed, last⟩
  · -- The method kept was invoked on a factory bean of a class that it was proposed for.
    obtain ⟨r, kept, rfl, -⟩ := (remembered_some_iff ungiven).mp remembers
    obtain ⟨i, since, same, k', ⟨value, made, own⟩, proposes⟩ := grounded.kept r kept
    have stayed := stays.kept r kept i since same value made
    rw [funext (Container.classOfType?_congr grounded.classes), own] at stayed
    cases stayed
    exact proposes
  · obtain ⟨-, rfl⟩ := (remembered_none_iff ungiven).mp nothing
    exact proposes_of_factoryMethods grounded behind listed (mem_of_methodAmong last).1

theorem owner_of_static (static : n.definition.factoryBean = none)
    (targeted : n.factoryTarget.run.run c = (.ok (target, k), m)) :
    n.definition.beanClass = some k := by
  unfold factoryTarget at targeted
  rw [static] at targeted
  cases owner : n.definition.beanClass with
  | none =>
    rw [owner] at targeted
    cases targeted
  | some k' =>
    rw [owner] at targeted
    cases targeted
    rfl

theorem invokes_of_perform (full : n.host = .full) {value : Value}
    (run : n.perform.run.run c = (.ok value, c')) :
    ∃ call m, n.call.run.run c = (.ok call, m) ∧ m.Invokes c' n.bean call := by
  obtain ⟨call, m, decided, made⟩ := Attempt.run_bind_eq_ok.mp run
  have made := (instantiate_ok_iff full).mp made
  obtain ⟨_, _, again, called⟩ := Work.instantiate_ok made m
  cases made.symm.trans again
  exact ⟨call, m, decided, called.invokes⟩

end Creation

/-- A creation that succeeds with a factory bean, or without one, of the class `k` has invoked a method
that the class offers, if the factory bean kept that class since `origin`. The method takes the
parameter types of `method`, and returns what `method` returns if all those offered return the same. -/
def Creation.AsPredicted (n : Creation) (origin c : Container) (method : Executable) (k : BeanClass) :
    Prop :=
  ∀ target m, n.factoryTarget.run.run c = (.ok (target, k), m) →
    (n.definition.factoryBean.isSome = true → origin.StaysWith m n.definition k) →
    ∀ value c', n.perform.run.run c = (.ok value, c') →
      ∃ call m', n.call.run.run c = (.ok call, m') ∧ m'.Invokes c' n.bean call ∧
        call.executable ∈ k.overloads n.definition n.definition.factoryBean.isNone ∧
        method.sameParameterTypes call.executable = true ∧
        ((∀ e ∈ k.overloads n.definition n.definition.factoryBean.isNone,
          (e.returnType == method.returnType) = true) →
          (call.executable.returnType == method.returnType) = true)

theorem BeanClass.isSome_of_uniqueMethod? {k : BeanClass} {d : Definition} {isStatic : Bool}
    {e : Executable} (found : k.uniqueMethod? d isStatic = some e) : d.factoryMethod.isSome = true :=
  Blueprint.isSome_of_namesMethod (mem_overloads.mp (mem_of_uniqueMethod? found)).2.2.2

theorem BeanClass.sameParameterTypes_of_uniqueMethod? {k : BeanClass} {d : Definition}
    {isStatic : Bool} {e f : Executable} (found : k.uniqueMethod? d isStatic = some e)
    (member : f ∈ k.overloads d isStatic) : e.sameParameterTypes f = true := by
  obtain ⟨rest, listed, same⟩ := uniqueMethod?_some found
  rw [listed] at member
  rcases List.mem_cons.mp member with rfl | later
  · exact beq_self_eq_true _
  · exact same f later

/-- The class of a definition without factory bean never changes, so neither does what it offers. -/
theorem Container.Lawful.mem_overloads_of_static {known : List Definition} {c c' : Container}
    (lawful : c.Lawful known) {n : Creation} {room : Nat} (full : n.host = .full)
    (within : n.create = createWithin .full room) (member : n.definition ∈ known)
    (named : n.definition.factoryMethod.isSome = true) (static : n.definition.factoryBean = none)
    {k : BeanClass} (owner : n.definition.beanClass = some k) {call : Call}
    (decided : n.call.run.run c = (.ok call, c')) : call.executable ∈ k.overloads n.definition true := by
  have decides := (lawful.upholds.conducts.decides full within trivial member ⟨lawful, trivial⟩).2
  have tries := Creation.tries_of_decides member (decides call c' decided).2
  cases tries with
  | method opens => exact opens.listed static k owner
  | only plain => cases plain.symm.trans named
  | constructor plain => cases plain.symm.trans named

theorem Creation.asPredicted {n : Creation} {origin c : Container} (full : n.host = .full)
    {method : Executable} {k : BeanClass}
    (listed : k.uniqueMethod? n.definition n.definition.factoryBean.isNone = some method)
    (offers : ∀ target m call c', n.factoryTarget.run.run c = (.ok (target, k), m) →
      (n.definition.factoryBean.isSome = true → origin.StaysWith m n.definition k) →
      n.call.run.run c = (.ok call, c') →
      call.executable ∈ k.overloads n.definition n.definition.factoryBean.isNone) :
    n.AsPredicted origin c method k := by
  intro target m targeted stays value c' run
  obtain ⟨call, m', decided, invokes⟩ := invokes_of_perform full run
  have offered := offers target m call m' targeted stays decided
  exact ⟨call, m', decided, invokes, offered,
    BeanClass.sameParameterTypes_of_uniqueMethod? listed offered, fun uniform => uniform _ offered⟩

namespace Container

variable {known : List Definition} {origin c : Container} {d : Definition} {method : Executable}
  {k : BeanClass} {requests : List Request}

theorem Lawful.each_asPredicted (lawful : c.Lawful known) (static : d.factoryBean = none)
    (listed : k.uniqueMethod? d d.factoryBean.isNone = some method) (requests : List Request) :
    Request.EachCreation (fun n m => n.definition = d → n.explicit = none →
      n.AsPredicted origin m method k) requests c := by
  refine Request.eachCreation_of_lawful lawful ?_ requests
  rintro now room n m full within - member lawful rfl -
  refine Creation.asPredicted full listed fun target m' call c' targeted _ decided => ?_
  have named := BeanClass.isSome_of_uniqueMethod? listed
  have owner := Creation.owner_of_static static targeted
  rw [static]
  exact lawful.mem_overloads_of_static full within member named static owner decided

theorem Grounded.each_asPredicted (grounded : origin.Grounded d c) (lawful : c.Lawful known)
    (member : d ∈ known) (behind : d.factoryBean.isSome = true)
    (listed : k.uniqueMethod? d d.factoryBean.isNone = some method)
    (course : Request.Along Request.KeepsClasses requests c) :
    Request.EachCreation (fun n m => n.definition = d → n.explicit = none →
      n.AsPredicted origin m method k) requests c ∧
    ∃ known', ((Request.performAll requests).run c).2.Lawful known' ∧ d ∈ known' ∧
      origin.Grounded d ((Request.performAll requests).run c).2 := by
  have named := BeanClass.isSome_of_uniqueMethod? listed
  refine Request.eachCreation
    (J := fun m => ∃ known, m.Lawful known ∧ d ∈ known ∧ origin.Grounded d m) ?_ ?_
    ⟨known, lawful, member, grounded⟩ course
  · rintro request m ⟨known, lawful, member, grounded⟩ -
    have conducts := grounded_conducts origin lawful.catalogued member named behind
    refine ⟨_, _, conducts, fun _ => trivial, ?_, ⟨lawful, grounded⟩, fun m held =>
      ⟨known, held.1, member, held.2⟩⟩
    rintro ctx inside bean d' explicit m₁ _ inv _ began rfl ungiven
    have told := conducts.emit m₁ (.creating bean) inv
    refine Creation.asPredicted rfl listed fun target m' call c' targeted stays decided => ?_
    let n : Creation := ⟨.full, inside.creator, inside, bean, d', explicit⟩
    have targets : Attempt.Agree _ n.factoryTarget (n.elsewhere n.host n.create).factoryTarget _ :=
      conducts.factoryTarget (conducts.createWithin inside.room) trivial
    rw [Option.isNone_eq_false_iff.mpr behind]
    exact Creation.mem_overloads_of_call ungiven named behind targeted (targets.kept told targeted).2
      (stays behind) decided
  · rintro request m ⟨known, lawful, member, grounded⟩ keeps telling
    exact ⟨_, lawful.perform request, List.mem_append_left _ member, grounded.telling telling keeps⟩

/-- Once a factory method is predicted for a definition, whatever is asked of the container: a creation
from the definition that comes to a target of the class it was predicted from invokes a method with the
same parameter types. If the definition has a factory bean, nothing was found out for it in the state
in which the history began, and the classes registered stay since. -/
theorem Reachable.created_as_predicted (reachable : Reachable known origin) (member : d ∈ known)
    {history : List Request} (ran : ((Request.performAll history).run origin).2 = c)
    (predicted : c.introspected? d = some method)
    (course : d.factoryBean.isSome = true →
      (origin.resolution? d = none ∧ origin.factoryMethod? d = none) ∧
      Request.Along Request.KeepsClasses history origin ∧
      Request.Along Request.KeepsClasses requests ((Work.introspect d).run c).2) :
    ∃ k, c.methodOwner? d = some k ∧
      Request.EachCreation (fun n m => n.definition = d → n.explicit = none →
        n.AsPredicted origin m method k) requests ((Work.introspect d).run c).2 := by
  obtain ⟨more, lawful⟩ := ran ▸ reachable.lawful.performAll history
  have known := List.mem_append_left more member
  obtain ⟨owners, finds, -⟩ := Work.introspect_finds lawful.toSound d
  obtain ⟨k, owns, listed⟩ := (finds method).mp predicted
  refine ⟨k, (owners k).mpr owns, ?_⟩
  cases named : d.factoryBean with
  | none =>
    have told := ((lawful.upholds.introspect known).kept ⟨lawful, trivial⟩ rfl).1
    exact told.each_asPredicted named listed requests
  | some factoryBean =>
    have behind : d.factoryBean.isSome = true := named ▸ rfl
    obtain ⟨⟨unresolved, unremembered⟩, before, after⟩ := course behind
    obtain ⟨known, lawful, member, grounded⟩ := ran ▸ ((Grounded.refl unresolved
      unremembered).each_asPredicted reachable.lawful member behind listed before).2
    have conducts := grounded_conducts origin lawful.catalogued member
      (BeanClass.isSome_of_uniqueMethod? listed) behind
    have told := (conducts.introspect member).kept ⟨lawful, grounded⟩ rfl
    exact (told.2.each_asPredicted told.1 member behind listed after).1

end Container

/-! A foundry with two methods that take nothing. The first declared casts bells and is not public, the
other casts gongs. -/
namespace Foundry

def bells : Executable where
  declaring := .plainClass "Foundry"
  kind := .method "cast" true (.plainClass "Bell")
  isPublic := false
  parameters := []
  effect := .makes (.plainClass "Bell")
  label := none

def gongs : Executable :=
  { bells with
    kind := .method "cast" true (.plainClass "Gong")
    isPublic := true
    effect := .makes (.plainClass "Gong") }

def foundry : BeanClass := ⟨bells.declaring, [], [bells, gongs]⟩

def instrument : Definition :=
  { Definition.initial .initial with
    serial := 1
    beanClass := some foundry
    factoryMethod := some "cast"
    scope := .prototype }

def founded : Container := ((Request.define "instrument" instrument).perform.run (.new .initial)).2

def predicted : Container := ((Work.introspect instrument).run founded).2

def cast : Container := ((Request.bean "instrument" none).perform.run predicted).2

/-! A press that strikes coins of silver, and a mint that strikes medals of nothing. -/

def strike (declaring piece : BeanType) (parameters : List Parameter) : Executable where
  declaring := declaring
  kind := .method "strike" false piece
  isPublic := true
  parameters := parameters
  effect := .makes piece
  label := none

def coins : Executable :=
  strike (.plainClass "Press") (.plainClass "Coin") [⟨.plainClass "Silver", none⟩]

def medals : Executable := strike (.plainClass "Mint") (.plainClass "Medal") []

def tokens : Executable := strike (.plainClass "Press") (.plainClass "Token") []

def press : BeanClass := ⟨coins.declaring, [], [coins]⟩

def mint : BeanClass := ⟨medals.declaring, [], [medals]⟩

def outlet : BeanClass := ⟨.plainClass "Outlet", [], [tokens]⟩

def piece (unique : Bool) : Definition :=
  { Definition.initial .initial with
    serial := 1
    factoryBean := some "works"
    factoryMethod := some "strike"
    unique := unique
    autowire := true
    scope := .prototype }

def silver : Value := .object (.plainClass "Silver") (.named "silver")

def works (k : BeanClass) : Value := .object k.type (.named k.name)

def staffed (unique : Bool) : Container :=
  ((Request.performAll [.registerClass press, .registerClass mint, .registerClass outlet,
    .registerSingleton "silver" silver, .registerSingleton "works" (works press),
    .define "piece" (piece unique)]).run (.new .initial)).2

def coined : Container := ((Request.performAll [.bean "piece" none]).run (staffed false)).2

def foreseen : Container := ((Work.introspect (piece false)).run coined).2

theorem staffed_reachable (unique : Bool) :
    Container.Reachable [piece unique] (staffed unique) := by
  have fresh := Container.Reachable.initially
  have classes := ((fresh.step (.registerClass press)).step (.registerClass mint)).step
    (.registerClass outlet)
  exact ((classes.step (.registerSingleton "silver" silver)).step
    (.registerSingleton "works" (works press))).step (.define "piece" (piece unique))

theorem invocations_foreseen :
    foreseen.invocations.drop (staffed false).invocations.length = [⟨"piece", coins,
      some (works press), [silver], .ok (.object (.plainClass "Coin") (.made 1))⟩] := rfl

theorem foreseen_stays : (staffed false).StaysWith foreseen (piece false) press where
  kept _ _ i member _ value target := by
    rw [invocations_foreseen] at member
    cases List.mem_singleton.mp member
    cases target
    rfl
  own unique := nomatch unique

/-- A bell is predicted and a gong is cast, by a method that takes as little. Of a press that has struck
a coin coins are predicted, and it strikes another. -/
theorem created_as_predicted_of_foundry :
    (founded.introspected? instrument = some bells ∧ cast.invocations.map (·.executable) = [gongs] ∧
      ∃ k, founded.methodOwner? instrument = some k ∧
        Request.EachCreation (fun n m => n.definition = instrument → n.explicit = none →
          n.AsPredicted founded m bells k) [.bean "instrument" none] predicted) ∧
    coined.introspected? (piece false) = some coins ∧
      (staffed false).StaysWith foreseen (piece false) press ∧
      ∃ k, coined.methodOwner? (piece false) = some k ∧
        Request.EachCreation (fun n m => n.definition = piece false → n.explicit = none →
          n.AsPredicted (staffed false) m coins k) [.bean "piece" none] foreseen := by
  have fresh := Container.Reachable.initially
  have reachable : Container.Reachable [instrument] founded :=
    fresh.step (.define "instrument" instrument)
  have before : ((Request.bean "piece" none).perform.run (staffed false)).2.classes =
      (staffed false).classes := rfl
  have after : ((Request.bean "piece" none).perform.run foreseen).2.classes = foreseen.classes := rfl
  have predicted : coined.introspected? (piece false) = some coins := rfl
  refine ⟨⟨rfl, rfl, ?_⟩, predicted, foreseen_stays, ?_⟩
  · have ran : ((Request.performAll []).run founded).2 = founded := rfl
    exact reachable.created_as_predicted List.mem_cons_self ran rfl
      fun behind => absurd behind Bool.false_ne_true
  · have ran : ((Request.performAll [.bean "piece" none]).run (staffed false)).2 = coined := rfl
    refine (staffed_reachable false).created_as_predicted List.mem_cons_self ran predicted
      fun _ => ⟨⟨rfl, rfl⟩, ?_, ?_⟩
    · exact ⟨fun name => before ▸ rfl, trivial⟩
    · exact ⟨fun name => after ▸ rfl, trivial⟩

def restaffed : Container :=
  ((Request.performAll [.bean "piece" none, .registerSingleton "works" (works mint)]).run
    (staffed false)).2

def foretold : Container := ((Work.introspect (piece true)).run (staffed true)).2

def replaced : Container :=
  ((Request.performAll [.registerSingleton "works" (works outlet), .bean "piece" none,
    .clearResolution "piece", .registerSingleton "works" (works press)]).run foretold).2

/-- What is invoked can return something else than predicted. It can take other parameters too: what
was kept while the factory bean was of another class is invoked on the new one, and a method that is
the only one by declaration can be remembered from a class that does not declare it. -/
theorem created_otherwise :
    (founded.introspected? instrument = some bells ∧ cast.invocations.map (·.executable) = [gongs] ∧
      (gongs.returnType == bells.returnType) = false) ∧
    (restaffed.methodOwner? (piece false) = some mint ∧
      restaffed.introspected? (piece false) = some medals ∧
      ((Request.performAll [.introspect "piece", .bean "piece" none]).run restaffed).2.invocations =
        restaffed.invocations ++ [⟨"piece", coins, some (works mint), [silver],
          .ok (.object (.plainClass "Coin") (.made 2))⟩]) ∧
    (staffed true).methodOwner? (piece true) = some press ∧
      (staffed true).introspected? (piece true) = some coins ∧
      ((Request.performAll [.bean "piece" none]).run replaced).2.invocations =
        replaced.invocations ++ [⟨"piece", tokens, some (works press), [],
          .ok (.object (.plainClass "Token") (.made 2))⟩] ∧
      coins.sameParameterTypes tokens = false := by
  exact ⟨⟨rfl, rfl, rfl⟩, ⟨rfl, rfl, rfl⟩, rfl, rfl, rfl, rfl⟩

end Foundry

end BeanWiring

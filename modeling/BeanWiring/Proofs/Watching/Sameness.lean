import BeanWiring.Proofs.Watching
import BeanWiring.Proofs.Wiring.Creation

/-!
Work that does the same in the two containers of a watch, as long as what is invoked in the course of
it is honest: predicting, looking up and binding, given that creation does.
-/
namespace BeanWiring

variable {α β ε : Type} {w : Watch} {given : Prop}

def Watch.Still (w : Watch) (Q : α → Prop) (a : α) (c c' : Container) : Prop := w.Pair c c' ∧ Q a

theorem Realm.remembers_grows (c : Container) : Realm.Remembers (fun _ => True) c.Grows where
  registered _ _ _ _ _ := trivial
  rememberMethod _ _ _ grows _ _ _ := ⟨grows.invocations, grows.decisions⟩

namespace Work

/-- Provided that `given` holds, the work gives the same in both containers, and `R` holds of that and
of the containers after it. It takes nothing back. -/
structure Same (w : Watch) (given : Prop) (x : Work α) (R : α → Container → Container → Prop) :
    Prop where
  grows : ∀ c : Container, c.Grows (x.run c).2
  alike : given → ∀ c c', w.Pair c c' → w.Calm (x.run c).2 →
    (x.run c').1 = (x.run c).1 ∧ R (x.run c).1 (x.run c).2 (x.run c').2

namespace Same

variable {R S : α → Container → Container → Prop} {T : β → Container → Container → Prop}

theorem return_ {a : α} (holds : given → ∀ c c', w.Pair c c' → R a c c') :
    Same w given (Pure.pure a) R where
  grows := .refl
  alike fulfilled c c' pair _ := ⟨rfl, holds fulfilled c c' pair⟩

theorem pure {Q : α → Prop} {a : α} (holds : given → Q a) :
    Same w given (Pure.pure a) (w.Still Q) :=
  return_ fun fulfilled _ _ pair => ⟨pair, holds fulfilled⟩

theorem bind {x : Work α} {f : α → Work β} {P : α → Prop} (first : Same w given x (w.Still P))
    (rest : ∀ a, Same w (given ∧ P a) (f a) T) : Same w given (x >>= f) T where
  grows c := (first.grows c).trans ((rest _).grows _)
  alike fulfilled c c' pair calm := by
    obtain ⟨same, paired, holds⟩ := first.alike fulfilled c c' pair (calm.before ((rest _).grows _))
    have later := (rest _).alike ⟨fulfilled, holds⟩ _ _ paired calm
    rwa [run_bind, run_bind, same]

theorem mono {x : Work α} (same : Same w given x R)
    (weaker : given → ∀ a c c', R a c c' → S a c c') : Same w given x S where
  grows := same.grows
  alike fulfilled c c' pair calm :=
    (same.alike fulfilled c c' pair calm).imp_right (weaker fulfilled _ _ _)

theorem provided {fewer : Prop} {x : Work α} (same : Same w fewer x R) (enough : given → fewer) :
    Same w given x R where
  grows := same.grows
  alike fulfilled := same.alike (enough fulfilled)

theorem get_bind {f : Container → Work β}
    (blind : ∀ c methods, f { c with factoryMethods := methods } = f c)
    (rest : ∀ c, Same w (given ∧ ∃ c', w.Pair c c') (f c) T) : Same w given (get >>= f) T where
  grows c := (rest c).grows c
  alike fulfilled c c' pair calm := by
    have same : f c' = f c := by rw [pair.same, blind]
    change ((f c').run c').1 = _ ∧ T _ _ ((f c').run c').2
    rw [same]
    exact (rest c).alike ⟨fulfilled, c', pair⟩ c c' pair calm

end Same

end Work

namespace Attempt

def Same (w : Watch) (given : Prop) (x : ExceptT ε Work α) (R : α → Container → Container → Prop) :
    Prop :=
  Work.Same w given x.run fun r c c' =>
    match r with
    | .error _ => w.Pair c c'
    | .ok a => R a c c'

namespace Same

variable {R S : α → Container → Container → Prop} {T : β → Container → Container → Prop}

theorem return_ {a : α} (holds : given → ∀ c c', w.Pair c c' → R a c c') :
    Same w given (Pure.pure a : ExceptT ε Work α) R :=
  Work.Same.return_ holds

theorem pure {Q : α → Prop} {a : α} (holds : given → Q a) :
    Same w given (Pure.pure a : ExceptT ε Work α) (w.Still Q) :=
  return_ fun fulfilled _ _ pair => ⟨pair, holds fulfilled⟩

theorem throw (e : ε) : Same w given (throw e : ExceptT ε Work α) R :=
  Work.Same.return_ fun _ _ _ pair => pair

theorem run {x : ExceptT ε Work α} {Q : α → Prop} (same : Same w given x (w.Still Q)) :
    Work.Same w given x.run (w.Still fun r => ∀ a, r = .ok a → Q a) := by
  refine Work.Same.mono same fun _ r c c' holds => ?_
  cases r with
  | error e => exact ⟨holds, nofun⟩
  | ok a => exact ⟨holds.1, fun _ equal => Except.ok.inj equal ▸ holds.2⟩

theorem bind {x : ExceptT ε Work α} {f : α → ExceptT ε Work β} {P : α → Prop}
    (first : Same w given x (w.Still P)) (rest : ∀ a, Same w (given ∧ P a) (f a) T) :
    Same w given (x >>= f) T := by
  refine Work.Same.bind (f := ExceptT.bindCont f) first.run fun r => ?_
  cases r with
  | error e => exact throw e
  | ok a => exact Work.Same.provided (rest a) fun ⟨fulfilled, holds⟩ => ⟨fulfilled, holds a rfl⟩

theorem mono {x : ExceptT ε Work α} (same : Same w given x R)
    (weaker : given → ∀ a c c', R a c c' → S a c c') : Same w given x S := by
  refine Work.Same.mono same fun fulfilled r c c' holds => ?_
  cases r with
  | error e => exact holds
  | ok a => exact weaker fulfilled a c c' holds

theorem provided {fewer : Prop} {x : ExceptT ε Work α} (same : Same w fewer x R)
    (enough : given → fewer) : Same w given x R :=
  Work.Same.provided same enough

theorem lift {x : Work α} {Q : α → Prop} (same : Work.Same w given x (w.Still Q)) :
    Same w given (liftM x : ExceptT ε Work α) (w.Still Q) :=
  Work.Same.bind same fun _ => Work.Same.return_ fun fulfilled _ _ pair => ⟨pair, fulfilled.2⟩

theorem except {x : Except ε α} :
    Same w given (liftExcept x : ExceptT ε Work α) (w.Still fun a => x = .ok a) := by
  cases x with
  | error e => exact throw e
  | ok a => exact pure fun _ => rfl

theorem liftM {x : Except ε α} :
    Same w given (MonadLiftT.monadLift x : ExceptT ε Work α) (w.Still fun a => x = .ok a) := by
  cases x with
  | error e => exact throw e
  | ok a => exact pure fun _ => rfl

theorem get_bind {f : Container → Attempt β}
    (blind : ∀ c methods, f { c with factoryMethods := methods } = f c)
    (rest : ∀ c, Same w (given ∧ ∃ c', w.Pair c c') (f c) T) : Same w given (get >>= f) T :=
  Work.Same.get_bind (f := fun c => (f c).run) (fun c methods => congrArg ExceptT.run (blind c methods))
    rest

theorem mapM {xs : List α} {f : α → ExceptT ε Work β}
    (each : ∀ a ∈ xs, Same w given (f a) (w.Still fun _ => True)) :
    Same w given (xs.mapM f) (w.Still fun _ => True) := by
  induction xs with
  | nil => exact pure fun _ => trivial
  | cons a rest ih =>
    rw [List.mapM_cons]
    refine bind (each a List.mem_cons_self) fun b => ?_
    have others := ih fun x member => each x (List.mem_cons_of_mem _ member)
    refine bind (others.provided And.left) fun bs => ?_
    exact pure fun _ => trivial

end Same

end Attempt

/-- The second container differs from the first in nothing that is predicted or decided by, and its
journal goes on from that of the first. -/
structure Container.Aside (c m : Container) : Prop where
  definitions : m.definitions = c.definitions
  classes : m.classes = c.classes
  singletons : m.singletons = c.singletons
  factoryMethods : m.factoryMethods = c.factoryMethods
  resolutions : m.resolutions = c.resolutions
  built : m.built = c.built
  grows : c.Grows m

namespace Work

/-- The work goes the same way whatever factory methods are remembered, and changes none of them. -/
def Blind (x : Work α) : Prop :=
  ∀ c methods, x.run { c with factoryMethods := methods } =
    ((x.run c).1, { (x.run c).2 with factoryMethods := methods })

namespace Blind

theorem pure (a : α) : Blind (Pure.pure a) := fun _ _ => rfl

theorem bind {x : Work α} {f : α → Work β} (first : Blind x) (rest : ∀ a, Blind (f a)) :
    Blind (x >>= f) := by
  intro c methods
  rw [run_bind, run_bind, first c methods]
  exact rest _ _ methods

theorem get_bind {f : Container → Work β}
    (blind : ∀ c methods, f { c with factoryMethods := methods } = f c) (rest : ∀ c, Blind (f c)) :
    Blind (get >>= f) := by
  intro c methods
  change (f { c with factoryMethods := methods }).run _ = _
  rw [blind]
  exact rest c c methods

end Blind

theorem Same.aside {x : Work α} (blind : Blind x) (aside : ∀ c : Container, c.Aside (x.run c).2) :
    Same w given x (w.Still fun _ => True) where
  grows c := (aside c).grows
  alike _ c c' pair _ := by
    have run : x.run c' = ((x.run c).1, { (x.run c).2 with factoryMethods := c'.factoryMethods }) := by
      conv => lhs; rw [pair.same]
      exact blind c c'.factoryMethods
    have frame := aside c
    rw [run]
    refine ⟨rfl, ?_, trivial⟩
    exact pair.frame rfl frame.definitions frame.classes frame.singletons frame.factoryMethods rfl
      frame.resolutions frame.built frame.grows

theorem emit_same (event : Event) : Same w given (emit event) (w.Still fun _ => True) :=
  .aside (fun _ _ => rfl) fun _ => ⟨rfl, rfl, rfl, rfl, rfl, rfl, ⟨List.prefix_rfl, List.prefix_rfl⟩⟩

theorem suppress_same (error : BeanError) : Same w given (suppress error) (w.Still fun _ => True) :=
  .aside (fun _ _ => rfl) fun _ => ⟨rfl, rfl, rfl, rfl, rfl, rfl, ⟨List.prefix_rfl, List.prefix_rfl⟩⟩

theorem makeObject_same (type : BeanType) :
    Same w given (makeObject type) (w.Still fun _ => True) :=
  .aside (fun _ _ => rfl) fun _ => ⟨rfl, rfl, rfl, rfl, rfl, rfl, ⟨List.prefix_rfl, List.prefix_rfl⟩⟩

theorem nextInnerName_same : Same w given nextInnerName (w.Still fun _ => True) :=
  .aside (fun _ _ => rfl) fun _ => ⟨rfl, rfl, rfl, rfl, rfl, rfl, ⟨List.prefix_rfl, List.prefix_rfl⟩⟩

theorem registerDependent_same (dependency dependent : String) :
    Same w given (registerDependent dependency dependent) (w.Still fun _ => True) :=
  .aside (fun _ _ => rfl) fun _ => ⟨rfl, rfl, rfl, rfl, rfl, rfl, ⟨List.prefix_rfl, List.prefix_rfl⟩⟩

section Predicting

variable (opens : w.Opens)
include opens

theorem predict_same (name : String) : Same w given (predict name) (w.Still fun _ => True) where
  grows c := by
    have agree := (Realm.remembers_grows c).predict name
    exact (agree c (.refl c)).2.1
  alike _ c c' pair _ := by
    obtain ⟨fills, tells⟩ := predict_predicts pair.plain.lawful.toSound name
    obtain ⟨fills', tells'⟩ := predict_predicts pair.asked.lawful.toSound name
    have results : ((predict name).run c').1 = ((predict name).run c).1 := by
      refine Option.ext fun type => ?_
      exact (tells' type).trans (pair.tells_iff.trans (tells type).symm)
    refine ⟨results, ⟨?_, ?_, pair.plain.fills fills, pair.asked.fills fills', ?_⟩, trivial⟩
    · rw [fills'.rest, fills.rest, pair.same]
    · rw [fills.rest]
      exact pair.grown.trans ⟨List.prefix_rfl, List.prefix_rfl⟩
    · have entries : c'.definitions.entries.length = c.definitions.entries.length := by
        rw [pair.definitions]
      -- There are as many steps as definitions, which is enough with none being predicted.
      have enough : (c.definitions.keys.filter (· ∉ [])).length ≤ c.definitions.entries.length :=
        (List.length_filter_le _ _).trans (List.length_map _).le
      unfold predict
      rw [run_bind, run_bind]
      change ∀ serial, w.Differs serial
        (((predictWithin c.definitions.entries.length [] name).run c).2.factoryMethods.get? serial)
        (((predictWithin c'.definitions.entries.length [] name).run c').2.factoryMethods.get? serial)
      rw [entries]
      exact Watch.predictWithin_differs opens pair enough nofun

theorem isTypeMatch_same (name : String) (type : BeanType) :
    Same w given (isTypeMatch name type) (w.Still fun _ => True) :=
  .bind (predict_same opens name) fun _ => .pure fun _ => trivial

theorem matching_same (type : BeanType) (names : List String) :
    Same w given (matching type names) (w.Still fun _ => True) := by
  induction names with
  | nil => exact .pure fun _ => trivial
  | cons name rest ih =>
    unfold matching
    refine .bind (isTypeMatch_same opens name type) fun fits => ?_
    split
    · exact .bind (ih.provided And.left) fun _ => .pure fun _ => trivial
    · exact ih.provided And.left

theorem candidatesFor_same (requester : String) (type : BeanType) :
    Same w given (candidatesFor requester type) (w.Still fun _ => True) :=
  .get_bind (fun _ _ => rfl) fun _ => matching_same opens type _

theorem choose_same (point : InjectionPoint) (requester : String) (required : Bool) :
    Same w given (choose point requester required) (w.Still fun _ => True) := by
  refine .bind (candidatesFor_same opens requester _) fun names => ?_
  exact .get_bind (fun _ _ => rfl) fun _ => .pure fun _ => trivial

theorem chooseByType_same (type : BeanType) :
    Same w given (chooseByType type) (w.Still fun _ => True) := by
  refine .bind (candidatesFor_same opens "" type) fun names => ?_
  split
  · exact .pure fun _ => trivial
  · exact .pure fun _ => trivial
  · exact .get_bind (fun _ _ => rfl) fun _ => .pure fun _ => trivial

theorem resolveDependency_same {fetch : String → Attempt Value}
    (fetches : ∀ name, Attempt.Same w given (fetch name) (w.Still fun _ => True))
    (point : InjectionPoint) (requester : String) (required : Bool) :
    Same w given (resolveDependency fetch point requester required) (w.Still fun _ => True) := by
  refine .bind (choose_same opens point requester required) fun chosen => ?_
  have fetches (name : String) : Attempt.Same w (given ∧ True) (fetch name) _ :=
    (fetches name).provided And.left
  split
  · rename_i choice
    cases choice with
    | nothing => exact .pure fun _ => trivial
    | one name => exact .bind (fetches name).run fun _ => .pure fun _ => trivial
    | all names =>
      refine .bind (Attempt.Same.mapM fun name _ => fetches name).run fun beans => ?_
      split <;> exact .pure fun _ => trivial
  · exact .pure fun _ => trivial

end Predicting

theorem registerAutowired_same (bean noun : String) (names : List String) :
    Same w given (registerAutowired bean noun names) (w.Still fun _ => True) := by
  induction names with
  | nil => exact .pure fun _ => trivial
  | cons name rest ih =>
    refine .bind (registerDependent_same name bean) fun _ => ?_
    exact .bind (emit_same _) fun _ => ih.provided fun fulfilled => fulfilled.1.1

section Binding

variable (opens : w.Opens) {fetch : Fetch}
  (fetches : ∀ ctx name, Attempt.Same w given (fetch ctx name) (w.Still fun _ => True))
include opens fetches

theorem autowire_same (ctx : Context) (bean : String) (point : InjectionPoint) (fallback : Bool) :
    Attempt.Same w given (autowire fetch ctx bean point fallback) (w.Still fun _ => True) := by
  unfold autowire
  split
  · split
    · exact .pure fun _ => trivial
    · exact .throw _
  · refine .bind (.lift (resolveDependency_same opens (fetches _) point bean true)) fun lookup => ?_
    exact Attempt.Same.except.mono fun _ _ _ _ still => ⟨still.1, trivial⟩

variable (ctx : Context) (bean : String) (autowiring fallback : Bool) (e : Executable)
  (values : ArgumentValues ResolvedValue)

theorem bindParameter_same (index : Nat) (parameter : Parameter) (p : Progress) :
    Attempt.Same w given
      (bindParameter ⟨fetch, ctx, bean, autowiring, fallback⟩ e values index parameter p)
      (w.Still fun _ => True) := by
  unfold bindParameter
  dsimp only
  split
  · exact .bind .liftM fun _ => .pure fun _ => trivial
  · split
    · refine .bind (.lift (autowire_same opens fetches ctx bean _ fallback).run) fun found => ?_
      split
      · exact .pure fun _ => trivial
      · exact .throw _
    · exact .throw _

theorem bindFrom_same (index : Nat) (parameters : List Parameter) (p : Progress) :
    Attempt.Same w given
      (bindFrom ⟨fetch, ctx, bean, autowiring, fallback⟩ e values index parameters p)
      (w.Still fun _ => True) := by
  induction parameters generalizing index p with
  | nil => exact .pure fun _ => trivial
  | cons parameter rest ih =>
    have first := bindParameter_same opens fetches ctx bean autowiring fallback e values index parameter p
    exact .bind first fun q => (ih (index + 1) q).provided And.left

theorem bind_same (source : ArgumentSource) :
    Attempt.Same w given (bind ⟨fetch, ctx, bean, autowiring, fallback⟩ e source)
      (w.Still fun _ => True) := by
  cases source with
  | explicit arguments => exact Attempt.Same.liftM.mono fun _ _ _ _ still => ⟨still.1, trivial⟩
  | declared values =>
    refine .bind (bindFrom_same opens fetches ctx bean autowiring fallback e values 0 _ _) fun p => ?_
    refine .bind (.lift (registerAutowired_same _ _ _)) fun _ => ?_
    exact .pure fun _ => trivial

end Binding

end Work

end BeanWiring

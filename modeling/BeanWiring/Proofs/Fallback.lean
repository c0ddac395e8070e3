import BeanWiring.Proofs.Lawful

/-!
What an empty container can stand in for. It does so where no bean fits, and where a bean that fits
could not be created because another one was missing and nothing on the way said for what. A search
always says that; what follows recipes does not.
-/
namespace BeanWiring

variable {α β : Type} {known : List Definition} {c m c' : Container}

namespace Container

def Followed (c c' : Container) : Prop :=
  ∃ bean e, Event.replayingArguments bean e ∈ c'.events.drop c.events.length

theorem Followed.before (grown : c.events <+: m.events) (followed : m.Followed c') :
    c.Followed c' := by
  obtain ⟨bean, e, told⟩ := followed
  refine ⟨bean, e, ?_⟩
  have later : c'.events.drop m.events.length =
      (c'.events.drop c.events.length).drop (m.events.length - c.events.length) := by
    rw [List.drop_drop, Nat.add_sub_cancel' grown.length_le]
  rw [later] at told
  exact List.mem_of_mem_drop told

abbrev Ensues (known : List Definition) (base c : Container) : Prop :=
  c.Sound known ∧ base.events <+: c.events

theorem ensues_upholds (catalogued : Catalogued known) (base : Container) :
    (Realm.everywhere (· ∈ known)).Upholds (Ensues known base) :=
  ((Sound.upheld catalogued).and fun _ _ _ _ grown held => held.trans grown).upholds

theorem Sound.ensues (sound : c.Sound known) (base : Container) :
    (Realm.everywhere (· ∈ known)).Upholds (Ensues known base) :=
  ensues_upholds sound.catalogued base

end Container

open Container

namespace Attempt

/-- No failure of the attempt says that there is no bean of a type. -/
def Blameless (x : Attempt α) : Prop :=
  ∀ c e c', x.run.run c = (.error e, c') → e.isNoSuchBean = false

namespace Blameless

theorem pure (a : α) : Blameless (Pure.pure a) := nofun

theorem throw {e : BeanError} (other : e.isNoSuchBean = false) :
    Blameless (MonadExcept.throw e : Attempt α) := by
  intro c e' c' run
  cases run
  exact other

theorem get : Blameless (MonadState.get : Attempt Container) := nofun

theorem lift (x : Work α) : Blameless (liftM x) := nofun

theorem except {x : Except BeanError α} (other : ∀ e, x = .error e → e.isNoSuchBean = false) :
    Blameless (liftExcept x) := by
  intro c e c' run
  rw [run_liftExcept] at run
  exact other e (Prod.ext_iff.mp run).1

theorem bind {x : Attempt α} {f : α → Attempt β} (first : Blameless x)
    (rest : ∀ a, Blameless (f a)) : Blameless (x >>= f) := by
  intro c e c' failed
  rcases run_bind_eq_error failed with here | ⟨a, m, -, later⟩
  · exact first c e c' here
  · exact rest a m e c' later

theorem evaluate (text : String) : Blameless (Attempt.evaluate text) := by
  refine .bind .get fun c => ?_
  split
  · exact .pure _
  · exact .throw rfl

end Blameless

/-- From `c` the attempt says that there is no bean of a type only after recipes were followed. -/
def Candid (c : Container) (x : Attempt α) : Prop :=
  ∀ e c', x.run.run c = (.error e, c') → e.isNoSuchBean = true → c.Followed c'

theorem Blameless.candid {x : Attempt α} (blameless : Blameless x) : Candid c x :=
  fun e c' failed none => absurd (none.symm.trans (blameless c e c' failed)) nofun

namespace Candid

theorem get_bind {f : Container → Attempt α} (rest : Candid c (f c)) : Candid c (get >>= f) := rest

theorem bind_ends {I : Container → Prop} {x y : Attempt α} {f : α → Attempt β}
    {Q : α → Container → Prop} (first : Candid c x) (ends : Ends I c x y Q)
    (rest : ∀ a m, Q a m → c.events <+: m.events ∧ Candid m (f a)) : Candid c (x >>= f) := by
  intro e c' failed none
  rcases run_bind_eq_error failed with here | ⟨a, m, run, later⟩
  · exact first e c' here none
  · obtain ⟨grown, candid⟩ := rest a m (ends.2.2 a m run)
    exact (candid e c' later none).before grown

theorem bind {x y : Attempt α} {f : α → Attempt β} {P : α → Prop} (sound : c.Sound known)
    (first : Candid c x) (agree : Agree (Ensues known c) x y P)
    (rest : ∀ a m, P a → m.Sound known → Candid m (f a)) : Candid c (x >>= f) :=
  first.bind_ends (agree.ends ⟨sound, List.prefix_rfl⟩) fun a m ⟨holds, kept, grown⟩ =>
    ⟨grown, rest a m holds kept⟩

theorem andThen {x : Attempt α} {f : α → Attempt β} (first : Candid c x)
    (rest : ∀ a, Blameless (f a)) : Candid c (x >>= f) := by
  intro e c' failed none
  rcases run_bind_eq_error failed with here | ⟨a, m, -, later⟩
  · exact first e c' here none
  · exact absurd (none.symm.trans (rest a m e c' later)) nofun

theorem mapM {xs : List α} {f : α → Attempt β} (sound : c.Sound known)
    (each : ∀ a ∈ xs, ∀ m, m.Sound known → Candid m (f a))
    (grows : ∀ a ∈ xs, ∀ base, Agree (Ensues known base) (f a) (f a) fun _ => True) :
    Candid c (xs.mapM f) := by
  induction xs generalizing c with
  | nil => exact (Blameless.pure _).candid
  | cons a rest ih =>
    rw [List.mapM_cons]
    refine .bind sound (each a List.mem_cons_self c sound) (grows a List.mem_cons_self c) ?_
    intro b m _ sound
    have others := ih sound (fun x member => each x (List.mem_cons_of_mem a member))
      fun x member => grows x (List.mem_cons_of_mem a member)
    exact others.andThen fun _ => .pure _

end Candid

end Attempt

open Attempt

structure Creator.Honest (known : List Definition) (create : Creator) : Prop where
  grows : ∀ base, (Realm.everywhere (· ∈ known)).Agree (Ensues known base) create create
  candid : ∀ ctx name d explicit c, c.Sound known → d ∈ known →
    Attempt.Candid c (create ctx name d explicit)

namespace Creator.Honest

variable {create : Creator}

theorem fetch (creates : create.Honest known) (sound : c.Sound known) (ctx : Context)
    (name : String) (explicit : Option (List Value)) :
    Candid c (Attempt.fetch create ctx name explicit) := by
  refine .get_bind ?_
  split
  · exact (Blameless.bind (.lift _) fun _ => .pure _).candid
  · split
    · exact (Blameless.pure _).candid
    · exact (Blameless.throw rfl).candid
    · rename_i d found
      have made := creates.candid ctx name d explicit c sound (sound.registered name d found)
      split
      · exact (Blameless.pure _).candid
      · exact made.andThen fun _ => .bind (.lift _) fun _ => .pure _
      · exact made

mutual

theorem resolveDeclared (creates : create.Honest known) {c : Container} (sound : c.Sound known)
    (ctx : Context) (bean argumentName : String) :
    (declared : DeclaredValue) → (∀ inner ∈ declared.family, inner ∈ known) →
      Candid c (Attempt.resolveDeclared create ctx bean argumentName declared)
  | .value v, _ => by
    cases v with
    | str text => exact (Blameless.evaluate text).candid
    | _ => exact (Blameless.pure _).candid
  | .reference name, _ => by
    refine .bind sound (Blameless.lift _).candid (.lift ((sound.ensues c).emits _)) ?_
    intro _ m _ sound
    exact (creates.fetch sound ctx name none).andThen fun _ => .bind (.lift _) fun _ => .pure _
  | .inner d, within => by
    have own : d ∈ (DeclaredValue.inner d).family := by
      rw [DeclaredValue.family, DeclaredValue.familyOfDefinition_eq]
      exact List.mem_cons_self
    refine .bind sound (Blameless.lift _).candid
      (.lift (.modifyGet fun m held => (sound.ensues c).nextInnerName m held)) ?_
    exact fun name m _ sound => creates.candid ctx name d none m sound (within d own)
  | .list items, within =>
    (creates.resolveDeclaredAll sound ctx bean argumentName items within).andThen fun _ => .pure _

theorem resolveDeclaredAll (creates : create.Honest known) {c : Container} (sound : c.Sound known)
    (ctx : Context) (bean argumentName : String) :
    (items : List DeclaredValue) → (∀ inner ∈ DeclaredValue.familyOfItems items, inner ∈ known) →
      Candid c (Attempt.resolveDeclaredAll create ctx bean argumentName items)
  | [], _ => (Blameless.pure _).candid
  | item :: rest, within => by
    have first := fun inner member => within inner (List.mem_append_left _ member)
    have later := fun inner member => within inner (List.mem_append_right _ member)
    refine .bind sound (creates.resolveDeclared sound ctx bean argumentName item first)
      ((sound.ensues c).resolveDeclared (creates.grows c) trivial bean argumentName item
        fun inner member _ _ _ _ => first inner member) ?_
    intro _ m _ sound
    exact (creates.resolveDeclaredAll sound ctx bean argumentName rest later).andThen
      fun _ => .pure _

end

theorem resolveHolder (creates : create.Honest known) (sound : c.Sound known) (ctx : Context)
    (bean : String) (h : Holder DeclaredValue) (within : ∀ inner ∈ h.value.family, inner ∈ known) :
    Candid c (Attempt.resolveHolder create ctx bean h) := by
  unfold Attempt.resolveHolder
  split
  · exact (Blameless.pure _).candid
  · exact (creates.resolveDeclared sound ctx bean _ h.value within).andThen fun _ => .pure _

theorem resolveArguments (creates : create.Honest known) (sound : c.Sound known) (ctx : Context)
    (bean : String) {d : Definition} (member : d ∈ known) :
    Candid c (Attempt.resolveArguments create ctx bean d) := by
  have within : ∀ h ∈ d.arguments.holders, ∀ inner ∈ h.value.family, inner ∈ known :=
    sound.catalogued d member
  have grows (h : Holder DeclaredValue) (held : h ∈ d.arguments.holders) (base : Container) :
      Attempt.Agree (Ensues known base) (Attempt.resolveHolder create ctx bean h)
        (Attempt.resolveHolder create ctx bean h) fun _ => True :=
    (sound.ensues base).resolveHolder (creates.grows base) trivial bean h
      fun inner inside _ _ _ _ => within h held inner inside
  have indexed : ∀ p ∈ d.arguments.indexed, p.2 ∈ d.arguments.holders := fun p listed =>
    List.mem_append_left _ (List.mem_map_of_mem listed)
  have generic : ∀ h ∈ d.arguments.generic, h ∈ d.arguments.holders := fun h listed =>
    List.mem_append_right _ listed
  have first (p : UInt64 × Holder DeclaredValue) (listed : p ∈ d.arguments.indexed)
      (base : Container) :
      Attempt.Agree (Ensues known base)
        (do return (p.1, ← Attempt.resolveHolder create ctx bean p.2) : Attempt _)
        (do return (p.1, ← Attempt.resolveHolder create ctx bean p.2)) fun _ => True :=
    .bind (grows p.2 (indexed p listed) base) fun _ _ => .pure trivial
  refine .bind sound (.mapM sound (fun p listed m sound => ?_) first)
    (.mapM fun p listed => first p listed c) ?_
  · exact (creates.resolveHolder sound ctx bean p.2 (within p.2 (indexed p listed))).andThen
      fun _ => .pure _
  · intro _ m _ sound
    have others : Candid _ (d.arguments.generic.mapM (Attempt.resolveHolder create ctx bean)) :=
      .mapM sound (fun h listed m sound =>
        creates.resolveHolder sound ctx bean h (within h (generic h listed)))
        fun h listed => grows h (generic h listed)
    exact others.andThen fun _ => .pure _

/-- Recipes that are followed leave word of it before anything can fail. -/
theorem recollect (creates : create.Honest known) (sound : c.Sound known) {host : Host}
    (hosts : ∀ base, Host.Alike (Ensues known base) host host) (ctx : Context) (bean : String)
    {d : Definition} (member : d ∈ known) {r : Resolution} (kept : r.KeptFor d) :
    Candid c (Attempt.recollect host create ctx bean r) := by
  obtain ⟨e, arguments | recipes⟩ := r
  · exact (Blameless.bind (.lift _) fun _ => .pure _).candid
  · intro error c' failed _
    obtain ⟨values, s, b, keeps⟩ := kept
    have offers : ∀ source, .declared source ∈ recipes →
        -- The word left is of the recipes being followed. All that is done from there on only adds
        -- to it.
        (Realm.everywhere (· ∈ known)).Offers (Ensues known
          { c with events := c.events ++ [.replayingArguments bean e] }) source.family := by
      intro source declared
      obtain ⟨h, held, rfl⟩ := keeps.exists_holder rfl declared
      exact fun inner inside _ _ _ _ => sound.catalogued d member h held inner inside
    have replays : Attempt.Agree _ (Attempt.replay host create ctx bean e recipes)
        (Attempt.replay host create ctx bean e recipes) _ :=
      (sound.ensues _).replayFrom (hosts _) (creates.grows _) trivial bean e 0 e.parameters recipes
        offers keeps.length_eq
    have told : Ensues known { c with events := c.events ++ [.replayingArguments bean e] }
        { c with events := c.events ++ [.replayingArguments bean e] } :=
      ⟨sound.frame rfl rfl rfl, List.prefix_rfl⟩
    obtain ⟨rest, longer⟩ := (Attempt.Agree.kept replays told failed).2
    refine ⟨bean, e, ?_⟩
    rw [← longer, List.append_assoc, List.drop_left]
    exact List.mem_cons_self

end Creator.Honest

namespace Creation

variable {n : Creation}

theorem exhausted_blameless (n : Creation) (failures : List Unsatisfied) (noMatch : String) :
    Blameless (n.exhausted failures noMatch) := by
  unfold exhausted
  split
  · exact .throw rfl
  · exact .bind (.lift _) fun _ => .throw rfl

theorem instantiate_blameless (n : Creation) (call : Call) : Blameless (n.instantiate call) := by
  refine .bind (.lift _) fun result => ?_
  split
  · exact .pure _
  · exact .throw rfl

theorem constructors_blameless (n : Creation) (beanClass : BeanClass)
    (given : Option (List Executable)) : Blameless (n.constructors beanClass given) := by
  unfold constructors
  split
  · exact .pure _
  · refine .except fun e failed => ?_
    unfold BeanClass.constructorCandidates at failed
    split at failed
    · cases failed
      rfl
    · cases failed

theorem favoured_blameless (n : Creation) (isKept : Bool) (beanClass : BeanClass) :
    Blameless (liftExcept (n.favoured isKept beanClass)) := by
  refine .except fun e failed => ?_
  unfold favoured at failed
  split at failed
  · cases failed
  · split at failed
    · cases failed
    · split at failed
      · cases failed
      · split at failed
        · cases failed
        · cases failed
          rfl

theorem factoryMethods_blameless (n : Creation) (beanClass : BeanClass) :
    Blameless (n.factoryMethods beanClass) := by
  have all : Blameless (factoryMethods.all n beanClass) := by
    refine .except fun e failed => ?_
    unfold BeanClass.methodCandidates at failed
    split at failed
    · cases failed
      rfl
    · cases failed
  refine .bind .get fun c => ?_
  split
  · split
    · exact .pure _
    · exact all
  · exact all

section

variable (creates : n.create.Honest known) (sound : c.Sound known) (member : n.definition ∈ known)
include creates sound member

theorem source_candid : Candid c n.source := by
  unfold source
  split
  · exact (Blameless.pure _).candid
  · refine (creates.resolveArguments sound n.context n.bean member).andThen fun values => ?_
    split
    · exact .pure _
    · exact .bind (.lift _) fun _ => .throw rfl

theorem byClosestConstructor_candid (beanClass : BeanClass) (autowiring : Bool)
    (candidates : List Executable) :
    Candid c (n.byClosestConstructor beanClass autowiring candidates) := by
  refine (source_candid creates sound member).andThen fun (source, minCount) => ?_
  refine .bind (.lift _) fun found => ?_
  split
  · exact n.exhausted_blameless _ _
  · split
    · exact .throw rfl
    · exact .bind (.lift _) fun _ => .pure _

theorem byClosestMethod_candid (factoryBean : Option Value) (beanClass : BeanClass)
    (candidates : List Executable) :
    Candid c (n.byClosestMethod factoryBean beanClass candidates) := by
  refine (source_candid creates sound member).andThen fun (source, minCount) => ?_
  refine .bind (.lift _) fun found => ?_
  split
  · exact n.exhausted_blameless _ _
  · rename_i best _
    by_cases isVoid : best.executable.returnType.isVoid = true
    · simp only [if_pos isVoid]
      exact .throw rfl
    · simp only [if_neg isVoid]
      split
      · exact .throw rfl
      · exact .bind (.lift _) fun _ => .pure _

theorem remembered_candid (hosts : ∀ base, Host.Alike (Ensues known base) n.host n.host) :
    Candid c n.remembered := by
  refine .get_bind ?_
  cases entry : (if n.explicit.isNone then c.resolution? n.definition else none) with
  | none => exact (Blameless.pure _).candid
  | some r =>
    have kept : r.KeptFor n.definition := by
      split at entry
      · exact sound.keptFor member entry
      · cases entry
    exact (creates.recollect sound hosts n.context n.bean member kept).andThen fun _ => .pure _

theorem byConstructor_candid (hosts : ∀ base, Host.Alike (Ensues known base) n.host n.host)
    (given : Option (List Executable)) : Candid c (n.byConstructor given) := by
  have remembers : Attempt.Ends _ c n.remembered n.remembered _ :=
    (sound.ensues c).remembered (hosts c) (creates.grows c) trivial n.bean member n.explicit
      ⟨sound, List.prefix_rfl⟩
  refine .bind_ends (remembered_candid creates sound member hosts) remembers ?_
  intro found m ⟨⟨sound, grown⟩, _⟩
  refine ⟨grown, ?_⟩
  split
  · exact (Blameless.pure _).candid
  · split
    · exact (Blameless.throw rfl).candid
    · rename_i beanClass _
      have lists : Attempt.Agree (Ensues known m) (n.constructors beanClass given)
          (n.constructors beanClass given) fun _ => True := by
        cases given with
        | some _ => exact .pure trivial
        | none => exact .except fun _ _ => trivial
      refine .bind sound (n.constructors_blameless beanClass given).candid lists ?_
      intro candidates m _ sound
      unfold constructorAmong
      split
      · exact (Blameless.bind (.lift _) fun _ => .pure _).candid
      · exact byClosestConstructor_candid creates sound member _ _ _

omit member in
theorem factoryTarget_candid : Candid c n.factoryTarget := by
  unfold factoryTarget
  split
  · split
    · exact (Blameless.throw rfl).candid
    · refine (creates.fetch sound n.context _ none).andThen fun factoryBean => ?_
      refine .bind (.lift _) fun _ => .bind .get fun _ => ?_
      split
      · exact .pure _
      · exact .throw rfl
  · split
    · exact (Blameless.pure _).candid
    · exact (Blameless.throw rfl).candid

theorem byFactoryMethod_candid (hosts : ∀ base, Host.Alike (Ensues known base) n.host n.host) :
    Candid c n.byFactoryMethod := by
  have targets : Attempt.Agree _ n.factoryTarget (n.elsewhere n.host n.create).factoryTarget _ :=
    (sound.ensues c).factoryTarget (creates.grows c) trivial
  refine .bind sound (factoryTarget_candid creates sound) targets ?_
  intro (factoryBean, beanClass) m own sound
  have remembers : Attempt.Ends _ m n.remembered n.remembered _ :=
    (sound.ensues m).remembered (hosts m) (creates.grows m) trivial n.bean member n.explicit
      ⟨sound, List.prefix_rfl⟩
  refine .bind_ends (remembered_candid creates sound member hosts) remembers ?_
  intro found m ⟨⟨sound, grown⟩, _⟩
  refine ⟨grown, ?_⟩
  split
  · exact (Blameless.pure _).candid
  · have lists : Attempt.Agree (Ensues known m) (n.factoryMethods beanClass)
        ((n.elsewhere n.host n.create).factoryMethods beanClass) _ :=
      Realm.Works.factoryMethods own
    refine .bind sound (n.factoryMethods_blameless beanClass).candid lists ?_
    intro candidates m _ sound
    unfold methodAmong
    split
    · exact (Blameless.bind (.lift _) fun _ => .pure _).candid
    · exact byClosestMethod_candid creates sound member _ _ _

theorem call_candid (hosts : ∀ base, Host.Alike (Ensues known base) n.host n.host) :
    Candid c n.call := by
  unfold call
  split
  · exact byFactoryMethod_candid creates sound member hosts
  · split
    · exact (Blameless.throw rfl).candid
    · rename_i beanClass _
      refine .get_bind ?_
      refine .bind sound (n.favoured_blameless _ beanClass).candid
        (.except (Q := fun _ => True) fun _ _ => trivial) ?_
      exact fun given m _ sound => byConstructor_candid creates sound member hosts given

theorem perform_candid (hosts : ∀ base, Host.Alike (Ensues known base) n.host n.host) :
    Candid c n.perform :=
  (call_candid creates sound member hosts).andThen n.instantiate_blameless

end

end Creation

theorem Context.begin_error {ctx : Context} {bean : String} {e : BeanError}
    (refused : ctx.begin bean = .error e) : e.isNoSuchBean = false := by
  unfold begin at refused
  split at refused
  · cases refused
    rfl
  · split at refused
    · cases refused
      rfl
    · cases refused

theorem createWithin_honest (catalogued : Catalogued known) (room : Nat) :
    (createWithin .full room).Honest known := by
  have grows (room : Nat) (base : Container) := (ensues_upholds catalogued base).createWithin
    (ensues_upholds catalogued base).full_self room
  induction room with
  | zero => exact ⟨grows 0, fun _ _ _ _ _ _ _ => (Blameless.throw rfl).candid⟩
  | succ room ih =>
    refine ⟨grows (room + 1), fun ctx name d explicit c sound member e c' failed none => ?_⟩
    cases begins : ctx.begin name with
    | error refusal =>
      rw [createWithin_refused begins] at failed
      cases failed
      exact absurd (none.symm.trans (Context.begin_error begins)) nofun
    | ok inside =>
      rw [createWithin_begun begins] at failed
      have hosts (base : Container) := (ensues_upholds catalogued base).full_self.alike
      have told : { c with events := c.events ++ [Event.creating name] }.Sound known :=
        sound.frame rfl rfl rfl
      have performs := Creation.perform_candid
        (n := ⟨.full, createWithin .full room, inside, name, d, explicit⟩) ih told member hosts
      exact (performs e c' failed none).before (List.prefix_append _ _)

theorem Container.Sound.followed_of_fetched (sound : m.Sound known) {room : Nat} {ctx : Context}
    {names : List String} {e : BeanError}
    (fetched : (names.mapM (Attempt.fetcher (createWithin .full room) ctx) :
      Attempt (List Value)).run.run m = (.error e, c'))
    (none : e.isNoSuchBean = true) : m.Followed c' := by
  have honest := createWithin_honest sound.catalogued room
  have candid : Attempt.Candid m (names.mapM (Attempt.fetcher (createWithin .full room) ctx) :
      Attempt (List Value)) :=
    .mapM sound (fun name _ m sound => honest.fetch sound ctx name .none)
      fun name _ base => (sound.ensues base).fetch (honest.grows base) trivial name .none
  exact candid e c' fetched none

theorem BeanType.of_element? {type element : BeanType} (container : type.element? = some element) :
    injectionPoint.accepts type = false ∧ ∃ nothing, type.emptyValue? = some nothing := by
  cases type with
  | array _ => exact ⟨rfl, _, rfl⟩
  | collection kind _ => cases kind <;> exact ⟨rfl, _, rfl⟩
  | map _ _ => exact ⟨rfl, _, rfl⟩
  | _ => cases container

namespace Work

section

variable {fetch : String → Attempt Value} {requester : String} {required : Bool}
  {point : InjectionPoint} {element : BeanType} {names : List String}
  (container : point.type.element? = some element)
  (found : (candidatesFor requester element).run c = (names, m))
include container found

theorem run_choose_of_element :
    (choose point requester required).run c = (m.pick point required names, m) := by
  unfold choose
  rw [container, run_bind, Option.getD_some, found]
  rfl

theorem run_resolveDependency_of_none (none : names = []) :
    (resolveDependency fetch point requester required).run c =
      (⟨[], .error (.noSuchBean element.name ("no beans found to populate " ++ point.type.name))⟩,
        m) := by
  have chosen : m.pick point required [] =
      .error (.noSuchBean element.name ("no beans found to populate " ++ point.type.name)) := by
    unfold Container.pick
    rw [container]
  unfold resolveDependency
  rw [run_bind, run_choose_of_element container found, none, chosen]
  rfl

theorem run_resolveDependency_of_fits {r : Except BeanError (List Value)} (fits : names ≠ [])
    (fetched : (names.mapM fetch : Attempt (List Value)).run.run m = (r, c')) :
    ((∃ beans, r = .ok beans ∧
      (resolveDependency fetch point requester required).run c =
        (⟨names, .ok (point.type.gather names beans)⟩, c')) ∨
    ∃ e, r = .error e ∧ (resolveDependency fetch point requester required).run c =
      (⟨[], .error e⟩, c')) := by
  have chosen : m.pick point required names = .ok (.all names) := by
    unfold Container.pick
    rw [container]
    cases names with
    | nil => exact absurd rfl fits
    | cons => rfl
  unfold resolveDependency gather
  rw [run_bind, run_choose_of_element container found, chosen, run_bind, fetched]
  cases r with
  | ok beans => exact .inl ⟨beans, rfl, rfl⟩
  | error e => exact .inr ⟨e, rfl, rfl⟩

end

theorem run_autowire_of_element {fetch : Fetch} {ctx : Context} {bean : String}
    {point : InjectionPoint} {element : BeanType} (container : point.type.element? = some element)
    {fallback : Bool} {lookup : Lookup}
    (looked : (resolveDependency (fetch (ctx.push point)) point bean true).run c = (lookup, c')) :
    (autowire fetch ctx bean point fallback).run.run c =
      (lookup.autowired point.type fallback, c') := by
  have ordinary := (BeanType.of_element? container).1
  unfold autowire
  rw [if_neg (by rw [ordinary]; exact nofun), Attempt.run_bind_lift, looked]
  exact run_liftExcept _ c'

end Work

/-- Whenever a parameter for a container is satisfied from a container of beans, for a search or to
follow a recipe: if no bean but the one that asks is predicted to fit, an empty container is given
or refused as the fallback says. Else it is given all beans that fit, and fails with the first of them
that cannot be had. An empty container stands in for that only if the failure says that there is no
bean of a type, and recipes were followed on the way to it. -/
theorem Container.Lawful.container_autowired (lawful : c.Lawful known) {point : InjectionPoint}
    {element : BeanType} (container : point.type.element? = some element) (room : Nat)
    (ctx : Context) (bean : String) (fallback : Bool) :
    ∃ names m nothing, (Work.candidatesFor bean element).run c = (names, m) ∧
      point.type.emptyValue? = some nothing ∧
      let fetch := Attempt.fetcher (createWithin .full room)
      let run := (Work.autowire fetch ctx bean point fallback).run.run c
      (names = [] → run = (if fallback then .ok ⟨nothing, .autowiredEmpty, []⟩
        else .error (.noSuchBean element.name
          ("no beans found to populate " ++ point.type.name)), m)) ∧
      (names ≠ [] → ∃ r c',
        (names.mapM (fetch (ctx.push point)) : Attempt (List Value)).run.run m = (r, c') ∧
        ((∃ beans, r = .ok beans ∧
          run = (.ok ⟨point.type.gather names beans, .autowired, names⟩, c')) ∨
        ∃ e, r = .error e ∧ ((fallback && e.isNoSuchBean) = false → run = (.error e, c')) ∧
          ((fallback && e.isNoSuchBean) = true →
            m.Followed c' ∧ run = (.ok ⟨nothing, .autowiredEmpty, []⟩, c')))) := by
  obtain ⟨nothing, empty⟩ := (BeanType.of_element? container).2
  obtain ⟨names, m, found⟩ : ∃ names m, (Work.candidatesFor bean element).run c = (names, m) :=
    ⟨_, _, rfl⟩
  refine ⟨names, m, nothing, found, empty, fun none => ?_, fun fits => ?_⟩
  · rw [Work.run_autowire_of_element container
      (Work.run_resolveDependency_of_none container found none)]
    unfold Lookup.autowired
    cases fallback with
    | false => rfl
    | true => simp [BeanError.isNoSuchBean, empty]
  · obtain ⟨r, c', fetched⟩ : ∃ r c', (names.mapM (Attempt.fetcher (createWithin .full room)
      (ctx.push point)) : Attempt (List Value)).run.run m = (r, c') := ⟨_, _, rfl⟩
    refine ⟨r, c', fetched, ?_⟩
    rcases Work.run_resolveDependency_of_fits container found fits fetched with
      ⟨beans, rfl, looked⟩ | ⟨e, rfl, looked⟩
    · exact .inl ⟨beans, rfl, Work.run_autowire_of_element container looked⟩
    · have satisfied : (Work.autowire (Attempt.fetcher (createWithin .full room)) ctx bean point
          fallback).run.run c = _ := Work.run_autowire_of_element container looked
      unfold Lookup.autowired at satisfied
      refine .inr ⟨e, rfl, fun other => ?_, fun stands => ?_⟩
      · rw [satisfied]
        simp [other]
      -- Beans are missing under way only where something was followed to look for them.
      · have sound : m.Sound known :=
          (((lawful.ensues c).candidatesFor bean element).kept ⟨lawful.toSound, List.prefix_rfl⟩
            found).1
        refine ⟨sound.followed_of_fetched fetched (Bool.and_eq_true_iff.mp stands).2, ?_⟩
        rw [satisfied]
        simp [stands, empty]

/-! A shelf of books, of which there is one, by an author who is one no longer. -/
namespace Shelf

def made (name : String) (parameters : List Parameter) : Executable where
  declaring := .plainClass name
  kind := .constructor
  isPublic := true
  parameters := parameters
  effect := .makes (.plainClass name)
  label := none

def books : Parameter := ⟨.collection .list (.plainClass "Book"), none⟩

def shelf : Executable := made "Shelf" [books]

def autowired (name : String) (constructor : Executable) : Definition :=
  { Definition.initial .initial with
    beanClass := some ⟨.plainClass name, [constructor], []⟩
    autowire := true
    scope := .prototype }

def book : Definition := autowired "Book" (made "Book" [⟨.plainClass "Author", none⟩])

def author : Definition := autowired "Author" (made "Author" [])

def editor : Definition := autowired "Editor" (made "Editor" [])

def bound : Container := ((Request.define "book" book).perform.run (.new .initial)).2

def written : Container := ((Request.define "author" author).perform.run bound).2

def asked : Container := ((Request.bean "book" none).perform.run written).2

def retired : Container := ((Request.define "author" editor).perform.run asked).2

def container : Container :=
  ((Request.define "shelf" (autowired "Shelf" shelf)).perform.run retired).2

def inside : Context := ⟨[], ["shelf"], 100⟩

def point : InjectionPoint := shelf.injectionPoint "shelf" 0 books

def autowiring : Attempt Autowired :=
  Work.autowire (Attempt.fetcher (createWithin .full 99)) inside "shelf" point true

theorem reachable : ∃ known, Container.Reachable known container := by
  have fresh := Container.Reachable.initially
  have bound : Container.Reachable _ bound := fresh.step (.define "book" book)
  have written : Container.Reachable _ written := bound.step (.define "author" author)
  have asked : Container.Reachable _ asked := written.step (.bean "book" none)
  have retired : Container.Reachable _ retired := asked.step (.define "author" editor)
  exact ⟨_, retired.step (.define "shelf" (autowired "Shelf" shelf))⟩

theorem fits : ((Work.candidatesFor "shelf" (.plainClass "Book")).run container).1 = ["book"] := by
  decide +kernel

theorem given :
    (autowiring.run.run container).1.toOption.map (·.provenance) = some .autowiredEmpty := by
  decide +kernel

theorem container_autowired_of_shelf : ∃ m e c',
    (Work.candidatesFor "shelf" (.plainClass "Book")).run container = (["book"], m) ∧
    (["book"].mapM (Attempt.fetcher (createWithin .full 99) (inside.push point)) :
      Attempt (List Value)).run.run m = (.error e, c') ∧
    m.Followed c' ∧ autowiring.run.run container = (.ok ⟨.list [], .autowiredEmpty, []⟩, c') := by
  obtain ⟨known, reachable⟩ := reachable
  have list : point.type.element? = some (.plainClass "Book") := rfl
  obtain ⟨names, m, nothing, found, empty, -, satisfied⟩ :=
    reachable.lawful.container_autowired list 99 inside "shelf" true
  have fits := fits
  rw [found] at fits
  subst fits
  have given := given
  obtain ⟨r, c', fetched, ⟨beans, rfl, run⟩ | ⟨e, rfl, fails, stands⟩⟩ := satisfied nofun
  · rw [show autowiring.run.run container = _ from run] at given
    cases given
  · cases isNone : e.isNoSuchBean with
    | false =>
      rw [show autowiring.run.run container = _ from fails isNone] at given
      cases given
    | true =>
      obtain ⟨followed, run⟩ := stands isNone
      cases empty
      exact ⟨m, e, c', found, fetched, followed, run⟩

end Shelf

end BeanWiring

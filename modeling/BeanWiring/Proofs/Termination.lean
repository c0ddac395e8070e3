import BeanWiring.Proofs.Registry
import BeanWiring.Proofs.Standing

/-!
Why every request ends. A prediction goes on only to defined beans that are not being predicted, a
creation only to beans that are not in creation and never deeper than the settings say, and what is
declared for an argument is finite. So what would be done after more steps than there are
definitions, or inside more creations than there is room for, makes no difference in any state.
-/
namespace BeanWiring

namespace Work

/-- Looks for the factory method of a definition in work that keeps something beside the container:
the class of the factory bean, if one is named, is asked for first. -/
def findMethodBeside {σ : Type} (classOf : String → StateT σ Work (Option BeanClass))
    (d : Definition) : StateT σ Work (Option Executable) := do
  let owner ← factoryBeanClass
  findMethod (fun _ => pure owner) d
where
  factoryBeanClass : StateT σ Work (Option BeanClass) :=
    match d.factoryBean with
    | some factoryBean => classOf factoryBean
    | none => pure none

/-- Predicts the type of a bean and keeps the names of those being predicted: a name is entered
before the factory method is looked for and taken out afterwards. What is done after so many steps
is up to `beyond`. -/
def predictTracking (beyond : String → StateT (List String) Work (Option BeanType)) :
    (steps : Nat) → String → StateT (List String) Work (Option BeanType)
  | 0, name => beyond name
  | steps + 1, name => do
    let c ← getThe Container
    match c.singletons.get? name, c.definitions.get? name with
    | some bean, _ => pure bean.runtimeType
    | none, none => pure none
    | none, some d =>
      if d.factoryMethod.isSome && (c.factoryMethod? d).isNone then do
        let busy ← getThe (List String)
        if busy.contains name then pure none
        else do
          set (name :: busy)
          let _ ← findMethodBeside (classOf steps) d
          modifyThe (List String) (·.erase name)
          pure ((← getThe Container).knownType? d)
      else pure (c.knownType? d)
where
  classOf (steps : Nat) (name : String) : StateT (List String) Work (Option BeanClass) := do
    match ← predictTracking beyond steps name with
    | some type => pure ((← getThe Container).classOfType? type)
    | none => pure none

/-- From `s` and `c` the first piece of work does what the second does, and leaves `s` as it is. -/
def Beside {σ α : Type} (s : σ) (c : Container) (x : StateT σ Work α) (y : Work α) : Prop :=
  (x.run s).run c = (((y.run c).1, s), (y.run c).2)

namespace Beside

variable {σ α β : Type} {s : σ} {c : Container}

theorem bind {x : StateT σ Work α} {y : Work α} {f : α → StateT σ Work β} {g : α → Work β}
    (first : Beside s c x y) (rest : ∀ a m, Beside s m (f a) (g a)) :
    Beside s c (x >>= f) (y >>= g) := by
  change ((f ((x.run s).run c).1.1).run ((x.run s).run c).1.2).run ((x.run s).run c).2 = _
  rw [first]
  exact rest _ _

theorem get_bind {f : Container → StateT σ Work α} {g : Container → Work α}
    (rest : Beside s c (f c) (g c)) : Beside s c (getThe Container >>= f) (get >>= g) := rest

theorem ask {f : σ → StateT σ Work α} {y : Work α} (rest : Beside s c (f s) y) :
    Beside s c (getThe σ >>= f) y := rest

theorem findMethod {classOf : String → StateT σ Work (Option BeanClass)}
    {classOf' : String → Work (Option BeanClass)}
    (same : ∀ name, Beside s c (classOf name) (classOf' name)) (d : Definition) :
    Beside s c (findMethodBeside classOf d) (Work.findMethod classOf' d) := by
  cases owner : d.factoryBean with
  | none =>
    unfold findMethodBeside findMethodBeside.factoryBeanClass Work.findMethod methodOwner
    rw [owner]
    rfl
  | some factoryBean =>
    have asks : Work.findMethod classOf' d =
        classOf' factoryBean >>= fun owner => Work.findMethod (fun _ => pure owner) d := by
      unfold Work.findMethod methodOwner
      rw [owner]
      rfl
    unfold findMethodBeside findMethodBeside.factoryBeanClass
    rw [asks, owner]
    exact .bind (same factoryBean) fun _ _ => rfl

theorem entering {name : String} {busy : List String} {x : StateT (List String) Work α} {y : Work α}
    {f : α → StateT (List String) Work β} {g : α → Work β} (inside : Beside (name :: busy) c x y)
    (rest : ∀ a m, Beside busy m (f a) (g a)) :
    Beside busy c
      (do set (name :: busy); let a ← x; modifyThe (List String) (·.erase name); f a)
      (y >>= g) := by
  change ((f ((x.run (name :: busy)).run c).1.1).run
    (((x.run (name :: busy)).run c).1.2.erase name)).run ((x.run (name :: busy)).run c).2 = _
  rw [inside]
  dsimp only
  rw [List.erase_cons_head]
  exact rest _ _

end Beside

theorem unpredicted_cons {c : Container} {name : String} {d : Definition}
    (found : c.definitions.get? name = some d) {busy : List String} (free : name ∉ busy) :
    (c.definitions.keys.filter (· ∉ name :: busy)).length <
      (c.definitions.keys.filter (· ∉ busy)).length := by
  have narrowed : c.definitions.keys.filter (· ∉ name :: busy) =
      (c.definitions.keys.filter (· ∉ busy)).filter (· ≠ name) := by
    rw [List.filter_filter]
    refine List.filter_congr fun other _ => ?_
    simp [not_or]
  rw [narrowed]
  refine List.length_filter_lt_length_iff_exists.mpr ⟨name, ?_, by simp⟩
  exact List.mem_filter.mpr ⟨Registry.mem_keys found, by simpa using free⟩

theorem Beside.predictBy {beyond : String → StateT (List String) Work (Option BeanType)} {steps : Nat}
    {name : String} {busy : List String} {c : Container} {search : Definition → Work (Option BeanType)}
    (searches : ∀ d, c.definitions.get? name = some d → Beside busy c
      (if busy.contains name then pure none
      else do
        set (name :: busy)
        let _ ← findMethodBeside (predictTracking.classOf beyond steps) d
        modifyThe (List String) (·.erase name)
        pure ((← getThe Container).knownType? d))
      (search d)) :
    Beside busy c (predictTracking beyond (steps + 1) name) (predictBy search name) := by
  unfold predictTracking Work.predictBy
  refine .get_bind ?_
  cases c.singletons.get? name with
  | some bean => rfl
  | none =>
    cases found : c.definitions.get? name with
    | none => rfl
    | some d =>
      dsimp only
      split
      · exact .ask (searches d found)
      · rfl

/-- With at least as many steps as definitions are not being predicted, a prediction goes as far as
it can, and leaves those being predicted as they were. -/
theorem predictTracking_beside (beyond : String → StateT (List String) Work (Option BeanType))
    {steps n : Nat} {busy : List String} {c : Container}
    (enough : (c.definitions.keys.filter (· ∉ busy)).length < steps)
    (also : (c.definitions.keys.filter (· ∉ busy)).length ≤ n) (name : String) :
    Beside busy c (predictTracking beyond steps name) (predictWithin n busy name) := by
  induction steps generalizing busy n name with
  | zero => cases enough
  | succ steps ih =>
    by_cases entered : busy.contains name = true
    · cases n <;> exact .predictBy fun d _ => by simp only [if_pos entered]; rfl
    by_cases known : ∃ d, c.definitions.get? name = some d
    · obtain ⟨_, found⟩ := known
      have fewer := unpredicted_cons found fun member => entered (List.contains_iff_mem.mpr member)
      obtain ⟨n, rfl⟩ : ∃ k, n = k + 1 := Nat.exists_eq_succ_of_ne_zero (by omega)
      -- The name stands in front while the class of the factory bean is predicted.
      have inner (factoryBean : String) : Beside (name :: busy) c
          (predictTracking.classOf beyond steps factoryBean)
          (classOfPredicted (predictWithin n (name :: busy)) factoryBean) := by
        have predicts := ih (Nat.lt_of_lt_of_le fewer (Nat.le_of_lt_succ enough))
          (Nat.le_of_lt_succ (Nat.lt_of_lt_of_le fewer also)) factoryBean
        unfold predictTracking.classOf classOfPredicted
        refine .bind predicts fun type m => ?_
        cases type <;> rfl
      refine .predictBy fun d _ => ?_
      simp only [if_neg entered]
      exact .entering (.findMethod inner d) fun _ _ => rfl
    · cases n <;> exact .predictBy fun d found => absurd ⟨d, found⟩ known

end Work

theorem Context.begin_room {ctx inside : Context} {bean : String}
    (begins : ctx.begin bean = .ok inside) :
    0 < ctx.room ∧ inside.room = ctx.room - 1 ∧ inside.maxDepth = ctx.maxDepth := by
  unfold begin at begins
  split at begins
  · cases begins
  · rename_i spacious
    split at begins
    · cases begins
    · cases begins
      refine ⟨Nat.sub_pos_of_lt (Nat.lt_of_not_le spacious), ?_, rfl⟩
      exact (Nat.sub_sub ctx.maxDepth ctx.path.length 1).symm

theorem Context.begin_of_full {ctx : Context} (full : ctx.room = 0) (bean : String) :
    ctx.begin bean = .error (.tooDeep ctx.maxDepth) := by
  have reached : ctx.maxDepth ≤ ctx.path.length := Nat.sub_eq_zero_iff_le.mp full
  unfold begin
  rw [if_pos reached]

theorem Context.Asks.path_eq {ctx ctx' : Context} {bean : String} (asks : ctx.Asks bean ctx') :
    ctx'.path = ctx.path ∧ ctx'.maxDepth = ctx.maxDepth := by
  cases asks with
  | itself => exact ⟨rfl, rfl⟩
  | satisfying => exact ⟨rfl, rfl⟩

theorem Context.Asks.room_eq {ctx ctx' : Context} {bean : String} (asks : ctx.Asks bean ctx') :
    ctx'.room = ctx.room := by
  obtain ⟨path, maxDepth⟩ := asks.path_eq
  unfold room
  rw [path, maxDepth]

/-- Creates beans as a container does. What is created inside so many creations is up to
`beyond`. -/
def createTo (beyond : Creator) : (room : Nat) → Creator
  | 0, ctx, bean, d, explicit => beyond ctx bean d explicit
  | room + 1, ctx, bean, d, explicit => do
    let inside ← liftExcept (ctx.begin bean)
    Work.emit (.creating bean)
    (Creation.mk .full (createTo beyond room) inside bean d explicit).perform

theorem createTo_eq (beyond : Creator) {ctx : Context} {room n : Nat} (enough : ctx.room < room)
    (also : ctx.room ≤ n) : createTo beyond room ctx = createWithin .full n ctx := by
  induction room generalizing ctx n with
  | zero => cases enough
  | succ room ih =>
    funext bean d explicit
    unfold createTo createWithin
    cases n with
    | zero =>
      rw [Context.begin_of_full (Nat.le_zero.mp also)]
      rfl
    | succ n =>
      refine Attempt.begin_congr fun inside begins => ?_
      obtain ⟨some, less, -⟩ := Context.begin_room begins
      refine Creation.perform_congr
        (n := ⟨.full, createTo beyond room, inside, bean, d, explicit⟩) fun ctx' asks => ?_
      have narrower : ctx'.room = ctx.room - 1 := asks.room_eq.trans less
      exact ih (by omega) (by omega)

def Context.Bounded (ctx : Context) : Prop :=
  ctx.path.Nodup ∧ ctx.path.length ≤ ctx.maxDepth

namespace Context.Bounded

variable {ctx inside : Context}

theorem new (maxDepth : Nat) : (Context.new maxDepth).Bounded := ⟨List.nodup_nil, Nat.zero_le _⟩

theorem asks (bounded : ctx.Bounded) {bean : String} (asks : ctx.Asks bean inside) :
    inside.Bounded := by
  obtain ⟨path, maxDepth⟩ := asks.path_eq
  unfold Bounded
  rw [path, maxDepth]
  exact bounded

theorem begin (bounded : ctx.Bounded) {bean : String} (begins : ctx.begin bean = .ok inside) :
    inside.Bounded := by
  obtain ⟨path, apart⟩ := begin_ok begins
  obtain ⟨spare, -, maxDepth⟩ := begin_room begins
  unfold Bounded at *
  rw [path, maxDepth, List.nodup_cons, List.length_cons]
  exact ⟨⟨apart, bounded.1⟩, Nat.lt_of_sub_pos spare⟩

theorem beginAll (bounded : ctx.Bounded) {beans : List String}
    (begins : ctx.beginAll beans = .ok inside) :
    inside.Bounded ∧ inside.maxDepth = ctx.maxDepth := by
  induction beans generalizing ctx with
  | nil =>
    cases begins
    exact ⟨bounded, rfl⟩
  | cons bean rest ih =>
    unfold Context.beginAll at begins
    split at begins
    · cases begins
    · rename_i first began
      rw [← (begin_room began).2.2]
      exact ih (bounded.begin began) begins

end Context.Bounded

theorem Attempt.context_bounded {start : Outset} {c m : Container} {ctx : Context}
    (run : (Attempt.context start).run.run c = (.ok ctx, m)) :
    ctx.Bounded ∧ ctx.maxDepth = c.settings.maxDepth.toNat := by
  rw [run_context] at run
  have fresh : Context.Bounded
      { (Context.new c.settings.maxDepth.toNat) with points := start.point.toList } :=
    .new c.settings.maxDepth.toNat
  exact fresh.beginAll (congrArg Prod.fst run)

theorem Context.inherits_bounded (limit : Nat) :
    Inherits fun ctx => ctx.Bounded ∧ ctx.maxDepth = limit := by
  intro ctx bean inside ctx' ⟨bounded, same⟩ begins asks
  exact ⟨(bounded.begin begins).asks asks,
    asks.path_eq.2.trans ((begin_room begins).2.2.trans same)⟩

/-- Every request ends, in every state of a container. -/
theorem Request.comes_to_end (c : Container) :
    (∀ beyond steps busy name, c.definitions.entries.length < steps →
      Work.Beside busy c (Work.predictTracking beyond steps name)
        (Work.predictWithin c.definitions.entries.length busy name)) ∧
    (∀ beyond room ctx, ctx.room < room → createTo beyond room ctx = ctx.creator ctx) ∧
    ∀ request, EachCreation (fun n _ => n.context.path.Nodup ∧
      n.context.path.length ≤ c.settings.maxDepth.toNat) [request] c := by
  refine ⟨?_, ?_, ?_⟩
  · intro beyond steps busy name enough
    have fewer : (c.definitions.keys.filter (· ∉ busy)).length ≤ c.definitions.entries.length :=
      Nat.le_trans (List.length_filter_le _ _) (Nat.le_of_eq (List.length_map _))
    exact Work.predictTracking_beside beyond (by omega) fewer name
  · exact fun beyond room ctx enough => createTo_eq beyond enough (Nat.le_refl _)
  · intro request
    refine eachCreation_of_inherits (Context.inherits_bounded c.settings.maxDepth.toNat) ?_ ?_
    · intro ctx m settings begun
      obtain ⟨bounded, same⟩ := Attempt.context_bounded begun
      exact ⟨bounded, settings ▸ same⟩
    · intro ctx n _ ⟨bounded, same⟩ begins
      have kept : n.context.maxDepth = _ := (Context.begin_room begins).2.2.trans same
      exact kept ▸ bounded.begin begins

/-! A hen that hatches from the egg it lays. -/
namespace Hen

def hatching (factoryBean method : String) : Definition :=
  { Definition.initial .initial with
    factoryBean := some factoryBean
    factoryMethod := some method }

def defined : Container :=
  ((Request.performAll [.define "hen" (hatching "egg" "hatch"),
    .define "egg" (hatching "hen" "lay")]).run (.new .initial)).2

theorem comes_to_end_of_hen :
    (∀ beyond, Work.Beside ["cock"] defined (Work.predictTracking beyond 3 "hen")
      (Work.predictWithin 2 ["cock"] "hen")) ∧
    ((Work.predictWithin 2 ["cock"] "hen").run defined).1.isNone = true ∧
    (∀ beyond, createTo beyond 101 (.new 100) = (Context.new 100).creator (.new 100)) ∧
    ((Attempt.bean "hen" none).run.run defined).1 = .error (.circular "hen" "hen -> egg -> hen") ∧
    Request.EachCreation (fun n _ => n.context.path.Nodup ∧ n.context.path.length ≤ 100)
      [.bean "hen" none] defined := by
  obtain ⟨predicts, creates, bounded⟩ := Request.comes_to_end defined
  refine ⟨fun beyond => ?_, ?_, fun beyond => ?_, rfl, bounded (.bean "hen" none)⟩
  · exact predicts beyond 3 ["cock"] "hen" (by decide)
  · decide +kernel
  · exact creates beyond 101 (.new 100) (by decide)

end Hen

end BeanWiring

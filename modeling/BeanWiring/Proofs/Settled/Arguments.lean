import BeanWiring.Container.Creation
import BeanWiring.Proofs.Catalogue
import BeanWiring.Proofs.Settled

/-!
The declared arguments of the one bean that need not be there. They come to the same values in all
containers alike, as long as none of them is a bean defined on the spot.
-/
namespace BeanWiring

variable {α β : Type} {c₀ : Container} {create : Creator} {ctx : Context} {bean : String}

/-- What the first attempt gives in a container like `c₀`, the other gives in all of them, whatever
creates beans there and wherever the request stands. -/
def Attempt.Repeats (c₀ : Container) (x : Attempt α) (y : Creator → Context → Attempt α) : Prop :=
  Attempt.Agree (·.Alike c₀) x x fun a => ∀ create ctx, Attempt.Gives c₀ (y create ctx) (.ok a)

namespace Attempt.Repeats

theorem of_gives {x : Attempt α} {y : Creator → Context → Attempt α} {r : Except BeanError α}
    (first : Gives c₀ x r) (every : ∀ create ctx, Gives c₀ (y create ctx) r) : Repeats c₀ x y := by
  intro c alike
  obtain ⟨events, graph, run⟩ := first c alike
  rw [run]
  refine ⟨rfl, alike.quiet events graph, fun a same => ?_⟩
  cases (show r = .ok a from same)
  exact every

theorem lift {x : Work α} {a : α} (gives : Work.Gives c₀ x a) :
    Repeats c₀ (liftM x) fun _ _ => liftM x := of_gives (.lift gives) fun _ _ => .lift gives

theorem of_fails {x : Attempt α} {y : Creator → Context → Attempt α}
    (fails : ∀ c, c.Alike c₀ → ∃ e, x.run.run c = (.error e, c)) : Repeats c₀ x y := by
  intro c alike
  obtain ⟨e, run⟩ := fails c alike
  rw [run]
  exact ⟨rfl, alike, nofun⟩

theorem bind {x : Attempt α} {y : Creator → Context → Attempt α} {f : α → Attempt β}
    {g : Creator → Context → α → Attempt β} (first : Repeats c₀ x y)
    (rest : ∀ a, Repeats c₀ (f a) fun create ctx => g create ctx a) :
    Repeats c₀ (x >>= f) fun create ctx => y create ctx >>= g create ctx :=
  Agree.bind first fun a given => (rest a).mono fun _ later create ctx =>
    (given create ctx).bind (later create ctx)

end Attempt.Repeats

/-- The bean cannot be created in the context, as where it is being created already. -/
def Creator.Blocks (create : Creator) (ctx : Context) (bean : String) : Prop :=
  ∀ d c, ∃ e, (create ctx bean d none).run.run c = (.error e, c)

theorem createWithin_blocks {ctx : Context} (creating : bean ∈ ctx.path) (host : Host) (room : Nat) :
    (createWithin host room).Blocks ctx bean := by
  intro d c
  cases room with
  | zero => exact ⟨_, rfl⟩
  | succ room =>
    obtain ⟨e, refused⟩ : ∃ e, ctx.begin bean = .error e := by
      unfold Context.begin
      split
      · exact ⟨_, rfl⟩
      · rw [if_pos (by simpa [Context.isInCreation] using creating)]
        exact ⟨_, rfl⟩
    refine ⟨e, ?_⟩
    unfold createWithin
    rw [refused]
    rfl

namespace Attempt

theorem fetch_fails (settled : c₀.Settled bean) (blocked : create.Blocks ctx bean) {name : String}
    (absent : c₀.singletons.get? name = none) {c : Container} (alike : c.Alike c₀) :
    ∃ e, (fetch create ctx name none).run.run c = (.error e, c) := by
  have absent' : c.singletons.get? name = none := by rw [alike.singletons, absent]
  unfold fetch
  rw [run_get_bind]
  simp only [Option.isNone_none, if_true, absent']
  cases found : c.definitions.get? name with
  | none => exact ⟨_, rfl⟩
  | some d =>
    have same : name = bean := by
      by_contra other
      obtain ⟨v, there⟩ := settled name d (alike.definitions ▸ found) other
      cases absent.symm.trans there
    subst same
    obtain ⟨e, failed⟩ := blocked d c
    refine ⟨e, ?_⟩
    cases scope : d.scope with
    | singleton => simpa only [scope] using run_bind_of_error failed
    | prototype => simpa only [scope] using failed

theorem fetch_repeats (settled : c₀.Settled bean) (blocked : create.Blocks ctx bean)
    (name : String) :
    Repeats c₀ (fetch create ctx name none) fun create ctx => fetch create ctx name none := by
  cases held : c₀.singletons.get? name with
  | some v => exact .of_gives (fetch_gives held create ctx) (fetch_gives held)
  | none => exact .of_fails fun c alike => fetch_fails settled blocked held alike

theorem fetch_ok (settled : c₀.Settled bean) (blocked : create.Blocks ctx bean) {name : String}
    {v : Value} {c c' : Container} (alike : c.Alike c₀)
    (run : (fetch create ctx name none).run.run c = (.ok v, c')) :
    c₀.singletons.get? name = some v := by
  cases held : c₀.singletons.get? name with
  | some w =>
    have same := ((fetch_gives held create ctx).run_eq alike run).1
    cases same
    rfl
  | none =>
    obtain ⟨e, fails⟩ := fetch_fails settled blocked held alike
    cases run.symm.trans fails

theorem evaluate_repeats (text : String) :
    Repeats c₀ (evaluate text) fun _ _ => evaluate text := by
  cases put : Placeholder.substitute c₀.properties (Placeholder.pieces text.toList) with
  | ok value =>
    have gives : Gives c₀ (evaluate text) (.ok (.str (String.ofList value))) := by
      refine .get_bind fun c alike => ?_
      rw [alike.properties, put]
      exact .pure _
    exact .of_gives gives fun _ _ => gives
  | error key =>
    refine .of_fails fun c alike => ?_
    unfold evaluate
    rw [run_get_bind, alike.properties, put]
    exact ⟨_, rfl⟩

mutual

theorem resolveDeclared_repeats (settled : c₀.Settled bean) (blocked : create.Blocks ctx bean)
    (argumentName : String) : (declared : DeclaredValue) → declared.family = [] →
      Repeats c₀ (resolveDeclared create ctx bean argumentName declared)
        fun create ctx => resolveDeclared create ctx bean argumentName declared
  | .value v, _ => by
    cases v with
    | str text => exact evaluate_repeats text
    | _ => exact .of_gives (.pure _) fun _ _ => .pure _
  | .reference name, _ => by
    refine .bind (.lift (.emit _)) fun _ => ?_
    refine .bind (fetch_repeats settled blocked name) fun value => ?_
    refine .bind (.lift (.registerDependent _ _)) fun _ => ?_
    exact .of_gives (.pure _) fun _ _ => .pure _
  | .inner d, childless => by
    rw [DeclaredValue.family, DeclaredValue.familyOfDefinition_eq] at childless
    cases childless
  | .list items, childless =>
    .bind (resolveDeclaredAll_repeats settled blocked argumentName items childless) fun _ =>
      .of_gives (.pure _) fun _ _ => .pure _

theorem resolveDeclaredAll_repeats (settled : c₀.Settled bean) (blocked : create.Blocks ctx bean)
    (argumentName : String) :
    (items : List DeclaredValue) → DeclaredValue.familyOfItems items = [] →
      Repeats c₀ (resolveDeclaredAll create ctx bean argumentName items)
        fun create ctx => resolveDeclaredAll create ctx bean argumentName items
  | [], _ => .of_gives (.pure _) fun _ _ => .pure _
  | item :: rest, childless => by
    obtain ⟨first, later⟩ := List.append_eq_nil_iff.mp childless
    refine .bind (resolveDeclared_repeats settled blocked argumentName item first) fun _ => ?_
    refine .bind (resolveDeclaredAll_repeats settled blocked argumentName rest later) fun _ => ?_
    exact .of_gives (.pure _) fun _ _ => .pure _

end

end Attempt

def Blueprint.IsPlain (d : Definition) : Prop :=
  ∀ h ∈ d.arguments.holders, h.converted = none ∧ h.value.family = []

structure Holder.IsSettled (c₀ : Container) (bean : String) (g : Holder ResolvedValue) : Prop where
  unconverted : g.converted = none
  source : ∀ create ctx, Attempt.Gives c₀
    (Attempt.resolveDeclared create ctx bean Attempt.argumentNoun g.value.source) (.ok g.value.value)

namespace Attempt

theorem resolveHolder_repeats (settled : c₀.Settled bean) (blocked : create.Blocks ctx bean)
    {h : Holder DeclaredValue} (unconverted : h.converted = none) (childless : h.value.family = []) :
    Agree (·.Alike c₀) (resolveHolder create ctx bean h) (resolveHolder create ctx bean h) fun g =>
      g.IsSettled c₀ bean ∧ ∀ create ctx, Gives c₀ (resolveHolder create ctx bean h) (.ok g) := by
  simp only [resolveHolder, unconverted]
  refine .bind (resolveDeclared_repeats settled blocked _ h.value childless) fun v given => ?_
  exact .pure ⟨⟨unconverted, given⟩, fun create ctx => (given create ctx).bind (.pure _)⟩

theorem resolveArguments_repeats (settled : c₀.Settled bean) (blocked : create.Blocks ctx bean)
    {d : Definition} (plain : d.IsPlain) :
    Agree (·.Alike c₀) (resolveArguments create ctx bean d) (resolveArguments create ctx bean d)
      fun values => (∀ g ∈ values.holders, g.IsSettled c₀ bean) ∧
        ∀ create ctx, Gives c₀ (resolveArguments create ctx bean d) (.ok values) := by
  have each (h : Holder DeclaredValue) (member : h ∈ d.arguments.holders) :=
    resolveHolder_repeats settled blocked (plain h member).1 (plain h member).2
  refine .bind (.mapM (Q := fun p q => q.2.IsSettled c₀ bean ∧ ∀ create ctx,
    Gives c₀ (do return (p.1, ← resolveHolder create ctx bean p.2)) (.ok q)) ?_) fun indexed all => ?_
  · intro p member
    have held : p.2 ∈ d.arguments.holders := List.mem_append_left _ (List.mem_map_of_mem member)
    exact .bind (each p.2 held) fun g given => .pure
      ⟨given.1, fun create ctx => (given.2 create ctx).bind (.pure _)⟩
  refine .bind (.mapM fun h member => each h (List.mem_append_right _ member)) fun generic rest => ?_
  refine .pure ⟨fun g member => ?_, fun create ctx => ?_⟩
  · rcases List.mem_append.mp member with first | second
    · obtain ⟨q, there, rfl⟩ := List.mem_map.mp first
      exact ((List.forall₂_and_left _ _).mp all.flip).1 q there
    · exact ((List.forall₂_and_left _ _).mp rest.flip).1 g second
  · have first := Gives.mapM (all.imp fun _ _ found => found.2 create ctx)
    have second := Gives.mapM (rest.imp fun _ _ found => found.2 create ctx)
    exact first.bind (second.bind (.pure _))

end Attempt

end BeanWiring

import BeanWiring.Proofs.Settled.Search

/-!
Deciding again. The call decided on for the one bean that need not be there is decided on again in
all containers alike: by what was kept of it, and by another search where nothing is kept.
-/
namespace BeanWiring

variable {c₀ c c' m : Container} {n : Creation} {call : Call}

namespace Container

/-- The second container comes from the first by deciding on a call for `d`: `r` is kept for it, and
its executable is remembered where a factory method was searched for. -/
structure Decided (c c' : Container) (d : Definition) (r : Resolution) : Prop where
  alike : c'.Alike c
  invocations : c'.invocations = c.invocations
  resolution : c'.resolution? d = some r
  method : c'.factoryMethod? d =
    if d.factoryMethod.isSome && (c.resolution? d).isNone then some r.executable
    else c.factoryMethod? d

theorem Quiet.decided {d : Definition} {r : Resolution} (quiet : c.Quiet c')
    (kept : c.resolution? d = some r) : c.Decided c' d r := by
  obtain ⟨events, graph, rfl⟩ := quiet
  refine ⟨⟨rfl, rfl, rfl, rfl⟩, rfl, kept, ?_⟩
  rw [kept, Option.isNone_some, Bool.and_false]
  rfl

theorem Quiet.resolution?_eq (quiet : c.Quiet c') (d : Definition) :
    c'.resolution? d = c.resolution? d := by
  obtain ⟨events, graph, rfl⟩ := quiet
  rfl

theorem Quiet.factoryMethod?_eq (quiet : c.Quiet c') (d : Definition) :
    c'.factoryMethod? d = c.factoryMethod? d := by
  obtain ⟨events, graph, rfl⟩ := quiet
  rfl

theorem Quiet.then_decided {d : Definition} {r : Resolution} (quiet : c.Quiet m)
    (decided : m.Decided c' d r) : c.Decided c' d r := by
  refine ⟨decided.alike.trans quiet.alike, ?_, decided.resolution, ?_⟩
  · obtain ⟨events, graph, rfl⟩ := quiet
    exact decided.invocations
  · rw [decided.method, quiet.resolution?_eq, quiet.factoryMethod?_eq]

def owner? (c : Container) (d : Definition) : Option BeanClass :=
  match d.factoryBean with
  | some name => (c.singletons.get? name).bind fun v => v.runtimeType.bind c.classOfType?
  | none => d.beanClass

theorem Alike.classOfType?_eq (alike : c.Alike c₀) (type : BeanType) :
    c.classOfType? type = c₀.classOfType? type := by
  unfold classOfType?
  rw [alike.classes]

end Container

namespace Creation

/-- The container creates the one bean that need not be there in `c₀`, without given arguments and
from declared values that are neither converted nor beans defined on the spot. -/
structure IsLone (n : Creation) (c₀ : Container) : Prop where
  full : n.host = .full
  ungiven : n.explicit = none
  settled : c₀.Settled n.bean
  blocked : n.create.Blocks n.context n.bean
  plain : n.definition.IsPlain

theorem keep_decided (ungiven : n.explicit = none)
    (own : n.definition.factoryMethod.isSome = false) (e : Executable) (kept : KeptArguments) :
    c.Decided ((n.keep e kept).run c).2 n.definition ⟨e, kept⟩ := by
  have resolution := resolution?_keep (c := c) ungiven e kept
  unfold keep at resolution ⊢
  rw [ungiven] at resolution ⊢
  refine ⟨⟨rfl, rfl, rfl, rfl⟩, rfl, resolution, ?_⟩
  rw [own, Bool.false_and]
  rfl

theorem keepMethod_decided (ungiven : n.explicit = none)
    (named : n.definition.factoryMethod.isSome = true)
    (nothing : c.resolution? n.definition = none) (e : Executable) (kept : KeptArguments) :
    c.Decided ((n.keepMethod e kept).run c).2 n.definition ⟨e, kept⟩ := by
  have resolution := resolution?_keepMethod (c := c) ungiven e kept
  unfold keepMethod at resolution ⊢
  rw [ungiven] at resolution ⊢
  refine ⟨⟨rfl, rfl, rfl, rfl⟩, rfl, resolution, ?_⟩
  rw [named, nothing]
  exact Registry.get?_insert_self _ _ _

def Recalls (n : Creation) (c₀ : Container) (call : Call) (kept : KeptArguments) : Prop :=
  ∀ create ctx, Attempt.Gives c₀
    (Attempt.recollect .full create ctx n.bean ⟨call.executable, kept⟩) (.ok call.arguments)

def Finds (n : Creation) (kind : SearchKind) (autowiring : Bool) (candidates : List Executable)
    (source : ArgumentSource) (minCount : Nat) (found : Search) (c c' : Container) : Prop :=
  ∃ m, n.source.run.run c = (.ok (source, minCount), m) ∧
    (n.search kind source minCount autowiring candidates).run m = (found, c')

theorem Finds.again {kind : SearchKind} {autowiring : Bool} {candidates : List Executable}
    {source : ArgumentSource} {minCount : Nat} {found : Search} {best : Selected}
    (finds : n.Finds kind autowiring candidates source minCount found c c')
    (lone : n.IsLone c₀) (ordinary : ∀ e ∈ candidates, e.TakesNoPoint) (alike : c.Alike c₀)
    (chosen : found.best = some best) :
    best.executable ∈ candidates ∧ c.Quiet c' ∧
      (∀ create ctx, Attempt.Gives c₀
        (Attempt.recollect .full create ctx n.bean ⟨best.executable, best.binding.kept⟩)
        (.ok best.binding.arguments)) ∧
      ∀ create ctx m, m.Alike c₀ →
        (∃ m', m.Quiet m' ∧
          (n.again create ctx).Finds kind autowiring candidates source minCount found m m') ∧
        ∃ found' m', m.Quiet m' ∧
          (n.again create ctx).Finds kind autowiring [best.executable] source minCount found' m m' ∧
          found'.best = some best ∧ found'.ambiguous = [] := by
  obtain ⟨m, first, searched⟩ := finds
  obtain ⟨values, rfl, counted, run⟩ := (source_ok_iff lone.ungiven).mp first
  obtain ⟨resolved, gives⟩ : (∀ g ∈ values.holders, g.IsSettled c₀ n.bean) ∧ ∀ create ctx,
      Attempt.Gives c₀ (Attempt.resolveArguments create ctx n.bean n.definition) (.ok values) := by
    have resolves := Attempt.resolveArguments_repeats lone.settled lone.blocked lone.plain
    exact (resolves c alike).2.2 values (congrArg Prod.fst run)
  obtain ⟨-, quiet⟩ := (gives n.create n.context).run_eq alike run
  -- A search is a fold over outcomes that are the same in all containers like `c₀`.
  obtain ⟨r, outcomes⟩ := exists_outcomes lone.settled resolved kind autowiring
  have each (create : Creator) (ctx : Context) (L : List Executable)
      (among : ∀ e ∈ L, e.TakesNoPoint) := search_gives (n := n) create ctx
    (fun e member fallback => (outcomes e (among e member)).2 create ctx fallback) minCount
  obtain ⟨rfl, quiet'⟩ := (each n.create n.context candidates ordinary).run_eq
    (quiet.alike.trans alike) searched
  have picks := Search.picks_of_fold chosen
  have takes := ordinary best.executable picks.member
  obtain ⟨opens, recalls⟩ := (outcomes best.executable takes).1 _ _ picks.bound
  have finds (create : Creator) (ctx : Context) (L : List Executable)
      (among : ∀ e ∈ L, e.TakesNoPoint) (m : Container) (alike : m.Alike c₀) : ∃ m', m.Quiet m' ∧
        (n.again create ctx).Finds kind autowiring L (.declared values) minCount
          (Search.fold kind n.definition.lenient ((ArgumentSource.declared values).suits minCount)
            (r (L.length == 1)) .start L) m m' := by
    obtain ⟨events, graph, resolved⟩ := gives create ctx m alike
    obtain ⟨events', graph', searched⟩ := each create ctx L among _ (alike.quiet events graph)
    exact ⟨_, ⟨events', graph', rfl⟩, _, (source_ok_iff (n := n.again create ctx) lone.ungiven).mpr
      ⟨values, rfl, counted, resolved⟩, searched⟩
  refine ⟨picks.member, quiet.trans quiet', recalls, fun create ctx m alike => ⟨?_, ?_⟩⟩
  · exact finds create ctx candidates ordinary m alike
  · obtain ⟨m', quiet, found⟩ := finds create ctx [best.executable]
      (fun e member => List.mem_singleton.mp member ▸ takes) m alike
    exact ⟨_, m', quiet, found, picks.fold_alone opens⟩

/-- In all containers like `c₀` that keep nothing for its definition, the creation decides on the call
and keeps `r`. -/
def DecidesOn (n : Creation) (c₀ : Container) (decide : Creation → Attempt Call) (call : Call)
    (r : Resolution) : Prop :=
  ∀ create ctx c, c.Alike c₀ → c.resolution? n.definition = none →
    ∃ c', (decide (n.again create ctx)).run.run c = (.ok call, c') ∧ c.Decided c' n.definition r

theorem recalls_nothing (e : Executable) (target : Option Value) :
    n.Recalls c₀ ⟨e, target, []⟩ (.resolved []) :=
  fun _ _ => (Attempt.Gives.lift (.emit _)).bind (.pure _)

theorem constructorAmong_again (lone : n.IsLone c₀)
    (own : n.definition.factoryMethod.isSome = false) {beanClass : BeanClass} {autowiring : Bool}
    {candidates : List Executable} (ordinary : ∀ e ∈ candidates, e.TakesNoPoint)
    (alike : c.Alike c₀)
    (run : (n.constructorAmong beanClass autowiring candidates).run.run c = (.ok call, c')) :
    call.target = none ∧ ∃ kept, n.Recalls c₀ call kept ∧
      c.Decided c' n.definition ⟨call.executable, kept⟩ ∧
      n.DecidesOn c₀ (·.constructorAmong beanClass autowiring candidates) call
        ⟨call.executable, kept⟩ := by
  unfold constructorAmong at run
  cases bare : n.bareCandidate? candidates with
  | some only =>
    rw [bare] at run
    obtain ⟨rfl, rfl⟩ := Attempt.run_pure_eq_ok.mp run
    refine ⟨rfl, .resolved [], recalls_nothing _ _, keep_decided lone.ungiven own _ _, ?_⟩
    intro create ctx m _ _
    refine ⟨_, ?_, keep_decided lone.ungiven own only (.resolved [])⟩
    have bare' : (n.again create ctx).bareCandidate? candidates = some only := bare
    simp only [constructorAmong, bare']
    rfl
  | none =>
    rw [bare] at run
    obtain ⟨source, minCount, m₁, found, m₂, best, first, searched, chosen, untied, rfl, rfl⟩ :=
      byClosestConstructor_ok_iff.mp run
    have finds : n.Finds _ _ _ _ _ _ c m₂ := ⟨m₁, first, searched⟩
    obtain ⟨-, quiet, recalls, again⟩ := finds.again lone ordinary alike chosen
    refine ⟨rfl, best.binding.kept, recalls,
      quiet.then_decided (keep_decided lone.ungiven own _ _), ?_⟩
    intro create ctx m alike' _
    obtain ⟨⟨m', quiet', m₁', first', searched'⟩, -⟩ := again create ctx m alike'
    refine ⟨_, ?_, quiet'.then_decided (keep_decided lone.ungiven own best.executable _)⟩
    have bare' : (n.again create ctx).bareCandidate? candidates = none := bare
    simp only [constructorAmong, bare']
    exact byClosestConstructor_ok_iff.mpr
      ⟨source, minCount, m₁', found, m', best, first', searched', chosen, untied, rfl, rfl⟩

theorem eq_singleton_of_bareCandidate {candidates : List Executable} {e : Executable}
    (bare : n.bareCandidate? candidates = some e) : candidates = [e] := by
  unfold bareCandidate? at bare
  split at bare
  · split at bare
    · cases bare
      rfl
    · cases bare
  · cases bare

theorem methodAmong_decidesOn_bare (ungiven : n.explicit = none)
    (named : n.definition.factoryMethod.isSome = true) (factoryBean : Option Value)
    (beanClass : BeanClass) {candidates : List Executable} {e : Executable}
    (bare : (n.bareCandidate? candidates).filter (!·.returnType.isVoid) = some e) :
    n.DecidesOn c₀ (·.methodAmong factoryBean beanClass candidates) ⟨e, factoryBean, []⟩
      ⟨e, .resolved []⟩ := by
  intro create ctx m _ nothing
  refine ⟨_, ?_, keepMethod_decided ungiven named nothing e (.resolved [])⟩
  have bare' : ((n.again create ctx).bareCandidate? candidates).filter (!·.returnType.isVoid) =
    some e := bare
  simp only [methodAmong, bare']
  rfl

theorem methodAmong_decidesOn_closest (ungiven : n.explicit = none)
    (named : n.definition.factoryMethod.isSome = true) (factoryBean : Option Value)
    (beanClass : BeanClass) {candidates : List Executable} (source : ArgumentSource)
    (minCount : Nat) {best : Selected}
    (several : (n.bareCandidate? candidates).filter (!·.returnType.isVoid) = none)
    (notVoid : best.executable.returnType.isVoid = false)
    (finds : ∀ create ctx m, m.Alike c₀ → ∃ found m', m.Quiet m' ∧
      (n.again create ctx).Finds .factoryMethod n.definition.autowire candidates source minCount
        found m m' ∧ found.best = some best ∧ found.ambiguous.isEmpty = true) :
    n.DecidesOn c₀ (·.methodAmong factoryBean beanClass candidates)
      ⟨best.executable, factoryBean, best.binding.arguments⟩
      ⟨best.executable, best.binding.kept⟩ := by
  intro create ctx m alike nothing
  obtain ⟨found, m', quiet, ⟨m₁, first, searched⟩, chosen, untied⟩ := finds create ctx m alike
  have nothing' : m'.resolution? n.definition = none := (quiet.resolution?_eq _).trans nothing
  refine ⟨_, ?_, quiet.then_decided (keepMethod_decided ungiven named nothing' _ _)⟩
  have several' : ((n.again create ctx).bareCandidate? candidates).filter (!·.returnType.isVoid) =
    none := several
  simp only [methodAmong, several']
  exact byClosestMethod_ok_iff.mpr
    ⟨source, minCount, m₁, found, m', best, first, searched, chosen, notVoid, untied, rfl, rfl⟩

theorem methodAmong_again (lone : n.IsLone c₀) (named : n.definition.factoryMethod.isSome = true)
    {factoryBean : Option Value} {beanClass : BeanClass} {candidates : List Executable}
    (ordinary : ∀ e ∈ candidates, e.TakesNoPoint) (alike : c.Alike c₀)
    (nothing : c.resolution? n.definition = none)
    (run : (n.methodAmong factoryBean beanClass candidates).run.run c = (.ok call, c')) :
    call.executable ∈ candidates ∧ call.target = factoryBean ∧ ∃ kept, n.Recalls c₀ call kept ∧
      c.Decided c' n.definition ⟨call.executable, kept⟩ ∧
      ∀ L, L = candidates ∨ L = [call.executable] →
        n.DecidesOn c₀ (·.methodAmong factoryBean beanClass L) call ⟨call.executable, kept⟩ := by
  have ungiven := lone.ungiven
  unfold methodAmong at run
  cases bare : (n.bareCandidate? candidates).filter (!·.returnType.isVoid) with
  | some only =>
    rw [bare] at run
    obtain ⟨rfl, rfl⟩ := Attempt.run_pure_eq_ok.mp run
    have single : candidates = [only] :=
      eq_singleton_of_bareCandidate (Option.filter_eq_some_iff.mp bare).1
    refine ⟨single ▸ List.mem_singleton_self only, rfl, .resolved [], recalls_nothing _ _,
      keepMethod_decided ungiven named nothing _ _, fun L same => ?_⟩
    refine methodAmong_decidesOn_bare ungiven named factoryBean beanClass ?_
    rcases same with rfl | rfl
    · exact bare
    · exact single ▸ bare
  | none =>
    rw [bare] at run
    obtain ⟨source, minCount, m₁, found, m₂, best, first, searched, chosen, notVoid, untied, rfl,
      rfl⟩ := byClosestMethod_ok_iff.mp run
    have finds : n.Finds _ _ _ _ _ _ c m₂ := ⟨m₁, first, searched⟩
    obtain ⟨member, quiet, recalls, again⟩ := finds.again lone ordinary alike chosen
    have nothing' : m₂.resolution? n.definition = none := (quiet.resolution?_eq _).trans nothing
    refine ⟨member, rfl, best.binding.kept, recalls,
      quiet.then_decided (keepMethod_decided ungiven named nothing' _ _), fun L same => ?_⟩
    cases bare' : (n.bareCandidate? L).filter (!·.returnType.isVoid) with
    | some only =>
      -- The one method alone is called at once, and so it was bound to nothing in the search.
      rcases same with rfl | rfl
      · cases bare.symm.trans bare'
      · have lone := (Option.filter_eq_some_iff.mp bare').1
        obtain rfl := List.singleton_inj.mp (eq_singleton_of_bareCandidate lone)
        have empty : best.binding = [] := by
          obtain ⟨⟨_, _, bound⟩, -⟩ := search_ok searched chosen
          refine List.eq_nil_of_length_eq_zero ?_
          rw [(Work.bind_ok bound).1, (bareCandidate?_some lone).2]
        rw [empty]
        exact methodAmong_decidesOn_bare ungiven named factoryBean beanClass bare'
    | none =>
      refine methodAmong_decidesOn_closest ungiven named factoryBean beanClass source minCount bare'
        notVoid fun create ctx m alike' => ?_
      obtain ⟨⟨m', quiet', finds'⟩, found', m'', quiet'', finds'', chosen', untied'⟩ :=
        again create ctx m alike'
      rcases same with rfl | rfl
      · exact ⟨found, m', quiet', finds', chosen, untied⟩
      · exact ⟨found', m'', quiet'', finds'', chosen', by rw [untied']; rfl⟩

theorem factoryTarget_repeats (lone : n.IsLone c₀) :
    Attempt.Repeats c₀ n.factoryTarget fun create ctx => (n.again create ctx).factoryTarget := by
  unfold factoryTarget again
  dsimp only
  cases n.definition.factoryBean with
  | none =>
    cases n.definition.beanClass with
    | none => exact .of_gives (.throw _) fun _ _ => .throw _
    | some beanClass => exact .of_gives (.pure _) fun _ _ => .pure _
  | some name =>
    by_cases itself : (name == n.bean) = true
    · simp only [itself, if_true]
      exact .of_gives (.throw _) fun _ _ => .throw _
    · simp only [itself]
      refine .bind (Attempt.fetch_repeats lone.settled lone.blocked name) fun v => ?_
      refine .bind (.lift (.registerDependent _ _)) fun _ => ?_
      cases listed : v.runtimeType.bind c₀.classOfType? with
      | some beanClass =>
        refine .of_gives (r := .ok (some v, beanClass)) ?_ fun _ _ => ?_
        all_goals
          refine .get_bind fun c alike => ?_
          rw [funext alike.classOfType?_eq, listed]
          exact .pure _
      | none =>
        refine .of_fails fun c alike => ?_
        rw [Attempt.run_get_bind, funext alike.classOfType?_eq, listed]
        exact ⟨_, rfl⟩

theorem factoryTarget_owner (lone : n.IsLone c₀) (alike : c.Alike c₀) {target : Option Value}
    {beanClass : BeanClass} (run : n.factoryTarget.run.run c = (.ok (target, beanClass), c')) :
    c₀.owner? n.definition = some beanClass := by
  unfold factoryTarget at run
  cases own : n.definition.factoryBean with
  | some name =>
    rw [own] at run
    rw [Container.owner?, own]
    dsimp only at run ⊢
    split at run
    · cases run
    · obtain ⟨v, m, fetched, rest⟩ := Attempt.run_bind_eq_ok.mp run
      have alike' := (Attempt.fetch_repeats lone.settled lone.blocked name).kept alike fetched
      rw [Attempt.run_bind_lift, Attempt.run_get_bind] at rest
      have connected : ((Work.registerDependent name n.bean).run m).2.Alike c₀ :=
        ((Work.Gives.registerDependent name n.bean).run_eq alike' rfl).2.alike.trans alike'
      rw [funext connected.classOfType?_eq] at rest
      rw [Attempt.fetch_ok lone.settled lone.blocked alike fetched, Option.bind_some]
      cases listed : v.runtimeType.bind c₀.classOfType? with
      | some bc =>
        rw [listed] at rest
        cases (Attempt.run_pure_eq_ok.mp rest).1
        rfl
      | none =>
        rw [listed] at rest
        cases rest
  | none =>
    rw [own] at run
    rw [Container.owner?, own]
    cases listed : n.definition.beanClass with
    | some bc =>
      rw [listed] at run
      cases (Attempt.run_pure_eq_ok.mp run).1
      rfl
    | none =>
      rw [listed] at run
      cases run

end Creation

end BeanWiring

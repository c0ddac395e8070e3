import BeanWiring.Proofs.Graph.Teardown

/-!
Tearing down beans that depend on one another. They do not keep the order in which they are named: the
one of them that a visit enters first is left last. None of the others has been reached by then, so a
chain from it to any of them goes through beans that the visit still has to enter.
-/
namespace BeanWiring.Graph

/-- Beans that are the same or depend on each other, through named beans. -/
def Tied (g : Graph) (names : List String) (first second : String) : Prop :=
  first = second ∨
    Relation.TransGen (g.among names).Leads first second ∧
      Relation.TransGen (g.among names).Leads second first

/-- Of the beans tied to `bean` one is left last. A visit of `names` comes to it from the root, which is
named before all of them: it is that bean itself, or one outside that leads to it. -/
structure LeavesLast (g : Graph) (scope names order : List String) (bean entry root : String) :
    Prop where
  tied : g.Tied scope bean entry
  last : ∀ other, g.Tied scope bean other → other ≠ entry → Precedes order other entry
  named : root ∈ names
  way : root = entry ∨
    ¬g.Tied scope bean root ∧ Relation.TransGen (g.among scope).Leads root entry
  foremost : ∀ other, g.Tied scope bean other → names.idxOf root ≤ names.idxOf other

variable {g : Graph} {scope names : List String} {name bean first second third entry root : String}
  {v w inner : Visit}

theorem Tied.symm (tied : g.Tied names first second) : g.Tied names second first := by
  rcases tied with rfl | ⟨there, back⟩
  · exact .inl rfl
  · exact .inr ⟨back, there⟩

theorem Tied.trans (tied : g.Tied names first second) (next : g.Tied names second third) :
    g.Tied names first third := by
  rcases tied with rfl | ⟨there, back⟩
  · exact next
  · rcases next with rfl | ⟨onward, home⟩
    · exact .inr ⟨there, back⟩
    · exact .inr ⟨there.trans onward, home.trans back⟩

theorem Tied.chain (tied : g.Tied names first second) (apart : first ≠ second) :
    Relation.TransGen (g.among names).Leads first second := by
  rcases tied with same | ⟨there, -⟩
  · exact absurd same apart
  · exact there

theorem mem_of_chain (chain : Relation.TransGen (g.among names).Leads first second) :
    first ∈ names ∧ second ∈ names := by
  constructor
  · cases chain using Relation.TransGen.head_induction_on with
    | single leads => exact (leads_among.mp leads).2.1
    | head leads _ => exact (leads_among.mp leads).2.1
  · cases chain with
    | single leads => exact (leads_among.mp leads).2.2
    | tail _ leads => exact (leads_among.mp leads).2.2

theorem Visits.closed (visits : g.Visits scope names v w) (reached : first ∈ w.visited)
    (fresh : first ∉ v.visited) (leads : (g.among scope).Leads first second) :
    second ∈ w.visited := by
  induction visits with
  | done => exact absurd reached fresh
  | passed _ _ ih => exact ih reached fresh
  | @entered name names v inner w _ visit later within after =>
    by_cases inside : first ∈ inner.visited
    · apply later.visited_subset
      by_cases same : first = name
      · subst same
        obtain ⟨direct, -, listed⟩ := leads_among.mp leads
        apply visit.names_visited
        exact List.mem_filter.mpr ⟨mem_dependents.mpr direct, by simpa using listed⟩
      · apply within inside
        simp [same, fresh]
    · exact after reached inside

theorem Visits.reaches_tied (visits : g.Visits scope names v w)
    (apart : ∀ other, g.Tied scope first other → other ∉ v.visited) (reached : first ∈ w.visited)
    (tied : g.Tied scope first second) : second ∈ w.visited := by
  rcases tied with rfl | ⟨there, back⟩
  · exact reached
  · induction there with
    | single leads => exact visits.closed reached (apart first (.inl rfl)) leads
    | tail there leads ih =>
      have home := back.head leads
      exact visits.closed (ih home) (apart _ (.inr ⟨there, home⟩)) leads

theorem Visits.reaches_none (visits : g.Visits scope names v w)
    (apart : ∀ other, g.Tied scope bean other → other ∉ v.visited) (unreached : bean ∉ w.visited) :
    ∀ other, g.Tied scope bean other → other ∉ w.visited := by
  intro other tied reached
  have around : ∀ third, g.Tied scope other third → third ∉ v.visited :=
    fun third next => apart third (tied.trans next)
  exact unreached (visits.reaches_tied around reached tied.symm)

theorem Visits.precedes_entry (visit : g.Visits scope ((g.dependents name).filter scope.contains)
      ⟨name :: v.visited, v.order⟩ inner) (left : v.order ⊆ v.visited)
    (apart : ∀ other, g.Tied scope name other → other ∉ v.visited)
    (tied : g.Tied scope name second) (other : second ≠ name) :
    Precedes (inner.order ++ [name]) second name := by
  have fresh : name ∉ v.visited := apart name (.inl rfl)
  have alone : g.Visits scope [name] v ⟨inner.visited, inner.order ++ [name]⟩ :=
    .entered fresh visit .done
  have reached : second ∈ inner.visited :=
    alone.reaches_tied apart (alone.names_visited List.mem_cons_self) tied
  obtain ⟨deeper, adds⟩ := visit.adds
  have order : inner.order = v.order ++ deeper := adds.order
  apply precedes_concat
  · rcases (adds.visited second).mp reached with within | before
    · simp [order, within]
    · exact absurd before (by simp [other, apart second tied])
  · rw [order, List.mem_append]
    rintro (before | within)
    · exact fresh (left before)
    · exact adds.fresh name within List.mem_cons_self

theorem LeavesLast.append {order : List String}
    (leaves : g.LeavesLast scope names order bean entry root) (more : List String) :
    g.LeavesLast scope names (order ++ more) bean entry root :=
  { leaves with last := fun other tied apart => (leaves.last other tied apart).append more }

theorem LeavesLast.later {order : List String}
    (leaves : g.LeavesLast scope names order bean entry root) (outside : ¬g.Tied scope bean name) :
    g.LeavesLast scope (name :: names) order bean entry root where
  tied := leaves.tied
  last := leaves.last
  named := List.mem_cons_of_mem _ leaves.named
  way := leaves.way
  foremost other tied := by
    have apart : name ≠ other := by
      rintro rfl
      exact outside tied
    have ahead := leaves.foremost other tied
    rw [List.idxOf_cons_ne _ apart]
    by_cases same : name = root
    · simp [same]
    · rw [List.idxOf_cons_ne _ same]
      exact Nat.succ_le_succ ahead

theorem Visits.order_subset (visits : g.Visits scope names v w) (left : v.order ⊆ v.visited) :
    w.order ⊆ w.visited := by
  obtain ⟨finished, adds⟩ := visits.adds
  intro bean ended
  rw [adds.order, List.mem_append] at ended
  apply (adds.visited bean).mpr
  rcases ended with before | within
  · exact .inr (left before)
  · exact .inl within

theorem LeavesLast.within {order : List String}
    (leaves : g.LeavesLast scope ((g.dependents name).filter scope.contains) order bean entry root)
    (listed : name ∈ scope) (outside : ¬g.Tied scope bean name) :
    g.LeavesLast scope (name :: names) order bean entry name where
  tied := leaves.tied
  last := leaves.last
  named := List.mem_cons_self
  way := by
    have leads := leads_of_mem_filter listed leaves.named
    rcases leaves.way with rfl | ⟨-, chain⟩
    · exact .inr ⟨outside, .single leads⟩
    · exact .inr ⟨outside, .head leads chain⟩
  foremost := by simp

theorem Visits.exists_leavesLast (visits : g.Visits scope names v w) (listed : names ⊆ scope)
    (left : v.order ⊆ v.visited) (apart : ∀ other, g.Tied scope bean other → other ∉ v.visited)
    (reached : bean ∈ w.visited) :
    ∃ entry root, g.LeavesLast scope names w.order bean entry root := by
  induction visits with
  | done => exact absurd reached (apart bean (.inl rfl))
  | @passed name names v w known _ ih =>
    have outside : ¬g.Tied scope bean name := fun tied => apart name tied known
    obtain ⟨entry, root, leaves⟩ := ih (List.subset_of_cons_subset listed) left apart reached
    exact ⟨entry, root, leaves.later outside⟩
  | @entered name names v inner w fresh visit later within after =>
    have member : name ∈ scope := listed List.mem_cons_self
    have alone : g.Visits scope [name] v ⟨inner.visited, inner.order ++ [name]⟩ :=
      .entered fresh visit .done
    obtain ⟨others, rest⟩ := later.adds
    have order : w.order = inner.order ++ [name] ++ others := rest.order
    by_cases entered : g.Tied scope bean name
    · -- The visit enters one of them here, before all others.
      have around : ∀ other, g.Tied scope name other → other ∉ v.visited :=
        fun other tied => apart other (entered.trans tied)
      refine ⟨name, name, entered, ?_, List.mem_cons_self, .inl rfl, by simp⟩
      intro other tied different
      rw [order]
      exact (visit.precedes_entry left around (entered.symm.trans tied) different).append _
    -- Reached further inside: none of those tied was known when the visit went inside, as `name` is
    -- not one.
    · by_cases inside : bean ∈ inner.visited
      · have inScope : (g.dependents name).filter scope.contains ⊆ scope := fun other wired =>
          (mem_of_chain (.single (leads_of_mem_filter member wired))).2
        have away : ∀ other, g.Tied scope bean other → other ∉ name :: v.visited := by
          intro other tied known
          rcases List.mem_cons.mp known with rfl | before
          · exact entered tied
          · exact apart other tied before
        obtain ⟨entry, root, leaves⟩ :=
          within inScope (List.subset_cons_of_subset _ left) away inside
        refine ⟨entry, name, ?_⟩
        rw [order]
        exact ((leaves.append [name]).append others).within member entered
      · have away : ∀ other, g.Tied scope bean other → other ∉ inner.visited :=
          alone.reaches_none apart inside
        obtain ⟨entry, root, leaves⟩ := after (List.subset_of_cons_subset listed)
          (alone.order_subset left) away reached
        exact ⟨entry, root, leaves.later entered⟩

theorem exists_leavesLast (listed : bean ∈ names) :
    ∃ entry root, g.LeavesLast names names (g.destructionOrder names) bean entry root := by
  obtain ⟨w, visits, result⟩ := exists_visits g names
  rw [result]
  exact visits.exists_leavesLast (List.Subset.refl names) (List.nil_subset _) nofun
    (visits.names_visited listed)

theorem LeavesLast.entry_eq {order : List String}
    (leaves : g.LeavesLast names names order first entry root)
    (foremost : ∀ earlier, Precedes names earlier first →
      ¬Relation.TransGen (g.among names).Leads earlier first) : entry = first := by
  have ahead := leaves.foremost first (.inl rfl)
  by_contra different
  have chain : Relation.TransGen (g.among names).Leads entry first :=
    leaves.tied.symm.chain different
  have through : Relation.TransGen (g.among names).Leads root first ∧ root ≠ first := by
    rcases leaves.way with rfl | ⟨outside, onward⟩
    · exact ⟨chain, different⟩
    · refine ⟨onward.trans chain, ?_⟩
      rintro rfl
      exact outside (.inl rfl)
  have listed := (mem_of_chain chain).2
  have apart : names.idxOf root ≠ names.idxOf first :=
    fun same => through.2 ((List.idxOf_inj leaves.named).mp same)
  exact foremost root ⟨listed, by omega⟩ through.1

/-- Beans that depend on one another do not keep the order in which they are named. One of them is torn
down last: it is the foremost, or another one, to which the visit of a bean outside comes that is named
before all of them. So where no bean named earlier leads to the foremost, each of the others is named
after it and torn down before it. -/
theorem destructionOrder_turns_cycles (g : Graph) (names : List String) :
    (∀ bean ∈ names, ∃ entry root,
      g.LeavesLast names names (g.destructionOrder names) bean entry root) ∧
    ∀ first ∈ names,
      (∀ earlier, Precedes names earlier first →
        ¬Relation.TransGen (g.among names).Leads earlier first) →
      ∀ second, second ≠ first → g.Tied names first second →
        Precedes names first second ∧ Precedes (g.destructionOrder names) second first := by
  refine ⟨fun bean listed => exists_leavesLast listed, ?_⟩
  intro first listed foremost second other tied
  obtain ⟨entry, root, leaves⟩ := exists_leavesLast (g := g) listed
  have same := leaves.entry_eq foremost
  subst same
  refine ⟨?_, leaves.last second tied other⟩
  have inside := (mem_of_chain (tied.chain other.symm)).2
  refine ⟨inside, ?_⟩
  by_contra earlier
  have apart : names.idxOf second ≠ names.idxOf entry :=
    fun same => other ((List.idxOf_inj inside).mp same)
  exact foremost second ⟨listed, by omega⟩ (tied.symm.chain other)

def Depot.circuit : Graph := ⟨[⟨"valve", "pump"⟩, ⟨"pump", "valve"⟩]⟩

theorem Depot.turns_cycles_of_circuit :
    Depot.circuit.Tied ["pump", "valve"] "pump" "valve" ∧
      Precedes ["pump", "valve"] "pump" "valve" ∧
      Precedes (Depot.circuit.destructionOrder ["pump", "valve"]) "valve" "pump" := by
  have tied : Depot.circuit.Tied ["pump", "valve"] "pump" "valve" := by
    refine .inr ⟨.single ?_, .single ?_⟩ <;> simp [Leads, among, Depot.circuit]
  have foremost : ∀ earlier, Precedes ["pump", "valve"] earlier "pump" →
      ¬Relation.TransGen (Depot.circuit.among ["pump", "valve"]).Leads earlier "pump" := by
    intro earlier precedes
    have place : ["pump", "valve"].idxOf "pump" = 0 := by decide
    have below := precedes.2
    omega
  exact ⟨tied, (destructionOrder_turns_cycles Depot.circuit ["pump", "valve"]).2 "pump" (by simp)
    foremost "valve" (by decide) tied⟩

end BeanWiring.Graph

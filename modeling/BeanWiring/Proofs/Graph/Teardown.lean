import BeanWiring.Proofs.Graph

/-!
Tearing down beans, dependents first. The visit comes to an end on every graph and leaves each named bean
once. A bean is left before one it depends on, through named beans, unless the two are on a cycle of such:
when a visit reaches a bean it has entered but not left, a chain leads back to where it is.
-/
namespace BeanWiring.Graph

def among (g : Graph) (names : List String) : Graph :=
  ⟨g.edges.filter fun edge => edge.dependency ∈ names ∧ edge.dependent ∈ names⟩

/-- Visiting the named beans one after the other, each of them after its dependents in `scope`, comes to
an end and leads from one state to another. -/
inductive Visits (g : Graph) (scope : List String) : List String → Visit → Visit → Prop
  | done {v} : Visits g scope [] v v
  | passed {name names v w} (reached : name ∈ v.visited) (later : Visits g scope names v w) :
      Visits g scope (name :: names) v w
  | entered {name names v inner w} (fresh : name ∉ v.visited)
      (first : Visits g scope ((g.dependents name).filter scope.contains)
        ⟨name :: v.visited, v.order⟩ inner)
      (later : Visits g scope names ⟨inner.visited, inner.order ++ [name]⟩ w) :
      Visits g scope (name :: names) v w

def Precedes (order : List String) (first second : String) : Prop :=
  second ∈ order ∧ order.idxOf first < order.idxOf second

variable {g : Graph} {scope names order : List String} {name bean first second third : String}
  {v w inner : Visit}

theorem leads_among :
    (g.among names).Leads first second ↔ g.Leads first second ∧ first ∈ names ∧ second ∈ names := by
  simp [Leads, among]

section Precedes

theorem Precedes.mem (precedes : Precedes order first second) : first ∈ order := by
  have place := List.idxOf_lt_length_of_mem precedes.1
  exact List.idxOf_lt_length_iff.mp (Nat.lt_trans precedes.2 place)

theorem Precedes.trans (precedes : Precedes order first second)
    (later : Precedes order second third) : Precedes order first third :=
  ⟨later.1, Nat.lt_trans precedes.2 later.2⟩

theorem Precedes.append (precedes : Precedes order first second) (more : List String) :
    Precedes (order ++ more) first second := by
  constructor
  · exact List.mem_append_left _ precedes.1
  · rw [List.idxOf_append_of_mem precedes.mem, List.idxOf_append_of_mem precedes.1]
    exact precedes.2

theorem precedes_concat (before : first ∈ order) (fresh : second ∉ order) :
    Precedes (order ++ [second]) first second := by
  constructor
  · simp
  · have place := List.idxOf_lt_length_of_mem before
    rw [List.idxOf_append_of_mem before, List.idxOf_append_of_notMem fresh]
    omega

end Precedes

section states

structure Visit.Adds (v w : Visit) (finished : List String) : Prop where
  order : w.order = v.order ++ finished
  visited : ∀ bean, bean ∈ w.visited ↔ bean ∈ finished ∨ bean ∈ v.visited
  once : finished.Nodup
  fresh : ∀ bean ∈ finished, bean ∉ v.visited

theorem Visit.Adds.entered {deeper others : List String} (fresh : name ∉ v.visited)
    (first : Visit.Adds ⟨name :: v.visited, v.order⟩ inner deeper)
    (later : Visit.Adds ⟨inner.visited, inner.order ++ [name]⟩ w others) :
    v.Adds w (deeper ++ name :: others) := by
  have known (bean : String) : bean ∈ inner.visited ↔ bean ∈ deeper ∨ bean = name ∨ bean ∈ v.visited := by
    rw [first.visited, List.mem_cons]
  have apart (bean : String) (member : bean ∈ others) : bean ∉ inner.visited := later.fresh bean member
  constructor
  · simp [later.order, first.order]
  · intro bean
    have after : bean ∈ w.visited ↔ bean ∈ others ∨ bean ∈ inner.visited := later.visited bean
    rw [after, known, List.mem_append, List.mem_cons]
    tauto
  · rw [List.nodup_append]
    refine ⟨first.once, List.nodup_cons.mpr ⟨?_, later.once⟩, ?_⟩
    · intro member
      exact apart name member ((known name).mpr (.inr (.inl rfl)))
    · rintro bean member other within rfl
      rcases List.mem_cons.mp within with rfl | within
      · exact first.fresh bean member List.mem_cons_self
      · exact apart bean within ((known bean).mpr (.inl member))
  · intro bean member
    rcases List.mem_append.mp member with within | within
    · intro reached
      exact first.fresh bean within (List.mem_cons_of_mem _ reached)
    · rcases List.mem_cons.mp within with rfl | within
      · exact fresh
      · intro reached
        exact apart bean within ((known bean).mpr (.inr (.inr reached)))

theorem Visits.adds (visits : g.Visits scope names v w) : ∃ finished, v.Adds w finished := by
  induction visits with
  | done => exact ⟨[], by simp, by simp, List.nodup_nil, nofun⟩
  | passed _ _ ih => exact ih
  | entered fresh _ _ within after =>
    obtain ⟨deeper, first⟩ := within
    obtain ⟨others, later⟩ := after
    exact ⟨_, first.entered fresh later⟩

theorem Visits.visited_subset (visits : g.Visits scope names v w) : v.visited ⊆ w.visited := by
  obtain ⟨finished, adds⟩ := visits.adds
  intro bean reached
  exact (adds.visited bean).mpr (.inr reached)

theorem Visits.names_visited (visits : g.Visits scope names v w) : names ⊆ w.visited := by
  induction visits with
  | done => exact List.nil_subset _
  | passed reached later ih =>
    apply List.cons_subset.mpr
    exact ⟨later.visited_subset reached, ih⟩
  | entered _ first later _ ih =>
    apply List.cons_subset.mpr
    exact ⟨later.visited_subset (first.visited_subset List.mem_cons_self), ih⟩

theorem Visits.reached (visits : g.Visits scope names v w) (reached : bean ∈ w.visited) :
    bean ∈ v.visited ∨ bean ∈ names ∨ bean ∈ scope := by
  induction visits with
  | done => exact .inl reached
  | passed _ _ ih =>
    rcases ih reached with before | named | listed
    · exact .inl before
    · exact .inr (.inl (List.mem_cons_of_mem _ named))
    · exact .inr (.inr listed)
  | entered _ _ _ within after =>
    rcases after reached with before | named | listed
    · rcases within before with earlier | wired | listed
      · rcases List.mem_cons.mp earlier with rfl | earlier
        · exact .inr (.inl List.mem_cons_self)
        · exact .inl earlier
      · exact .inr (.inr (by simpa using (List.mem_filter.mp wired).2))
      · exact .inr (.inr listed)
    · exact .inr (.inl (List.mem_cons_of_mem _ named))
    · exact .inr (.inr listed)

end states

section ending

theorem visit_of_reached {depth : Nat} (reached : name ∈ v.visited) :
    g.visit scope depth name v = v := by
  cases depth with
  | zero => rfl
  | succ depth => simp [visit, reached]

theorem visit_of_fresh {depth : Nat} (fresh : name ∉ v.visited)
    (within : ((g.dependents name).filter scope.contains).foldl
      (fun v dependent => g.visit scope depth dependent v) ⟨name :: v.visited, v.order⟩ = inner) :
    g.visit scope (depth + 1) name v = ⟨inner.visited, inner.order ++ [name]⟩ := by
  simp [visit, fresh, within]

def unreached (scope visited : List String) : List String := scope.filter (· ∉ visited)

theorem length_unreached_le {visited more : List String} (grows : visited ⊆ more) :
    (unreached scope more).length ≤ (unreached scope visited).length := by
  apply List.Sublist.length_le
  apply List.monotone_filter_right
  intro bean left
  simp only [decide_eq_true_eq] at left ⊢
  exact fun reached => left (grows reached)

theorem length_unreached_cons_lt {visited : List String} (listed : name ∈ scope)
    (fresh : name ∉ visited) :
    (unreached scope (name :: visited)).length < (unreached scope visited).length := by
  have fewer : unreached scope (name :: visited) = (unreached scope visited).filter (· ≠ name) := by
    simp [unreached, List.filter_filter]
  rw [fewer, List.length_filter_lt_length_iff_exists]
  exact ⟨name, List.mem_filter.mpr ⟨listed, by simpa using fresh⟩, by simp⟩

/-- A visit with room for all beans not reached is not cut short: each bean it enters is one of them. -/
theorem visits_foldl {depth : Nat} (listed : names ⊆ scope)
    -- The depth bounds how far the visits go down, the names how far they go on at one level.
    (room : (unreached scope v.visited).length ≤ depth) :
    g.Visits scope names v (names.foldl (fun v name => g.visit scope depth name v) v) := by
  induction depth generalizing names v with
  | zero =>
    induction names with
    | nil => exact .done
    | cons name names ih =>
      obtain ⟨member, rest⟩ := List.cons_subset.mp listed
      have reached : name ∈ v.visited := by
        by_contra fresh
        have fewer := length_unreached_cons_lt member fresh
        omega
      rw [List.foldl_cons, visit_of_reached reached]
      exact .passed reached (ih rest)
  | succ depth deeper =>
    induction names generalizing v with
    | nil => exact .done
    | cons name names ih =>
      obtain ⟨member, rest⟩ := List.cons_subset.mp listed
      rw [List.foldl_cons]
      by_cases reached : name ∈ v.visited
      · rw [visit_of_reached reached]
        exact .passed reached (ih rest room)
      · have inside : (g.dependents name).filter scope.contains ⊆ scope := by
          intro dependent wired
          simpa using (List.mem_filter.mp wired).2
        have smaller : (unreached scope (name :: v.visited)).length ≤ depth := by
          have fewer := length_unreached_cons_lt member reached
          omega
        have first := deeper (v := ⟨name :: v.visited, v.order⟩) inside smaller
        rw [visit_of_fresh reached rfl]
        apply Visits.entered reached first
        -- What is visited below only shortens what is left, so there is as much room for the names
        -- after.
        apply ih rest
        have grows := List.subset_of_cons_subset first.visited_subset
        exact Nat.le_trans (length_unreached_le grows) room

theorem exists_visits (g : Graph) (names : List String) :
    ∃ w, g.Visits names names ⟨[], []⟩ w ∧ g.destructionOrder names = w.order := by
  refine ⟨_, visits_foldl (List.Subset.refl names) ?_, rfl⟩
  have fewer : (unreached names []).length ≤ names.length := List.length_filter_le _ _
  exact Nat.le_trans fewer (Nat.le_succ _)

end ending

section precedence

/-- Where a visit stands that is to go on with some listed beans: each bean it has entered and not left
yet leads to all of them. -/
structure Visit.Above (v : Visit) (g : Graph) (scope names : List String) : Prop where
  listed : names ⊆ scope
  left : v.order ⊆ v.visited
  chain : ∀ bean ∈ v.visited, bean ∉ v.order → ∀ name ∈ names,
    Relation.TransGen (g.among scope).Leads bean name

theorem Visit.Above.tail (above : v.Above g scope (name :: names)) : v.Above g scope names where
  listed := List.subset_of_cons_subset above.listed
  left := above.left
  chain bean reached unfinished other member :=
    above.chain bean reached unfinished other (List.mem_cons_of_mem _ member)

theorem leads_of_mem_filter (listed : name ∈ scope)
    (wired : bean ∈ (g.dependents name).filter scope.contains) :
    (g.among scope).Leads name bean := by
  obtain ⟨direct, inside⟩ := List.mem_filter.mp wired
  exact leads_among.mpr ⟨mem_dependents.mp direct, listed, by simpa using inside⟩

theorem Visit.Above.deeper (above : v.Above g scope (name :: names)) :
    Visit.Above ⟨name :: v.visited, v.order⟩ g scope
      ((g.dependents name).filter scope.contains) := by
  have member : name ∈ scope := above.listed List.mem_cons_self
  constructor
  · intro bean wired
    exact (leads_among.mp (leads_of_mem_filter member wired)).2.2
  · exact List.subset_cons_of_subset _ above.left
  · intro bean reached unfinished other wired
    have leads := leads_of_mem_filter member wired
    rcases List.mem_cons.mp reached with rfl | before
    · exact .single leads
    · exact (above.chain bean before unfinished name List.mem_cons_self).tail leads

theorem Visit.Above.later {deeper : List String} (above : v.Above g scope (name :: names))
    (first : Visit.Adds ⟨name :: v.visited, v.order⟩ inner deeper) :
    Visit.Above ⟨inner.visited, inner.order ++ [name]⟩ g scope names := by
  have known (bean : String) : bean ∈ inner.visited ↔ bean ∈ deeper ∨ bean = name ∨ bean ∈ v.visited := by
    rw [first.visited, List.mem_cons]
  have order : inner.order = v.order ++ deeper := first.order
  constructor
  · exact above.tail.listed
  · intro bean left
    apply (known bean).mpr
    rw [order] at left
    simp only [List.mem_append, List.mem_singleton] at left
    rcases left with (before | within) | rfl
    · exact .inr (.inr (above.left before))
    · exact .inl within
    · exact .inr (.inl rfl)
  · intro bean reached unfinished
    rw [order] at unfinished
    simp only [List.mem_append, List.mem_singleton, not_or] at unfinished
    obtain ⟨⟨before, notDeeper⟩, other⟩ := unfinished
    rcases (known bean).mp reached with within | same | earlier
    · exact absurd within notDeeper
    · exact absurd same other
    · exact above.tail.chain bean earlier before

/-- A bean left is preceded by each bean that depends on it directly, unless a chain leads back from that
one. The dependents have been reached when it is left: each was left, or is still above it. -/
theorem Visits.precedes (visits : g.Visits scope names v w) (above : v.Above g scope names)
    (left : first ∈ w.order) (new : first ∉ v.order) (leads : (g.among scope).Leads first second) :
    Precedes w.order second first ∨ Relation.TransGen (g.among scope).Leads second first := by
  induction visits with
  | done => exact absurd left new
  | passed _ _ ih => exact ih above.tail left new
  | @entered name names v inner w fresh visit later within after =>
    obtain ⟨deeper, adds⟩ := visit.adds
    obtain ⟨others, rest⟩ := later.adds
    have stands := above.later adds
    have order : inner.order = v.order ++ deeper := adds.order
    -- By where `first` was left: further inside, by this visit itself, or later.
    by_cases within' : first ∈ inner.order
    · rcases within above.deeper within' new with precedes | back
      · rw [rest.order, List.append_assoc]
        exact .inl (precedes.append _)
      · exact .inr back
    · by_cases same : first = name
      · subst same
        have wired : second ∈ (g.dependents first).filter scope.contains := by
          obtain ⟨direct, -, listed⟩ := leads_among.mp leads
          exact List.mem_filter.mpr ⟨mem_dependents.mpr direct, by simpa using listed⟩
        have before (member : second ∈ inner.order) : Precedes w.order second first := by
          rw [rest.order]
          exact (precedes_concat member within').append _
        -- When `name` is left, its dependents were left, are `name` itself, or are still above it.
        rcases (adds.visited second).mp (visit.names_visited wired) with inside | known
        · exact .inl (before (by simp [order, inside]))
        · rcases List.mem_cons.mp known with rfl | reached
          · exact .inr (.single leads)
          · by_cases finished : second ∈ v.order
            · exact .inl (before (by simp [order, finished]))
            · exact .inr (above.chain second reached finished first List.mem_cons_self)
      · apply after stands left
        simp [within', same]

end precedence

section order

theorem nodup_destructionOrder (g : Graph) (names : List String) :
    (g.destructionOrder names).Nodup := by
  obtain ⟨w, visits, result⟩ := exists_visits g names
  obtain ⟨finished, adds⟩ := visits.adds
  have order : w.order = finished := adds.order
  rw [result, order]
  exact adds.once

theorem mem_destructionOrder : name ∈ g.destructionOrder names ↔ name ∈ names := by
  obtain ⟨w, visits, result⟩ := exists_visits g names
  obtain ⟨finished, adds⟩ := visits.adds
  have order : w.order = finished := adds.order
  have reached : name ∈ w.visited ↔ name ∈ finished := by simpa using adds.visited name
  rw [result, order, ← reached]
  constructor
  · intro visited
    rcases visits.reached visited with impossible | named | listed
    · cases impossible
    · exact named
    · exact listed
  · intro named
    exact visits.names_visited named

theorem destructionOrder_precedes (leads : (g.among names).Leads first second) :
    Precedes (g.destructionOrder names) second first ∨
      Relation.TransGen (g.among names).Leads second first := by
  obtain ⟨w, visits, result⟩ := exists_visits g names
  have start : Visit.Above ⟨[], []⟩ g names names :=
    ⟨List.Subset.refl names, List.nil_subset _, nofun⟩
  have left : first ∈ g.destructionOrder names :=
    mem_destructionOrder.mpr (leads_among.mp leads).2.1
  rw [result] at left ⊢
  exact visits.precedes start left List.not_mem_nil leads

def Acyclic (g : Graph) : Prop := ∀ name, ¬Relation.TransGen g.Leads name name

theorem Acyclic.precedes (acyclic : (g.among names).Acyclic)
    (leads : (g.among names).Leads first second) :
    Precedes (g.destructionOrder names) second first := by
  rcases destructionOrder_precedes leads with precedes | back
  · exact precedes
  · exact absurd (Relation.TransGen.head leads back) (acyclic first)

theorem Acyclic.precedes_of_chain (acyclic : (g.among names).Acyclic)
    (chain : Relation.TransGen (g.among names).Leads first second) :
    Precedes (g.destructionOrder names) second first := by
  induction chain with
  | single leads => exact acyclic.precedes leads
  | tail _ leads ih => exact (acyclic.precedes leads).trans ih

theorem Acyclic.of_rank (rank : String → Nat)
    (rises : ∀ first second, g.Leads first second → rank first < rank second) : g.Acyclic := by
  intro name back
  have higher {first second : String} (chain : Relation.TransGen g.Leads first second) :
      rank first < rank second := by
    induction chain with
    | single leads => exact rises _ _ leads
    | tail _ leads ih => exact Nat.lt_trans ih (rises _ _ leads)
  exact Nat.lt_irrefl _ (higher back)

end order

section among

theorem filter_dependents_among (listed : name ∈ names) :
    ((g.among names).dependents name).filter names.contains =
      (g.dependents name).filter names.contains := by
  unfold dependents among
  rw [List.filter_map, List.filter_map, List.filter_filter, List.filter_filter, List.filter_filter]
  apply congrArg (List.map _)
  apply List.filter_congr
  rintro ⟨dependency, dependent⟩ _
  by_cases same : dependency = name
  · by_cases inside : dependent ∈ names <;> simp [same, inside, listed]
  · simp [same]

theorem visit_among {depth : Nat} (listed : name ∈ names) :
    (g.among names).visit names depth name v = g.visit names depth name v := by
  induction depth generalizing name v with
  | zero => rfl
  | succ depth ih =>
    have within (v : Visit) : ((g.dependents name).filter names.contains).foldl
          (fun v dependent => (g.among names).visit names depth dependent v) v =
        ((g.dependents name).filter names.contains).foldl
          (fun v dependent => g.visit names depth dependent v) v := by
      apply List.foldl_ext
      intro v dependent wired
      exact ih (by simpa using (List.mem_filter.mp wired).2)
    simp only [visit, filter_dependents_among listed, within]

theorem destructionOrder_among :
    (g.among names).destructionOrder names = g.destructionOrder names := by
  unfold destructionOrder
  congr 1
  apply List.foldl_ext
  intro v name listed
  exact visit_among listed

theorem transGen_among (chain : Relation.TransGen g.Leads first second) (listed : first ∈ names)
    (last : second ∈ names) (between : ∀ bean, Relation.TransGen g.Leads first bean →
      Relation.TransGen g.Leads bean second → bean ∈ names) :
    Relation.TransGen (g.among names).Leads first second := by
  induction chain using Relation.TransGen.head_induction_on with
  | single leads => exact .single (leads_among.mpr ⟨leads, listed, last⟩)
  | head leads chain ih =>
    have next := between _ (.single leads) chain
    apply Relation.TransGen.head (leads_among.mpr ⟨leads, listed, next⟩)
    apply ih next
    intro bean onward rest
    exact between bean (.head leads onward) rest

end among

/-- Tearing down comes to an end on every graph, whatever beans are named, and gives each named bean once
and no other. Where the edges between named beans form no cycle, each comes after the named beans that
depend on it directly. -/
theorem destructionOrder_arranges (g : Graph) (names : List String) :
    (∃ w, g.Visits names names ⟨[], []⟩ w ∧ g.destructionOrder names = w.order) ∧
    (∀ name, (g.destructionOrder names).count name = if name ∈ names then 1 else 0) ∧
    ((g.among names).Acyclic → ∀ name ∈ names, ∀ dependent ∈ names, g.Leads name dependent →
      Precedes (g.destructionOrder names) dependent name) := by
  refine ⟨exists_visits g names, ?_, ?_⟩
  · intro name
    rw [(nodup_destructionOrder g names).count]
    simp only [mem_destructionOrder]
  · intro acyclic name listed dependent inside leads
    exact acyclic.precedes (leads_among.mpr ⟨leads, listed, inside⟩)

def Depot.graph : Graph := ⟨[⟨"engine", "car"⟩, ⟨"car", "garage"⟩]⟩

theorem Depot.acyclic (names : List String) : (Depot.graph.among names).Acyclic := by
  apply Acyclic.of_rank fun bean => if bean = "garage" then 2 else if bean = "car" then 1 else 0
  intro first second leads
  have edge : (⟨first, second⟩ : Edge) ∈ Depot.graph.edges := (leads_among.mp leads).1
  simp only [Depot.graph, List.mem_cons, List.not_mem_nil, or_false, Edge.mk.injEq] at edge
  rcases edge with ⟨rfl, rfl⟩ | ⟨rfl, rfl⟩
  · decide
  · decide

theorem Depot.destructionOrder_arranges_of_repeated :
    (Depot.graph.among ["engine", "lamp", "car", "engine", "garage"]).Acyclic ∧
      Precedes (Depot.graph.destructionOrder ["engine", "lamp", "car", "engine", "garage"])
        "garage" "car" := by
  have acyclic := Depot.acyclic ["engine", "lamp", "car", "engine", "garage"]
  have arranges := destructionOrder_arranges Depot.graph ["engine", "lamp", "car", "engine", "garage"]
  exact ⟨acyclic, arranges.2.2 acyclic "car" (by simp) "garage" (by simp) (by simp [Leads, Depot.graph])⟩

/-- Tearing down goes by the edges between the named beans alone, and there, without cycles, it agrees
with the question who depends on whom: dependents come first, whether direct or not. Of the whole graph
this is so where the beans in between are named as well. -/
theorem destructionOrder_of_isDependent (acyclic : (g.among names).Acyclic) :
    g.destructionOrder names = (g.among names).destructionOrder names ∧
    (∀ name dependent, (g.among names).isDependent name dependent = true →
      Precedes (g.destructionOrder names) dependent name) ∧
    ∀ name ∈ names, ∀ dependent ∈ names, g.isDependent name dependent = true →
      (∀ bean, g.isDependent name bean = true → g.isDependent bean dependent = true →
        bean ∈ names) →
      Precedes (g.destructionOrder names) dependent name := by
  simp only [isDependent_iff]
  refine ⟨destructionOrder_among.symm, ?_, ?_⟩
  · intro name dependent chain
    exact acyclic.precedes_of_chain chain
  · intro name listed dependent inside chain between
    exact acyclic.precedes_of_chain (transGen_among chain listed inside between)

theorem Depot.destructionOrder_of_isDependent_of_garage :
    (Depot.graph.among ["engine", "garage", "car"]).Acyclic ∧
      (Depot.graph.among ["engine", "garage", "car"]).isDependent "engine" "garage" = true ∧
      Precedes (Depot.graph.destructionOrder ["engine", "garage", "car"]) "garage" "engine" := by
  have acyclic := Depot.acyclic ["engine", "garage", "car"]
  have depends :
      (Depot.graph.among ["engine", "garage", "car"]).isDependent "engine" "garage" = true := by
    decide
  exact ⟨acyclic, depends, (destructionOrder_of_isDependent acyclic).2.1 _ _ depends⟩

end BeanWiring.Graph

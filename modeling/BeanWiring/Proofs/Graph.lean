import BeanWiring.Graph
import Mathlib.Data.List.Nodup
import Mathlib.Data.List.Perm.Subperm
import Mathlib.Logic.Relation

/-!
The graph of dependencies. The search for dependents finds just those that a chain of edges leads to:
what it has seen only grows, and there are no more dependents to be seen than edges.
-/
namespace BeanWiring.Graph

variable {g : Graph} {name bean dependency dependent : String} {edge : Edge}

def Leads (g : Graph) (dependency dependent : String) : Prop := ⟨dependency, dependent⟩ ∈ g.edges

theorem mem_register :
    edge ∈ (g.register dependency dependent).edges ↔
      edge ∈ g.edges ∨ edge = ⟨dependency, dependent⟩ := by
  unfold register
  split
  · rename_i present
    have old : (⟨dependency, dependent⟩ : Edge) ∈ g.edges := by simpa using present
    constructor
    · exact .inl
    · rintro (member | rfl)
      · exact member
      · exact old
  · rw [List.mem_append, List.mem_singleton]

theorem mem_dependencies : name ∈ g.dependencies bean ↔ g.Leads name bean := by
  unfold dependencies Leads
  rw [List.mem_map]
  constructor
  · rintro ⟨edge, member, rfl⟩
    obtain ⟨present, same⟩ := List.mem_filter.mp member
    rwa [← eq_of_beq same]
  · intro present
    exact ⟨_, List.mem_filter.mpr ⟨present, beq_self_eq_true bean⟩, rfl⟩

theorem mem_dependents : name ∈ g.dependents bean ↔ g.Leads bean name := by
  unfold dependents Leads
  rw [List.mem_map]
  constructor
  · rintro ⟨edge, member, rfl⟩
    obtain ⟨present, same⟩ := List.mem_filter.mp member
    rwa [← eq_of_beq same]
  · intro present
    exact ⟨_, List.mem_filter.mpr ⟨present, beq_self_eq_true bean⟩, rfl⟩

section distinct

variable {seen names : List String}

theorem mem_distinctFrom :
    name ∈ names.foldl (fun seen name => if seen.contains name then seen else seen ++ [name]) seen ↔
      name ∈ seen ∨ name ∈ names := by
  induction names generalizing seen with
  | nil => simp
  | cons first rest ih =>
    rw [List.foldl_cons, ih, List.mem_cons]
    split
    · rename_i present
      have old : first ∈ seen := by simpa using present
      constructor
      · exact Or.imp_right .inr
      · rintro (member | rfl | member)
        · exact .inl member
        · exact .inl old
        · exact .inr member
    · rw [List.mem_append, List.mem_singleton, or_assoc]

theorem mem_distinct : name ∈ distinct names ↔ name ∈ names := by
  unfold distinct
  rw [mem_distinctFrom]
  simp

theorem nodup_distinctFrom (once : seen.Nodup) :
    (names.foldl (fun seen name => if seen.contains name then seen else seen ++ [name])
      seen).Nodup := by
  induction names generalizing seen with
  | nil => exact once
  | cons first rest ih =>
    rw [List.foldl_cons]
    split
    · exact ih once
    · rename_i absent
      have fresh : first ∉ seen := by simpa using absent
      exact ih (List.nodup_append_comm.mp (List.nodup_cons.mpr ⟨fresh, once⟩))

theorem nodup_distinct (names : List String) : (distinct names).Nodup :=
  nodup_distinctFrom List.nodup_nil

theorem distinct_concat (names : List String) (name : String) :
    distinct (names ++ [name]) =
      if name ∈ distinct names then distinct names else distinct names ++ [name] := by
  unfold distinct
  rw [List.foldl_append, List.foldl_cons, List.foldl_nil]
  simp only [List.contains_iff_mem]

end distinct

theorem mem_round {seen frontier : List String} :
    name ∈ distinct ((frontier.flatMap g.dependents).filter fun d => !seen.contains d) ↔
      (∃ bean ∈ frontier, g.Leads bean name) ∧ name ∉ seen := by
  rw [mem_distinct, List.mem_filter, List.mem_flatMap]
  simp only [mem_dependents, Bool.not_eq_true', List.contains_eq_mem, decide_eq_false_iff_not]

theorem mem_dependentsWithin {rounds : Nat} {seen frontier : List String}
    (found : name ∈ g.dependentsWithin rounds seen frontier) :
    name ∈ seen ∨ ∃ bean ∈ frontier, Relation.TransGen g.Leads bean name := by
  induction rounds generalizing seen frontier with
  | zero => exact .inl found
  | succ rounds ih =>
    unfold dependentsWithin at found
    split at found
    · exact .inl found
    · have reached : ∀ other ∈ distinct ((frontier.flatMap g.dependents).filter
          fun d => !seen.contains d), ∃ bean ∈ frontier, g.Leads bean other :=
        fun other member => (mem_round.mp member).1
      rcases ih found with earlier | ⟨other, member, chain⟩
      · rcases List.mem_append.mp earlier with before | now
        · exact .inl before
        · obtain ⟨bean, present, leads⟩ := reached name now
          exact .inr ⟨bean, present, .single leads⟩
      · obtain ⟨bean, present, leads⟩ := reached other member
        exact .inr ⟨bean, present, chain.head leads⟩

/-- Where a search from `origin` stands: the beans seen are dependents, each is seen once, and where
they lead has been seen but for those on the frontier. -/
structure Searching (g : Graph) (origin : String) (seen frontier : List String) : Prop where
  once : seen.Nodup
  targets : seen ⊆ g.edges.map (·.dependent)
  done : ∀ bean ∈ origin :: seen, bean ∉ frontier → ∀ name, g.Leads bean name → name ∈ seen

theorem Searching.next {origin : String} {seen frontier found : List String}
    (searching : g.Searching origin seen frontier)
    (round : distinct ((frontier.flatMap g.dependents).filter fun d => !seen.contains d) = found) :
    g.Searching origin (seen ++ found) found := by
  subst round
  refine ⟨?_, ?_, ?_⟩
  · refine List.Nodup.append searching.once (nodup_distinct _) ?_
    exact fun name old new => (mem_round.mp new).2 old
  · intro name member
    rcases List.mem_append.mp member with old | new
    · exact searching.targets old
    · obtain ⟨bean, -, leads⟩ := (mem_round.mp new).1
      exact List.mem_map.mpr ⟨_, leads, rfl⟩
  · intro bean member passed name leads
    have old : bean ∈ origin :: seen := by
      rcases List.mem_cons.mp member with same | within
      · exact same ▸ List.mem_cons_self
      · exact List.mem_cons_of_mem _ ((List.mem_append.mp within).resolve_right passed)
    by_cases present : name ∈ seen
    · exact List.mem_append_left _ present
    · refine List.mem_append_right _ (mem_round.mpr ⟨⟨bean, ?_, leads⟩, present⟩)
      by_contra apart
      exact present (searching.done bean old apart name leads)

theorem Searching.closed {origin : String} {rounds : Nat} {seen frontier : List String}
    (searching : g.Searching origin seen frontier) (enough : g.edges.length ≤ seen.length + rounds) :
    ∀ bean ∈ origin :: g.dependentsWithin rounds seen frontier, ∀ name, g.Leads bean name →
      name ∈ g.dependentsWithin rounds seen frontier := by
  induction rounds generalizing seen frontier with
  | zero =>
    intro bean _ name leads
    -- As many dependents have been seen as there are edges, so none is left.
    have within := List.subperm_of_subset searching.once searching.targets
    have all := within.perm_of_length_le (by simpa using enough)
    exact all.mem_iff.mpr (List.mem_map.mpr ⟨_, leads, rfl⟩)
  | succ rounds ih =>
    -- A round that finds something uses up one of the edges left; one that finds nothing ends the
    -- search.
    unfold dependentsWithin
    split
    · rename_i nothing
      intro bean member name leads
      by_contra unseen
      refine unseen (searching.done bean member (fun present => ?_) name leads)
      have found := mem_round.mpr ⟨⟨bean, present, leads⟩, unseen⟩
      rw [nothing] at found
      cases found
    · rename_i found some
      have step := searching.next rfl
      refine ih step ?_
      have more : 0 < (distinct ((frontier.flatMap g.dependents).filter
          fun d => !seen.contains d)).length := by
        apply List.length_pos_iff.mpr
        exact fun nothing => some nothing
      rw [List.length_append]
      omega

theorem isDependent_iff : g.isDependent name bean = true ↔ Relation.TransGen g.Leads name bean := by
  unfold isDependent allDependents
  rw [List.contains_iff_mem]
  constructor
  · intro found
    rcases mem_dependentsWithin found with impossible | ⟨origin, member, chain⟩
    · cases impossible
    · rwa [← List.mem_singleton.mp member]
  · intro chain
    have start : g.Searching name [] [name] := by
      refine ⟨List.nodup_nil, List.nil_subset _, fun bean member passed => ?_⟩
      exact absurd member passed
    have enough : g.edges.length ≤ ([] : List String).length + g.edges.length := by simp
    have closed := start.closed enough
    induction chain with
    | single leads => exact closed name List.mem_cons_self _ leads
    | tail _ leads ih => exact closed _ (List.mem_cons_of_mem _ ih) _ leads

end BeanWiring.Graph

import BeanWiring.Proofs.Graph
import BeanWiring.Proofs.Placeholder

/-!
What the text of a graph tells of the graph. Names stand in it as they are, so what is within a name can
look like what stands between names, and then graphs with different edges can have the same text. Where no
name does so, each line can be told from the next, and the text tells the beans and the edges in the order
in which they are drawn.
-/
namespace BeanWiring.Graph

open Placeholder (First)

def arrows (g : Graph) : List Edge :=
  g.roots.flatMap fun name => (g.dependents name).map fun dependent => ⟨name, dependent⟩

def lineEnd : List Char := ['"', ';', '\n']

def arrow : List Char := ['"', ' ', '-', '>', ' ']

/-- No name holds the end of a line, and no name from which an arrow leads holds an arrow. -/
structure Legible (g : Graph) : Prop where
  unended : ∀ edge ∈ g.edges,
    ¬lineEnd <:+: edge.dependency.toList ∧ ¬lineEnd <:+: edge.dependent.toList
  unpointed : ∀ edge ∈ g.edges, ¬arrow <:+: edge.dependent.toList

variable {g h : Graph} {name : String} {edge : Edge}

theorem legible_of_unquoted (unquoted : ∀ edge ∈ g.edges,
    '"' ∉ edge.dependency.toList ∧ '"' ∉ edge.dependent.toList) : g.Legible := by
  have absent {mark text : List Char} (quote : '"' ∉ text) : ¬ '"' :: mark <:+: text := by
    intro within
    exact quote (within.subset List.mem_cons_self)
  constructor
  · intro edge member
    exact ⟨absent (unquoted edge member).1, absent (unquoted edge member).2⟩
  · intro edge member
    exact absent (unquoted edge member).2

section drawn

theorem mem_roots : name ∈ g.roots ↔ ∃ dependent, g.Leads name dependent := by
  unfold roots Leads
  rw [mem_distinct, List.mem_map]
  constructor
  · rintro ⟨edge, member, rfl⟩
    exact ⟨edge.dependent, member⟩
  · rintro ⟨dependent, member⟩
    exact ⟨_, member, rfl⟩

theorem mem_arrows : edge ∈ g.arrows ↔ edge ∈ g.edges := by
  unfold arrows
  simp only [List.mem_flatMap, List.mem_map, mem_dependents]
  constructor
  · rintro ⟨name, -, dependent, leads, rfl⟩
    exact leads
  · intro member
    exact ⟨edge.dependency, mem_roots.mpr ⟨_, member⟩, edge.dependent, member, rfl⟩

theorem exists_edge_of_mem_nodes (drawn : name ∈ g.nodes) :
    ∃ edge ∈ g.edges, name = edge.dependency ∨ name = edge.dependent := by
  unfold nodes at drawn
  rw [mem_distinct, List.mem_flatMap] at drawn
  obtain ⟨root, rooted, listed⟩ := drawn
  rcases List.mem_cons.mp listed with rfl | wired
  · obtain ⟨dependent, leads⟩ := mem_roots.mp rooted
    exact ⟨_, leads, .inl rfl⟩
  · exact ⟨_, mem_dependents.mp wired, .inr rfl⟩

end drawn

section lines

variable {α : Type} {line : α → List Char} {whole : α → Prop} {c : Char}
  {mark before before' after after' : List Char}

/-- A mark whose first character is not in it again does not start within a text without the mark and
end behind it. -/
theorem first_of_absent (once : c ∉ mark) (absent : ¬c :: mark <:+: before) (after : List Char) :
    First (c :: mark) (before ++ (c :: mark ++ after)) before after := by
  refine ⟨rfl, fun earlier later same => ?_⟩
  rcases List.append_eq_append_iff.mp same with ⟨between, split, rest⟩ | ⟨between, split, -⟩
  · -- The earlier mark starts where `between` does, so it ends in it or reaches the later one.
    cases between with
    | nil => rw [split, List.append_nil]
    | cons d between =>
      rw [List.cons_append, List.cons_append, List.cons.injEq] at rest
      obtain ⟨rfl, rest⟩ := rest
      rcases List.append_eq_append_iff.mp rest with ⟨more, inside, -⟩ | ⟨more, reaches, rest⟩
      · refine absurd ⟨earlier, more, ?_⟩ absent
        rw [split, inside, List.append_assoc, List.cons_append]
      · cases more with
        | nil =>
          refine absurd ⟨earlier, [], ?_⟩ absent
          rw [split, reaches, List.append_nil, List.append_nil]
        | cons d more =>
          obtain ⟨rfl, -⟩ := List.cons.inj rest
          exact absurd (reaches ▸ List.mem_append_right _ List.mem_cons_self) once
  · rw [split, List.length_append]
    exact Nat.le_add_right _ _

theorem eq_of_marked (once : c ∉ mark) (absent : ¬c :: mark <:+: before)
    (absent' : ¬c :: mark <:+: before')
    (same : before ++ (c :: mark ++ after) = before' ++ (c :: mark ++ after')) :
    before = before' ∧ after = after' :=
  (first_of_absent once absent after).unique (same ▸ first_of_absent once absent' after')

/-- Items are written in lines that can be told from whatever follows, and all begin with a blank. -/
structure Lines (line : α → List Char) (whole : α → Prop) : Prop where
  indented : ∀ x, ∃ rest, line x = ' ' :: rest
  told : ∀ x y rest rest', whole x → whole y → line x ++ rest = line y ++ rest' →
    x = y ∧ rest = rest'

theorem Lines.inj (lines : Lines line whole) (margin : c ≠ ' ') {xs ys : List α}
    (each : ∀ x ∈ xs, whole x) (each' : ∀ y ∈ ys, whole y)
    (same : xs.flatMap line ++ c :: after = ys.flatMap line ++ c :: after') :
    xs = ys ∧ after = after' := by
  induction xs generalizing ys with
  | nil =>
    cases ys with
    | nil => exact ⟨rfl, (List.cons.inj same).2⟩
    | cons y ys =>
      obtain ⟨rest, starts⟩ := lines.indented y
      rw [List.flatMap_cons, starts] at same
      exact absurd (List.cons.inj same).1 margin
  | cons x xs ih =>
    cases ys with
    | nil =>
      obtain ⟨rest, starts⟩ := lines.indented x
      rw [List.flatMap_cons, starts] at same
      exact absurd (List.cons.inj same).1.symm margin
    | cons y ys =>
      rw [List.flatMap_cons, List.flatMap_cons, List.append_assoc, List.append_assoc] at same
      obtain ⟨rfl, further⟩ := lines.told x y _ _ (each x List.mem_cons_self)
        (each' y List.mem_cons_self) same
      obtain ⟨rfl, ends⟩ := ih (fun x member => each x (List.mem_cons_of_mem _ member))
        (fun y member => each' y (List.mem_cons_of_mem _ member)) further
      exact ⟨rfl, ends⟩

def nodeLine (name : String) : List Char := [' ', ' ', '"'] ++ (name.toList ++ lineEnd)

def edgeLine (edge : Edge) : List Char :=
  [' ', ' ', '"'] ++
    (edge.dependent.toList ++ (arrow ++ '"' :: (edge.dependency.toList ++ lineEnd)))

theorem nodeLine_lines : Lines nodeLine fun name => ¬lineEnd <:+: name.toList := by
  refine ⟨fun name => ⟨_, rfl⟩, fun name other rest rest' whole whole' same => ?_⟩
  simp only [nodeLine, List.append_assoc] at same
  obtain ⟨names, rests⟩ := eq_of_marked (by decide) whole whole' (List.append_cancel_left same)
  exact ⟨String.toList_inj.mp names, rests⟩

theorem edgeLine_lines : Lines edgeLine fun edge =>
    ¬arrow <:+: edge.dependent.toList ∧ ¬lineEnd <:+: edge.dependency.toList := by
  refine ⟨fun edge => ⟨_, rfl⟩, ?_⟩
  rintro ⟨dependency, dependent⟩ ⟨dependency', dependent'⟩ rest rest' whole whole' same
  simp only [edgeLine, List.append_assoc] at same
  obtain ⟨dependents, further⟩ :=
    eq_of_marked (by decide) whole.1 whole'.1 (List.append_cancel_left same)
  simp only [List.cons_append, List.append_assoc, List.cons.injEq, true_and] at further
  obtain ⟨dependencies, rests⟩ := eq_of_marked (by decide) whole.2 whole'.2 further
  cases String.toList_inj.mp dependents
  cases String.toList_inj.mp dependencies
  exact ⟨rfl, rests⟩

end lines

section text

def heading : String :=
  "digraph DependentBeans \x7b\n  rankdir=LR;\n  node [shape=box, style=rounded];\n\n"

theorem toList_nodeLine (name : String) :
    ("  " ++ quoted name ++ ";\n").toList = nodeLine name := by
  simp [nodeLine, lineEnd, quoted, String.toList_append]

theorem toList_edgeLine (edge : Edge) :
    ("  " ++ quoted edge.dependent ++ " -> " ++ quoted edge.dependency ++ ";\n").toList =
      edgeLine edge := by
  simp [edgeLine, arrow, lineEnd, quoted, String.toList_append]

theorem toList_toDot (g : Graph) : g.toDot.toList =
    heading.toList ++
      (g.nodes.flatMap nodeLine ++ '\n' :: (g.arrows.flatMap edgeLine ++ ['\x7d', '\n'])) := by
  have text : g.toDot = heading ++ String.join (g.nodes.map fun name => "  " ++ quoted name ++ ";\n") ++
      "\n" ++ String.join (g.arrows.map fun edge =>
        "  " ++ quoted edge.dependent ++ " -> " ++ quoted edge.dependency ++ ";\n") ++ "\x7d\n" := by
    simp only [arrows, List.map_flatMap, List.map_map]
    rfl
  have nodes : (g.nodes.map fun name => "  " ++ quoted name ++ ";\n").flatMap String.toList =
      g.nodes.flatMap nodeLine := by
    simp only [List.flatMap_map, toList_nodeLine]
  have edges : (g.arrows.map fun edge => "  " ++ quoted edge.dependent ++ " -> " ++
      quoted edge.dependency ++ ";\n").flatMap String.toList = g.arrows.flatMap edgeLine := by
    simp only [List.flatMap_map, toList_edgeLine]
  simp only [text, String.toList_append, String.toList_join, nodes, edges, List.append_assoc]
  rfl

theorem toDot_congr (beans : g.nodes = h.nodes) (edges : g.arrows = h.arrows) :
    g.toDot = h.toDot := by
  rw [← String.toList_inj, toList_toDot, toList_toDot, beans, edges]

theorem Legible.nodes_whole (legible : g.Legible) : ∀ name ∈ g.nodes, ¬lineEnd <:+: name.toList := by
  intro name drawn
  obtain ⟨edge, member, rfl | rfl⟩ := exists_edge_of_mem_nodes drawn
  · exact (legible.unended edge member).1
  · exact (legible.unended edge member).2

theorem Legible.arrows_whole (legible : g.Legible) : ∀ edge ∈ g.arrows,
    ¬arrow <:+: edge.dependent.toList ∧ ¬lineEnd <:+: edge.dependency.toList := by
  intro edge drawn
  have member := mem_arrows.mp drawn
  exact ⟨legible.unpointed edge member, (legible.unended edge member).1⟩

theorem Legible.drawn_eq (legible : g.Legible) (legible' : h.Legible) (same : g.toDot = h.toDot) :
    g.nodes = h.nodes ∧ g.arrows = h.arrows := by
  rw [← String.toList_inj, toList_toDot, toList_toDot] at same
  obtain ⟨beans, edges⟩ := nodeLine_lines.inj (by decide) legible.nodes_whole legible'.nodes_whole
    (List.append_cancel_left same)
  obtain ⟨arrows, -⟩ := edgeLine_lines.inj (by decide) legible.arrows_whole legible'.arrows_whole edges
  exact ⟨beans, arrows⟩

/-- Graphs in whose names nothing looks like what stands between names have the same text just if they
have the same beans and the same edges in the order in which these are drawn. So a text that they share
leaves no choice of their edges. -/
theorem Legible.toDot_tells (legible : g.Legible) (legible' : h.Legible) :
    (g.toDot = h.toDot ↔ g.nodes = h.nodes ∧ g.arrows = h.arrows) ∧
    (g.toDot = h.toDot → ∀ edge, edge ∈ g.edges ↔ edge ∈ h.edges) := by
  refine ⟨⟨legible.drawn_eq legible', fun drawn => toDot_congr drawn.1 drawn.2⟩, ?_⟩
  intro same edge
  rw [← mem_arrows, (legible.drawn_eq legible' same).2, mem_arrows]

end text

/-! Two graphs of the same edges, with a quote in a name, and names that can be taken for an edge. -/
namespace Showroom

def wheel : String := "12\" wheel"

def graph : Graph := ⟨[⟨wheel, "car"⟩, ⟨"engine", "boat"⟩, ⟨wheel, "cart"⟩]⟩

def regrouped : Graph := ⟨[⟨wheel, "car"⟩, ⟨wheel, "cart"⟩, ⟨"engine", "boat"⟩]⟩

theorem toDot_tells_of_wheel :
    graph.Legible ∧ regrouped.Legible ∧ graph ≠ regrouped ∧ graph.toDot = regrouped.toDot ∧
      ∀ edge, edge ∈ graph.edges ↔ edge ∈ regrouped.edges := by
  have legible : graph.Legible := ⟨by decide, by decide⟩
  have legible' : regrouped.Legible := ⟨by decide, by decide⟩
  obtain ⟨told, tells⟩ := legible.toDot_tells legible'
  have same : graph.toDot = regrouped.toDot := told.mpr (by decide)
  exact ⟨legible, legible', by decide, same, tells same⟩

def pair : String := "wheel\" -> \"wheel"

/-- It cannot be told whether the wheel depends on the pair of wheels or the pair on the wheel. -/
example : (⟨[⟨"car", "wheel"⟩, ⟨"car", pair⟩, ⟨pair, "wheel"⟩]⟩ : Graph).toDot =
    (⟨[⟨"car", "wheel"⟩, ⟨"car", pair⟩, ⟨"wheel", pair⟩]⟩ : Graph).toDot := by decide +kernel

end Showroom

end BeanWiring.Graph

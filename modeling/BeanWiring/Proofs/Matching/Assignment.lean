import BeanWiring.Proofs.Matching.Independence

/-!
Which parameter a declared value ends up with. A holder is taken by one parameter at most, and one
under an index by the parameter at that index. Where nothing may be satisfied from the container, as
many holders are taken as there are parameters; where there are no more of them than that, counting
shows that all are taken.
-/
namespace BeanWiring

namespace ArgumentValues

variable {values : ArgumentValues ResolvedValue} {autowiring : Bool}

def Takes (values : ArgumentValues ResolvedValue) (autowiring : Bool) (e : Executable)
    (position : Nat) (p : HolderSlot × Holder ResolvedValue) : Prop :=
  (values.taken autowiring e)[position]? = some (some p)

theorem index_unique {α β : Type} {f : α → β} {entries : List (Option α)}
    (nodup : (entries.reduceOption.map f).Nodup) {i j : Nat} {a b : α}
    (first : entries[i]? = some (some a)) (second : entries[j]? = some (some b))
    (same : f a = f b) : i = j := by
  have apart : entries.Pairwise fun x y => ∀ a ∈ x, ∀ b ∈ y, f a ≠ f b :=
    List.pairwise_filterMap.mp (List.pairwise_map.mp nodup)
  obtain ⟨below, here⟩ := List.getElem?_eq_some_iff.mp first
  obtain ⟨below', there⟩ := List.getElem?_eq_some_iff.mp second
  rw [List.pairwise_iff_getElem] at apart
  rcases Nat.lt_trichotomy i j with less | equal | more
  · exact absurd same (apart i j below below' less a here b there)
  · exact equal
  · exact absurd same.symm (apart j i below' below more b there a here)

theorem takenFrom_isFree {arity index : Nat} {parameters : List Parameter} {used : List HolderSlot}
    {i : Nat} {slot : HolderSlot} {h : Holder ResolvedValue}
    (takes : (values.takenFrom autowiring arity index parameters used)[i]? = some (some (slot, h))) :
    ∀ j, slot = .indexed j → j.toNat = index + i := by
  induction parameters generalizing index used i with
  | nil => simp [takenFrom] at takes
  | cons parameter rest ih =>
    unfold takenFrom at takes
    split at takes
    · rename_i slot' h' found
      cases i with
      | zero =>
        cases takes
        rintro j rfl
        exact (forParameter?_some found).2
      | succ i =>
        intro j same
        rw [ih takes j same]
        omega
    · cases i with
      | zero => cases takes
      | succ i =>
        intro j same
        rw [ih takes j same]
        omega

theorem Takes.mem_slotted {e : Executable} {i : Nat} {p : HolderSlot × Holder ResolvedValue}
    (takes : values.Takes autowiring e i p) : p ∈ values.slotted :=
  mem_slotted_of_mem_takenFrom (List.mem_of_getElem? takes)

theorem Takes.toNat_eq {e : Executable} {i : Nat} {j : UInt64} {h : Holder ResolvedValue}
    (takes : values.Takes autowiring e i (.indexed j, h)) : j.toNat = i := by
  have place := takenFrom_isFree takes j rfl
  omega

theorem Takes.unique {e : Executable} {i j : Nat} {p q : HolderSlot × Holder ResolvedValue}
    (first : values.Takes autowiring e i p) (second : values.Takes autowiring e j q)
    (same : p.1 = q.1) : i = j :=
  index_unique (values.takenFrom_slots_nodup autowiring e.arity 0 e.parameters [] nofun).1
    first second same

/-- Every parameter takes a holder and every holder is taken, each once. -/
structure Pairs (values : ArgumentValues ResolvedValue) (autowiring : Bool) (e : Executable) :
    Prop where
  arity : e.arity = values.count
  slots : (values.slotted.map (·.1)).Nodup
  parameter : ∀ i < e.arity, ∃! p, values.Takes autowiring e i p
  holder : ∀ p ∈ values.slotted, ∃! i, values.Takes autowiring e i p

theorem pairs_of_isSome {e : Executable} (enough : values.count ≤ e.arity)
    (length : (values.taken autowiring e).length = e.arity)
    (declared : ∀ t ∈ values.taken autowiring e, t.isSome) : values.Pairs autowiring e := by
  have perm := taken_perm_slotted enough length declared
  refine ⟨?_, ?_, fun i below => ?_, fun p member => ?_⟩
  · have all := perm.length_eq
    rw [List.reduceOption_length_eq_iff.mpr declared, length_slotted] at all
    exact length.symm.trans all
  · apply (perm.map (·.1)).nodup_iff.mp
    exact (values.takenFrom_slots_nodup autowiring e.arity 0 e.parameters [] nofun).1
  · have inside : i < (values.taken autowiring e).length := length ▸ below
    obtain ⟨p, there⟩ := Option.isSome_iff_exists.mp (declared _ (List.getElem_mem inside))
    have takes : values.Takes autowiring e i p := by
      unfold Takes
      rw [List.getElem?_eq_getElem inside, there]
    refine ⟨p, takes, fun q also => ?_⟩
    exact Option.some.inj (Option.some.inj (also.symm.trans takes))
  · have taken := List.reduceOption_mem_iff.mp (perm.mem_iff.mpr member)
    obtain ⟨i, takes⟩ := List.mem_iff_getElem?.mp taken
    exact ⟨i, takes, fun j also => Takes.unique also takes rfl⟩

end ArgumentValues

namespace Work

variable {s : Setting} {e : Executable} {values : ArgumentValues ResolvedValue} {c c' : Container}

theorem isSome_of_bindFrom (off : s.autowiring = false) {index : Nat} {parameters : List Parameter}
    {p p' : Progress}
    (bound : (bindFrom s e values index parameters p).run.run c = (.ok p', c')) :
    ∀ t ∈ values.takenFrom s.autowiring e.arity index parameters p.used, t.isSome := by
  induction parameters generalizing index p c with
  | nil => simp [ArgumentValues.takenFrom]
  | cons parameter rest ih =>
    obtain ⟨q, m, first, later⟩ := Attempt.run_bind_eq_ok.mp bound
    have behind := ih later
    unfold ArgumentValues.takenFrom
    split
    · rename_i slot h chosen
      rcases bindParameter_ok first with ⟨slot', h', a, same, -, rfl, -⟩ | ⟨found, none, -⟩
      · cases chosen.symm.trans same
        exact List.forall_mem_cons.mpr ⟨rfl, behind⟩
      · cases chosen.symm.trans none
    · rename_i nothing
      simp only [bindParameter, nothing] at first
      simp only [off] at first
      cases first

theorem isSome_of_bindDeclared (off : s.autowiring = false) {b : Binding}
    (bound : (bindDeclared s e values).run.run c = (.ok b, c')) :
    ∀ t ∈ values.taken s.autowiring e, t.isSome := by
  obtain ⟨p, m, first, -⟩ := Attempt.run_bind_eq_ok.mp bound
  exact isSome_of_bindFrom off first

/-- The arguments of a binding are those of the holders that parameters take. No two parameters take
one holder, and one under an index is taken at that index. Where nothing may be autowired, none of
the holders is left over. -/
theorem bindDeclared_assigns {b : Binding} (enough : values.count ≤ e.arity)
    (bound : (bindDeclared s e values).run.run c = (.ok b, c')) :
    Binding.Follows s.bean e 0 e.parameters (values.taken s.autowiring e) b ∧
      (∀ i p, values.Takes s.autowiring e i p →
        p ∈ values.slotted ∧ ∀ j, p.1 = .indexed j → j.toNat = i) ∧
      (∀ i j p q, values.Takes s.autowiring e i p → values.Takes s.autowiring e j q →
        p.1 = q.1 → i = j) ∧
      (s.autowiring = false → values.Pairs s.autowiring e) := by
  have follows := bindDeclared_ok bound
  refine ⟨follows, ?_, fun i j p q first second same => first.unique second same, fun off => ?_⟩
  · rintro i ⟨slot, h⟩ takes
    refine ⟨takes.mem_slotted, ?_⟩
    rintro j rfl
    exact takes.toNat_eq
  · exact ArgumentValues.pairs_of_isSome enough follows.length_eq.1 (isSome_of_bindDeclared off bound)

end Work

/-! A cart with an axle and a number of wheels, which is declared for the second parameter. -/
namespace Cart

def executable : Executable where
  declaring := .plainClass "Cart"
  kind := .constructor
  isPublic := true
  parameters := [⟨.plainClass "Axle", none⟩, ⟨.long, none⟩]
  effect := .makes (.plainClass "Cart")
  label := none

def axle : Value := .object (.plainClass "Axle") (.named "axle")

def wheels : Holder ResolvedValue := ⟨⟨.int 4, .value (.int 4)⟩, none, none, none⟩

def values : ArgumentValues ResolvedValue :=
  ⟨[(1, wheels)], [⟨⟨axle, .value axle⟩, none, none, none⟩]⟩

def setting : Work.Setting where
  fetch := fun _ name => throw (.noSuchBeanNamed name)
  context := .new 1
  bean := "cart"
  autowiring := false
  fallback := false

theorem assigns_of_cart :
    ∃ b c', (Work.bindDeclared setting executable values).run.run (.new .initial) = (.ok b, c') ∧
      b.arguments = [axle, .long 4] ∧ values.Pairs false executable ∧
      ∀ i, values.Takes false executable i (.indexed 1, wheels) → i = 1 := by
  obtain ⟨b, c', bound, arguments⟩ : ∃ b c',
      (Work.bindDeclared setting executable values).run.run (.new .initial) = (.ok b, c') ∧
        b.arguments = [axle, .long 4] := ⟨_, _, rfl, rfl⟩
  have enough : values.count ≤ executable.arity := by decide
  obtain ⟨-, inPlace, -, pairs⟩ := Work.bindDeclared_assigns enough bound
  refine ⟨b, c', bound, arguments, pairs rfl, fun i takes => ?_⟩
  exact ((inPlace i _ takes).2 1 rfl).symm

end Cart

end BeanWiring

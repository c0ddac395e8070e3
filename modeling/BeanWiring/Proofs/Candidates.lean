import BeanWiring.Container.Creation
import BeanWiring.Proofs.Work

/-!
Which executables are candidates for a definition. Those that are tried are all left open by the
definition itself, but for a factory method that was remembered for it.
-/
namespace BeanWiring

namespace Executable

theorem mem_insertRanked {e f : Executable} {candidates : List Executable} :
    f ∈ insertRanked e candidates ↔ f = e ∨ f ∈ candidates := by
  induction candidates with
  | nil => simp [insertRanked]
  | cons first rest ih =>
    unfold insertRanked
    split
    · simp only [List.mem_cons, ih]
      exact or_left_comm
    · exact List.mem_cons

theorem mem_ranked {e : Executable} {candidates : List Executable} :
    e ∈ ranked candidates ↔ e ∈ candidates := by
  induction candidates with
  | nil => rfl
  | cons first rest ih =>
    change e ∈ insertRanked first (ranked rest) ↔ _
    rw [mem_insertRanked, ih, List.mem_cons]

theorem filter_insertRanked {q : Executable → Bool} {e : Executable} {candidates : List Executable}
    (level : ∀ f ∈ candidates, q e = true → q f = true → f.precedes e = false) :
    (insertRanked e candidates).filter q = (e :: candidates).filter q := by
  induction candidates with
  | nil => rfl
  | cons f rest ih =>
    unfold insertRanked
    split
    · rename_i earlier
      have later := ih fun g member => level g (List.mem_cons_of_mem f member)
      simp only [List.filter_cons, later]
      cases first : q e with
      | false => simp
      | true =>
        cases second : q f with
        | false => simp
        | true => simp [level f List.mem_cons_self first second] at earlier
    · rfl

/-- Ranking is stable: candidates that do not precede one another stay as they are declared. -/
theorem filter_ranked {q : Executable → Bool} {candidates : List Executable}
    (level : ∀ e ∈ candidates, ∀ f ∈ candidates, q e = true → q f = true → f.precedes e = false) :
    (ranked candidates).filter q = candidates.filter q := by
  induction candidates with
  | nil => rfl
  | cons e rest ih =>
    have later := ih fun f inside g member =>
      level f (List.mem_cons_of_mem e inside) g (List.mem_cons_of_mem e member)
    change (insertRanked e (ranked rest)).filter q = _
    rw [filter_insertRanked fun f member => level e List.mem_cons_self f
      (List.mem_cons_of_mem e (mem_ranked.mp member)), List.filter_cons, List.filter_cons, later]

theorem length_ranked (candidates : List Executable) :
    (ranked candidates).length = candidates.length := by
  have inserted (e : Executable) (L : List Executable) :
      (insertRanked e L).length = L.length + 1 := by
    induction L with
    | nil => rfl
    | cons f rest ih =>
      unfold insertRanked
      split <;> simp [ih]
  induction candidates with
  | nil => rfl
  | cons e rest ih =>
    change (insertRanked e (ranked rest)).length = _
    rw [inserted, ih, List.length_cons]

theorem eq_singleton_of_ranked {candidates : List Executable} {e : Executable}
    (single : ranked candidates = [e]) : candidates = [e] := by
  have one : candidates.length = 1 := by
    rw [← length_ranked, single]
    rfl
  obtain ⟨only, rfl⟩ := List.length_eq_one_iff.mp one
  exact single

def InOrder (candidates : List Executable) : Prop :=
  candidates.Pairwise fun e f => f.precedes e = false

theorem precedes_eq_false_iff {e f : Executable} :
    f.precedes e = false ↔
      (f.isPublic = true → e.isPublic = true) ∧
        (f.isPublic = e.isPublic → f.arity ≤ e.arity) := by
  unfold precedes
  cases f.isPublic <;> cases e.isPublic <;> simp

theorem InOrder.insertRanked {e : Executable} {candidates : List Executable}
    (inOrder : InOrder candidates) : InOrder (insertRanked e candidates) := by
  induction candidates with
  | nil => exact List.pairwise_singleton ..
  | cons f rest ih =>
    obtain ⟨above, later⟩ := List.pairwise_cons.mp inOrder
    unfold Executable.insertRanked
    split
    · rename_i earlier
      refine List.pairwise_cons.mpr ⟨fun g member => ?_, ih later⟩
      rcases mem_insertRanked.mp member with rfl | inside
      · unfold precedes at earlier ⊢
        grind
      · exact above g inside
    · rename_i notEarlier
      refine List.pairwise_cons.mpr ⟨fun g member => ?_, inOrder⟩
      have first := precedes_eq_false_iff.mp (Bool.eq_false_iff.mpr notEarlier)
      rcases List.mem_cons.mp member with rfl | inside
      · exact precedes_eq_false_iff.mpr first
      -- Both orders are lexical: what stands behind `f` ranks no higher than `f`, and `f` no higher
      -- than `e`.
      · have second := precedes_eq_false_iff.mp (above g inside)
        refine precedes_eq_false_iff.mpr ⟨fun visible => first.1 (second.1 visible), fun same => ?_⟩
        have between : f.isPublic = g.isPublic :=
          Bool.eq_iff_iff.mpr ⟨fun visible => same.trans (first.1 visible), second.1⟩
        exact Nat.le_trans (second.2 between.symm) (first.2 (between.trans same))

theorem inOrder_ranked (candidates : List Executable) : InOrder (ranked candidates) := by
  induction candidates with
  | nil => exact .nil
  | cons e rest ih => exact ih.insertRanked

def Falling (candidates : List Executable) : Prop :=
  candidates.Pairwise fun e f => f.arity ≤ e.arity

theorem falling_ranked {isPublic : Bool} {candidates : List Executable}
    (uniform : ∀ e ∈ candidates, e.isPublic = isPublic) : Falling (ranked candidates) := by
  refine (inOrder_ranked candidates).imp_of_mem fun {e f} first second after => ?_
  have visible := uniform e (mem_ranked.mp first)
  exact (precedes_eq_false_iff.mp after).2 ((uniform f (mem_ranked.mp second)).trans visible.symm)

end Executable

def BeanClass.overloads (c : BeanClass) (d : Definition) (isStatic : Bool) : List Executable :=
  c.methods.filter fun e => d.admits e && e.isStatic == isStatic && d.namesMethod e

/-- The executable is a method that the definition itself leaves open for its factory method. Where it
names no factory bean that is one of its class. -/
structure Blueprint.Opens (d : Definition) (e : Executable) : Prop where
  admits : d.admits e = true
  names : d.namesMethod e = true
  listed : d.factoryBean = none → ∀ k, d.beanClass = some k → e ∈ k.overloads d true

theorem Blueprint.isSome_of_namesMethod {d : Definition} {e : Executable}
    (names : d.namesMethod e = true) : d.factoryMethod.isSome = true := by
  unfold Blueprint.namesMethod at names
  split at names
  · rename_i named
    rw [named]
    rfl
  · cases names

theorem Blueprint.Opens.named {d : Definition} {e : Executable} (opens : d.Opens e) :
    d.factoryMethod.isSome = true := isSome_of_namesMethod opens.names

/-- The executables that a definition itself leaves open: the methods it names, or the constructors
of its class. Where the class has no other constructor the only one is taken as it is. -/
inductive Blueprint.Tries (d : Definition) : Executable → Prop
  | method {e : Executable} : d.Opens e → d.Tries e
  | only {beanClass : BeanClass} {e : Executable} : d.factoryMethod.isSome = false →
      d.beanClass = some beanClass → beanClass.soleConstructor? = some e → d.Tries e
  | constructor {beanClass : BeanClass} {e : Executable} : d.factoryMethod.isSome = false →
      d.beanClass = some beanClass → beanClass.soleConstructor? = none →
      e ∈ beanClass.constructors → d.admits e = true → d.Tries e

namespace BeanClass

/-- The first of the constructors that a class lists without it being one of its own: a method, or a
constructor of another type. -/
def misplaced? (c : BeanClass) : Option Executable :=
  c.constructors.find? fun e => !e.isConstructor || e.declaring != c.type

/-- The constructor that a creation goes by without looking at the list of its class: the only one, or
the default one where nothing hints at another. -/
def shortcut? (c : BeanClass) (d : Definition) (bare : Bool) : Option Executable :=
  match c.soleConstructor? with
  | some only => some only
  | none => if d.autowire || !bare then none else c.defaultConstructor?.filter d.admits

end BeanClass

def Blueprint.Sanctions (d : Definition) (e : Executable) : Prop :=
  ∀ c : BeanClass, d.factoryMethod.isSome = false → d.beanClass = some c →
    c.misplaced?.isSome = true → c.shortcut? d (!d.hasArguments) = some e

structure Blueprint.Allows (d : Definition) (e : Executable) : Prop where
  tries : d.Tries e
  sanctions : d.Sanctions e

theorem Blueprint.Allows.method {d : Definition} {e : Executable} (opens : d.Opens e) :
    d.Allows e where
  tries := .method opens
  sanctions _ plain := absurd (plain.symm.trans opens.named) nofun

namespace BeanClass

variable {c : BeanClass} {bean : String} {d : Definition} {isStatic : Bool} {e : Executable}
  {candidates : List Executable}

theorem mem_constructorCandidates (listed : c.constructorCandidates bean d = .ok candidates)
    (member : e ∈ candidates) : e ∈ c.constructors ∧ d.admits e = true := by
  unfold constructorCandidates at listed
  split at listed
  · cases listed
  · cases listed
    exact List.mem_filter.mp (Executable.mem_ranked.mp member)

theorem mem_overloads :
    e ∈ c.overloads d isStatic ↔
      e ∈ c.methods ∧ d.admits e = true ∧ e.isStatic = isStatic ∧ d.namesMethod e = true := by
  unfold overloads
  rw [List.mem_filter, Bool.and_eq_true, Bool.and_eq_true, beq_iff_eq, and_assoc]

theorem opens_of_mem_overloads (member : e ∈ c.overloads d isStatic)
    (own : d.factoryBean = none → d.beanClass = some c ∧ isStatic = true) : d.Opens e where
  admits := (mem_overloads.mp member).2.1
  names := (mem_overloads.mp member).2.2.2
  listed static k owner := by
    obtain ⟨owned, rfl⟩ := own static
    cases owner.symm.trans owned
    exact member

theorem methodCandidates_ok (listed : c.methodCandidates bean d isStatic = .ok candidates) :
    candidates = Executable.ranked (c.overloads d isStatic) := by
  unfold methodCandidates at listed
  split at listed
  · cases listed
  · cases listed
    rfl

theorem mem_methodCandidates (listed : c.methodCandidates bean d isStatic = .ok candidates)
    (member : e ∈ candidates) : e ∈ c.overloads d isStatic := by
  rw [methodCandidates_ok listed] at member
  exact Executable.mem_ranked.mp member

theorem uniqueMethod?_some (found : c.uniqueMethod? d isStatic = some e) :
    ∃ rest, c.overloads d isStatic = e :: rest ∧ ∀ f ∈ rest, e.sameParameterTypes f = true := by
  unfold uniqueMethod? at found
  split at found
  · cases found
  · rename_i first rest listed
    split at found
    · rename_i same
      cases found
      exact ⟨rest, listed, List.all_eq_true.mp same⟩
    · cases found

theorem mem_of_uniqueMethod? (found : c.uniqueMethod? d isStatic = some e) :
    e ∈ c.overloads d isStatic := by
  obtain ⟨rest, listed, -⟩ := uniqueMethod?_some found
  exact listed ▸ List.mem_cons_self

end BeanClass

namespace Creation

variable {n : Creation} {c c' : Container} {beanClass : BeanClass}

theorem favoured_ok {isKept : Bool} {given : Option (List Executable)}
    (plain : n.definition.factoryMethod.isSome = false)
    (owner : n.definition.beanClass = some beanClass)
    (unresolved : (n.explicit.isNone && isKept) = false)
    (favours : n.favoured isKept beanClass = .ok given) :
    match given with
    | some L => ∀ e ∈ L, n.definition.Tries e
    | none => beanClass.soleConstructor? = none := by
  unfold favoured at favours
  rw [unresolved] at favours
  cases sole : beanClass.soleConstructor? with
  | some only =>
    simp only [sole] at favours
    cases favours
    intro e member
    cases List.mem_singleton.mp member
    exact .only plain owner sole
  | none =>
    simp only [sole] at favours
    by_cases hinted : (n.definition.autowire || !n.isBare) = true
    · simp only [hinted] at favours
      cases favours
      rfl
    · cases default : beanClass.defaultConstructor?.filter n.definition.admits with
      | none => simp [hinted, default] at favours
      | some first =>
        obtain ⟨found, admits⟩ := Option.filter_eq_some_iff.mp default
        simp only [hinted, default] at favours
        cases favours
        intro e member
        cases List.mem_singleton.mp member
        exact .constructor plain owner sole (List.mem_of_find?_eq_some found) admits

theorem constructors_tries {isKept : Bool} {given : Option (List Executable)}
    {candidates : List Executable} (plain : n.definition.factoryMethod.isSome = false)
    (owner : n.definition.beanClass = some beanClass)
    (unresolved : (n.explicit.isNone && isKept) = false)
    (favours : n.favoured isKept beanClass = .ok given)
    (run : (n.constructors beanClass given).run.run c = (.ok candidates, c')) :
    c' = c ∧ ∀ e ∈ candidates, n.definition.Tries e := by
  have favoured := favoured_ok plain owner unresolved favours
  cases given with
  | some L =>
    obtain ⟨rfl, rfl⟩ := Attempt.run_pure_eq_ok.mp run
    exact ⟨rfl, fun e member => favoured e (Executable.mem_ranked.mp member)⟩
  | none =>
    have listed : (liftExcept (beanClass.constructorCandidates n.bean n.definition) :
        Attempt _).run.run c = (.ok candidates, c') := run
    rw [Attempt.run_liftExcept] at listed
    obtain ⟨found, rfl⟩ := Prod.mk.inj listed
    refine ⟨rfl, fun e member => ?_⟩
    obtain ⟨inside, admits⟩ := BeanClass.mem_constructorCandidates found member
    exact .constructor plain owner favoured inside admits

theorem favoured_of_unresolved {isKept : Bool}
    (unresolved : (n.explicit.isNone && isKept) = false) (beanClass : BeanClass) :
    n.favoured isKept beanClass =
      match beanClass.shortcut? n.definition n.isBare with
      | some e => .ok (some [e])
      | none =>
        if n.definition.autowire || !n.isBare then .ok none
        else .error (.noMatchingExecutable n.bean
          ("No default constructor found on bean class [" ++ beanClass.name ++ "]")) := by
  unfold favoured BeanClass.shortcut?
  rw [unresolved]
  cases beanClass.soleConstructor? with
  | some only => rfl
  | none =>
    cases n.definition.autowire || !n.isBare with
    | true => rfl
    | false => cases beanClass.defaultConstructor?.filter n.definition.admits <;> rfl

theorem shortcut?_of_isBare {e : Executable}
    (shortcut : beanClass.shortcut? n.definition n.isBare = some e) :
    beanClass.shortcut? n.definition (!n.definition.hasArguments) = some e := by
  cases bare : n.isBare with
  | true =>
    have undeclared := (Bool.and_eq_true_iff.mp bare).2
    rw [undeclared, ← bare]
    exact shortcut
  | false =>
    unfold BeanClass.shortcut? at *
    cases sole : beanClass.soleConstructor? with
    | some only => rwa [sole] at shortcut
    | none => simp [sole, bare] at shortcut

theorem constructorCandidates_of_misplaced {wrong : Executable}
    (misplaced : beanClass.misplaced? = some wrong) (bean : String) (d : Definition) :
    beanClass.constructorCandidates bean d = .error (.introspection bean "constructor" beanClass.name
      (wrong.signature ++ " is not a constructor declared by this class")) := by
  unfold BeanClass.misplaced? at misplaced
  unfold BeanClass.constructorCandidates
  rw [misplaced]

theorem constructors_sanctions {isKept : Bool} {given : Option (List Executable)}
    {candidates : List Executable} (owner : n.definition.beanClass = some beanClass)
    (unresolved : (n.explicit.isNone && isKept) = false)
    (favours : n.favoured isKept beanClass = .ok given)
    (run : (n.constructors beanClass given).run.run c = (.ok candidates, c')) :
    ∀ e ∈ candidates, n.definition.Sanctions e := by
  intro e member owning _ owns misplaced
  cases owner.symm.trans owns
  rw [favoured_of_unresolved unresolved] at favours
  split at favours
  · rename_i shortcut
    cases favours
    obtain ⟨rfl, -⟩ := Attempt.run_pure_eq_ok.mp run
    cases List.mem_singleton.mp (Executable.mem_ranked.mp member)
    exact shortcut?_of_isBare shortcut
  · split at favours
    · cases favours
      obtain ⟨wrong, first⟩ := Option.isSome_iff_exists.mp misplaced
      have listed : (liftExcept (beanClass.constructorCandidates n.bean n.definition) :
          Attempt _).run.run c = (.ok candidates, c') := run
      rw [constructorCandidates_of_misplaced first] at listed
      cases listed
    · cases favours

end Creation

end BeanWiring

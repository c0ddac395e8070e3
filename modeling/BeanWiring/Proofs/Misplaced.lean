import BeanWiring.Proofs.Stability
import BeanWiring.Proofs.Ways

/-!
Classes that list a method or a constructor of another type among their constructors. The list is looked
through where the candidates are listed, and nowhere else: what a creation takes without a look at the
list it takes from a wrong list too. Any other creation from such a class is refused before it does
anything.
-/
namespace BeanWiring

def Container.Sanctioned (known : List Definition) (c : Container) : Prop :=
  ∀ serial r, c.resolutions.get? serial = some r →
    ∃ d ∈ known, d.serial = serial ∧ d.Sanctions r.executable

namespace Container.Sanctioned

variable {known : List Definition} {c : Container}

theorem new (settings : Settings) : Sanctioned [] (.new settings) :=
  fun _ r found => absurd (show (none : Option Resolution) = some r from found) nofun

theorem executable (sanctioned : c.Sanctioned known) (lawful : c.Lawful known) {d : Definition}
    (member : d ∈ known) {r : Resolution} (kept : c.resolution? d = some r) :
    d.Sanctions r.executable := by
  obtain ⟨d', member', same, sanctions⟩ := sanctioned d.serial r kept
  exact lawful.eq_of_serial_eq member' member same ▸ sanctions

theorem respects (known : List Definition) :
    (Realm.everywhere (· ∈ known)).Respects known (Sanctioned known) := by
  refine Realm.everywhere_respects ?_ (fun _ _ _ _ _ _ _ held => held) ?_
  · intro c c' _ _ same _ held serial r found
    exact held serial r (same ▸ found)
  · intro m c d r _ _ _ member allows held serial r' found
    change (c.resolutions.insert d.serial r).get? serial = some r' at found
    rw [Registry.get?_insert] at found
    split at found
    · rename_i same
      cases found
      exact ⟨d, member, same, allows.sanctions⟩
    · exact held serial r' found

theorem perform (sanctioned : c.Sanctioned known) (lawful : c.Lawful known) (request : Request) :
    Sanctioned (known ++ request.enrolls c) (request.perform.run c).2 := by
  suffices held : Sanctioned known (request.perform.run c).2 by
    intro serial r found
    obtain ⟨d, member, same, sanctions⟩ := held serial r found
    exact ⟨d, List.mem_append_left _ member, same, sanctions⟩
  cases asks : request.isAsking with
  | true =>
    have upholds := (respects known).upholds lawful.catalogued
    exact (upholds.conducts.asked (fun _ => trivial) asks c ⟨lawful, sanctioned⟩).2.1.2
  | false =>
    intro serial r found
    rcases Request.resolution?_of_telling asks c with same | ⟨_, d, -, -, erased⟩
    · exact sanctioned serial r (same ▸ found)
    · rw [erased, Registry.get?_erase] at found
      split at found
      · cases found
      · exact sanctioned serial r found

end Container.Sanctioned

theorem Container.Reachable.sanctioned {known : List Definition} {c : Container}
    (reachable : Reachable known c) : c.Sanctioned known := by
  induction reachable with
  | fresh made =>
    obtain ⟨settings, rfl⟩ := ofSettings_ok made
    exact .new settings
  | step request reached ih => exact ih.perform reached.lawful request

namespace Creation

variable {n : Creation} {c : Container} {beanClass : BeanClass} {wrong : Executable}

/-- What is said of a creation that takes no shortcut: that the list is wrong, if it is looked through. A
creation without any hint comes to an end before that. -/
def refusal (n : Creation) (beanClass : BeanClass) (wrong : Executable) : BeanError :=
  if n.definition.autowire || !n.isBare then
    .introspection n.bean "constructor" beanClass.name
      (wrong.signature ++ " is not a constructor declared by this class")
  else
    .noMatchingExecutable n.bean
      ("No default constructor found on bean class [" ++ beanClass.name ++ "]")

theorem isBare_of_ungiven (ungiven : n.explicit = none) : n.isBare = !n.definition.hasArguments := by
  unfold isBare
  rw [ungiven]
  rfl

def FindsArguments (n : Creation) (c : Container) (e : Executable) : Prop :=
  ∃ source minCount m binding k, n.source.run.run c = (.ok (source, minCount), m) ∧
    source.suits minCount e = true ∧
    (Work.bind (n.setting true true) e source).run.run m = (.ok binding, k) ∧
    binding.weight n.definition.lenient e.parameterTypes < Weight.greatest

theorem fresh_of_unresolved (unresolved : n.explicit = none → c.resolution? n.definition = none) :
    (n.explicit.isNone && (c.resolution? n.definition).isSome) = false := by
  cases given : n.explicit with
  | none =>
    rw [unresolved given]
    rfl
  | some => rfl

theorem FindsArguments.byClosestConstructor {e : Executable} (finds : n.FindsArguments c e)
    (beanClass : BeanClass) :
    ∃ call m, (n.byClosestConstructor beanClass true [e]).run.run c = (.ok call, m) := by
  obtain ⟨source, minCount, m, binding, k, sourced, suits, binds, below⟩ := finds
  obtain ⟨k', searched⟩ := search_of_lone suits (run_bindCandidate_of_ok binds)
  have chosen : Search.start.step .constructor n.definition.lenient e (.ok binding) =
      ⟨some ⟨e, binding⟩, binding.weight n.definition.lenient e.parameterTypes, [], []⟩ := if_pos below
  rw [chosen] at searched
  unfold Creation.byClosestConstructor
  rw [Attempt.run_bind_of_ok sourced, Attempt.run_bind_lift, searched]
  exact ⟨_, _, rfl⟩

theorem run_call_of_shortcut {e : Executable} (plain : n.definition.factoryMethod.isSome = false)
    (owner : n.definition.beanClass = some beanClass)
    (unresolved : n.explicit = none → c.resolution? n.definition = none)
    (shortcut : beanClass.shortcut? n.definition n.isBare = some e) (finds : n.FindsArguments c e) :
    ∃ call m, n.call.run.run c = (.ok call, m) := by
  have favours := favoured_of_unresolved (fresh_of_unresolved unresolved) beanClass
  rw [shortcut] at favours
  have listed : (n.constructors beanClass (some [e])).run.run c = (.ok [e], c) := rfl
  rw [run_call_of_constructors plain owner unresolved favours, Attempt.run_bind_of_ok listed]
  unfold constructorAmong
  cases n.bareCandidate? [e] with
  | some only => exact ⟨_, _, rfl⟩
  | none => exact finds.byClosestConstructor beanClass

theorem sanctions_of_decides {known : List Definition} {call : Call} (member : n.definition ∈ known)
    (decides : n.Decides (fun c => c.Lawful known ∧ c.Sanctioned known) call c) :
    n.definition.Sanctions call.executable := by
  cases decides with
  | replayed _ held entry same _ => exact same ▸ held.2.executable held.1 member entry
  | given _ tried _ =>
    exact (Container.Lawful.allows_of_tried (fun m held => held.1) member tried).sanctions
  | found _ _ _ _ _ tried _ =>
    exact (Container.Lawful.allows_of_tried (fun m held => held.1) member tried).sanctions

theorem unresolved_of_misplaced (plain : n.definition.factoryMethod.isSome = false)
    (owner : n.definition.beanClass = some beanClass) (misplaced : beanClass.misplaced? = some wrong)
    (sanctions : ∀ r, c.resolution? n.definition = some r → n.definition.Sanctions r.executable)
    (noShortcut : beanClass.shortcut? n.definition n.isBare = none) :
    n.explicit = none → c.resolution? n.definition = none := by
  intro ungiven
  rw [isBare_of_ungiven ungiven] at noShortcut
  cases kept : c.resolution? n.definition with
  | none => rfl
  | some r =>
    have shortcut := sanctions r kept beanClass plain owner (misplaced ▸ rfl)
    cases noShortcut.symm.trans shortcut

theorem run_call_of_misplaced (plain : n.definition.factoryMethod.isSome = false)
    (owner : n.definition.beanClass = some beanClass) (misplaced : beanClass.misplaced? = some wrong)
    (unresolved : n.explicit = none → c.resolution? n.definition = none)
    (noShortcut : beanClass.shortcut? n.definition n.isBare = none) :
    n.call.run.run c = (.error (n.refusal beanClass wrong), c) := by
  have favours := favoured_of_unresolved (fresh_of_unresolved unresolved) beanClass
  rw [noShortcut] at favours
  unfold refusal
  -- With a hint the list is looked through and found wrong; without one it is never reached.
  split
  · rename_i hinted
    rw [if_pos hinted] at favours
    rw [run_call_of_constructors plain owner unresolved favours]
    refine Attempt.run_bind_of_error ?_
    change (liftExcept (beanClass.constructorCandidates n.bean n.definition) : Attempt _).run.run c = _
    rw [constructorCandidates_of_misplaced misplaced, Attempt.run_liftExcept]
  · rename_i unhinted
    rw [if_neg unhinted] at favours
    have refused : (liftExcept (n.favoured (c.resolution? n.definition).isSome beanClass) :
        Attempt _).run.run c = (.error (.noMatchingExecutable n.bean
          ("No default constructor found on bean class [" ++ beanClass.name ++ "]")), c) := by
      rw [Attempt.run_liftExcept, favours]
    unfold call
    rw [plain, owner]
    exact (Attempt.run_bind_of_ok rfl).trans (Attempt.run_bind_of_error refused)

end Creation

variable {known : List Definition} {c : Container}

/-- Whatever is asked of a container: of a class that lists a misplaced constructor, a creation without a
factory method comes to invoke the shortcut, once there are arguments for it, and no other. Where there is
none it is refused and leaves everything as it was. -/
theorem Container.Reachable.misplaced_refused (reachable : Reachable known c)
    (requests : List Request) :
    Request.EachCreation (fun n m => ∀ beanClass wrong, n.definition.factoryMethod = none →
      n.definition.beanClass = some beanClass → beanClass.misplaced? = some wrong →
      match beanClass.shortcut? n.definition n.isBare with
      | some e =>
        (∀ call m', n.call.run.run m = (.ok call, m') → call.executable = e) ∧
        ((n.explicit = none → m.resolution? n.definition = none) → n.FindsArguments m e →
          ∃ call m', n.call.run.run m = (.ok call, m'))
      | none => n.perform.run.run m = (.error (n.refusal beanClass wrong), m)) requests c := by
  refine Request.eachCreation_of_respects Container.Sanctioned.respects
    (fun _ _ request lawful sanctioned => sanctioned.perform lawful request) reachable.lawful
    reachable.sanctioned ?_ requests
  intro known room n m full within _ member lawful sanctioned beanClass wrong unnamed owner misplaced
  have plain : n.definition.factoryMethod.isSome = false := by rw [unnamed]; rfl
  split
  · rename_i e shortcut
    refine ⟨fun call m' decided => ?_, fun unresolved finds =>
      Creation.run_call_of_shortcut plain owner unresolved shortcut finds⟩
    have upholds := (Container.Sanctioned.respects known).upholds lawful.catalogued
    have decides := (upholds.conducts.decides full within trivial member ⟨lawful, sanctioned⟩).2
    have sanctions := Creation.sanctions_of_decides member (decides call m' decided).2
    have taken := sanctions beanClass plain owner (misplaced ▸ rfl)
    exact Option.some.inj (taken.symm.trans (Creation.shortcut?_of_isBare shortcut))
  · rename_i noShortcut
    have unresolved := Creation.unresolved_of_misplaced plain owner misplaced
      (fun r kept => sanctioned.executable lawful member kept) noShortcut
    exact Attempt.run_bind_of_error
      (Creation.run_call_of_misplaced plain owner misplaced unresolved noShortcut)

/-! A stamp whose class lists nothing but a constructor of the seal. -/
namespace Stamp

def foreign : Executable where
  declaring := .plainClass "Seal"
  kind := .constructor
  isPublic := true
  parameters := [⟨.string, none⟩]
  effect := .makes (.plainClass "Seal")
  label := none

def beanClass : BeanClass := ⟨.plainClass "Stamp", [foreign], []⟩

def definition : Definition :=
  { Definition.initial .initial with
    beanClass := some beanClass
    arguments := ⟨[], [⟨.value (.str "lion"), none, none, none⟩]⟩ }

def defined : Container := ((Request.define "stamp" definition).perform.run (.new .initial)).2

def asked : Container := ((Request.bean "stamp" none).perform.run defined).2

theorem misplaced_refused_of_stamp :
    beanClass.misplaced? = some foreign ∧
    asked.invocations.map (fun i => (i.bean, i.executable)) = [("stamp", foreign)] ∧
    Request.EachCreation (fun n m => ∀ beanClass wrong, n.definition.factoryMethod = none →
      n.definition.beanClass = some beanClass → beanClass.misplaced? = some wrong →
      match beanClass.shortcut? n.definition n.isBare with
      | some e =>
        (∀ call m', n.call.run.run m = (.ok call, m') → call.executable = e) ∧
        ((n.explicit = none → m.resolution? n.definition = none) → n.FindsArguments m e →
          ∃ call m', n.call.run.run m = (.ok call, m'))
      | none => n.perform.run.run m = (.error (n.refusal beanClass wrong), m))
      [.bean "stamp" none] defined := by
  have fresh := Container.Reachable.initially
  have reachable : Container.Reachable _ defined := fresh.step (.define "stamp" definition)
  exact ⟨rfl, rfl, reachable.misplaced_refused [.bean "stamp" none]⟩

end Stamp

end BeanWiring

import BeanWiring.Container
import Mathlib.Data.List.Forall2

/-!
How to reason about work on a container. A run is taken apart step by step. Two pieces of work agree
under an invariant when no state that has it tells them apart; agreeing with itself, work keeps the
invariant.
-/
namespace BeanWiring

variable {α β ε : Type} {I : Container → Prop}

namespace Work

theorem run_bind (x : Work α) (f : α → Work β) (c : Container) :
    (x >>= f).run c = (f (x.run c).1).run (x.run c).2 := rfl

/-- In states with the invariant `I` both do the same, keep `I` and give something with `Q`. -/
def Agree (I : Container → Prop) (x y : Work α) (Q : α → Prop) : Prop :=
  ∀ c, I c → x.run c = y.run c ∧ I (x.run c).2 ∧ Q (x.run c).1

namespace Agree

theorem pure {Q : α → Prop} {a : α} (holds : Q a) : Agree I (Pure.pure a) (Pure.pure a) Q :=
  fun _ inv => ⟨rfl, inv, holds⟩

theorem bind {x y : Work α} {f g : α → Work β} {P : α → Prop} {Q : β → Prop}
    (first : Agree I x y P) (rest : ∀ a, P a → Agree I (f a) (g a) Q) :
    Agree I (x >>= f) (y >>= g) Q := by
  intro c inv
  obtain ⟨same, kept, holds⟩ := first c inv
  have next := rest _ holds _ kept
  rw [run_bind, run_bind, ← same]
  exact next

theorem mono {x y : Work α} {P Q : α → Prop} (agree : Agree I x y P) (weaker : ∀ a, P a → Q a) :
    Agree I x y Q :=
  fun c inv => ⟨(agree c inv).1, (agree c inv).2.1, weaker _ (agree c inv).2.2⟩

theorem get : Agree I MonadState.get MonadState.get I := fun _ inv => ⟨rfl, inv, inv⟩

theorem modify {f : Container → Container} (keeps : ∀ c, I c → I (f c)) :
    Agree I (modify f) (modify f) (fun _ => True) :=
  fun c inv => ⟨rfl, keeps c inv, trivial⟩

theorem modifyGet {f : Container → α × Container} (keeps : ∀ c, I c → I (f c).2) :
    Agree I (modifyGet f) (modifyGet f) (fun _ => True) :=
  fun c inv => ⟨rfl, keeps c inv, trivial⟩

theorem kept {x y : Work α} {Q : α → Prop} (agree : Agree I x y Q) {c c' : Container} {a : α}
    (inv : I c) (run : x.run c = (a, c')) : I c' := by
  have kept := (agree c inv).2.1
  rwa [run] at kept

theorem self (x : Work α) : Agree (fun _ => True) x x (fun a => ∃ c c', x.run c = (a, c')) :=
  fun c _ => ⟨rfl, trivial, c, (x.run c).2, rfl⟩

end Agree

end Work

namespace Attempt

theorem run_lift (x : Work α) (c : Container) :
    (liftM x : ExceptT ε Work α).run.run c = (.ok (x.run c).1, (x.run c).2) := rfl

theorem run_bind_lift (x : Work α) (f : α → ExceptT ε Work β) (c : Container) :
    ((liftM x : ExceptT ε Work α) >>= f).run.run c = (f (x.run c).1).run.run (x.run c).2 := rfl

theorem run_get_bind (f : Container → Attempt β) (c : Container) :
    (get >>= f).run.run c = (f c).run.run c := rfl

theorem run_liftExcept (x : Except ε α) (c : Container) :
    (liftExcept x : ExceptT ε Work α).run.run c = (x, c) := by
  cases x <;> rfl

theorem run_bind_of_ok {x : ExceptT ε Work α} {f : α → ExceptT ε Work β} {c m : Container} {a : α}
    (first : x.run.run c = (.ok a, m)) : (x >>= f).run.run c = (f a).run.run m := by
  change (ExceptT.bindCont f (x.run.run c).1).run (x.run.run c).2 = _
  rw [first]
  rfl

theorem run_bind_of_error {x : ExceptT ε Work α} {f : α → ExceptT ε Work β} {c m : Container}
    {e : ε} (first : x.run.run c = (.error e, m)) : (x >>= f).run.run c = (.error e, m) := by
  change (ExceptT.bindCont f (x.run.run c).1).run (x.run.run c).2 = _
  rw [first]
  rfl

theorem run_bind_congr {x y : ExceptT ε Work α} {c c' : Container} (same : x.run.run c = y.run.run c')
    (f : α → ExceptT ε Work β) : (x >>= f).run.run c = (y >>= f).run.run c' := by
  change (ExceptT.bindCont f (x.run.run c).1).run (x.run.run c).2 = _
  rw [same]
  rfl

theorem run_bind_eq_ok {x : ExceptT ε Work α} {f : α → ExceptT ε Work β} {c c' : Container} {b : β} :
    (x >>= f).run.run c = (.ok b, c') ↔
      ∃ a m, x.run.run c = (.ok a, m) ∧ (f a).run.run m = (.ok b, c') := by
  constructor
  · intro succeeded
    obtain ⟨r, m, first⟩ : ∃ r m, x.run.run c = (r, m) := ⟨_, _, rfl⟩
    cases r with
    | error e => rw [run_bind_of_error first] at succeeded; cases succeeded
    | ok a => exact ⟨a, m, first, by rwa [run_bind_of_ok first] at succeeded⟩
  · rintro ⟨a, m, first, rest⟩
    rwa [run_bind_of_ok first]

theorem run_bind_eq_error {x : ExceptT ε Work α} {f : α → ExceptT ε Work β} {c c' : Container}
    {e : ε} (failed : (x >>= f).run.run c = (.error e, c')) :
    x.run.run c = (.error e, c') ∨
      ∃ a m, x.run.run c = (.ok a, m) ∧ (f a).run.run m = (.error e, c') := by
  obtain ⟨r, m, first⟩ : ∃ r m, x.run.run c = (r, m) := ⟨_, _, rfl⟩
  cases r with
  | error e' =>
    rw [run_bind_of_error first] at failed
    cases failed
    exact .inl first
  | ok a => exact .inr ⟨a, m, first, by rwa [run_bind_of_ok first] at failed⟩

theorem run_pure_eq_ok {a b : α} {c c' : Container} :
    (pure a : ExceptT ε Work α).run.run c = (.ok b, c') ↔ a = b ∧ c = c' := by
  constructor
  · intro h
    cases h
    exact ⟨rfl, rfl⟩
  · rintro ⟨rfl, rfl⟩
    rfl

theorem run_liftM_eq_ok {x : Except ε α} {a : α} {c c' : Container} :
    (liftM x : ExceptT ε Work α).run.run c = (.ok a, c') ↔ x = .ok a ∧ c = c' := by
  cases x with
  | error e => exact ⟨nofun, nofun⟩
  | ok b =>
    constructor
    · intro h
      cases h
      exact ⟨rfl, rfl⟩
    · rintro ⟨h, rfl⟩
      cases h
      rfl

theorem run_of_lift_run {ε' : Type} {x : ExceptT ε' Work α} {r : Except ε' α} {c c' : Container}
    (run : (liftM x.run : ExceptT ε Work (Except ε' α)).run.run c = (.ok r, c')) :
    x.run.run c = (r, c') := by
  rw [run_lift] at run
  cases run
  rfl

theorem forall₂_of_mapM_ok {xs : List α} {ys : List β} {f : α → ExceptT ε Work β}
    {Q : α → β → Prop} {c c' : Container} (mapped : (xs.mapM f).run.run c = (.ok ys, c'))
    (each : ∀ a ∈ xs, ∀ b m m', (f a).run.run m = (.ok b, m') → Q a b) : List.Forall₂ Q xs ys := by
  induction xs generalizing ys c c' with
  | nil =>
    cases (run_pure_eq_ok.mp mapped).1
    exact .nil
  | cons a rest ih =>
    rw [List.mapM_cons] at mapped
    obtain ⟨b, m, first, later⟩ := run_bind_eq_ok.mp mapped
    obtain ⟨bs, m', others, last⟩ := run_bind_eq_ok.mp later
    rw [← (run_pure_eq_ok.mp last).1]
    exact .cons (each a List.mem_cons_self b c m first)
      (ih others fun x member => each x (List.mem_cons_of_mem _ member))

def Agree (I : Container → Prop) (x y : ExceptT ε Work α) (Q : α → Prop) : Prop :=
  Work.Agree I x.run y.run (fun r => ∀ a, r = .ok a → Q a)

namespace Agree

theorem pure {Q : α → Prop} {a : α} (holds : Q a) :
    Agree I (Pure.pure a : ExceptT ε Work α) (Pure.pure a) Q :=
  fun _ inv => ⟨rfl, inv, fun _ same => Except.ok.inj same ▸ holds⟩

theorem throw {Q : α → Prop} (e : ε) :
    Agree I (throw e : ExceptT ε Work α) (MonadExcept.throw e) Q :=
  fun _ inv => ⟨rfl, inv, fun _ same => nomatch same⟩

theorem bind {x y : ExceptT ε Work α} {f g : α → ExceptT ε Work β} {P : α → Prop} {Q : β → Prop}
    (first : Agree I x y P) (rest : ∀ a, P a → Agree I (f a) (g a) Q) :
    Agree I (x >>= f) (y >>= g) Q := by
  intro c inv
  obtain ⟨same, kept, holds⟩ := first c inv
  obtain ⟨r, m, run⟩ : ∃ r m, x.run.run c = (r, m) := ⟨_, _, rfl⟩
  rw [run] at same kept holds
  cases r with
  | error e =>
    have left : (x >>= f).run.run c = (.error e, m) := run_bind_of_error run
    have right : (y >>= g).run.run c = (.error e, m) := run_bind_of_error same.symm
    rw [left, right]
    exact ⟨rfl, kept, fun _ impossible => nomatch impossible⟩
  | ok a =>
    have left : (x >>= f).run.run c = (f a).run.run m := run_bind_of_ok run
    have right : (y >>= g).run.run c = (g a).run.run m := run_bind_of_ok same.symm
    rw [left, right]
    exact rest a (holds a rfl) m kept

theorem mono {x y : ExceptT ε Work α} {P Q : α → Prop} (agree : Agree I x y P)
    (weaker : ∀ a, P a → Q a) : Agree I x y Q :=
  Work.Agree.mono agree fun _ holds a same => weaker a (holds a same)

theorem lift {x y : Work α} {Q : α → Prop} (agree : Work.Agree I x y Q) :
    Agree I (liftM x : ExceptT ε Work α) (liftM y) Q := by
  intro c inv
  obtain ⟨same, kept, holds⟩ := agree c inv
  refine ⟨?_, kept, fun a given => Except.ok.inj given ▸ holds⟩
  rw [run_lift, run_lift, same]

theorem get : Agree I (MonadState.get : Attempt Container) MonadState.get I :=
  fun _ inv => ⟨rfl, inv, fun _ same => Except.ok.inj same ▸ inv⟩

theorem except {Q : α → Prop} {x : Except ε α} (holds : ∀ a, x = .ok a → Q a) :
    Agree I (liftExcept x : ExceptT ε Work α) (liftExcept x) Q := by
  intro c inv
  rw [run_liftExcept]
  exact ⟨rfl, inv, holds⟩

theorem liftM {Q : α → Prop} {x : Except ε α} (holds : ∀ a, x = .ok a → Q a) :
    Agree I (liftM x : ExceptT ε Work α) (MonadLiftT.monadLift x) Q := by
  intro c inv
  cases x with
  | error e => exact ⟨rfl, inv, fun _ same => nomatch same⟩
  | ok a => exact ⟨rfl, inv, fun _ same => Except.ok.inj same ▸ holds a rfl⟩

theorem kept {x y : ExceptT ε Work α} {Q : α → Prop} (agree : Agree I x y Q) {c c' : Container}
    {r : Except ε α} (inv : I c) (run : x.run.run c = (r, c')) : I c' := by
  have kept := (agree c inv).2.1
  rwa [run] at kept

theorem result {x y : ExceptT ε Work α} {Q : α → Prop} (agree : Agree I x y Q) :
    Agree I x y (fun a => Q a ∧ ∃ c c', x.run.run c = (.ok a, c')) :=
  fun c inv => ⟨(agree c inv).1, (agree c inv).2.1, fun a same =>
    ⟨(agree c inv).2.2 a same, c, _, Prod.ext same rfl⟩⟩

theorem mapM {xs : List α} {f g : α → ExceptT ε Work β} {Q : α → β → Prop}
    (each : ∀ a ∈ xs, Agree I (f a) (g a) (Q a)) :
    Agree I (xs.mapM f) (xs.mapM g) (List.Forall₂ Q xs) := by
  induction xs with
  | nil => exact pure .nil
  | cons a rest ih =>
    rw [List.mapM_cons, List.mapM_cons]
    refine bind (each a List.mem_cons_self) fun b hb => ?_
    refine bind (ih fun x hx => each x (List.mem_cons_of_mem _ hx)) fun bs hbs => ?_
    exact pure (.cons hb hbs)

end Agree

def Ends (I : Container → Prop) (c : Container) (x y : ExceptT ε Work α)
    (Q : α → Container → Prop) : Prop :=
  x.run.run c = y.run.run c ∧ (∀ e c', x.run.run c = (.error e, c') → I c') ∧
    ∀ a c', x.run.run c = (.ok a, c') → Q a c'

theorem Agree.ends {x y : ExceptT ε Work α} {P : α → Prop} (agree : Agree I x y P)
    {c : Container} (inv : I c) : Ends I c x y fun a c' => P a ∧ I c' := by
  obtain ⟨same, kept, holds⟩ := agree c inv
  refine ⟨same, fun e c' run => ?_, fun a c' run => ?_⟩
  · rwa [run] at kept
  · rw [run] at kept holds
    exact ⟨holds a rfl, kept⟩

theorem Agree.of_ends {x y : ExceptT ε Work α} {P : α → Prop}
    (ends : ∀ c, I c → Ends I c x y fun a c' => P a ∧ I c') : Agree I x y P := by
  intro c inv
  obtain ⟨same, failed, given⟩ := ends c inv
  obtain ⟨r, c', run⟩ : ∃ r c', x.run.run c = (r, c') := ⟨_, _, rfl⟩
  refine ⟨same, ?_, fun a ok => ?_⟩
  · rw [run]
    cases r with
    | error e => exact failed e c' run
    | ok a => exact (given a c' run).2
  · rw [run] at ok
    exact (given a c' (run.trans (Prod.ext ok rfl))).1

namespace Ends

theorem told {x y : ExceptT ε Work α} {Q : α → Container → Prop} {c : Container}
    (ends : Ends I c x y Q) : Ends I c x y fun a c' => x.run.run c = (.ok a, c') ∧ Q a c' :=
  ⟨ends.1, ends.2.1, fun a c' run => ⟨run, ends.2.2 a c' run⟩⟩

theorem of_state {x : ExceptT ε Work α} {c : Container} (held : I (x.run.run c).2) :
    Ends I c x x fun _ => I :=
  ⟨rfl, fun e c' run => by rwa [run] at held, fun a c' run => by rwa [run] at held⟩

variable {c : Container}

theorem pure {Q : α → Container → Prop} {a : α} (holds : Q a c) :
    Ends I c (Pure.pure a : ExceptT ε Work α) (Pure.pure a) Q := by
  refine ⟨rfl, nofun, fun b c' run => ?_⟩
  obtain ⟨rfl, rfl⟩ := run_pure_eq_ok.mp run
  exact holds

theorem throw {Q : α → Container → Prop} (e : ε) (inv : I c) :
    Ends I c (throw e : ExceptT ε Work α) (MonadExcept.throw e) Q := by
  refine ⟨rfl, fun e' c' run => ?_, nofun⟩
  cases run
  exact inv

theorem mono {x y : ExceptT ε Work α} {P Q : α → Container → Prop} (ends : Ends I c x y P)
    (weaker : ∀ a c', P a c' → Q a c') : Ends I c x y Q :=
  ⟨ends.1, ends.2.1, fun a c' run => weaker a c' (ends.2.2 a c' run)⟩

theorem bind {x y : ExceptT ε Work α} {f g : α → ExceptT ε Work β} {P : α → Container → Prop}
    {Q : β → Container → Prop} (first : Ends I c x y P)
    (rest : ∀ a c', P a c' → Ends I c' (f a) (g a) Q) : Ends I c (x >>= f) (y >>= g) Q := by
  obtain ⟨same, failed, given⟩ := first
  obtain ⟨r, m, run⟩ : ∃ r m, x.run.run c = (r, m) := ⟨_, _, rfl⟩
  cases r with
  | error e =>
    refine ⟨?_, fun e' c' ended => ?_, fun a c' ended => ?_⟩
    · rw [run_bind_of_error run, run_bind_of_error (same.symm.trans run)]
    · rw [run_bind_of_error run] at ended
      cases ended
      exact failed e m run
    · rw [run_bind_of_error run] at ended
      cases ended
  | ok a =>
    unfold Ends
    rw [run_bind_of_ok run, run_bind_of_ok (same.symm.trans run)]
    exact rest a m (given a m run)

theorem get_bind {f g : Container → Attempt β} {Q : β → Container → Prop}
    (rest : Ends I c (f c) (g c) Q) : Ends I c (get >>= f) (get >>= g) Q := rest

theorem lift {x y : Work α} {Q : α → Container → Prop} (same : x.run c = y.run c)
    (holds : Q (x.run c).1 (x.run c).2) : Ends I c (liftM x : ExceptT ε Work α) (liftM y) Q := by
  refine ⟨?_, nofun, fun a c' run => ?_⟩
  · rw [run_lift, run_lift, same]
  · rw [run_lift] at run
    cases run
    exact holds

theorem except {Q : α → Container → Prop} {x : Except ε α} (inv : I c)
    (holds : ∀ a, x = .ok a → Q a c) :
    Ends I c (liftExcept x : ExceptT ε Work α) (liftExcept x) Q := by
  refine ⟨rfl, fun e c' run => ?_, fun a c' run => ?_⟩
  · rw [run_liftExcept] at run
    cases run
    exact inv
  · rw [run_liftExcept] at run
    cases run
    exact holds a rfl

end Ends

end Attempt

end BeanWiring

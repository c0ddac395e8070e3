import BeanWiring.Context.Script
import Mathlib.Data.List.Nodup

/-!
A ledger after a script says what it said before, whatever the script enters and wherever it fails. On
the way the names in creation are those on the path, each there once: so what is struck out at the end
of a creation, found by its name, is what was written at its start.
-/
namespace BeanWiring

namespace Ledger

variable {l inside : Ledger} {bean : String}

/-- The set and the path say the same, and no bean is in creation twice or too deep. -/
structure Sound (l : Ledger) : Prop where
  mem_names : ∀ name, name ∈ l.names ↔ name ∈ l.path
  distinct : l.path.Nodup
  bounded : l.path.length ≤ l.maxDepth

def entered (l : Ledger) (bean : String) : Ledger :=
  { l with names := bean :: l.names, path := bean :: l.path }

theorem begin_of_full (full : l.path.length = l.maxDepth) (bean : String) :
    l.begin bean = .error (.tooDeep l.maxDepth) := by
  unfold begin depth
  rw [if_pos (by omega)]

theorem finish_entered (fresh : bean ∉ l.path) (fresh' : bean ∉ l.names) :
    (l.entered bean).finish bean = l := by
  have names : l.names.filter (· != bean) = l.names := by
    refine List.filter_eq_self.mpr fun name present => ?_
    rw [bne_iff_ne]
    rintro rfl
    exact fresh' present
  simp [entered, finish, names]

namespace Sound

theorem new (maxDepth : Nat) : (Ledger.new maxDepth).Sound where
  mem_names _ := Iff.rfl
  distinct := List.nodup_nil
  bounded := Nat.zero_le _

theorem push (sound : l.Sound) (point : InjectionPoint) : (l.push point).Sound :=
  ⟨sound.mem_names, sound.distinct, sound.bounded⟩

theorem entered (sound : l.Sound) (room : l.path.length < l.maxDepth) (fresh : bean ∉ l.path) :
    (l.entered bean).Sound where
  mem_names name := by
    change name ∈ bean :: l.names ↔ name ∈ bean :: l.path
    rw [List.mem_cons, List.mem_cons, sound.mem_names]
  distinct := List.nodup_cons.mpr ⟨fresh, sound.distinct⟩
  bounded := room

theorem isInCreation_iff (sound : l.Sound) : l.isInCreation bean = true ↔ bean ∈ l.path := by
  unfold isInCreation
  rw [List.contains_iff_mem, sound.mem_names]

theorem begin_of_room (sound : l.Sound) (room : l.path.length < l.maxDepth)
    (fresh : bean ∉ l.path) :
    l.begin bean = .ok (l.entered bean) := by
  have absent : bean ∉ l.names := fun present => fresh ((sound.mem_names bean).mp present)
  unfold begin depth
  rw [if_neg (by omega), if_neg (fun found => fresh (sound.isInCreation_iff.mp found)),
    List.insert_of_not_mem absent]
  rfl

theorem cyclePath_eq (sound : l.Sound) {outer inner : List String}
    (path : l.path.reverse = outer ++ bean :: inner) :
    l.cyclePath bean = bean :: inner ++ [bean] := by
  have distinct : (outer ++ bean :: inner).Nodup := path ▸ List.nodup_reverse.mpr sound.distinct
  have apart : ∀ name ∈ outer, (name != bean) = true := by
    intro name present
    rw [bne_iff_ne]
    exact (List.nodup_append.mp distinct).2.2 name present bean List.mem_cons_self
  unfold cyclePath
  rw [path, List.dropWhile_append_of_pos apart]
  simp

theorem cycleText_eq (sound : l.Sound) {outer inner : List String}
    (path : l.path.reverse = outer ++ bean :: inner) :
    l.context.cycleText bean = String.intercalate " -> " (bean :: inner ++ [bean]) := by
  have distinct : (outer ++ bean :: inner).Nodup := path ▸ List.nodup_reverse.mpr sound.distinct
  have turned : l.path = inner.reverse ++ bean :: outer.reverse := by
    rw [← List.reverse_reverse l.path, path]
    simp
  have apart : ∀ name ∈ inner.reverse, (name != bean) = true := by
    intro name present
    rw [bne_iff_ne]
    rintro rfl
    exact (List.nodup_cons.mp (List.nodup_append.mp distinct).2.1).1 (List.mem_reverse.mp present)
  unfold Context.cycleText
  rw [show l.context.path = inner.reverse ++ bean :: outer.reverse from turned,
    List.takeWhile_append_of_pos apart]
  simp

theorem begin_of_present (sound : l.Sound) (room : l.path.length < l.maxDepth)
    {outer inner : List String} (path : l.path.reverse = outer ++ bean :: inner) :
    l.begin bean =
      .error (.circular bean (String.intercalate " -> " (bean :: inner ++ [bean]))) := by
  have present : bean ∈ l.path := by
    rw [← List.mem_reverse, path]
    exact List.mem_append_right _ List.mem_cons_self
  unfold begin depth
  rw [if_neg (by omega), if_pos (sound.isInCreation_iff.mpr present), sound.cyclePath_eq path]

theorem begin_ok (sound : l.Sound) (begins : l.begin bean = .ok inside) :
    inside = l.entered bean ∧ inside.Sound ∧ (inside.finish bean) = l := by
  by_cases room : l.path.length < l.maxDepth
  · by_cases fresh : bean ∈ l.path
    · obtain ⟨outer, inner, path⟩ := List.append_of_mem (List.mem_reverse.mpr fresh)
      rw [sound.begin_of_present room path] at begins
      cases begins
    · rw [sound.begin_of_room room fresh] at begins
      cases begins
      have absent : bean ∉ l.names := fun present => fresh ((sound.mem_names bean).mp present)
      exact ⟨rfl, sound.entered room fresh, finish_entered fresh absent⟩
  · rw [begin_of_full (by have := sound.bounded; omega)] at begins
    cases begins

theorem context_begin (sound : l.Sound) (bean : String) :
    (l.begin bean).map context = l.context.begin bean := by
  have listed : l.context.isInCreation bean = l.isInCreation bean := by
    rw [Bool.eq_iff_iff, sound.isInCreation_iff]
    exact List.contains_iff_mem
  unfold Context.begin
  rw [listed]
  by_cases room : l.path.length < l.maxDepth
  · rw [if_neg (show ¬l.context.maxDepth ≤ l.context.path.length from Nat.not_le_of_lt room)]
    by_cases fresh : bean ∈ l.path
    · obtain ⟨outer, inner, path⟩ := List.append_of_mem (List.mem_reverse.mpr fresh)
      rw [sound.begin_of_present room path, if_pos (sound.isInCreation_iff.mpr fresh)]
      change Except.error _ = Except.error (BeanError.circular bean (l.context.cycleText bean))
      rw [sound.cycleText_eq path]
    · rw [sound.begin_of_room room fresh,
        if_neg (fun found => fresh (sound.isInCreation_iff.mp found))]
      rfl
  · have full : l.path.length = l.maxDepth := by
      have := sound.bounded
      omega
    have reached : l.context.maxDepth ≤ l.context.path.length := Nat.le_of_eq full.symm
    rw [begin_of_full full, if_pos reached]
    rfl

end Sound

end Ledger

namespace Context

open Ledger (Sound)

mutual

theorem Step.ledger_run {l : Ledger} (sound : l.Sound) : (step : Step) → (step.run l).ledger = l
  | .create bean body caught => by
    unfold Step.run
    split
    · rfl
    · rename_i inside begins
      obtain ⟨-, sound', finished⟩ := sound.begin_ok begins
      exact (congrArg (·.finish bean) (ledger_runSteps sound' body)).trans finished
  | .inject point body => by
    unfold Step.run
    exact congrArg Ledger.pop (ledger_runSteps (sound.push point) body)
  | .attempt body next => by
    have inside := ledger_runSteps sound body
    unfold Step.run
    exact (ledger_runSteps (inside.symm ▸ sound) (next _)).trans inside
  | .consult next => by
    unfold Step.run
    exact ledger_runSteps sound (next l)
  | .fail text => rfl
  | .query bean => rfl

theorem ledger_runSteps {l : Ledger} (sound : l.Sound) :
    (script : List Step) → (runSteps script l).ledger = l
  | [] => rfl
  | step :: rest => by
    have first := Step.ledger_run sound step
    unfold runSteps
    dsimp only
    split
    · exact first
    · exact (ledger_runSteps (first.symm ▸ sound) rest).trans first

end

/-- While a script runs from one ledger, `remaining` is still to be run in another. -/
inductive Reaches : (script : List Step) → Ledger → (remaining : List Step) → Ledger → Prop
  | here {script : List Step} {l : Ledger} : Reaches script l script l
  | after {step : Step} {rest remaining : List Step} {l m : Ledger} : (step.run l).failure = none →
      Reaches rest (step.run l).ledger remaining m → Reaches (step :: rest) l remaining m
  | create {bean : String} {body rest remaining : List Step} {caught : Bool} {l inside m : Ledger} :
      l.begin bean = .ok inside → Reaches body inside remaining m →
      Reaches (.create bean body caught :: rest) l remaining m
  | inject {point : InjectionPoint} {body rest remaining : List Step} {l m : Ledger} :
      Reaches body (l.push point) remaining m → Reaches (.inject point body :: rest) l remaining m
  | attempt {body rest remaining : List Step} {next : Option BeanError → List Step} {l m : Ledger} :
      Reaches body l remaining m → Reaches (.attempt body next :: rest) l remaining m
  | attempted {body rest remaining : List Step} {next : Option BeanError → List Step} {l m : Ledger} :
      Reaches (next (runSteps body l).failure) (runSteps body l).ledger remaining m →
      Reaches (.attempt body next :: rest) l remaining m
  | consult {next : Ledger → List Step} {rest remaining : List Step} {l m : Ledger} :
      Reaches (next l) l remaining m → Reaches (.consult next :: rest) l remaining m

theorem Reaches.sound {script remaining : List Step} {l m : Ledger}
    (reaches : Reaches script l remaining m) (sound : l.Sound) :
    m.Sound ∧ m.maxDepth = l.maxDepth := by
  induction reaches with
  | here => exact ⟨sound, rfl⟩
  | @after step _ _ l _ _ _ ih =>
    have same := Step.ledger_run sound step
    rw [same] at ih
    exact ih sound
  | create begins _ ih =>
    obtain ⟨rfl, sound', -⟩ := sound.begin_ok begins
    exact ih sound'
  | inject _ ih => exact ih (sound.push _)
  | attempt _ ih => exact ih sound
  | @attempted body _ _ _ l _ _ ih =>
    have same := ledger_runSteps sound body
    rw [same] at ih
    exact ih sound
  | consult _ ih => exact ih sound

def Run.refused (l : Ledger) (bean : String) (caught : Bool) (e : BeanError) : Run :=
  ⟨l, [.left bean (l.standing bean) (some e)], if caught then none else some e⟩

/-- What holds at a moment of a script: the two ways of keeping the names agree, and whatever is run
there leaves the ledger as it was. The body of a creation is run unless there is no room or, where
there is, the bean is on the path. -/
structure Balanced (maxDepth : Nat) (l : Ledger) : Prop extends l.Sound where
  limit : l.maxDepth = maxDepth
  restored : ∀ step : Step, (step.run l).ledger = l
  tooDeep : ∀ bean body caught, l.path.length = maxDepth →
    (Step.create bean body caught).run l = .refused l bean caught (.tooDeep maxDepth)
  circular : ∀ bean body caught outer inner, l.path.length < maxDepth →
    l.path.reverse = outer ++ bean :: inner → (Step.create bean body caught).run l =
      .refused l bean caught (.circular bean (String.intercalate " -> " (bean :: inner ++ [bean])))
  created : ∀ bean body caught, l.path.length < maxDepth → bean ∉ l.path →
    (Step.create bean body caught).run l =
      let run := runSteps body (l.entered bean)
      { ledger := l
        seen := .entered bean ((l.entered bean).standing bean) ::
          (run.seen ++ [.left bean (l.standing bean) run.failure])
        failure := if caught then none else run.failure }
  injected : ∀ point body,
    (Step.inject point body).run l = { runSteps body (l.push point) with ledger := l }

/-- At every moment of a script on a new ledger, inside any creations and injection points and after
any failures, the ledger is balanced. -/
theorem Reaches.balanced {maxDepth : Nat} {script remaining : List Step} {l : Ledger}
    (reaches : Reaches script (.new maxDepth) remaining l) : Balanced maxDepth l := by
  obtain ⟨sound, limit⟩ := reaches.sound (.new maxDepth)
  have limit : l.maxDepth = maxDepth := limit
  subst limit
  refine ⟨sound, rfl, Step.ledger_run sound, fun bean body caught full => ?_,
    fun bean body caught outer inner room path => ?_, fun bean body caught room fresh => ?_,
    fun point body => ?_⟩
  · unfold Step.run
    rw [Ledger.begin_of_full full]
    rfl
  · unfold Step.run
    rw [sound.begin_of_present room path]
    rfl
  · have begins := sound.begin_of_room room fresh
    have finished : ((runSteps body (l.entered bean)).ledger.finish bean) = l := by
      obtain ⟨-, sound', finished⟩ := sound.begin_ok begins
      rw [ledger_runSteps sound' body, finished]
    unfold Step.run
    simp only [begins, finished]
  · have restored := Step.ledger_run sound (.inject point body)
    unfold Step.run at restored ⊢
    exact congrArg (fun ledger => { runSteps body (l.push point) with ledger := ledger }) restored

/-! A script with three creations inside one another at most: the second bean needs the first one,
which is refused, and what follows goes on as if nothing had happened. -/
namespace Loop

def point : InjectionPoint := ⟨"widget", "Widget(Gear)", 0, .plainClass "Gear", none⟩

def script : List Step :=
  [.create "widget"
    [.create "gear" [.inject point [.create "widget" [.query "gear"] false]] true,
      .inject point [.query "gear"]] false]

theorem balanced_of_loop :
    Reaches script (.new 3) [.query "gear"] ⟨[point], ["widget"], ["widget"], 3⟩ ∧
    Balanced 3 ⟨[point], ["widget"], ["widget"], 3⟩ := by
  have begins : (Ledger.new 3).begin "widget" = .ok ⟨[], ["widget"], ["widget"], 3⟩ := rfl
  have reaches : Reaches script (.new 3) [.query "gear"] ⟨[point], ["widget"], ["widget"], 3⟩ :=
    .create begins (.after rfl (.inject .here))
  exact ⟨reaches, reaches.balanced⟩

end Loop

end Context

end BeanWiring

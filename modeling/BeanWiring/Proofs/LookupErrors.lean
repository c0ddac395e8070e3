import BeanWiring.Proofs.Ways

/-!
What becomes of the error of a lookup. A search with one candidate says for which parameter of the bean
the lookup failed. A replay does not: the error that comes out of the creation is that of the lookup
itself.
-/
namespace BeanWiring

namespace Work

variable {s : Setting} {e : Executable} {values : ArgumentValues ResolvedValue} {c k k' : Container}

theorem run_bindFrom_append {index : Nat} {before : List Parameter} {p q : Progress}
    (bound : (bindFrom s e values index before p).run.run c = (.ok q, k)) (rest : List Parameter) :
    (bindFrom s e values index (before ++ rest) p).run.run c =
      (bindFrom s e values (index + before.length) rest q).run.run k := by
  induction before generalizing index p c with
  | nil =>
    obtain ⟨rfl, rfl⟩ := Attempt.run_pure_eq_ok.mp bound
    rfl
  | cons parameter before ih =>
    obtain ⟨p', m, first, later⟩ := Attempt.run_bind_eq_ok.mp bound
    have next := ih later
    rw [Nat.add_right_comm] at next
    exact (Attempt.run_bind_of_ok first).trans next

theorem run_bindParameter_of_error {index : Nat} {parameter : Parameter} {p : Progress}
    {err : BeanError} (autowiring : s.autowiring = true)
    (left : values.forParameter? s.autowiring e.arity index parameter p.used = none)
    (fails : (autowire s.fetch s.context s.bean (e.injectionPoint s.bean index parameter)
      s.fallback).run.run c = (.error err, k)) :
    (bindParameter s e values index parameter p).run.run c =
      (.error (.causedBy s.bean (e.injectionPoint s.bean index parameter) err), k) := by
  have told : ((liftM (autowire s.fetch s.context s.bean (e.injectionPoint s.bean index parameter)
      s.fallback).run : ExceptT Unsatisfied Work _)).run.run c = (.ok (.error err), k) := by
    rw [Attempt.run_lift, fails]
  unfold bindParameter
  rw [left]
  dsimp only
  rw [if_pos autowiring]
  exact Attempt.run_bind_of_ok told

theorem run_bindDeclared_of_error {before after : List Parameter} {parameter : Parameter}
    {q : Progress} {failure : Unsatisfied} (parameters : e.parameters = before ++ parameter :: after)
    (bound : (bindFrom s e values 0 before ⟨[], [], []⟩).run.run c = (.ok q, k))
    (fails : (bindParameter s e values before.length parameter q).run.run k = (.error failure, k')) :
    (bindDeclared s e values).run.run c = (.error failure, k') := by
  unfold bindDeclared
  refine Attempt.run_bind_of_error ?_
  rw [parameters, run_bindFrom_append bound, Nat.zero_add]
  exact Attempt.run_bind_of_error fails

end Work

namespace Attempt

variable {host : Host} {create : Creator} {ctx : Context} {bean : String} {e : Executable}
  {c k k' : Container} {err : BeanError}

theorem replayFrom_of_autowire {index : Nat} {parameter : Parameter}
    (fails : (Work.autowire (fetcher create) ctx bean (e.injectionPoint bean index parameter)
      true).run.run c = (.error err, k)) (parameters : List Parameter) (recipes : List Recipe) :
    (replayFrom host create ctx bean e index (parameter :: parameters)
      (.autowired :: recipes)).run.run c = (.error err, k) :=
  run_bind_of_error (run_bind_of_error fails)

end Attempt

namespace Creation

variable {n : Creation} {c m k k' : Container} {e : Executable} {parameter : Parameter} {index : Nat}

/-- The creation comes to look for a parameter of the executable in the container, in the state at the
end: in a search with one candidate, all parameters before being bound, or in a replay, all recipes
before being followed. -/
inductive LooksFor (n : Creation) (c : Container) (e : Executable) (index : Nat)
    (parameter : Parameter) : (replays : Bool) → Container → Prop
  | searching {kind : SearchKind} {decide : Attempt Call} {begun m k : Container}
      {values : ArgumentValues ResolvedValue} {minCount : Nat} {before after : List Parameter}
      {p : Progress} :
      n.ComesToSearch c kind true [e] decide begun →
      n.source.run.run begun = (.ok (.declared values, minCount), m) → minCount ≤ e.arity →
      e.parameters = before ++ parameter :: after → before.length = index →
      (Work.bindFrom (n.setting true true) e values 0 before ⟨[], [], []⟩).run.run m = (.ok p, k) →
      values.forParameter? true e.arity index parameter p.used = none →
      n.LooksFor c e index parameter false k
  | replaying {target : Option Value} {m k : Container} {before after : List Parameter}
      {earlier later : List Recipe} {arguments : List Value} :
      n.FollowsKept c ⟨e, .prepared (earlier ++ .autowired :: later)⟩ target m →
      e.parameters = before ++ parameter :: after → before.length = index →
      earlier.length = index →
      (Attempt.replayFrom n.host n.create n.context n.bean e 0 before earlier).run.run
        ((Work.emit (.replayingArguments n.bean e)).run m).2 = (.ok arguments, k) →
      n.LooksFor c e index parameter true k

theorem Closest.of_lone_failure {kind : SearchKind} {decide : Attempt Call} {source : ArgumentSource}
    {minCount : Nat} {failure : Unsatisfied} (closest : n.Closest kind true [e] decide)
    (sourced : n.source.run.run c = (.ok (source, minCount), m))
    (suits : source.suits minCount e = true)
    (fails : (Work.bind (n.setting true true) e source).run.run m = (.error failure, k)) :
    ∃ k', decide.run.run c = (.error (.unsatisfied failure), k') := by
  obtain ⟨k', searched⟩ := search_of_lone suits (run_bindCandidate_of_error fails)
  obtain ⟨noMatch, exhausts⟩ := closest.exhausted sourced searched rfl
  exact ⟨_, exhausts⟩

theorem LooksFor.error_told {replays : Bool} (looks : n.LooksFor c e index parameter replays k)
    {err : BeanError}
    (fails : (Work.autowire (Attempt.fetcher n.create) n.context n.bean
      (e.injectionPoint n.bean index parameter) true).run.run k = (.error err, k')) :
    let told := BeanError.unsatisfied (.causedBy n.bean (e.injectionPoint n.bean index parameter) err)
    err ≠ told ∧ ∃ c', n.perform.run.run c = (.error (if replays then err else told), c') := by
  refine ⟨fun same => ?_, ?_⟩
  · have size := congrArg sizeOf same
    rw [BeanError.unsatisfied.sizeOf_spec, Unsatisfied.causedBy.sizeOf_spec] at size
    omega
  · cases looks with
    | searching comes sourced suits parameters length bound left =>
      rename_i values minCount _ _ _
      subst length
      have declared := Work.run_bindDeclared_of_error parameters bound
        (Work.run_bindParameter_of_error rfl left fails)
      have eligible : (ArgumentSource.declared values).suits minCount e = true :=
        Bool.and_eq_true_iff.mpr ⟨decide_eq_true suits, rfl⟩
      obtain ⟨c', failed⟩ := comes.closest.of_lone_failure sourced eligible declared
      exact ⟨c', Attempt.run_bind_of_error (comes.run_call.trans failed)⟩
    | replaying follows parameters length length' followed =>
      subst length
      refine ⟨k', Attempt.run_bind_of_error (follows.run_call.trans ?_)⟩
      refine Attempt.run_bind_of_error ?_
      change (Attempt.replay n.host n.create n.context n.bean e _).run.run _ = _
      unfold Attempt.replay
      rw [parameters, Attempt.replayFrom_append length', Nat.zero_add]
      refine (Attempt.run_bind_of_ok followed).trans ?_
      exact Attempt.run_bind_of_error (Attempt.replayFrom_of_autowire fails _ _)

end Creation

/-! A quill that needs ink. It was made once, before there was water in the place of the ink. -/
namespace Quill

def feather : Executable where
  declaring := .plainClass "Quill"
  kind := .constructor
  isPublic := true
  parameters := [⟨.plainClass "Ink", none⟩]
  effect := .makes (.plainClass "Quill")
  label := none

def definition : Definition :=
  { Definition.initial .initial with
    serial := 1
    beanClass := some ⟨.plainClass "Quill", [feather], []⟩
    autowire := true
    scope := .prototype }

def quill : Request := .define "quill" definition

def ink (name : String) : Request := .registerSingleton "ink" (.object (.plainClass name) (.named name))

def unstocked : Container := ((Request.performAll [quill]).run (.new .initial)).2

def watered : Container :=
  ((Request.performAll [quill, ink "Ink", .bean "quill" none, ink "Water"]).run (.new .initial)).2

def creation : Creation :=
  ⟨.full, createWithin .full 99, ⟨[], ["quill"], 100⟩, "quill", definition, none⟩

def point : InjectionPoint := feather.injectionPoint "quill" 0 ⟨.plainClass "Ink", none⟩

def text : String :=
  "expected at least 1 bean which qualifies as autowire candidate for parameter 0 of Quill(Ink)"

def missing : BeanError := .noSuchBean "Ink" text

def lookup : Attempt Autowired :=
  Work.autowire (Attempt.fetcher creation.create) creation.context "quill" point true

theorem searching :
    creation.LooksFor unstocked feather 0 ⟨.plainClass "Ink", none⟩ false unstocked := by
  have comes : creation.ComesToSearch unstocked .constructor true [feather] _ unstocked :=
    .constructor rfl rfl (fun _ => rfl) (show _ = Except.ok (some [feather]) from rfl) rfl rfl
  have sourced : creation.source.run.run unstocked = (.ok (.declared ⟨[], []⟩, 0), unstocked) := rfl
  exact .searching comes sourced (Nat.zero_le _)
    (show feather.parameters = [] ++ ⟨.plainClass "Ink", none⟩ :: [] from rfl) rfl rfl rfl

theorem replaying :
    creation.LooksFor watered feather 0 ⟨.plainClass "Ink", none⟩ true
      ((Work.emit (.replayingArguments "quill" feather)).run watered).2 := by
  have kept : watered.resolution? creation.definition =
      some ⟨feather, .prepared ([] ++ .autowired :: [])⟩ := by
    rfl
  exact .replaying (.constructor rfl rfl rfl kept)
    (show feather.parameters = [] ++ ⟨.plainClass "Ink", none⟩ :: [] from rfl) rfl rfl rfl

def lacking : Except BeanError Autowired → Option (String × String)
  | .error (.noSuchBean type text) => some (type, text)
  | _ => none

theorem run_lookup_of_lacking {c : Container}
    (lacks : lacking (lookup.run.run c).1 = some ("Ink", text)) :
    ∃ k, lookup.run.run c = (.error missing, k) := by
  obtain ⟨r, k, run⟩ : ∃ r k, lookup.run.run c = (r, k) := ⟨_, _, rfl⟩
  rw [run] at lacks ⊢
  cases r with
  | ok => cases lacks
  | error e =>
    cases e with
    | noSuchBean =>
      cases lacks
      exact ⟨k, rfl⟩
    | _ => cases lacks

/-- Made for the first time without ink, the quill is told as what lacks it; made again, it is not. -/
theorem error_told_of_quill :
    ∃ c c', creation.perform.run.run unstocked =
        (.error (.unsatisfied (.causedBy "quill" point missing)), c) ∧
      creation.perform.run.run watered = (.error missing, c') ∧
      missing ≠ .unsatisfied (.causedBy "quill" point missing) := by
  obtain ⟨k, fails⟩ := run_lookup_of_lacking (c := unstocked) (by decide +kernel)
  obtain ⟨k', fails'⟩ := run_lookup_of_lacking
    (c := ((Work.emit (.replayingArguments "quill" feather)).run watered).2) (by decide +kernel)
  obtain ⟨-, c, searched⟩ := Creation.LooksFor.error_told searching fails
  obtain ⟨apart, c', replayed⟩ := Creation.LooksFor.error_told replaying fails'
  exact ⟨c, c', searched, replayed, apart⟩

end Quill

end BeanWiring

import BeanWiring.Proofs.Work

/-!
Families of work that nothing in a container makes a difference to: all members give the same in
every container, and do nothing to it but add the same to its journal.
-/
namespace BeanWiring

variable {α β ε ι : Type}

def Event.isLookup : Event → Bool
  | .cachedSingleton _ | .resolvingReference .. | .autowiring .. | .reusingArguments ..
  | .replayingArguments .. => true
  | _ => false

structure Note where
  suppressed : List String
  events : List Event

def Note.nothing : Note := ⟨[], []⟩

def Note.append (note more : Note) : Note :=
  ⟨note.suppressed ++ more.suppressed, note.events ++ more.events⟩

def Note.IsPlain (note : Note) : Prop := ∀ event ∈ note.events, event.isLookup = false

theorem Note.nothing_isPlain : nothing.IsPlain := fun _ member => (List.not_mem_nil member).elim

theorem Note.IsPlain.append {note more : Note} (plain : note.IsPlain) (later : more.IsPlain) :
    (note.append more).IsPlain := by
  intro event member
  rcases List.mem_append.mp member with before | after
  · exact plain event before
  · exact later event after

namespace Container

def noting (c : Container) (note : Note) : Container :=
  { c with suppressed := c.suppressed ++ note.suppressed, events := c.events ++ note.events }

theorem noting_nothing (c : Container) : c.noting .nothing = c := by
  simp [noting, Note.nothing]

theorem noting_append (c : Container) (note more : Note) :
    c.noting (note.append more) = (c.noting note).noting more := by
  simp [noting, Note.append]

end Container

/-- In every container all of the family give the same and note the same. -/
def Work.Uniform (x : ι → Work α) (Q : α → Prop) : Prop :=
  ∃ a note, Q a ∧ note.IsPlain ∧ ∀ i c, (x i).run c = (a, c.noting note)

def Attempt.Uniform (x : ι → ExceptT ε Work α) (Q : α → Prop) : Prop :=
  Work.Uniform (fun i => (x i).run) fun r => ∀ a, r = .ok a → Q a

namespace Work.Uniform

variable {P Q : α → Prop} {R : β → Prop}

theorem pure {a : α} (holds : Q a) : Uniform (fun _ : ι => (Pure.pure a : Work α)) Q :=
  ⟨a, .nothing, holds, Note.nothing_isPlain, fun _ c => congrArg (Prod.mk a) c.noting_nothing.symm⟩

theorem bind {x : ι → Work α} {f : ι → α → Work β} (first : Uniform x P)
    (rest : ∀ a, P a → Uniform (fun i => f i a) R) : Uniform (fun i => x i >>= f i) R := by
  obtain ⟨a, note, holds, plain, run⟩ := first
  obtain ⟨b, more, holds', plain', run'⟩ := rest a holds
  refine ⟨b, note.append more, holds', plain.append plain', fun i c => ?_⟩
  rw [run_bind, run, Container.noting_append]
  exact run' i _

theorem mono {x : ι → Work α} (uniform : Uniform x P) (weaker : ∀ a, P a → Q a) : Uniform x Q := by
  obtain ⟨a, note, holds, plain, run⟩ := uniform
  exact ⟨a, note, weaker a holds, plain, run⟩

theorem emit {event : Event} (plain : event.isLookup = false) :
    Uniform (fun _ : ι => Work.emit event) fun _ => True := by
  refine ⟨(), ⟨[], [event]⟩, trivial, fun other member => ?_, fun _ c => ?_⟩
  · rw [List.mem_singleton.mp member]
    exact plain
  · change ((), { c with events := c.events ++ [event] }) = _
    simp [Container.noting]

theorem suppress (error : BeanError) :
    Uniform (fun _ : ι => Work.suppress error) fun _ => True := by
  refine ⟨(), ⟨[error.message], [.suppressed error]⟩, trivial, fun other member => ?_,
    fun _ _ => rfl⟩
  rw [List.mem_singleton.mp member]
  rfl

end Work.Uniform

namespace Attempt.Uniform

variable {P Q : α → Prop} {R : β → Prop}

theorem pure {a : α} (holds : Q a) : Uniform (fun _ : ι => (Pure.pure a : ExceptT ε Work α)) Q :=
  Work.Uniform.pure fun _ same => Except.ok.inj same ▸ holds

theorem throw (e : ε) : Uniform (fun _ : ι => (throw e : ExceptT ε Work α)) Q :=
  Work.Uniform.pure fun _ same => nomatch same

theorem except {r : Except ε α} (holds : ∀ a, r = .ok a → Q a) :
    Uniform (fun _ : ι => (liftExcept r : ExceptT ε Work α)) Q := by
  cases r with
  | error e => exact throw e
  | ok a => exact pure (holds a rfl)

theorem bind {x : ι → ExceptT ε Work α} {f : ι → α → ExceptT ε Work β} (first : Uniform x P)
    (rest : ∀ a, P a → Uniform (fun i => f i a) R) : Uniform (fun i => x i >>= f i) R := by
  obtain ⟨r, note, holds, plain, run⟩ := first
  cases r with
  | error e =>
    exact ⟨.error e, note, nofun, plain, fun i c => run_bind_of_error (run i c)⟩
  | ok a =>
    obtain ⟨r', more, holds', plain', run'⟩ := rest a (holds a rfl)
    refine ⟨r', note.append more, holds', plain.append plain', fun i c => ?_⟩
    change (x i >>= f i).run.run c = _
    rw [run_bind_of_ok (run i c), Container.noting_append]
    exact run' i _

theorem lift {x : ι → Work α} (uniform : Work.Uniform x Q) :
    Uniform (fun i => (liftM (x i) : ExceptT ε Work α)) Q := by
  obtain ⟨a, note, holds, plain, run⟩ := uniform
  refine ⟨.ok a, note, fun _ same => Except.ok.inj same ▸ holds, plain, fun i c => ?_⟩
  change (liftM (x i) : ExceptT ε Work α).run.run c = _
  rw [run_lift, run]

theorem congr {x y : ι → ExceptT ε Work α} (uniform : Uniform y Q)
    (same : ∀ i c, (x i).run.run c = (y i).run.run c) : Uniform x Q := by
  obtain ⟨r, note, holds, plain, run⟩ := uniform
  exact ⟨r, note, holds, plain, fun i c => (same i c).trans (run i c)⟩

end Attempt.Uniform

end BeanWiring

import BeanWiring.Proofs.Words
import Mathlib.Logic.Function.Basic

/-!
Settings written out as variables and read again. An environment gives settings exactly if each variable
spells its setting, or is unset and the setting is as at first, and at least one bean can be created.
Truth values in variables are spelled as the texts that are converted to truth values, although each of
the two is read with a table of its own.
-/
namespace BeanWiring.Settings

open Text Decimal

inductive Switch
  | lenient | nonPublic
  deriving DecidableEq

namespace Switch

def key : Switch → String
  | .lenient => lenientVariable
  | .nonPublic => nonPublicVariable

def isOn (s : Settings) : Switch → Bool
  | .lenient => s.lenient
  | .nonPublic => s.nonPublicAllowed

def turn (s : Settings) (on : Bool) : Switch → Settings
  | .lenient => { s with lenient := on }
  | .nonPublic => { s with nonPublicAllowed := on }

end Switch

/-- How a depth may be spelled: in digits, with a plus sign or none, and with white space around or none. -/
def SpellsDepth (text : String) (depth : UInt64) : Prop :=
  Around (fun inner => Unsigned inner.toList depth.toNat) text

def Says {α : Type} (Spells : String → α → Prop) (unset : α) : Option String → α → Prop
  | none, value => value = unset
  | some text, value => Spells text value

structure WrittenIn (env : Environment) (s : Settings) : Prop where
  switches (switch : Switch) :
    Says SpellsTruth (switch.isOn initial) (env switch.key) (switch.isOn s)
  maxDepth : Says SpellsDepth initial.maxDepth (env depthVariable) s.maxDepth

inductive Needless (env : Environment) : String → Prop
  | switch {switch : Switch} {text : String} (set : env switch.key = some text)
      (spells : SpellsTruth text (switch.isOn initial)) : Needless env switch.key
  | maxDepth {text : String} (set : env depthVariable = some text)
      (spells : SpellsDepth text initial.maxDepth) : Needless env depthVariable

variable {env other : Environment} {s s' : Settings} {name text : String} {b unset : Bool}
  {depth start : UInt64} {switch : Switch}

theorem Switch.key_ne {one another : Switch} (differ : one ≠ another) : one.key ≠ another.key := by
  cases one <;> cases another <;> first | exact absurd rfl differ | decide

theorem Switch.key_ne_depthVariable (switch : Switch) : switch.key ≠ depthVariable := by
  cases switch <;> decide

@[simp] theorem Switch.isOn_turn (switch : Switch) : switch.isOn (switch.turn s b) = b := by
  cases switch <;> rfl

theorem Switch.isOn_turn_of_ne {one another : Switch} (differ : one ≠ another) :
    one.isOn (another.turn s b) = one.isOn s := by
  cases one <;> cases another <;> first | rfl | exact absurd rfl differ

@[simp] theorem Switch.maxDepth_turn (switch : Switch) : (switch.turn s b).maxDepth = s.maxDepth := by
  cases switch <;> rfl

theorem truthWord?_eq_some_iff : truthWord? text = some b ↔ text ∈ truthWords b := by
  unfold truthWord?
  split <;> cases b <;> simp_all [truthWords]

theorem truthVariable_congr (same : other name = env name) :
    truthVariable other name unset = truthVariable env name unset := by
  unfold truthVariable
  rw [same]

theorem numberVariable_congr (same : other name = env name) :
    numberVariable other name start = numberVariable env name start := by
  unfold numberVariable
  rw [same]

theorem truthVariable_eq_ok_iff :
    truthVariable env name unset = .ok b ↔ Says SpellsTruth unset (env name) b := by
  unfold truthVariable
  cases env name with
  | none => simp [Says, eq_comm]
  | some text =>
    simp only [Says, ← lowercase_trim_mem_truthWords_iff, ← truthWord?_eq_some_iff]
    cases truthWord? (lowercase (trim text)) <;> simp

theorem isBlank_of_unsigned {cs : List Char} {n : Nat} (reads : Unsigned cs n) :
    ∀ c ∈ cs, isBlank c = false := by
  obtain bare | ⟨digits, rfl, bare⟩ := reads
  · exact fun c member => isBlank_of_isDigit (bare.isDigit c member)
  · refine List.forall_mem_cons.mpr ⟨by decide, ?_⟩
    exact fun c member => isBlank_of_isDigit (bare.isDigit c member)

theorem spellsDepth_iff : SpellsDepth text depth ↔ Unsigned (trim text).toList depth.toNat :=
  (trim_iff_around fun _ => isBlank_of_unsigned).symm

theorem readNatural_greatestDepth_iff {cs : List Char} :
    (∃ n, readNatural greatestDepth cs = .ok n ∧ depth = UInt64.ofNat n) ↔
      Unsigned cs depth.toNat := by
  simp only [readNatural_eq_ok_iff]
  constructor
  · rintro ⟨n, ⟨reads, fits⟩, rfl⟩
    rwa [UInt64.toNat_ofNat_of_lt' (Nat.lt_succ_of_le fits)]
  · intro reads
    exact ⟨depth.toNat, ⟨reads, Nat.le_of_lt_succ depth.toNat_lt⟩, UInt64.ofNat_toNat.symm⟩

theorem numberVariable_eq_ok_iff :
    numberVariable env name start = .ok depth ↔ Says SpellsDepth start (env name) depth := by
  unfold numberVariable
  cases env name with
  | none => simp [Says, eq_comm]
  | some text =>
    simp only [Says, spellsDepth_iff, ← readNatural_greatestDepth_iff]
    cases readNatural greatestDepth (trim text).toList <;> simp [eq_comm]

theorem validate_eq_ok_iff : s.validate = .ok s' ↔ s.maxDepth ≠ 0 ∧ s = s' := by
  unfold validate
  split
  · rename_i zero
    simp [zero]
  · rename_i positive
    simp [positive]

theorem writtenIn_iff : WrittenIn env s ↔
    truthVariable env lenientVariable initial.lenient = .ok s.lenient ∧
    truthVariable env nonPublicVariable initial.nonPublicAllowed = .ok s.nonPublicAllowed ∧
    numberVariable env depthVariable initial.maxDepth = .ok s.maxDepth := by
  rw [truthVariable_eq_ok_iff, truthVariable_eq_ok_iff, numberVariable_eq_ok_iff]
  constructor
  · intro written
    exact ⟨written.switches .lenient, written.switches .nonPublic, written.maxDepth⟩
  · rintro ⟨lenient, nonPublic, maxDepth⟩
    refine ⟨fun switch => ?_, maxDepth⟩
    cases switch with
    | lenient => exact lenient
    | nonPublic => exact nonPublic

theorem ofEnvironment_eq_ok_iff : ofEnvironment env = .ok s ↔ WrittenIn env s ∧ s.maxDepth ≠ 0 := by
  rw [writtenIn_iff]
  unfold ofEnvironment
  cases truthVariable env lenientVariable initial.lenient with
  | error e => simp
  | ok lenient =>
    cases truthVariable env nonPublicVariable initial.nonPublicAllowed with
    | error e => simp
    | ok nonPublic =>
      cases numberVariable env depthVariable initial.maxDepth with
      | error e => simp
      | ok maxDepth =>
        rw [validate_eq_ok_iff]
        constructor
        · rintro ⟨positive, rfl⟩
          exact ⟨⟨rfl, rfl, rfl⟩, positive⟩
        · rintro ⟨⟨first, second, third⟩, positive⟩
          cases first
          cases second
          cases third
          exact ⟨positive, rfl⟩

theorem ofEnvironment_congr
    (switches : ∀ switch : Switch, truthVariable other switch.key (switch.isOn initial) =
      truthVariable env switch.key (switch.isOn initial))
    (maxDepth : numberVariable other depthVariable initial.maxDepth =
      numberVariable env depthVariable initial.maxDepth) :
    ofEnvironment other = ofEnvironment env := by
  have lenient : truthVariable other lenientVariable initial.lenient = _ := switches .lenient
  have nonPublic : truthVariable other nonPublicVariable initial.nonPublicAllowed = _ :=
    switches .nonPublic
  unfold ofEnvironment
  rw [lenient, nonPublic, maxDepth]
  rfl

theorem ofEnvironment_unset (needless : Needless env name) :
    ofEnvironment (Function.update env name none) = ofEnvironment env := by
  -- Errors are to stay the same as well, so what is compared are the readings and not the settings.
  cases needless with
  | @switch switch text set spells =>
    refine ofEnvironment_congr (fun another => ?_)
      (numberVariable_congr (Function.update_of_ne switch.key_ne_depthVariable.symm none env))
    by_cases same : another = switch
    · subst same
      have read : truthVariable env another.key (another.isOn initial) = .ok (another.isOn initial) := by
        rw [truthVariable_eq_ok_iff, set]
        exact spells
      rw [read, truthVariable_eq_ok_iff, Function.update_self]
      rfl
    · exact truthVariable_congr (Function.update_of_ne (another.key_ne same) none env)
  | @maxDepth text set spells =>
    have read : numberVariable env depthVariable initial.maxDepth = .ok initial.maxDepth := by
      rw [numberVariable_eq_ok_iff, set]
      exact spells
    refine ofEnvironment_congr (fun switch => truthVariable_congr
      (Function.update_of_ne switch.key_ne_depthVariable none env)) ?_
    rw [read, numberVariable_eq_ok_iff, Function.update_self]
    rfl

theorem WrittenIn.turn (written : WrittenIn env s) (spells : SpellsTruth text b) :
    WrittenIn (Function.update env switch.key (some text)) (switch.turn s b) where
  switches another := by
    by_cases same : another = switch
    · subst same
      rw [Function.update_self, Switch.isOn_turn]
      exact spells
    · rw [Function.update_of_ne (another.key_ne same), Switch.isOn_turn_of_ne same]
      exact written.switches another
  maxDepth := by
    rw [Function.update_of_ne switch.key_ne_depthVariable.symm, Switch.maxDepth_turn]
    exact written.maxDepth

theorem WrittenIn.unique (written : WrittenIn env s) (again : WrittenIn env s') : s = s' := by
  obtain ⟨lenient, nonPublic, maxDepth⟩ := writtenIn_iff.mp written
  obtain ⟨lenient', nonPublic', maxDepth'⟩ := writtenIn_iff.mp again
  cases s
  cases s'
  cases lenient.symm.trans lenient'
  cases nonPublic.symm.trans nonPublic'
  cases maxDepth.symm.trans maxDepth'
  rfl

theorem ofEnvironment_update_iff (given : ofEnvironment env = .ok s) :
    ofEnvironment (Function.update env switch.key (some text)) = .ok s' ↔
      ∃ b, SpellsTruth text b ∧ s' = switch.turn s b := by
  obtain ⟨written, positive⟩ := ofEnvironment_eq_ok_iff.mp given
  rw [ofEnvironment_eq_ok_iff]
  constructor
  · rintro ⟨changed, -⟩
    have spells := changed.switches switch
    rw [Function.update_self] at spells
    exact ⟨switch.isOn s', spells, changed.unique (written.turn spells)⟩
  · rintro ⟨b, spells, rfl⟩
    refine ⟨written.turn spells, ?_⟩
    rwa [Switch.maxDepth_turn]

/-- Settings that are written out are read again, in whatever spellings and with needless variables set or
unset, and what is read is valid. A text in the variable of a switch is taken exactly if it is converted to
a truth value, which the switch then has. -/
theorem ofEnvironment_reads_back :
    (∀ env s, s.maxDepth ≠ 0 → WrittenIn env s → ofEnvironment env = .ok s) ∧
    (∀ env name, Needless env name →
      ofEnvironment (Function.update env name none) = ofEnvironment env) ∧
    (∀ env s, ofEnvironment env = .ok s → s.validate = .ok s ∧ WrittenIn env s) ∧
    (∀ text w, (Value.str text).convert .boolean = .ok w ↔ ∃ b, SpellsTruth text b ∧ w = .bool b) ∧
    ∀ (switch : Switch) env s, ofEnvironment env = .ok s → ∀ text s',
      ofEnvironment (Function.update env switch.key (some text)) = .ok s' ↔
        ∃ b, (Value.str text).convert .boolean = .ok (.bool b) ∧ s' = switch.turn s b := by
  refine ⟨fun env s positive written => ?_, fun env name => ofEnvironment_unset,
    fun env s given => ?_, fun text w => Value.convert_str_boolean_iff,
    fun switch env s given text s' => ?_⟩
  · exact ofEnvironment_eq_ok_iff.mpr ⟨written, positive⟩
  · obtain ⟨written, positive⟩ := ofEnvironment_eq_ok_iff.mp given
    exact ⟨validate_eq_ok_iff.mpr ⟨positive, rfl⟩, written⟩
  · simp [ofEnvironment_update_iff given, Value.convert_str_boolean_iff]

def strictly : Environment := fun name =>
  if name = lenientVariable then some " oFF\n"
  else if name = nonPublicVariable then some "YES"
  else if name = depthVariable then some "\t+007"
  else none

theorem reads_back_of_strictly :
    (WrittenIn strictly ⟨false, true, 7⟩ ∧ ofEnvironment strictly = .ok ⟨false, true, 7⟩) ∧
    (Needless strictly nonPublicVariable ∧
      ofEnvironment (Function.update strictly nonPublicVariable none) = ofEnvironment strictly) ∧
    validate ⟨false, true, 7⟩ = .ok ⟨false, true, 7⟩ ∧
    ofEnvironment (Function.update strictly lenientVariable (some "On ")) =
      .ok ⟨true, true, 7⟩ := by
  obtain ⟨reads, unset, validates, -, switches⟩ := ofEnvironment_reads_back
  have off : SpellsTruth " oFF\n" false :=
    ⟨" ", "oFF", "\n", by decide, by decide, rfl, "off", by decide, by decide⟩
  have yes : SpellsTruth "YES" true :=
    ⟨"", "YES", "", by decide, by decide, rfl, "yes", by decide, by decide⟩
  have seven : SpellsDepth "\t+007" 7 :=
    ⟨"\t", "+007", "", by decide, by decide, rfl,
      .inr ⟨['0', '0', '7'], rfl, by decide, List.all_eq_true.mp (by decide), by decide⟩⟩
  have written : WrittenIn strictly ⟨false, true, 7⟩ := by
    refine ⟨fun switch => ?_, seven⟩
    cases switch with
    | lenient => exact off
    | nonPublic => exact yes
  have needless : Needless strictly nonPublicVariable := by
    have set : strictly Switch.nonPublic.key = some "YES" := rfl
    exact .switch set yes
  have given := reads strictly ⟨false, true, 7⟩ (by decide) written
  refine ⟨⟨written, given⟩, ⟨needless, unset _ _ needless⟩, (validates _ _ given).1, ?_⟩
  exact (switches .lenient _ _ given _ _).mpr ⟨true, rfl, rfl⟩

end BeanWiring.Settings

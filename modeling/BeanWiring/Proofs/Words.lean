import BeanWiring.Settings.Environment
import BeanWiring.Text.Truth
import BeanWiring.Proofs.Conversion.Scalars

/-!
How truth values may be spelled: as a word for true or false, each letter in either case, with white space
around it or without. Lower case goes by the full Unicode rules, but no character outside ASCII has one of
the letters of these words alone as its lower case, so that they can only be spelled with their own letters.
-/
namespace BeanWiring

namespace Text

def Around (P : String → Prop) (text : String) : Prop :=
  ∃ before inner after,
    Blank before ∧ Blank after ∧ text = before ++ inner ++ after ∧ P inner

def InEitherCase (c letter : Char) : Prop := c = letter ∨ c = letter.toUpper

instance (c letter : Char) : Decidable (InEitherCase c letter) :=
  inferInstanceAs (Decidable (_ ∨ _))

def truthWords : Bool → List String
  | true => ["true", "yes", "on", "1"]
  | false => ["false", "no", "off", "0"]

def IsTruthWord (b : Bool) (text : String) : Prop :=
  ∃ word ∈ truthWords b, List.Forall₂ InEitherCase text.toList word.toList

def SpellsTruth (text : String) (b : Bool) : Prop := Around (IsTruthWord b) text

variable {text word : String} {P : String → Prop} {b : Bool} {c letter : Char}
  {before cs letters : List Char}

theorem exists_blank_around_trimChars (cs : List Char) :
    ∃ front back, (∀ c ∈ front, isBlank c = true) ∧ (∀ c ∈ back, isBlank c = true) ∧
      cs = front ++ (trimChars cs ++ back) := by
  have cut : cs.takeWhile isBlank ++ cs.dropWhile isBlank = cs := List.takeWhile_append_dropWhile
  refine ⟨cs.takeWhile isBlank, ((cs.dropWhile isBlank).reverse.takeWhile isBlank).reverse,
    fun c member => List.mem_takeWhile_imp member,
    fun c member => List.mem_takeWhile_imp (List.mem_reverse.mp member), ?_⟩
  unfold trimChars
  rw [← List.reverse_append, List.takeWhile_append_dropWhile, List.reverse_reverse, cut]

theorem trim_iff_around (clear : ∀ inner, P inner → ∀ c ∈ inner.toList, isBlank c = false) :
    P (trim text) ↔ Around P text := by
  constructor
  · intro inside
    obtain ⟨front, back, blankFront, blankBack, split⟩ := exists_blank_around_trimChars text.toList
    refine ⟨String.ofList front, trim text, String.ofList back, ?_, ?_, ?_, inside⟩
    · simpa [Blank] using blankFront
    · simpa [Blank] using blankBack
    · refine String.toList_injective ?_
      simpa [trim] using split
  · rintro ⟨before, inner, after, blankBefore, blankAfter, rfl, inside⟩
    rw [trim_between blankBefore blankAfter (clear inner inside)]
    exact inside

/-- The lower-case letters of ASCII that no other character has as its lower case, and the digits. The one
left out is the k, which the Kelvin sign is a capital of as well. -/
def isPlain (c : Char) : Bool := (c.isLower || c.isDigit) && c != 'k'

theorem isPlain_range (plain : isPlain c = true) :
    97 ≤ c.toNat ∧ c.toNat ≤ 122 ∨ 48 ≤ c.toNat ∧ c.toNat ≤ 57 := by
  have lower : c.isLower = true ↔ 97 ≤ c.toNat ∧ c.toNat ≤ 122 := by
    change (decide (c.val ≥ 'a'.val) && decide (c.val ≤ 'z'.val)) = true ↔ _
    simp [UInt32.le_iff_toNat_le]
  simp only [isPlain, Bool.and_eq_true, Bool.or_eq_true] at plain
  exact plain.1.imp lower.mp Char.isDigit_iff_toNat.mp

theorem toNat_toLower (c : Char) :
    c.toLower.toNat = if 65 ≤ c.toNat ∧ c.toNat ≤ 90 then c.toNat + 32 else c.toNat := by
  have range : c.val ≥ 'A'.val ∧ c.val ≤ 'Z'.val ↔ 65 ≤ c.toNat ∧ c.toNat ≤ 90 := by
    simp [UInt32.le_iff_toNat_le]
  unfold Char.toLower
  by_cases upper : 65 ≤ c.toNat ∧ c.toNat ≤ 90
  · rw [if_pos upper, dif_pos (range.mpr upper), ← Char.toNat_val, UInt32.toNat_add, Char.toNat_val]
    simp only [Char.reduceVal, UInt32.reduceSub, UInt32.reduceToNat, Nat.reducePow]
    omega
  · rw [if_neg upper, dif_neg (mt range.mp upper)]

theorem toNat_toUpper (c : Char) :
    c.toUpper.toNat = if 97 ≤ c.toNat ∧ c.toNat ≤ 122 then c.toNat - 32 else c.toNat := by
  have range : 'a'.val ≤ c.val ∧ c.val ≤ 'z'.val ↔ 97 ≤ c.toNat ∧ c.toNat ≤ 122 := by
    simp [UInt32.le_iff_toNat_le]
  unfold Char.toUpper
  by_cases lower : 97 ≤ c.toNat ∧ c.toNat ≤ 122
  · rw [if_pos lower, dif_pos (range.mpr lower), ← Char.toNat_val, UInt32.toNat_add, Char.toNat_val]
    simp only [Char.reduceVal, UInt32.reduceSub, UInt32.reduceToNat, Nat.reducePow]
    omega
  · rw [if_neg lower, dif_neg (mt range.mp lower)]

theorem toLower_eq_iff (plain : isPlain letter = true) :
    c.toLower = letter ↔ InEitherCase c letter := by
  have range := isPlain_range plain
  unfold InEitherCase
  rw [← Char.toNat_inj, ← Char.toNat_inj, ← Char.toNat_inj, toNat_toLower, toNat_toUpper]
  split <;> split <;> omega

theorem isPlain_of_le (foreign : 0x80 ≤ c.toNat) : isPlain c = false := by
  by_contra plain
  have range := isPlain_range (eq_true_of_ne_false plain)
  omega

theorem InEitherCase.range (plain : isPlain letter = true) (either : InEitherCase c letter) :
    '0'.toNat ≤ c.toNat ∧ c.toNat ≤ 'z'.toNat := by
  have range := isPlain_range plain
  have lower : c.toLower.toNat = letter.toNat := congrArg _ ((toLower_eq_iff plain).mpr either)
  rw [toNat_toLower] at lower
  simp only [Char.reduceToNat]
  split at lower <;> omega

theorem isPlain_ofNat {n : Nat} (foreign : 0x80 ≤ n) : isPlain (Char.ofNat n) = false := by
  by_cases valid : n.isValidChar
  · rw [Char.ofNat, dif_pos valid]
    exact isPlain_of_le (c := Char.ofNatAux n valid) foreign
  · rw [Char.ofNat, dif_neg valid]
    decide

theorem lowercaseRuns_foreign : ∀ run ∈ lowercaseRuns,
    run.2.1 < 0x80 ∨ 0x80 ≤ run.1 + run.2.2.2 ∨
      (run.1 = run.2.1 ∧ run.1 + run.2.2.2 = 'k'.toNat) := by
  decide +kernel

theorem exists_not_isPlain_lowercaseChar (foreign : 0x80 ≤ c.toNat) :
    ∃ d ∈ lowercaseChar c, isPlain d = false := by
  unfold lowercaseChar
  rw [if_neg (Nat.not_lt.mpr foreign)]
  split
  · exact ⟨'\u0307', by decide, by decide⟩
  · split
    · rename_i first last step offset found
      refine ⟨_, List.mem_singleton_self _, ?_⟩
      obtain ⟨⟨low, high⟩, -⟩ : (first ≤ c.toNat ∧ c.toNat ≤ last) ∧ _ := by
        simpa using List.find?_some found
      obtain ascii | above | ⟨single, kelvin⟩ : last < 0x80 ∨ 0x80 ≤ first + offset ∨
          (first = last ∧ first + offset = 'k'.toNat) :=
        lowercaseRuns_foreign _ (List.mem_of_find?_eq_some found)
      · omega
      · exact isPlain_ofNat (by omega)
      · have same : c.toNat + offset = 'k'.toNat := by omega
        rw [same]
        decide
    · exact ⟨c, List.mem_singleton_self c, isPlain_of_le foreign⟩

theorem exists_not_isPlain_lowercaseAfter (foreign : 0x80 ≤ c.toNat) :
    ∃ d ∈ lowercaseAfter before (c :: cs), isPlain d = false := by
  rw [lowercaseAfter]
  split
  · refine ⟨lowercaseSigma before cs, List.mem_append_left _ (List.mem_singleton_self _), ?_⟩
    unfold lowercaseSigma
    split <;> decide
  · obtain ⟨d, member, notPlain⟩ := exists_not_isPlain_lowercaseChar foreign
    exact ⟨d, List.mem_append_left _ member, notPlain⟩

/-- A text whose lower case is plain is in ASCII, so each of its characters has a lower case of its own. -/
theorem lowercaseAfter_eq_iff (plain : ∀ letter ∈ letters, isPlain letter = true) :
    lowercaseAfter before cs = letters ↔ List.Forall₂ InEitherCase cs letters := by
  -- What stands before a character counts for a sigma only, so it is any text all along.
  induction cs generalizing before letters with
  | nil =>
    rw [List.forall₂_nil_left_iff, eq_comm]
    rfl
  | cons c rest ih =>
    by_cases ascii : c.toNat < 0x80
    · have single : lowercaseAfter before (c :: rest) =
          c.toLower :: lowercaseAfter (c :: before) rest := by
        have noSigma : c ≠ 'Σ' := by
          rintro rfl
          exact absurd ascii (by decide)
        rw [lowercaseAfter, if_neg noSigma, lowercaseChar, if_pos ascii]
        rfl
      rw [single]
      cases letters with
      | nil => simp
      | cons letter letters =>
        obtain ⟨first, others⟩ := List.forall_mem_cons.mp plain
        rw [List.cons.injEq, List.forall₂_cons, toLower_eq_iff first, ih others]
    · have foreign : 0x80 ≤ c.toNat := Nat.not_lt.mp ascii
      constructor
      · rintro rfl
        obtain ⟨d, member, notPlain⟩ := exists_not_isPlain_lowercaseAfter foreign
        rw [plain d member] at notPlain
        cases notPlain
      · intro spelled
        obtain ⟨letter, letters, either, -, rfl⟩ := List.forall₂_cons_left_iff.mp spelled
        have range := either.range (plain letter List.mem_cons_self)
        simp only [Char.reduceToNat] at range
        omega

theorem isPlain_of_mem_truthWords (member : word ∈ truthWords b) :
    ∀ letter ∈ word.toList, isPlain letter = true := by
  have all : ∀ b, ∀ word ∈ truthWords b, (word.toList.all isPlain) = true := by decide
  exact List.all_eq_true.mp (all b word member)

theorem truthWord?_eq_some_iff : truthWord? word = some b ↔ word ∈ truthWords b := by
  unfold truthWord?
  split <;> cases b <;> simp_all [truthWords]

theorem isBlank_of_spelled (plain : ∀ letter ∈ letters, isPlain letter = true)
    (spelled : List.Forall₂ InEitherCase cs letters) : ∀ c ∈ cs, isBlank c = false := by
  induction spelled with
  | nil => exact nofun
  | cons either _ ih =>
    obtain ⟨first, others⟩ := List.forall_mem_cons.mp plain
    obtain ⟨low, high⟩ := either.range first
    exact List.forall_mem_cons.mpr ⟨isBlank_of_range low high, ih others⟩

theorem lowercase_mem_truthWords_iff : lowercase text ∈ truthWords b ↔ IsTruthWord b text := by
  have same {word : String} (member : word ∈ truthWords b) :
      lowercase text = word ↔ List.Forall₂ InEitherCase text.toList word.toList := by
    rw [← lowercaseAfter_eq_iff (isPlain_of_mem_truthWords member), ← String.toList_inj, lowercase,
      String.toList_ofList]
  constructor
  · intro member
    exact ⟨_, member, (same member).mp rfl⟩
  · rintro ⟨word, member, spelled⟩
    rw [(same member).mpr spelled]
    exact member

theorem lowercase_trim_mem_truthWords_iff :
    lowercase (trim text) ∈ truthWords b ↔ SpellsTruth text b := by
  rw [lowercase_mem_truthWords_iff]
  refine trim_iff_around fun inner isWord => ?_
  obtain ⟨word, member, spelled⟩ := isWord
  exact isBlank_of_spelled (isPlain_of_mem_truthWords member) spelled

theorem readTruth_eq_some_iff : readTruth text = some b ↔ SpellsTruth text b := by
  rw [readTruth, truthWord?_eq_some_iff, lowercase_trim_mem_truthWords_iff]

end Text

theorem Value.convert_str_boolean_iff {text : String} {w : Value} :
    (str text).convert .boolean = .ok w ↔ ∃ b, Text.SpellsTruth text b ∧ w = .bool b := by
  simp only [← Text.readTruth_eq_some_iff]
  refine convert_str_eq_ok_iff.trans ?_
  rw [readPrimitive]
  cases Text.readTruth text with
  | none => simp
  | some b => simp [eq_comm]

end BeanWiring

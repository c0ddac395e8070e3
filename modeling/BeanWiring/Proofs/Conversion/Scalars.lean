import BeanWiring.Proofs.Conversion
import BeanWiring.Proofs.Numerals
import Mathlib.Data.List.TakeWhile

/-!
Whole numbers and truth values beside texts and beside one another. Written as a text and read again, with
white space around it or without, such a value is the same as before. A text is read as a whole number
exactly if there is a numeral of the range in it, and a number is narrowed exactly if it is in the range.
-/
namespace BeanWiring

namespace Text

def Blank (text : String) : Prop := ∀ c ∈ text.toList, isBlank c = true

instance (text : String) : Decidable (Blank text) :=
  decidable_of_iff (text.toList.all isBlank = true) List.all_eq_true

variable {cs front back : List Char} {text before after : String}

theorem isBlank_of_range {c : Char} (low : '0'.toNat ≤ c.toNat) (high : c.toNat ≤ 'z'.toNat) :
    isBlank c = false := by
  have outside : ∀ run ∈ blankRanges, run.2 < '0'.toNat ∨ 'z'.toNat < run.1 := by decide
  refine List.any_eq_false.mpr fun run member => ?_
  have apart := outside run member
  simp only [Bool.and_eq_true, decide_eq_true_eq]
  omega

theorem isBlank_of_isDigit {c : Char} (digit : c.isDigit = true) : isBlank c = false := by
  have range : 48 ≤ c.toNat ∧ c.toNat ≤ 57 := by
    simpa [Char.isDigit, UInt32.le_iff_toNat_le] using digit
  exact isBlank_of_range range.1 (Nat.le_trans range.2 (by decide))

theorem trimChars_between (blankFront : ∀ c ∈ front, isBlank c = true)
    (blankBack : ∀ c ∈ back, isBlank c = true) (clear : ∀ c ∈ cs, isBlank c = false) :
    trimChars (front ++ (cs ++ back)) = cs := by
  have blankReverse : ∀ c ∈ back.reverse, isBlank c = true :=
    fun c member => blankBack c (List.mem_reverse.mp member)
  unfold trimChars
  rw [List.dropWhile_append_of_pos blankFront]
  cases cs with
  | nil =>
    rw [List.nil_append, List.dropWhile_eq_nil_iff.mpr blankBack]
    rfl
  | cons c rest =>
    have clearReverse : (c :: rest).reverse.dropWhile isBlank = (c :: rest).reverse := by
      refine List.dropWhile_eq_self_iff.mpr fun nonempty => ?_
      rw [clear _ (List.mem_reverse.mp (List.getElem_mem nonempty))]
      decide
    have atFront : ¬isBlank c = true := by simp [clear c List.mem_cons_self]
    calc
      _ = ((c :: (rest ++ back)).reverse.dropWhile isBlank).reverse := by
        rw [List.cons_append, List.dropWhile_cons_of_neg atFront]
      _ = ((back.reverse ++ (c :: rest).reverse).dropWhile isBlank).reverse := by simp
      _ = c :: rest := by
        rw [List.dropWhile_append_of_pos blankReverse, clearReverse, List.reverse_reverse]

theorem trim_between (blankBefore : Blank before) (blankAfter : Blank after)
    (clear : ∀ c ∈ text.toList, isBlank c = false) : trim (before ++ text ++ after) = text := by
  unfold trim
  rw [String.toList_append, String.toList_append, List.append_assoc,
    trimChars_between blankBefore blankAfter clear, String.ofList_toList]

end Text

inductive Width
  | int | long

namespace Width

def kind : Width → PrimitiveKind
  | .int => .int
  | .long => .long

def greatest : Width → Nat
  | .int => 0x7fffffff
  | .long => 0x7fffffffffffffff

/-- The numbers that fit a width; there is one more below zero than above. -/
def Holds (width : Width) (n : Int) : Prop := -(width.greatest + 1) ≤ n ∧ n ≤ width.greatest

def number? : Width → Value → Option Int
  | .int, .int n => some n.toInt
  | .long, .long n => some n.toInt
  | _, _ => none

/-- A number as a value of the width; beyond the range it is another number. -/
def value (n : Int) : Width → Value
  | .int => .int (Int32.ofInt n)
  | .long => .long (Int64.ofInt n)

variable {width : Width} {n : Int} {v : Value}

theorem number?_value (held : width.Holds n) : width.number? (width.value n) = some n := by
  obtain ⟨low, high⟩ := held
  cases width with
  | int =>
    simp only [greatest] at low high
    exact congrArg some (Int32.toInt_ofInt_of_le (by omega) (by omega))
  | long =>
    simp only [greatest] at low high
    exact congrArg some (Int64.toInt_ofInt_of_le (by omega) (by omega))

theorem holds_of_number? (is : width.number? v = some n) : width.Holds n := by
  unfold number? at is
  split at is <;> cases is <;> simp only [Holds, greatest]
  · rename_i n
    have low := n.le_toInt
    have high := n.toInt_lt
    omega
  · rename_i n
    have low := n.le_toInt
    have high := n.toInt_lt
    omega

theorem eq_value (is : width.number? v = some n) : v = width.value n := by
  unfold number? at is
  split at is <;> cases is
  · exact congrArg Value.int (Int32.ofInt_toInt _).symm
  · exact congrArg Value.long (Int64.ofInt_toInt _).symm

end Width

namespace Value

open Decimal Text

variable {text : String} {v w : Value} {width : Width} {n : Int}

theorem convert_str_eq_ok_iff {kind : PrimitiveKind} :
    (str text).convert (.primitive kind) = .ok w ↔ readPrimitive text kind = .ok w := by
  have single : (str text).convert (.primitive kind) =
      convert.scalar (str text) (.primitive kind) := by
    cases kind <;> rfl
  rw [single, scalar_eq_ok_iff]
  rfl

theorem readPrimitive_width_eq_ok_iff :
    readPrimitive text width.kind = .ok w ↔
      ∃ n, readInteger width.greatest (trim text).toList = .ok n ∧ w = width.value n := by
  cases width <;> simp only [readPrimitive, Width.kind, Width.greatest, Width.value]
  all_goals
    split
    · rename_i read
      simp [read, eq_comm]
    · rename_i read
      simp [read]

theorem convert_str_width_iff :
    (str text).convert (.primitive width.kind) = .ok w ↔
      ∃ n, Numeral (trim text).toList n ∧ width.Holds n ∧ w = width.value n := by
  rw [convert_str_eq_ok_iff, readPrimitive_width_eq_ok_iff]
  refine exists_congr fun n => ?_
  rw [readInteger_eq_ok_iff, and_assoc]
  rfl

theorem number?_of_convert_str (numeral : Numeral (trim text).toList n)
    (converted : (str text).convert (.primitive width.kind) = .ok w) : width.number? w = some n := by
  obtain ⟨m, reads, held, rfl⟩ := convert_str_width_iff.mp converted
  rw [numeral.unique reads]
  exact Width.number?_value held

def SurvivesText (type : BeanType) (v : Value) : Prop :=
  ∃ text, v.convert .string = .ok (.str text) ∧ ∀ before after, Blank before → Blank after →
    (str (before ++ text ++ after)).convert type = .ok v

theorem survivesText_of_clear {type : BeanType} (written : v.convert .string = .ok (.str text))
    (clear : ∀ c ∈ text.toList, isBlank c = false)
    (reads : ∀ s, trim s = text → (str s).convert type = .ok v) : SurvivesText type v :=
  ⟨text, written, fun _ _ blankBefore blankAfter => reads _ (trim_between blankBefore blankAfter clear)⟩

theorem survivesText_of_number? (is : width.number? v = some n) :
    SurvivesText (.primitive width.kind) v := by
  have numeral := numeral_toString n
  have written : v.convert .string = .ok (.str (toString n)) := by
    unfold Width.number? at is
    split at is <;> cases is <;> rfl
  refine survivesText_of_clear written (fun c member => ?_) fun s trimmed => ?_
  · rcases numeral.mem member with digit | rfl | rfl
    · exact isBlank_of_isDigit digit
    · decide
    · decide
  · rw [← trimmed] at numeral
    exact convert_str_width_iff.mpr ⟨n, numeral, Width.holds_of_number? is, Width.eq_value is⟩

theorem survivesText_bool (b : Bool) : SurvivesText .boolean (.bool b) := by
  have written : (bool b).convert .string = .ok (.str (bool b).text) := rfl
  have letters : ((bool b).text.toList.all fun c => !isBlank c) = true := by cases b <;> rfl
  refine survivesText_of_clear written ?_ fun s trimmed => convert_str_eq_ok_iff.mpr ?_
  · simpa only [List.all_eq_true, Bool.not_eq_true'] using letters
  · have word : readTruth s = some b := by
      unfold readTruth
      rw [trimmed]
      cases b <;> rfl
    simp only [readPrimitive, word]

/-- Whole numbers and truth values, each with its own type. Fractions are not among them: what they are
written as need not be read as the same bits. -/
inductive Exact : BeanType → Value → Prop
  | int (n : Int32) : Exact .int (.int n)
  | long (n : Int64) : Exact .long (.long n)
  | bool (b : Bool) : Exact .boolean (.bool b)

theorem Exact.survivesText {type : BeanType} (own : Exact type v) : SurvivesText type v := by
  -- The width is fixed before the types are compared; from the goal alone it cannot be read off.
  cases own with
  | int n =>
    have is : Width.int.number? (.int n) = some n.toInt := rfl
    have survives := survivesText_of_number? is
    exact survives
  | long n =>
    have is : Width.long.number? (.long n) = some n.toInt := rfl
    have survives := survivesText_of_number? is
    exact survives
  | bool b => exact survivesText_bool b

theorem convert_long_iff {n : Int64} :
    (long n).convert .int = .ok w ↔ Width.int.Holds n.toInt ∧ w = Width.int.value n.toInt := by
  have single : (long n).convert .int = convert.scalar (long n) .int := rfl
  have decides : (-0x80000000 ≤ n.toInt && n.toInt ≤ 0x7fffffff) = true ↔ Width.int.Holds n.toInt := by
    simp [Width.Holds, Width.greatest]
  rw [single, scalar_eq_ok_iff, ← decides]
  change (if _ then _ else _) = _ ↔ _
  split
  · rename_i held
    simp [held, eq_comm, Width.value]
  · rename_i beyond
    simp [beyond]

theorem convert_int_long (n : Int32) :
    ∃ w, (int n).convert .long = .ok w ∧ Width.long.number? w = some n.toInt ∧
      w.convert .int = .ok (.int n) := by
  have is : Width.int.number? (.int n) = some n.toInt := rfl
  have held := Width.holds_of_number? is
  have within : Width.long.Holds n.toInt := by
    simp only [Width.Holds, Width.greatest] at held ⊢
    omega
  have same : (Int64.ofInt n.toInt).toInt = n.toInt := Option.some.inj (Width.number?_value within)
  refine ⟨.long (Int64.ofInt n.toInt), rfl, congrArg some same, convert_long_iff.mpr ?_⟩
  rw [same]
  exact ⟨held, Width.eq_value is⟩

/-- What becomes of whole numbers and truth values: they survive being written as texts; a text is read as
a number exactly if its trimmed form is a numeral of one that the width holds, and then as this one; widening
and narrowing give an int back, and a long is narrowed exactly if an int holds it, to the same number. -/
theorem convert_scalars :
    (∀ type v, Exact type v → SurvivesText type v) ∧
    (∀ (width : Width) (text : String),
      ((∃ w, (str text).convert (.primitive width.kind) = .ok w) ↔
        ∃ n, Numeral (trim text).toList n ∧ width.Holds n) ∧
      ∀ n w, Numeral (trim text).toList n → (str text).convert (.primitive width.kind) = .ok w →
        width.number? w = some n) ∧
    (∀ n : Int32, ∃ w, (int n).convert .long = .ok w ∧ Width.long.number? w = some n.toInt ∧
      w.convert .int = .ok (.int n)) ∧
    ∀ n : Int64, ((∃ w, (long n).convert .int = .ok w) ↔ Width.int.Holds n.toInt) ∧
      ∀ w, (long n).convert .int = .ok w → Width.int.number? w = some n.toInt := by
  refine ⟨fun _ _ own => own.survivesText, fun width text => ⟨?_, fun _ _ => number?_of_convert_str⟩,
    convert_int_long, fun n => ⟨?_, fun w narrowed => ?_⟩⟩
  · constructor
    · rintro ⟨w, converted⟩
      obtain ⟨n, numeral, held, -⟩ := convert_str_width_iff.mp converted
      exact ⟨n, numeral, held⟩
    · rintro ⟨n, numeral, held⟩
      exact ⟨_, convert_str_width_iff.mpr ⟨n, numeral, held, rfl⟩⟩
  · constructor
    · rintro ⟨w, narrowed⟩
      exact (convert_long_iff.mp narrowed).1
    · intro held
      exact ⟨_, convert_long_iff.mpr ⟨held, rfl⟩⟩
  · obtain ⟨held, rfl⟩ := convert_long_iff.mp narrowed
    exact Width.number?_value held

theorem convert_scalars_of_least :
    (str "\t-2147483648\u00a0").convert .int = .ok (.int (-2147483648)) ∧
    (∃ w, (str " +007").convert .int = .ok w ∧ Width.int.number? w = some 7) ∧
    ∃ w, (long 7).convert .int = .ok w ∧ Width.int.number? w = some 7 := by
  refine ⟨?_, ?_, ?_⟩
  · obtain ⟨text, written, reads⟩ := convert_scalars.1 .int _ (.int (-2147483648))
    have same : (int (-2147483648)).convert .string = .ok (.str "-2147483648") := rfl
    cases written.symm.trans same
    exact reads "\t" "\u00a0" (by decide) (by decide)
  · have numeral : Numeral (trim " +007").toList 7 :=
      .plus ⟨by decide, List.all_eq_true.mp (by decide), by decide⟩
    obtain ⟨converts, gives⟩ := convert_scalars.2.1 .int " +007"
    obtain ⟨w, converted⟩ := converts.mpr ⟨7, numeral, by decide, by decide⟩
    exact ⟨w, converted, gives 7 w numeral converted⟩
  · obtain ⟨narrows, gives⟩ := convert_scalars.2.2.2 7
    obtain ⟨w, narrowed⟩ := narrows.mpr ⟨by decide, by decide⟩
    exact ⟨w, narrowed, gives w narrowed⟩

end Value

end BeanWiring

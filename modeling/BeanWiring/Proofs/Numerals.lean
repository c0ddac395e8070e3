import BeanWiring.Decimal.Integer

/-!
Numerals: an optional sign before decimal digits. A text is read as a whole number of a range exactly if
it is a numeral of a number in that range, and what a number is written as is a numeral of it.
-/
namespace BeanWiring.Decimal

/-- One digit or more, and the number they stand for. Leading zeros do no harm. -/
structure Digits (digits : List Char) (n : Nat) : Prop where
  nonempty : digits ≠ []
  isDigit : ∀ c ∈ digits, c.isDigit = true
  value : Nat.ofDigitChars 10 digits 0 = n

/-- The numerals of a number: digits with a plus sign or none, or with a minus sign for the opposite. -/
inductive Numeral : List Char → Int → Prop
  | bare {digits : List Char} {n : Nat} (reads : Digits digits n) : Numeral digits n
  | plus {digits : List Char} {n : Nat} (reads : Digits digits n) : Numeral ('+' :: digits) n
  | minus {digits : List Char} {n : Nat} (reads : Digits digits n) : Numeral ('-' :: digits) (-n)

variable {cs digits : List Char} {m n limit greatest : Nat} {beyond : IntegerFault}

theorem digit?_eq (c : Char) :
    digit? c = if c.isDigit = true then some (c.toNat - '0'.toNat) else none := by
  have same : (decide ('0' ≤ c) && decide (c ≤ '9')) = c.isDigit := by
    simp [Char.isDigit, Char.le_def]
  unfold digit?
  rw [same]

theorem le_ofDigitChars (cs : List Char) (m : Nat) : m ≤ Nat.ofDigitChars 10 cs m := by
  induction cs generalizing m with
  | nil => exact Nat.le_of_eq Nat.ofDigitChars_nil.symm
  | cons c rest ih =>
    rw [Nat.ofDigitChars_cons]
    exact Nat.le_trans (by omega) (ih _)

/-- Digits are read on exactly up to the limit. The number only grows, so once it is beyond the limit, no
further digit brings it back. -/
theorem readDigits_eq_ok_iff (bounded : m ≤ limit) :
    readDigits limit beyond m cs = .ok n ↔
      (∀ c ∈ cs, c.isDigit = true) ∧ Nat.ofDigitChars 10 cs m = n ∧ n ≤ limit := by
  induction cs generalizing m with
  | nil =>
    rw [Nat.ofDigitChars_nil]
    constructor
    · intro read
      cases read
      exact ⟨nofun, rfl, bounded⟩
    · rintro ⟨-, rfl, -⟩
      rfl
  | cons c rest ih =>
    unfold readDigits
    rw [digit?_eq, Nat.ofDigitChars_cons, List.forall_mem_cons]
    cases isDigit : c.isDigit with
    | false => simp
    | true =>
      simp only [if_true, true_and]
      by_cases within : 10 * m + (c.toNat - '0'.toNat) ≤ limit
      · rw [if_pos within, ih within]
      · rw [if_neg within]
        have grows := le_ofDigitChars rest (10 * m + (c.toNat - '0'.toNat))
        constructor
        · intro read
          cases read
        · rintro ⟨-, rfl, fits⟩
          exact absurd (Nat.le_trans grows fits) within

theorem readDigits_zero_iff (nonempty : digits ≠ []) :
    readDigits limit beyond 0 digits = .ok n ↔ Digits digits n ∧ n ≤ limit := by
  rw [readDigits_eq_ok_iff (Nat.zero_le limit)]
  constructor
  · rintro ⟨isDigit, value, fits⟩
    exact ⟨⟨nonempty, isDigit, value⟩, fits⟩
  · rintro ⟨⟨-, isDigit, value⟩, fits⟩
    exact ⟨isDigit, value, fits⟩

theorem Digits.not_cons {c : Char} (sign : c.isDigit = false) : ¬Digits (c :: digits) n := by
  intro reads
  rw [reads.isDigit c List.mem_cons_self] at sign
  cases sign

def Unsigned (cs : List Char) (n : Nat) : Prop :=
  Digits cs n ∨ ∃ digits, cs = '+' :: digits ∧ Digits digits n

theorem Unsigned.ne_minus (reads : Unsigned cs n) : cs ≠ '-' :: digits := by
  rintro rfl
  rcases reads with bare | ⟨_, same, -⟩
  · exact Digits.not_cons (by decide) bare
  · cases same

theorem unsigned_plus_iff : Unsigned ('+' :: digits) n ↔ Digits digits n := by
  constructor
  · rintro (bare | ⟨_, same, reads⟩)
    · exact absurd bare (Digits.not_cons (by decide))
    · cases same
      exact reads
  · intro reads
    exact .inr ⟨digits, rfl, reads⟩

theorem numeral_minus_iff {n : Int} :
    Numeral ('-' :: digits) n ↔ ∃ k : Nat, Digits digits k ∧ n = -k := by
  constructor
  · rintro (bare | _ | reads)
    · exact absurd bare (Digits.not_cons (by decide))
    · exact ⟨_, reads, rfl⟩
  · rintro ⟨k, reads, rfl⟩
    exact .minus reads

theorem numeral_iff_unsigned {n : Int} (noMinus : ∀ digits, cs ≠ '-' :: digits) :
    Numeral cs n ↔ ∃ k : Nat, Unsigned cs k ∧ n = k := by
  constructor
  · rintro (bare | plus | minus)
    · exact ⟨_, .inl bare, rfl⟩
    · exact ⟨_, .inr ⟨_, rfl, plus⟩, rfl⟩
    · exact absurd rfl (noMinus _)
  · rintro ⟨k, bare | ⟨digits, rfl, plus⟩, rfl⟩
    · exact .bare bare
    · exact .plus plus

theorem readNatural_eq_ok_iff :
    readNatural greatest cs = .ok n ↔ Unsigned cs n ∧ n ≤ greatest := by
  unfold readNatural
  split
  · constructor
    · intro read
      cases read
    · rintro ⟨bare | ⟨_, same, -⟩, -⟩
      · exact absurd rfl bare.nonempty
      · cases same
  · rw [unsigned_plus_iff]
    constructor
    · intro read
      cases read
    · rintro ⟨reads, -⟩
      exact absurd rfl reads.nonempty
  · constructor
    · intro read
      cases read
    · rintro ⟨reads, -⟩
      exact absurd rfl reads.ne_minus
  · rename_i digits more
    rw [unsigned_plus_iff, readDigits_zero_iff fun none => more (by rw [none])]
  · rename_i occupied _ _ noPlus
    rw [readDigits_zero_iff occupied]
    constructor
    · rintro ⟨reads, fits⟩
      exact ⟨.inl reads, fits⟩
    · rintro ⟨reads | ⟨digits, same, -⟩, fits⟩
      · exact ⟨reads, fits⟩
      · exact absurd same (noPlus digits)

theorem map_natCast_eq_ok_iff {x : Except IntegerFault Nat} {f : Int → Int} {n : Int} :
    Except.map f (do let k ← x; pure (k : Int)) = .ok n ↔ ∃ k : Nat, x = .ok k ∧ f k = n := by
  cases x with
  | error fault => simp [Except.map, bind, Except.bind]
  | ok k => simp [Except.map, bind, Except.bind, pure, Except.pure]

theorem readInteger_eq_ok_iff {n : Int} :
    readInteger greatest cs = .ok n ↔ Numeral cs n ∧ -(greatest + 1) ≤ n ∧ n ≤ greatest := by
  unfold readInteger
  split
  · rw [numeral_minus_iff]
    constructor
    · intro read
      cases read
    · rintro ⟨⟨k, reads, -⟩, -⟩
      exact absurd rfl reads.nonempty
  -- There is one more number below zero than above, which is why the bounds differ by one.
  · rename_i digits more
    have occupied : digits ≠ [] := fun none => more (by rw [none])
    simp only [map_natCast_eq_ok_iff, numeral_minus_iff, readDigits_zero_iff occupied]
    constructor
    · rintro ⟨k, ⟨reads, fits⟩, rfl⟩
      exact ⟨⟨k, reads, rfl⟩, by omega, by omega⟩
    · rintro ⟨⟨k, reads, rfl⟩, low, high⟩
      exact ⟨k, ⟨reads, by omega⟩, rfl⟩
  · rename_i noMinus
    simp only [map_natCast_eq_ok_iff, numeral_iff_unsigned noMinus, readNatural_eq_ok_iff]
    constructor
    · rintro ⟨k, ⟨reads, fits⟩, rfl⟩
      exact ⟨⟨k, reads, rfl⟩, by omega, by omega⟩
    · rintro ⟨⟨k, reads, rfl⟩, low, high⟩
      exact ⟨k, ⟨reads, by omega⟩, rfl⟩

theorem Numeral.unique {m n : Int} (numeral : Numeral cs m) (other : Numeral cs n) : m = n := by
  have read : readInteger (m.natAbs + n.natAbs) cs = .ok m :=
    readInteger_eq_ok_iff.mpr ⟨numeral, by omega, by omega⟩
  have again : readInteger (m.natAbs + n.natAbs) cs = .ok n :=
    readInteger_eq_ok_iff.mpr ⟨other, by omega, by omega⟩
  exact Except.ok.inj (read.symm.trans again)

theorem digits_toDigits (n : Nat) : Digits (Nat.toDigits 10 n) n where
  nonempty := Nat.toDigits_ne_nil
  isDigit _ member := Nat.isDigit_of_mem_toDigits (by decide) (by decide) member
  value := Nat.ofDigitChars_ten_toDigits

theorem numeral_toString (n : Int) : Numeral (toString n).toList n := by
  cases n with
  | ofNat n =>
    change Numeral n.repr.toList n
    rw [Nat.toList_repr]
    exact .bare (digits_toDigits n)
  | negSucc n =>
    change Numeral ("-" ++ (n + 1).repr).toList (-(n + 1 : Nat))
    rw [String.toList_append, Nat.toList_repr]
    exact .minus (digits_toDigits (n + 1))

theorem Numeral.mem {n : Int} (numeral : Numeral cs n) {c : Char} (member : c ∈ cs) :
    c.isDigit = true ∨ c = '+' ∨ c = '-' := by
  cases numeral with
  | bare reads => exact .inl (reads.isDigit c member)
  | plus reads =>
    rcases List.mem_cons.mp member with sign | later
    · exact .inr (.inl sign)
    · exact .inl (reads.isDigit c later)
  | minus reads =>
    rcases List.mem_cons.mp member with sign | later
    · exact .inr (.inr sign)
    · exact .inl (reads.isDigit c later)

end BeanWiring.Decimal

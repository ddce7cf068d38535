import EntityCatalog.Json.Node
import EntityCatalog.Json.Printer

/-!
# Whole numbers of documents

A whole number of at most sixty-four bits is read as itself where it was
written (`readNumeral?_writeInteger`, `value?_ofInteger`), as long as nothing
follows that could be a part of it (`Apart`).
-/

namespace EntityCatalog.Json

/-- A text that does not go on with a number in front of it. -/
def Apart (text : List Char) : Prop :=
  ∀ char ∈ text.head?,
    char.isDigit = false ∧ char ≠ '.' ∧ char ≠ 'e' ∧ char ≠ 'E'

theorem apart_nil : Apart [] :=
  fun _ absent => nomatch absent

/-! ## Digits -/

theorem readDigits_append {digits : List Char}
    (all : ∀ digit ∈ digits, digit.isDigit = true) {text : List Char}
    (stops : ∀ char ∈ text.head?, char.isDigit = false) :
    readDigits (digits ++ text) = (digits, text) := by
  have none : text.takeWhile Char.isDigit = [] ∧
      text.dropWhile Char.isDigit = text := by
    cases text with
    | nil => exact ⟨rfl, rfl⟩
    | cons char rest =>
        have other : char.isDigit = false := stops char rfl
        simp [other]
  rw [readDigits, List.takeWhile_append_of_pos all,
    List.dropWhile_append_of_pos all, none.1, none.2, List.append_nil]

/-- A number that is not zero is not written with a zero in front. -/
theorem head?_toDigits {number : Nat} (positive : 0 < number) :
    (Nat.toDigits 10 number).head? ≠ some '0' := by
  induction number using Nat.strongRecOn with
  | ind number induction =>
      rw [Nat.toDigits_eq_if (by decide)]
      split
      · intro zero
        rw [List.head?_cons, Option.some.injEq, Nat.digitChar_eq_zero] at zero
        omega
      · rw [List.head?_append, Option.or_of_isSome (by simp)]
        exact induction (number / 10) (by omega) (by omega)

/-- Digits that stay in bounds are all taken in. -/
theorem absorb_eq {digits : List Char} {significand : Nat}
    (small : Nat.ofDigitChars 10 digits significand ≤ largestSignificand) :
    absorb significand digits =
      (Nat.ofDigitChars 10 digits significand, []) := by
  induction digits generalizing significand with
  | nil => rfl
  | cons digit rest induction =>
      rw [Nat.ofDigitChars_cons, Nat.mul_comm] at small ⊢
      have bounded : significand * 10 + (digit.toNat - '0'.toNat) ≤
          largestSignificand := by
        refine Nat.le_trans ?_ small
        rw [Nat.ofDigitChars_eq_ofDigitChars_zero (l := rest)]
        exact Nat.le_trans
          (Nat.le_mul_of_pos_left _ (Nat.pow_pos (by decide)))
          (Nat.le_add_right _ _)
      simp only [absorb, if_pos bounded, induction small]

/-! ## Whole numbers -/

/-- How a whole number is spelled. -/
def Numeral.ofInteger (number : Int) : Numeral :=
  ⟨decide (number < 0), Nat.toDigits 10 number.natAbs, none, none⟩

theorem readFraction?_of_apart {text : List Char} (apart : Apart text) :
    readFraction? text = some (none, text) := by
  rw [readFraction?.eq_def]
  split
  · exact absurd rfl (apart _ rfl).2.1
  · rfl

theorem readExponent?_of_apart {text : List Char} (apart : Apart text) :
    readExponent? text = some (none, text) := by
  rw [readExponent?.eq_def]
  split
  case h_7 => rfl
  all_goals
    have other := (apart _ rfl).2.2
    simp at other

/-- Digits without a zero in front are read after the sign that was read. -/
theorem readNumeral?_of_readSign {written text : List Char} {negative : Bool}
    {magnitude : Nat}
    (signed : readSign written =
      (negative, Nat.toDigits 10 magnitude ++ text))
    (apart : Apart text) :
    readNumeral? written =
      some (⟨negative, Nat.toDigits 10 magnitude, none, none⟩, text) := by
  have digits : readDigits (Nat.toDigits 10 magnitude ++ text) =
      (Nat.toDigits 10 magnitude, text) :=
    readDigits_append
      (fun _ => Nat.isDigit_of_mem_toDigits (by decide) (by decide))
      (fun char first => (apart char first).1)
  unfold readNumeral?
  simp only [signed, digits]
  split
  · exact absurd ‹_› Nat.toDigits_ne_nil
  · -- Only zero starts with a zero, and it has one digit.
    rename_i second more written
    rcases Nat.eq_zero_or_pos magnitude with rfl | positive
    · simp at written
    · exact absurd (by rw [written]; rfl) (head?_toDigits positive)
  · simp [readFraction?_of_apart apart, readExponent?_of_apart apart]

theorem readSign_toDigits (number : Nat) (text : List Char) :
    readSign (Nat.toDigits 10 number ++ text) =
      (false, Nat.toDigits 10 number ++ text) := by
  have digit : ∀ char ∈ Nat.toDigits 10 number, char.isDigit = true :=
    fun _ => Nat.isDigit_of_mem_toDigits (by decide) (by decide)
  cases written : Nat.toDigits 10 number with
  | nil => exact absurd written Nat.toDigits_ne_nil
  | cons first rest =>
      have other : first ≠ '-' := by
        rintro rfl
        have wrong := digit '-' (by simp [written])
        simp at wrong
      rw [List.cons_append, readSign.eq_def]
      split
      · simp_all
      · rfl

theorem readNumeral?_writeInteger (number : Int) {text : List Char}
    (apart : Apart text) :
    readNumeral? (writeInteger number ++ text) =
      some (Numeral.ofInteger number, text) := by
  cases number with
  | ofNat magnitude =>
      exact readNumeral?_of_readSign (readSign_toDigits magnitude text) apart
  | negSucc magnitude =>
      have negative : decide (Int.negSucc magnitude < 0) = true :=
        decide_eq_true (Int.negSucc_lt_zero magnitude)
      rw [Numeral.ofInteger, negative]
      exact readNumeral?_of_readSign rfl apart

/-- A number of at most sixty-four bits, signed or not. -/
def InRange (number : Int) : Prop :=
  -Nat.pow 2 63 ≤ number ∧ number < Nat.pow 2 64

/-- The numeral of a whole number in range means that number. -/
theorem value?_ofInteger {number : Int} (inRange : InRange number) :
    (Numeral.ofInteger number).value? = some (.integer number) := by
  have range := inRange
  simp only [InRange, Nat.pow_eq, Nat.reducePow] at range
  have small : Nat.ofDigitChars 10 (Nat.toDigits 10 number.natAbs) 0 ≤
      largestSignificand := by
    rw [Nat.ofDigitChars_ten_toDigits, largestSignificand, UInt64.size]
    omega
  have absorbed := absorb_eq small
  rw [Nat.ofDigitChars_ten_toDigits] at absorbed
  simp only [Numeral.value?, Numeral.ofInteger, absorbed]
  cases number with
  | ofNat magnitude => simp
  | negSucc magnitude =>
      have bounded : Int.natAbs (.negSucc magnitude) ≠ 0 ∧
          Int.natAbs (.negSucc magnitude) ≤ Nat.pow 2 63 := by
        simp only [Nat.pow_eq]
        omega
      have negative : Int.negSucc magnitude < 0 := Int.negSucc_lt_zero magnitude
      simp only [decide_eq_true negative, Option.isNone_none, List.isEmpty_nil,
        Bool.and_self, if_true, Bool.not_true, Bool.false_eq_true, if_false,
        if_pos bounded]
      rfl

end EntityCatalog.Json

import EntityCatalog.Decimal.Layout
import EntityCatalog.Proofs.Decimal.Shortest

/-!
# Written doubles as numbers

A text of digits, with a point or an exponent among them, is read as a
rational number (`readMagnitude`).  A decimal is read where it was written,
whatever the layout (`readMagnitude_writeDecimal`), and the shortest decimal of
a double determines the double.  Neither layout therefore writes two doubles
alike (`FloatLayout.write_injective`).  Without a mark, a double is written like
a whole number where its shortest decimal is one (`FloatLayout.writeParts_plain`).
-/

namespace EntityCatalog

open Decimal Float.Model

/-! ## Parts of doubles -/

namespace FloatParts

/-- What the fields of a word say when all bits of its exponent are set and
its fraction is not zero. -/
theorem toBitVec_of_notANumber {number : Float}
    (full : number.toBits.toNat / 2 ^ 52 % 2 ^ 11 = 2047)
    (fraction : number.toBits.toNat % 2 ^ 52 ≠ 0) :
    number.toBits.toBitVec = UnpackedFloat.packedNaN .binary64 := by
  have valid : Format.binary64.Valid number.toBits.toBitVec :=
    number.toModel.valid
  refine valid.eq_packedNaN (BitVec.eq_of_toNat_eq ?_) fun zero => fraction ?_
  · simpa [UnpackedFloat.unpackExponent, BitVec.extractLsb_toNat,
      Nat.shiftRight_eq_div_pow] using full
  · have none := congrArg BitVec.toNat zero
    simpa [UnpackedFloat.unpackMantissa] using none

/-- The parts of a double, with the word they come from. -/
theorem ofFloat_cases (number : Float) :
    (ofFloat number = .notANumber ∧
        number.toBits.toBitVec = UnpackedFloat.packedNaN .binary64) ∨
      (∃ negative, ofFloat number = .infinite negative ∧
        number.toBits.toNat = negative.toNat * 2 ^ 63 + 2047 * 2 ^ 52) ∨
      ∃ negative significand exponent,
        ofFloat number = .finite negative significand exponent ∧
          number.toBits.toNat = negative.toNat * 2 ^ 63 +
            (exponent + 1074).toNat * 2 ^ 52 + significand ∧
          (significand = 0 ∧ exponent = -1074 ∨ Double significand exponent) := by
  have bound := number.toBits.toNat_lt
  have sign : (decide (number.toBits.toNat / 2 ^ 63 = 1)).toNat =
      number.toBits.toNat / 2 ^ 63 := by
    by_cases negative : number.toBits.toNat / 2 ^ 63 = 1
    · rw [decide_eq_true negative, negative]
      rfl
    · rw [decide_eq_false negative, Bool.toNat_false]
      omega
  simp only [ofFloat, Nat.pow_eq]
  split
  case isTrue full =>
      split
      case isTrue none => exact Or.inr (.inl ⟨_, rfl, by omega⟩)
      case isFalse fraction =>
          exact Or.inl ⟨rfl, toBitVec_of_notANumber full fraction⟩
  case isFalse =>
      split
      case isTrue lowest =>
          refine Or.inr (.inr ⟨_, _, _, rfl, by omega, ?_⟩)
          by_cases zero : number.toBits.toNat % 2 ^ 52 = 0
          · exact Or.inl ⟨zero, rfl⟩
          · exact Or.inr ⟨by omega, by omega, by omega, .inr rfl⟩
      case isFalse =>
          refine Or.inr (.inr ⟨_, _, _, rfl, by omega, .inr ?_⟩)
          exact ⟨by omega, by omega, by omega, .inl (by omega)⟩

theorem double_of_finite {number : Float} {negative : Bool}
    {significand : Nat} {exponent : Int}
    (parts : ofFloat number = .finite negative significand exponent) :
    significand = 0 ∧ exponent = -1074 ∨ Double significand exponent := by
  rcases ofFloat_cases number with
    ⟨other, -⟩ | ⟨_, other, -⟩ | ⟨_, _, _, here, -, double⟩
  · cases parts.symm.trans other
  · cases parts.symm.trans other
  · cases parts.symm.trans here
    exact double

theorem ofFloat_injective : Function.Injective ofFloat := by
  intro left right same
  have words : left.toBits.toBitVec = right.toBits.toBitVec := by
    rcases ofFloat_cases left with
      ⟨first, word⟩ | ⟨_, first, word⟩ | ⟨_, _, _, first, word, -⟩
    all_goals
      rcases ofFloat_cases right with
        ⟨second, other⟩ | ⟨_, second, other⟩ | ⟨_, _, _, second, other, -⟩
      all_goals cases first.symm.trans (same.trans second)
    · exact word.trans other.symm
    · exact BitVec.eq_of_toNat_eq (word.trans other.symm)
    · exact BitVec.eq_of_toNat_eq (word.trans other.symm)
  rcases left with ⟨⟨⟨_⟩, _⟩⟩
  rcases right with ⟨⟨⟨_⟩, _⟩⟩
  cases words
  rfl

end FloatParts

namespace Decimal

/-! ## Reading -/

/-- What stands before a mark and what stands after it. -/
def cut (mark : Char) (text : List Char) : List Char × List Char :=
  (text.takeWhile (· ≠ mark), (text.dropWhile (· ≠ mark)).drop 1)

theorem cut_append {mark : Char} {before : List Char} (absent : mark ∉ before)
    (after : List Char) : cut mark (before ++ mark :: after) = (before, after) := by
  have other : ∀ char ∈ before, decide (char ≠ mark) = true := by
    intro char member
    exact decide_eq_true fun same => absent (same ▸ member)
  rw [cut, List.takeWhile_append_of_pos other, List.dropWhile_append_of_pos other,
    List.takeWhile_cons_of_neg (by simp), List.dropWhile_cons_of_neg (by simp),
    List.append_nil]
  rfl

theorem cut_of_not_mem {mark : Char} {text : List Char} (absent : mark ∉ text) :
    cut mark text = (text, []) := by
  have other : ∀ char ∈ text, decide (char ≠ mark) = true := by
    intro char member
    exact decide_eq_true fun same => absent (same ▸ member)
  have taken : (text ++ []).takeWhile (· ≠ mark) = text ++ [] :=
    List.takeWhile_append_of_pos other
  have dropped : (text ++ []).dropWhile (· ≠ mark) = [] :=
    List.dropWhile_append_of_pos other
  rw [List.append_nil] at taken dropped
  rw [cut, taken, dropped]
  rfl

/-- The number that digits mean, a point among them or not. -/
def readPositional (text : List Char) : ℚ :=
  let (whole, fraction) := cut '.' text
  Nat.ofDigitChars 10 (whole ++ fraction) 0 * 10 ^ (-fraction.length : Int)

/-- The number that a signed exponent means. -/
def readExponent : List Char → Int
  | [] => 0
  | sign :: digits =>
    if sign = '-' then -Nat.ofDigitChars 10 digits 0
    else Nat.ofDigitChars 10 digits 0

/-- The number that a text without sign means. -/
def readMagnitude (text : List Char) : ℚ :=
  let (mantissa, exponent) := cut 'e' text
  readPositional mantissa * 10 ^ readExponent exponent

theorem readPositional_append {whole : List Char}
    (digits : '.' ∉ whole) (fraction : List Char) :
    readPositional (whole ++ '.' :: fraction) =
      Nat.ofDigitChars 10 (whole ++ fraction) 0 *
        10 ^ (-fraction.length : Int) := by
  rw [readPositional, cut_append digits]

theorem readPositional_of_not_mem {text : List Char} (digits : '.' ∉ text) :
    readPositional text = Nat.ofDigitChars 10 text 0 := by
  simp [readPositional, cut_of_not_mem digits]

theorem readMagnitude_append {mantissa : List Char} (absent : 'e' ∉ mantissa)
    (exponent : List Char) :
    readMagnitude (mantissa ++ 'e' :: exponent) =
      readPositional mantissa * 10 ^ readExponent exponent := by
  rw [readMagnitude, cut_append absent]

theorem readMagnitude_of_not_mem {text : List Char} (absent : 'e' ∉ text) :
    readMagnitude text = readPositional text := by
  simp [readMagnitude, cut_of_not_mem absent, readExponent]

end Decimal

namespace FloatLayout

/-! ## Reading what was written -/

/-- A layout that marks whole numbers with a point and a zero or not at all. -/
def Numeric (layout : FloatLayout) : Prop :=
  layout.wholeMark = "" ∨ layout.wholeMark = ".0"

theorem numeric_plain : plain.Numeric :=
  Or.inl rfl

theorem numeric_document : document.Numeric :=
  Or.inr rfl

theorem not_mem_of_digits {digits : List Char}
    (all : ∀ digit ∈ digits, digit.isDigit = true) {char : Char}
    (other : char.isDigit = false) : char ∉ digits := by
  intro member
  rw [all char member] at other
  cases other

variable {layout : FloatLayout} {digits : List Char}

theorem ofDigitChars_append_zeros (digits : List Char) (count : Nat) :
    Nat.ofDigitChars 10 (digits ++ List.replicate count '0') 0 =
      10 ^ count * Nat.ofDigitChars 10 digits 0 := by
  rw [Nat.ofDigitChars_append, Nat.ofDigitChars_replicate_zero]

theorem ofDigitChars_zeros_append (digits : List Char) (count : Nat) :
    Nat.ofDigitChars 10 (List.replicate count '0' ++ digits) 0 =
      Nat.ofDigitChars 10 digits 0 := by
  rw [Nat.ofDigitChars_append, Nat.ofDigitChars_replicate_zero, Nat.mul_zero]

theorem not_mem_append_zeros {mark : Char} (absent : mark ∉ digits)
    (other : mark ≠ '0') (count : Nat) :
    mark ∉ digits ++ List.replicate count '0' := by
  rw [List.mem_append]
  rintro (member | zero)
  · exact absent member
  · exact other (List.eq_of_mem_replicate zero)

/-- Digits with zeros after them mean a multiple, with or without a mark. -/
theorem readPositional_whole (numeric : layout.Numeric) (point : '.' ∉ digits)
    (count : Nat) :
    readPositional (String.ofList digits ++ zeros count ++
        layout.wholeMark).toList =
      Nat.ofDigitChars 10 digits 0 * 10 ^ count := by
  have noPoint := not_mem_append_zeros point (by decide) count
  rcases numeric with none | mark
  · have text : (String.ofList digits ++ zeros count ++
        layout.wholeMark).toList = digits ++ List.replicate count '0' := by
      simp [none, zeros]
    rw [text, readPositional_of_not_mem noPoint, ofDigitChars_append_zeros]
    push_cast
    ring
  · have text : (String.ofList digits ++ zeros count ++
        layout.wholeMark).toList =
          digits ++ List.replicate count '0' ++ '.' :: ['0'] := by
      simp [mark, zeros]
    have shifted := ofDigitChars_append_zeros digits (count + 1)
    rw [List.replicate_succ', ← List.append_assoc] at shifted
    rw [text, readPositional_append noPoint, shifted, List.length_singleton]
    push_cast
    field_simp
    ring

/-- A point among digits moves them by the places after it. -/
theorem readPositional_inside (point : '.' ∉ digits) (place : Nat) :
    readPositional (String.ofList (digits.take place) ++ "." ++
        String.ofList (digits.drop place)).toList =
      Nat.ofDigitChars 10 digits 0 *
        10 ^ (-(digits.drop place).length : Int) := by
  have text : (String.ofList (digits.take place) ++ "." ++
      String.ofList (digits.drop place)).toList =
        digits.take place ++ '.' :: digits.drop place := by
    simp
  rw [text,
    readPositional_append fun member => point (List.mem_of_mem_take member),
    List.take_append_drop]

/-- A point before digits moves them by the zeros between as well. -/
theorem readPositional_before (digits : List Char) (count : Nat) :
    readPositional ("0." ++ zeros count ++ String.ofList digits).toList =
      Nat.ofDigitChars 10 digits 0 * 10 ^ (-(count + digits.length) : Int) := by
  have text : ("0." ++ zeros count ++ String.ofList digits).toList =
      ['0'] ++ '.' :: (List.replicate count '0' ++ digits) := by
    simp [zeros]
  have all : ['0'] ++ (List.replicate count '0' ++ digits) =
      List.replicate (count + 1) '0' ++ digits := by
    simp [List.replicate_succ]
  rw [text, readPositional_append (by decide), all, ofDigitChars_zeros_append,
    List.length_append, List.length_replicate, Nat.cast_add]

/-- Digits are read where they were written without exponent. -/
theorem readPositional_writePositional (numeric : layout.Numeric)
    (point : '.' ∉ digits) (power : Int) :
    readPositional (layout.writePositional digits power).toList =
      Nat.ofDigitChars 10 digits 0 * 10 ^ power := by
  unfold writePositional
  -- The point stands behind all digits, among them or before them.
  split
  case isTrue whole =>
      obtain ⟨count, rfl⟩ := Int.eq_ofNat_of_zero_le whole
      rw [Int.toNat_natCast, readPositional_whole numeric point, zpow_natCast]
  case isFalse fraction =>
      dsimp only
      split
      case isTrue inside =>
          obtain ⟨place, here⟩ : ∃ place : Nat, digits.length + power = place :=
            Int.eq_ofNat_of_zero_le inside.le
          have rest : (-(digits.drop place).length : Int) = power := by
            rw [List.length_drop]
            omega
          rw [here, Int.toNat_natCast, readPositional_inside point, rest]
      case isFalse before =>
          obtain ⟨count, here⟩ :
              ∃ count : Nat, -(digits.length + power) = count :=
            Int.eq_ofNat_of_zero_le (by omega)
          have places : (-(count + digits.length) : Int) = power := by omega
          rw [here, Int.toNat_natCast, readPositional_before, places]

theorem mem_writePositional (numeric : layout.Numeric) {power : Int}
    {char : Char}
    (member : char ∈ (layout.writePositional digits power).toList) :
    char ∈ digits ∨ char = '0' ∨ char = '.' := by
  have zero (count : Nat) : char ∈ (zeros count).toList → char = '0' := by
    rw [zeros, String.toList_ofList]
    exact List.eq_of_mem_replicate
  unfold writePositional at member
  split at member
  case isTrue =>
      simp only [String.toList_append, String.toList_ofList,
        List.mem_append] at member
      rcases member with (here | here) | here
      · exact Or.inl here
      · exact Or.inr (.inl (zero _ here))
      · rcases numeric with none | mark
        · simp [none] at here
        · rw [mark] at here
          exact Or.inr (by simpa [or_comm] using here)
  case isFalse =>
      dsimp only at member
      split at member
      all_goals
        simp only [String.toList_append, String.toList_ofList,
          List.mem_append] at member
      · rcases member with (here | here) | here
        · exact Or.inl (List.mem_of_mem_take here)
        · exact Or.inr (.inr (by simpa using here))
        · exact Or.inl (List.mem_of_mem_drop here)
      · rcases member with (here | here) | here
        · exact Or.inr (by simpa using here)
        · exact Or.inr (.inl (zero _ here))
        · exact Or.inl here

theorem readExponent_repr (place : Int) :
    readExponent ((if place < 0 then '-' else '+') ::
      Nat.toDigits 10 place.natAbs) = place := by
  rw [readExponent, Nat.ofDigitChars_ten_toDigits]
  by_cases below : place < 0
  · rw [if_pos below, if_pos rfl]
    omega
  · rw [if_neg below, if_neg (by decide)]
    omega

/-- One digit, and the others after a point if there are any. -/
def mantissa (first : Char) (rest : List Char) : List Char :=
  first :: if rest.isEmpty then [] else '.' :: rest

theorem readPositional_mantissa {first : Char} {rest : List Char}
    (point : '.' ∉ first :: rest) :
    readPositional (mantissa first rest) =
      Nat.ofDigitChars 10 (first :: rest) 0 * 10 ^ (-rest.length : Int) := by
  have alone : '.' ∉ [first] := by
    intro member
    exact point (List.mem_cons.mpr (.inl (List.mem_singleton.mp member)))
  cases rest with
  | nil => simpa [mantissa] using readPositional_of_not_mem alone
  | cons second rest => exact readPositional_append alone (second :: rest)

theorem readMagnitude_writeExponent {first : Char} {rest : List Char}
    (point : '.' ∉ first :: rest) (mark : 'e' ∉ first :: rest) (place : Int) :
    readMagnitude (writeExponent (first :: rest) place).toList =
      Nat.ofDigitChars 10 (first :: rest) 0 * 10 ^ (place - rest.length) := by
  have sign : (if place < 0 then "-" else "+").toList =
      [if place < 0 then '-' else '+'] := by
    split <;> rfl
  have text : (writeExponent (first :: rest) place).toList =
      mantissa first rest ++ 'e' :: (if place < 0 then '-' else '+') ::
        Nat.toDigits 10 place.natAbs := by
    cases rest <;> simp [writeExponent, mantissa, sign]
  have absent : 'e' ∉ mantissa first rest := by
    cases rest <;> simp_all [mantissa]
  rw [text, readMagnitude_append absent, readPositional_mantissa point,
    readExponent_repr, mul_assoc, ← zpow_add₀ (by norm_num)]
  congr 2
  ring

/-- A decimal is read where it was written. -/
theorem readMagnitude_writeDecimal (numeric : layout.Numeric)
    (decimal : Decimal) :
    readMagnitude (layout.writeDecimal decimal).toList = decimal.value := by
  have isDigit : ∀ char ∈ Nat.toDigits 10 decimal.coefficient,
      char.isDigit = true :=
    fun _ => Nat.isDigit_of_mem_toDigits (by decide) (by decide)
  have point : '.' ∉ Nat.toDigits 10 decimal.coefficient :=
    not_mem_of_digits isDigit rfl
  have mark : 'e' ∉ Nat.toDigits 10 decimal.coefficient :=
    not_mem_of_digits isDigit rfl
  unfold writeDecimal
  dsimp only
  split
  case isTrue =>
      have absent : 'e' ∉ (layout.writePositional
          (Nat.toDigits 10 decimal.coefficient) decimal.power).toList := by
        intro member
        rcases mem_writePositional numeric member with here | here | here
        · exact mark here
        · cases here
        · cases here
      rw [readMagnitude_of_not_mem absent,
        readPositional_writePositional numeric point,
        Nat.ofDigitChars_ten_toDigits, value]
  case isFalse =>
      rcases List.exists_cons_of_ne_nil
        (@Nat.toDigits_ne_nil decimal.coefficient 10) with ⟨first, rest, written⟩
      have number := @Nat.ofDigitChars_ten_toDigits decimal.coefficient
      rw [written] at point mark number ⊢
      rw [readMagnitude_writeExponent point mark, number, value,
        List.length_cons]
      congr 2
      omega

theorem head?_writeDecimal (layout : FloatLayout) (decimal : Decimal) :
    ∃ first, (layout.writeDecimal decimal).toList.head? = some first ∧
      first.isDigit = true := by
  have isDigit : ∀ char ∈ Nat.toDigits 10 decimal.coefficient,
      char.isDigit = true :=
    fun _ => Nat.isDigit_of_mem_toDigits (by decide) (by decide)
  rcases List.exists_cons_of_ne_nil
    (@Nat.toDigits_ne_nil decimal.coefficient 10) with ⟨first, rest, written⟩
  rw [written] at isDigit
  have starts := isDigit first (List.mem_cons_self ..)
  unfold writeDecimal
  dsimp only
  rw [written]
  split
  case isFalse => exact ⟨first, by simp [writeExponent], starts⟩
  case isTrue =>
      unfold writePositional
      split
      case isTrue => exact ⟨first, by simp, starts⟩
      case isFalse =>
          dsimp only
          split
          case isFalse => exact ⟨'0', by simp, rfl⟩
          case isTrue inside =>
              obtain ⟨before, here⟩ : ∃ before : Nat,
                  ((first :: rest).length + decimal.power).toNat = before + 1 :=
                Nat.exists_eq_add_one_of_ne_zero (by omega)
              rw [here]
              exact ⟨first, by simp, starts⟩

/-! ## Writing doubles -/

/-- A double without its sign. -/
def writeParts (layout : FloatLayout) : FloatParts → String
  | .notANumber => "NaN"
  | .infinite _ => "inf"
  | .finite _ significand exponent =>
    if significand = 0 then "0" ++ layout.wholeMark
    else layout.writeDecimal (shortest layout.tie significand exponent)

/-- Whether a double has a minus sign. -/
def isNegative : FloatParts → Bool
  | .notANumber => false
  | .infinite negative => negative
  | .finite negative _ _ => negative

theorem write_eq (layout : FloatLayout) (number : Float) :
    layout.write number =
      (if isNegative (.ofFloat number) then "-" else "") ++
        layout.writeParts (.ofFloat number) := by
  unfold write
  cases FloatParts.ofFloat number <;> rfl

theorem head?_writeParts_finite (layout : FloatLayout) (negative : Bool)
    (significand : Nat) (exponent : Int) :
    ∃ first,
      (layout.writeParts (.finite negative significand exponent)).toList.head? =
        some first ∧ first.isDigit = true := by
  unfold writeParts
  dsimp only
  split
  · exact ⟨'0', by simp, rfl⟩
  · exact layout.head?_writeDecimal _

/-- A magnitude starts with a digit, or it is a word. -/
theorem head?_writeParts (layout : FloatLayout) (parts : FloatParts) :
    ∃ first rest, (layout.writeParts parts).toList = first :: rest ∧
      (first.isDigit = true ∨ first = 'N' ∨ first = 'i') := by
  cases parts with
  | notANumber => exact ⟨'N', ['a', 'N'], by simp [writeParts], .inr (.inl rfl)⟩
  | infinite negative =>
      exact ⟨'i', ['n', 'f'], by simp [writeParts], .inr (.inr rfl)⟩
  | finite negative significand exponent =>
      rcases layout.head?_writeParts_finite negative significand exponent with
        ⟨first, here, digit⟩
      rcases List.head?_eq_some_iff.mp here with ⟨rest, text⟩
      exact ⟨first, rest, text, .inl digit⟩

theorem ne_sign {first : Char}
    (starts : first.isDigit = true ∨ first = 'N' ∨ first = 'i') :
    first ≠ '-' := by
  rcases starts with digit | rfl | rfl
  · rintro rfl
    cases digit
  · decide
  · decide

/-- A double starts with its sign or with its magnitude. -/
theorem head?_write (layout : FloatLayout) (number : Float) :
    ∃ first rest, (layout.write number).toList = first :: rest ∧
      (first = '-' ∨ first.isDigit = true ∨ first = 'N' ∨ first = 'i') := by
  rcases layout.head?_writeParts (.ofFloat number) with
    ⟨first, rest, here, starts⟩
  rw [write_eq, String.toList_append, here]
  cases isNegative (.ofFloat number) with
  | false => exact ⟨first, rest, rfl, .inr starts⟩
  | true => exact ⟨'-', first :: rest, rfl, .inl rfl⟩

/-- A sign in front of texts that start with none can be told from them. -/
theorem sign_append_eq_iff {negative other : Prop} [Decidable negative]
    [Decidable other] {left right : String}
    (unsigned : ∀ first ∈ left.toList.head?, first ≠ '-')
    (alsoUnsigned : ∀ first ∈ right.toList.head?, first ≠ '-') :
    (if negative then "-" else "") ++ left =
        (if other then "-" else "") ++ right ↔
      (negative ↔ other) ∧ left = right := by
  rw [← String.toList_inj, ← @String.toList_inj left right]
  simp only [String.toList_append]
  by_cases first : negative <;> by_cases second : other
  · simp [first, second]
  · rw [if_pos first, if_neg second]
    refine iff_of_false (fun same => alsoUnsigned '-' ?_ rfl)
      fun both => second (both.1.mp first)
    rw [show right.toList = "".toList ++ right.toList from rfl, ← same]
    rfl
  · rw [if_neg first, if_pos second]
    refine iff_of_false (fun same => unsigned '-' ?_ rfl)
      fun both => first (both.1.mpr second)
    rw [show left.toList = "".toList ++ left.toList from rfl, same]
    rfl
  · simp [first, second]

theorem unsigned_writeParts (layout : FloatLayout) (parts : FloatParts) :
    ∀ first ∈ (layout.writeParts parts).toList.head?, first ≠ '-' := by
  rcases layout.head?_writeParts parts with ⟨first, rest, here, starts⟩
  rw [here]
  rintro _ ⟨⟩
  exact ne_sign starts

/-- The text of a double determines its sign and its magnitude. -/
theorem write_eq_iff {left right : Float} :
    layout.write left = layout.write right ↔
      (isNegative (.ofFloat left) = true ↔ isNegative (.ofFloat right) = true) ∧
        layout.writeParts (.ofFloat left) =
          layout.writeParts (.ofFloat right) := by
  rw [write_eq, write_eq, sign_append_eq_iff (unsigned_writeParts _ _)
    (unsigned_writeParts _ _)]

/-- What a finite double comes to in its shortest decimal, without its sign. -/
def magnitude (tie : Tie) (significand : Nat) (exponent : Int) : ℚ :=
  if significand = 0 then 0 else (shortest tie significand exponent).value

theorem readMagnitude_writeParts (numeric : layout.Numeric) (negative : Bool)
    (significand : Nat) (exponent : Int) :
    readMagnitude
        (layout.writeParts (.finite negative significand exponent)).toList =
      magnitude layout.tie significand exponent := by
  unfold writeParts magnitude
  dsimp only
  split
  · rcases numeric with none | mark
    · rw [none]
      simp [readMagnitude, readPositional, cut, readExponent, Nat.ofDigitChars]
    · rw [mark]
      simp [readMagnitude, readPositional, cut, readExponent, Nat.ofDigitChars]
  · exact readMagnitude_writeDecimal numeric _

/-- The magnitude of a finite double determines it. -/
theorem eq_of_magnitude_eq {tie : Tie} {significand mantissa : Nat}
    {exponent power : Int}
    (left : significand = 0 ∧ exponent = -1074 ∨ Double significand exponent)
    (right : mantissa = 0 ∧ power = -1074 ∨ Double mantissa power)
    (same : magnitude tie significand exponent = magnitude tie mantissa power) :
    significand = mantissa ∧ exponent = power := by
  unfold magnitude at same
  -- Zero lies in no interval, and any other number in one only.
  rcases left with ⟨rfl, rfl⟩ | left
  · rcases right with ⟨rfl, rfl⟩ | right
    · exact ⟨rfl, rfl⟩
    · have positive := right.pos_of_contains (contains_shortest tie right)
      rw [if_neg right.positive.ne', if_pos rfl] at same
      linarith
  · have here := contains_shortest tie left
    rcases right with ⟨rfl, rfl⟩ | right
    · have positive := left.pos_of_contains here
      rw [if_neg left.positive.ne', if_pos rfl] at same
      linarith
    · rw [if_neg left.positive.ne', if_neg right.positive.ne'] at same
      rw [same] at here
      exact left.eq_of_contains right here (contains_shortest tie right)

theorem writeParts_finite_ne {negative : Bool} {significand : Nat}
    {exponent : Int} {word : String}
    (letters : ∀ first ∈ word.toList.head?, first.isDigit = false) :
    layout.writeParts (.finite negative significand exponent) ≠ word := by
  rintro rfl
  rcases layout.head?_writeParts_finite negative significand exponent with
    ⟨first, starts, digit⟩
  rw [letters first starts] at digit
  cases digit

/-- No two doubles are written alike. -/
theorem write_injective (numeric : layout.Numeric) :
    Function.Injective layout.write := by
  intro left right same
  refine FloatParts.ofFloat_injective ?_
  rcases write_eq_iff.mp same with ⟨signs, magnitudes⟩
  have double := @FloatParts.double_of_finite left
  have other := @FloatParts.double_of_finite right
  generalize FloatParts.ofFloat left = first at *
  generalize FloatParts.ofFloat right = second at *
  rw [← Bool.eq_iff_iff] at signs
  -- Words start with letters and finite magnitudes with digits, so only what is
  -- of one kind can be written alike.
  have apart : "NaN" ≠ "inf" := by decide
  have word : ∀ first ∈ "NaN".toList.head?, first.isDigit = false := by
    rintro first ⟨⟩
    rfl
  have infinity : ∀ first ∈ "inf".toList.head?, first.isDigit = false := by
    rintro first ⟨⟩
    rfl
  match first, second with
  | .notANumber, .notANumber => rfl
  | .infinite _, .infinite _ => exact congrArg FloatParts.infinite signs
  | .notANumber, .infinite _ => exact absurd magnitudes apart
  | .infinite _, .notANumber => exact absurd magnitudes.symm apart
  | .notANumber, .finite _ _ _ =>
      exact absurd magnitudes.symm (writeParts_finite_ne word)
  | .infinite _, .finite _ _ _ =>
      exact absurd magnitudes.symm (writeParts_finite_ne infinity)
  | .finite _ _ _, .notANumber =>
      exact absurd magnitudes (writeParts_finite_ne word)
  | .finite _ _ _, .infinite _ =>
      exact absurd magnitudes (writeParts_finite_ne infinity)
  | .finite negative significand exponent, .finite _ _ _ =>
      have read := congrArg (readMagnitude ·.toList) magnitudes
      simp only [readMagnitude_writeParts numeric] at read
      rcases eq_of_magnitude_eq (double rfl) (other rfl) read with ⟨rfl, rfl⟩
      exact congrArg (FloatParts.finite · significand exponent) signs

/-! ## Whole numbers -/

theorem toDigits_mul_ten_pow {number : Nat} (positive : 0 < number)
    (count : Nat) :
    Nat.toDigits 10 (number * 10 ^ count) =
      Nat.toDigits 10 number ++ List.replicate count '0' := by
  induction count with
  | zero => simp
  | succ count induction =>
      have shifted : 0 < number * 10 ^ count := by positivity
      rw [List.replicate_succ', ← List.append_assoc, ← induction,
        Nat.pow_succ, ← Nat.mul_assoc, Nat.mul_comm _ 10]
      exact (Nat.toDigits_append_toDigits (by decide) shifted
        (by decide : 0 < 10)).symm

/-- A decimal without zeros at its end that is a whole number has no places
after the point. -/
theorem power_nonneg_of_value {decimal : Decimal} {number : Nat}
    (trimmed : decimal.coefficient % 10 ≠ 0)
    (same : decimal.value = number) : 0 ≤ decimal.power := by
  by_contra below
  obtain ⟨places, here⟩ : ∃ places : Nat, decimal.power = -(places + 1) :=
    ⟨(-decimal.power - 1).toNat, by omega⟩
  rw [value, here, zpow_neg, mul_inv_eq_iff_eq_mul₀ (by positivity)] at same
  have whole : decimal.coefficient = number * 10 ^ (places + 1) := by
    exact_mod_cast same
  rw [whole, Nat.pow_succ, ← Nat.mul_assoc] at trimmed
  exact trimmed (Nat.mul_mod_left _ 10)

/-- Without a mark, a decimal that is a whole number is written by the digits of
this number. -/
theorem writeDecimal_plain {decimal : Decimal} {number : Nat}
    (trimmed : decimal.coefficient % 10 ≠ 0)
    (same : decimal.value = number) :
    plain.writeDecimal decimal = String.ofList (Nat.toDigits 10 number) := by
  have whole := power_nonneg_of_value trimmed same
  obtain ⟨count, here⟩ := Int.eq_ofNat_of_zero_le whole
  have product : number = decimal.coefficient * 10 ^ count := by
    rw [value, here, zpow_natCast] at same
    exact_mod_cast same.symm
  rw [product, toDigits_mul_ten_pow (by omega)]
  simp [writeDecimal, writePositional, plain, here, zeros]

/-- A finite double is written like a natural number where its shortest decimal
is this number. -/
theorem writeParts_plain {negative : Bool} {significand : Nat} {exponent : Int}
    (double : significand = 0 ∧ exponent = -1074 ∨ Double significand exponent)
    (number : Nat) :
    plain.writeParts (.finite negative significand exponent) =
        String.ofList (Nat.toDigits 10 number) ↔
      magnitude plain.tie significand exponent = number := by
  have isDigit : ∀ char ∈ Nat.toDigits 10 number, char.isDigit = true :=
    fun _ => Nat.isDigit_of_mem_toDigits (by decide) (by decide)
  constructor
  · intro same
    rw [← readMagnitude_writeParts numeric_plain negative, same,
      String.toList_ofList,
      readMagnitude_of_not_mem (not_mem_of_digits isDigit rfl),
      readPositional_of_not_mem (not_mem_of_digits isDigit rfl),
      Nat.ofDigitChars_ten_toDigits]
  · intro same
    unfold magnitude at same
    unfold writeParts
    dsimp only
    rcases double with ⟨rfl, rfl⟩ | double
    · rw [if_pos rfl] at same ⊢
      obtain rfl : number = 0 := by exact_mod_cast same.symm
      rfl
    · rw [if_neg double.positive.ne'] at same ⊢
      exact writeDecimal_plain (trimmed_shortest plain.tie double) same

/-! ## Letters -/

/-- Whether a letter occurs in numbers, words for infinity and for what is not
a number among them. -/
def isNumeral (char : Char) : Bool :=
  char.isDigit || ['.', 'e', '-', '+', 'N', 'a', 'i', 'n', 'f'].contains char

theorem isNumeral_of_isDigit {char : Char} (digit : char.isDigit = true) :
    isNumeral char = true := by
  rw [isNumeral, digit, Bool.true_or]

theorem mem_writeExponent {place : Int} {char : Char}
    (member : char ∈ (writeExponent digits place).toList) :
    char ∈ digits ∨ isNumeral char = true := by
  have sign : char ∈ (if place < 0 then "-" else "+").toList →
      isNumeral char = true := by
    split
    all_goals
      intro here
      rw [List.mem_singleton.mp here]
      rfl
  have point : char ∈ (if (digits.drop 1).isEmpty then "" else ".").toList →
      isNumeral char = true := by
    split
    all_goals intro here
    · simp at here
    · rw [List.mem_singleton.mp here]
      rfl
  simp only [writeExponent, String.toList_append, String.toList_ofList,
    Nat.toList_repr, List.mem_append] at member
  rcases member with ((((here | here) | here) | here) | here) | here
  · exact Or.inl (List.mem_of_mem_take here)
  · exact Or.inr (point here)
  · exact Or.inl (List.mem_of_mem_drop here)
  · rw [List.mem_singleton.mp here]
    exact Or.inr rfl
  · exact Or.inr (sign here)
  · exact Or.inr (isNumeral_of_isDigit
      (Nat.isDigit_of_mem_toDigits (by decide) (by decide) here))

theorem mem_writeDecimal (numeric : layout.Numeric) {decimal : Decimal}
    {char : Char} (member : char ∈ (layout.writeDecimal decimal).toList) :
    isNumeral char = true := by
  have isDigit : char ∈ Nat.toDigits 10 decimal.coefficient →
      isNumeral char = true :=
    fun here => isNumeral_of_isDigit
      (Nat.isDigit_of_mem_toDigits (by decide) (by decide) here)
  unfold writeDecimal at member
  dsimp only at member
  split at member
  case isTrue =>
      rcases mem_writePositional numeric member with here | rfl | rfl
      · exact isDigit here
      · rfl
      · rfl
  case isFalse => exact (mem_writeExponent member).elim isDigit id

theorem mem_write (numeric : layout.Numeric) {number : Float} {char : Char}
    (member : char ∈ (layout.write number).toList) :
    isNumeral char = true := by
  rw [write_eq, String.toList_append, List.mem_append] at member
  generalize FloatParts.ofFloat number = parts at member
  rcases member with here | here
  · split at here
    · rw [List.mem_singleton.mp here]
      rfl
    · simp at here
  · have all : ["NaN", "inf", "0" ++ "", "0" ++ ".0"].all
        (·.toList.all isNumeral) = true := rfl
    have words : ∀ word ∈ ["NaN", "inf", "0" ++ "", "0" ++ ".0"],
        ∀ char ∈ word.toList, isNumeral char = true :=
      fun word inside => List.all_eq_true.mp (List.all_eq_true.mp all word inside)
    unfold writeParts at here
    split at here
    case h_1 | h_2 => exact words _ (by simp) char here
    case h_3 =>
        split at here
        case isFalse => exact mem_writeDecimal numeric here
        case isTrue =>
            rcases numeric with none | mark
            · rw [none] at here
              exact words _ (by simp) char here
            · rw [mark] at here
              exact words _ (by simp) char here

/-- A document shows by a letter that a number is a double. -/
theorem exists_mark (number : Float) :
    ∃ char ∈ (document.write number).toList,
      char.isDigit = false ∧ char ≠ '-' := by
  rw [write_eq, String.toList_append]
  generalize FloatParts.ofFloat number = parts
  suffices shown : ∃ char ∈ (document.writeParts parts).toList,
      char.isDigit = false ∧ char ≠ '-' by
    rcases shown with ⟨char, member, mark⟩
    exact ⟨char, List.mem_append_right _ member, mark⟩
  cases parts with
  | notANumber => exact ⟨'N', by simp [writeParts], rfl, by decide⟩
  | infinite => exact ⟨'i', by simp [writeParts], rfl, by decide⟩
  | finite negative significand exponent =>
      unfold writeParts writeDecimal writePositional
      dsimp only
      split
      · exact ⟨'.', by simp [document], rfl, by decide⟩
      · split
        · split
          · exact ⟨'.', by simp [document], rfl, by decide⟩
          · split
            · exact ⟨'.', by simp, rfl, by decide⟩
            · exact ⟨'.', by simp, rfl, by decide⟩
        · exact ⟨'e', by simp [writeExponent], rfl, by decide⟩

end FloatLayout

end EntityCatalog

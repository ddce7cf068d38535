import EntityCatalog.Proofs.Json.Compact
import EntityCatalog.Snapshot.Basic

/-!
# Values in snapshots

A snapshot keeps values as texts.  Among values as documents give them
(`Value.Structured`) the text determines the value, but for one confusion: a
whole number and a double whose shortest decimal it is are shown alike.  Values
that no document gives may be shown like others besides
(`Value.display_eq_iff`).  The text of an enum item is that of its value after
its key, so that a part of the one may also be read as a part of the other
(`EnumItem.text_eq_iff`); with plain keys it may not
(`EnumItem.text_eq_iff_of_plain`).
-/

namespace EntityCatalog

open Decimal

/-! ## Doubles shown as whole numbers -/

namespace FloatLayout

/-- Whether the shortest decimal of a double is a whole number.  That of the
negative zero is none. -/
def Shows (number : Float) (whole : Int) : Prop :=
  ∃ negative significand exponent,
    FloatParts.ofFloat number = .finite negative significand exponent ∧
      (negative = true ↔ whole < 0) ∧
      magnitude plain.tie significand exponent = whole.natAbs

theorem writeInteger_eq (whole : Int) :
    String.ofList (Json.writeInteger whole) =
      (if whole < 0 then "-" else "") ++
        String.ofList (Nat.toDigits 10 whole.natAbs) := by
  cases whole with
  | ofNat number =>
      have sign : ¬Int.ofNat number < 0 :=
        Int.not_lt.mpr (Int.natCast_nonneg number)
      rw [if_neg sign]
      simp [Json.writeInteger]
  | negSucc number =>
      rw [if_pos (Int.negSucc_lt_zero number)]
      simp [Json.writeInteger]

theorem isDigit_of_head?_toDigits {number : Nat} : ∀ first ∈
    (String.ofList (Nat.toDigits 10 number)).toList.head?,
      first.isDigit = true := by
  intro first starts
  rw [String.toList_ofList] at starts
  exact Nat.isDigit_of_mem_toDigits (by decide) (by decide)
    (List.mem_of_mem_head? starts)

theorem toDigits_ne {word : String} {number : Nat} {letter : Char}
    (starts : letter ∈ word.toList.head?) (other : letter.isDigit = false) :
    word ≠ String.ofList (Nat.toDigits 10 number) := by
  rintro rfl
  rw [isDigit_of_head?_toDigits letter starts] at other
  cases other

/-- A double is written like the whole number that it shows. -/
theorem write_plain_eq_iff (number : Float) (whole : Int) :
    plain.write number = String.ofList (Json.writeInteger whole) ↔
      Shows number whole := by
  have unsigned : ∀ first ∈ (String.ofList
      (Nat.toDigits 10 whole.natAbs)).toList.head?, first ≠ '-' :=
    fun first starts => ne_sign (.inl (isDigit_of_head?_toDigits first starts))
  rw [write_eq, writeInteger_eq,
    sign_append_eq_iff (unsigned_writeParts _ _) unsigned, Shows]
  have double := @FloatParts.double_of_finite number
  generalize FloatParts.ofFloat number = parts at double
  cases parts with
  | finite negative significand exponent =>
      rw [writeParts_plain (double rfl)]
      constructor
      · rintro ⟨signs, same⟩
        exact ⟨_, _, _, rfl, signs, same⟩
      · rintro ⟨_, _, _, ⟨⟩, signs, same⟩
        exact ⟨signs, same⟩
  | notANumber =>
      refine iff_of_false (fun both => ?_) (by rintro ⟨_, _, _, ⟨⟩, -⟩)
      exact @toDigits_ne _ _ 'N' (by simp [writeParts]) rfl both.2
  | infinite negative =>
      refine iff_of_false (fun both => ?_) (by rintro ⟨_, _, _, ⟨⟩, -⟩)
      exact @toDigits_ne _ _ 'i' (by simp [writeParts]) rfl both.2

end FloatLayout

/-! ## Values -/

namespace Value

/-- A value as documents give it: what is kept as JSON is an array or an object
whose numbers are finite. -/
def Structured : Value → Prop
  | .json payload =>
    payload.Finite ∧
      ((∃ items, payload = .array items) ∨ ∃ members, payload = .object members)
  | _ => True

/-- Values that a snapshot does not tell apart. -/
inductive Matches : Value → Value → Prop
  | same (value : Value) : Matches value value
  | whole {whole : Int64} {number : Float}
      (shows : FloatLayout.Shows number whole.toInt) :
      Matches (.integer whole) (.float number)
  | double {whole : Int64} {number : Float}
      (shows : FloatLayout.Shows number whole.toInt) :
      Matches (.float number) (.integer whole)
  /-- Values of the same text, one of which no document gives. -/
  | odd {left right : Value} (strange : ¬(left.Structured ∧ right.Structured))
      (shown : left.display = right.display) : Matches left right

/-- A value whose text is that of no other such value. -/
structure Plain (value : Value) : Prop where
  structured : value.Structured
  fraction : ∀ number, value = .float number → ∀ whole : Int64,
    ¬FloatLayout.Shows number whole.toInt

/-- No two plain values are taken for one another. -/
theorem matches_iff_of_plain {left right : Value} (first : left.Plain)
    (second : right.Plain) : left.Matches right ↔ left = right := by
  constructor
  · intro alike
    cases alike with
    | same => rfl
    | whole shows => exact absurd shows (second.fraction _ rfl _)
    | double shows => exact absurd shows (first.fraction _ rfl _)
    | odd strange => exact absurd ⟨first.structured, second.structured⟩ strange
  · rintro rfl
    exact .same left

/-- Forms with the truth values taken together, and so arrays and objects. -/
def coarse : Json.Form → Json.Form
  | .no => .yes
  | .object => .array
  | form => form

/-- What the first letter of a shown value tells about it. -/
def form? : Value → Option Json.Form
  | .null => some .null
  | .bool _ => some .yes
  | .integer _ => some .number
  | .float _ => some .number
  | .string _ => none
  | .json _ => some .array

theorem form?_of_display {value : Value} (structured : value.Structured) :
    ∃ first, value.display.toList.head? = some first ∧
      (Json.Form.ofLetter? first).map coarse = value.form? := by
  cases value with
  | null => exact ⟨'n', rfl, rfl⟩
  | bool value =>
      cases value with
      | false => exact ⟨'f', rfl, rfl⟩
      | true => exact ⟨'t', rfl, rfl⟩
  | integer value =>
      rcases Json.head?_writeInteger value.toInt with ⟨first, rest, here, starts⟩
      refine ⟨first, ?_, ?_⟩
      · rw [display, String.toList_ofList, here]
        rfl
      · rw [Json.ofLetter?_number (starts.imp_right Or.inl)]
        rfl
  | float value =>
      rcases FloatLayout.plain.head?_write value with ⟨first, rest, here, starts⟩
      refine ⟨first, ?_, ?_⟩
      · rw [display, here]
        rfl
      · rw [Json.ofLetter?_number starts]
        rfl
  | string value => exact ⟨Char.ofNat 39, by simp [display], rfl⟩
  | json payload =>
      rcases Json.form_of_write structured.1 with ⟨first, rest, here, shows⟩
      refine ⟨first, ?_, ?_⟩
      · rw [display, Json.compact, String.toList_ofList, here]
        rfl
      · rw [shows]
        rcases structured.2 with ⟨_, rfl⟩ | ⟨_, rfl⟩ <;> rfl

theorem form?_eq {left right : Value} (first : left.Structured)
    (second : right.Structured) (same : left.display = right.display) :
    left.form? = right.form? := by
  rcases form?_of_display first with ⟨letter, here, shows⟩
  rcases form?_of_display second with ⟨other, there, alsoShows⟩
  rw [same, there] at here
  cases here
  exact shows.symm.trans alsoShows

theorem display_bool_injective {left right : Bool}
    (same : (Value.bool left).display = (Value.bool right).display) :
    left = right := by
  revert same
  cases left <;> cases right <;> decide

theorem display_integer_injective {left right : Int64}
    (same : (Value.integer left).display = (Value.integer right).display) :
    left = right := by
  have digits := String.ofList_injective same
  exact Int64.toInt_inj.mp (Json.writeInteger_injective digits)

theorem display_string_injective {left right : String}
    (same : (Value.string left).display = (Value.string right).display) :
    left = right := by
  have texts := congrArg String.toList same
  simp only [display, String.toList_append] at texts
  exact String.toList_inj.mp
    (List.append_cancel_left (List.append_cancel_right texts))

/-- Among values as documents give them the shown text determines the value, but
for whole numbers and doubles that show them. -/
theorem matches_of_display_eq {left right : Value} (first : left.Structured)
    (second : right.Structured) (same : left.display = right.display) :
    left.Matches right := by
  have forms := form?_eq first second same
  match left, right, forms with
  | .null, .null, _ => exact .same _
  | .bool _, .bool _, _ => exact display_bool_injective same ▸ .same _
  | .integer _, .integer _, _ => exact display_integer_injective same ▸ .same _
  | .float _, .float _, _ =>
      have equal := FloatLayout.write_injective FloatLayout.numeric_plain same
      exact equal ▸ .same _
  | .integer _, .float _, _ =>
      exact .whole ((FloatLayout.write_plain_eq_iff _ _).mp same.symm)
  | .float _, .integer _, _ =>
      exact .double ((FloatLayout.write_plain_eq_iff _ _).mp same)
  | .string _, .string _, _ => exact display_string_injective same ▸ .same _
  | .json _, .json _, _ =>
      exact Json.compact_injective first.1 second.1 same ▸ .same _

/-- Values are shown alike where they match. -/
theorem display_eq_iff {left right : Value} :
    left.display = right.display ↔ left.Matches right := by
  constructor
  · intro same
    by_cases usual : left.Structured ∧ right.Structured
    · exact matches_of_display_eq usual.1 usual.2 same
    · exact .odd usual same
  · intro alike
    cases alike with
    | same => rfl
    | whole shows => exact ((FloatLayout.write_plain_eq_iff _ _).mpr shows).symm
    | double shows => exact (FloatLayout.write_plain_eq_iff _ _).mpr shows
    | odd _ shown => exact shown

theorem Matches.symm {left right : Value} (alike : left.Matches right) :
    right.Matches left :=
  display_eq_iff.mp (display_eq_iff.mpr alike).symm

end Value

/-! ## Items of enums -/

namespace EnumItem

/-- What stands in front of the value of an item. -/
def lead (item : EnumItem) : String :=
  match item.key with
  | some key => key ++ "="
  | none => ""

theorem text_eq (item : EnumItem) : item.text = item.lead ++ item.value.display := by
  rcases item with ⟨key, value⟩
  cases key with
  | none => exact (String.empty_append ..).symm
  | some key => rfl

theorem key_eq_of_lead_eq {left right : EnumItem}
    (same : left.lead = right.lead) : left.key = right.key := by
  rcases left with ⟨left, _⟩
  rcases right with ⟨right, _⟩
  have texts := congrArg String.toList same
  cases left <;> cases right <;> simp_all [lead]

/-- Whether the value of one item starts with the rest of the other's key. -/
def Blends (left right : EnumItem) : Prop :=
  ∃ tail, tail ≠ "" ∧ right.lead = left.lead ++ tail ∧
    left.value.display = tail ++ right.value.display

/-- Items that a snapshot does not tell apart. -/
def Matches (left right : EnumItem) : Prop :=
  left.key = right.key ∧ left.value.Matches right.value ∨
    left.Blends right ∨ right.Blends left

/-- Where one item's text goes on into its value first, the value holds what is
left of the other's key. -/
theorem matches_of_append {left right : EnumItem} {tail : List Char}
    (leads : right.lead.toList = left.lead.toList ++ tail)
    (values : left.value.display.toList =
      tail ++ right.value.display.toList) :
    left.key = right.key ∧ left.value.Matches right.value ∨
      left.Blends right := by
  cases tail with
  | nil =>
      rw [List.append_nil] at leads
      rw [List.nil_append] at values
      exact Or.inl ⟨key_eq_of_lead_eq (String.toList_inj.mp leads).symm,
        Value.display_eq_iff.mp (String.toList_inj.mp values)⟩
  | cons letter tail =>
      refine Or.inr ⟨String.ofList (letter :: tail), by simp, ?_, ?_⟩
      · rw [← String.toList_inj]
        simpa using leads
      · rw [← String.toList_inj]
        simpa using values

/-- The text of an item determines its key and its value, but for the sign
between them, which may as well be a part of the key or of the value. -/
theorem text_eq_iff {left right : EnumItem} :
    left.text = right.text ↔ left.Matches right := by
  rw [text_eq, text_eq]
  constructor
  · intro same
    have texts := congrArg String.toList same
    simp only [String.toList_append] at texts
    -- One of the two leads is the beginning of the other.
    rcases List.append_eq_append_iff.mp texts with
      ⟨tail, leads, values⟩ | ⟨tail, leads, values⟩
    · rcases matches_of_append leads values with alike | blends
      · exact Or.inl alike
      · exact Or.inr (.inl blends)
    · rcases matches_of_append leads values with alike | blends
      · exact Or.inl ⟨alike.1.symm, alike.2.symm⟩
      · exact Or.inr (.inr blends)
  · rintro (⟨keys, values⟩ | ⟨tail, -, leads, values⟩ | ⟨tail, -, leads, values⟩)
    · rw [Value.display_eq_iff.mpr values, lead, lead, keys]
    · rw [leads, values, String.append_assoc]
    · rw [leads, values, String.append_assoc]

example : (⟨some "a='b", .string "c"⟩ : EnumItem).text =
    (⟨some "a", .string "b='c"⟩ : EnumItem).text :=
  rfl

/-- Whether a letter starts strings, arrays or objects. -/
def Opens (letter : Char) : Prop :=
  letter = Char.ofNat 39 ∨ letter = '[' ∨ letter = '\x7b'

/-- Only in strings, arrays and objects the sign stands that separates keys from
values. -/
theorem opens_of_mem_display {value : Value} (structured : value.Structured)
    (member : '=' ∈ value.display.toList) :
    ∃ first ∈ value.display.toList.head?, Opens first := by
  cases value with
  | null => exact absurd member (by decide)
  | bool value => exact absurd member (by cases value <;> decide)
  | integer value =>
      rw [Value.display, String.toList_ofList] at member
      rcases Json.mem_writeInteger member with digit | sign
      · cases digit
      · cases sign
  | float value =>
      have letter := FloatLayout.mem_write FloatLayout.numeric_plain member
      cases letter
  | string value => exact ⟨Char.ofNat 39, by simp [Value.display], .inl rfl⟩
  | json payload =>
      rw [Value.display, Json.compact, String.toList_ofList]
      rcases structured.2 with ⟨items, rfl⟩ | ⟨members, rfl⟩
      · exact ⟨'[', by cases items <;> rfl, .inr (.inl rfl)⟩
      · exact ⟨'\x7b', by cases members <;> rfl, .inr (.inr rfl)⟩

/-- A key that cannot be taken for a part of a value. -/
structure PlainKey (key : String) : Prop where
  /-- It holds no sign as stands between keys and values. -/
  unsigned : '=' ∉ key.toList
  /-- It does not start like a string, an array or an object. -/
  starts : ∀ first ∈ key.toList.head?, ¬Opens first

/-- No value goes on with a plain key and the sign after it. -/
theorem display_ne_of_plainKey {value other : Value} {key : String}
    (structured : value.Structured) (plain : PlainKey key) :
    value.display ≠ key ++ "=" ++ other.display := by
  intro same
  have texts := congrArg String.toList same
  simp only [String.toList_append] at texts
  -- The value holds a sign, so it starts like a string, an array or an object,
  -- and the key does not.
  rcases opens_of_mem_display structured (by simp [texts]) with
    ⟨first, starts, opens⟩
  rw [texts] at starts
  cases written : key.toList with
  | nil =>
      rw [written] at starts
      cases starts
      rcases opens with wrong | wrong | wrong <;> cases wrong
  | cons letter rest =>
      rw [written] at starts
      cases starts
      exact plain.starts first (by simp [written]) opens

theorem lead_ne_of_plainKey {key short tail : String} (plain : PlainKey key)
    (longer : tail ≠ "") : key ++ "=" ≠ short ++ "=" ++ tail := by
  intro same
  have letters := congrArg String.toList same
  have whole : key.toList ++ ['='] = short.toList ++ '=' :: tail.toList := by
    simpa using letters
  have some : tail.toList ≠ [] := fun none => longer (String.toList_inj.mp none)
  -- The sign after the shorter key stands in the longer one.
  have inside := congrArg List.dropLast whole
  rw [List.dropLast_concat, List.dropLast_append_cons,
    List.dropLast_cons_of_ne_nil some] at inside
  exact plain.unsigned (by simp [inside])

theorem not_blends {left right : EnumItem} (structured : left.value.Structured)
    (plain : ∀ key ∈ right.key, PlainKey key) : ¬left.Blends right := by
  rintro ⟨tail, longer, leads, values⟩
  rcases left with ⟨leftKey, value⟩
  rcases right with ⟨rightKey, other⟩
  cases rightKey with
  | none =>
      have letters := congrArg String.toList leads
      rw [String.toList_append] at letters
      refine longer (String.toList_inj.mp ?_)
      exact (List.append_eq_nil_iff.mp letters.symm).2
  | some key =>
      cases leftKey with
      | none =>
          have whole : tail = key ++ "=" := by
            simpa [lead] using leads.symm
          rw [whole] at values
          exact display_ne_of_plainKey structured (plain key rfl) values
      | some short => exact lead_ne_of_plainKey (plain key rfl) longer leads

/-- An item whose text can be read in one way only. -/
structure Plain (item : EnumItem) : Prop where
  key : ∀ key ∈ item.key, PlainKey key
  value : item.value.Plain

/-- No two plain items are taken for one another. -/
theorem matches_iff_of_plain {left right : EnumItem} (first : left.Plain)
    (second : right.Plain) : left.Matches right ↔ left = right := by
  have apart : ¬(left.Blends right ∨ right.Blends left) :=
    not_or.mpr ⟨not_blends first.value.structured second.key,
      not_blends second.value.structured first.key⟩
  rw [Matches, or_iff_left apart,
    Value.matches_iff_of_plain first.value second.value, EnumItem.mk.injEq]

end EnumItem

end EntityCatalog

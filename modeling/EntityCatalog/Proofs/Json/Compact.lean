import EntityCatalog.Proofs.Decimal.Layout
import EntityCatalog.Proofs.Json.Spelling

/-!
# Documents without blanks

A JSON value whose numbers are finite is determined by its document without
blanks (`compact_injective`).  Values stand one after another in a document,
so the induction is on values in front of what may follow one (`Closes`): both
the value and what follows it are determined (`Determined`).
-/

namespace EntityCatalog.Json

/-- A value whose numbers are finite. -/
inductive Finite : Json → Prop
  | null : Finite .null
  | bool (value : Bool) : Finite (.bool value)
  | integer (value : Int) : Finite (.integer value)
  | float {value : Float} (finite : value.isFinite = true) :
      Finite (.float value)
  | string (value : String) : Finite (.string value)
  | array {items : List Json} (all : ∀ item ∈ items, Finite item) :
      Finite (.array items)
  | object {members : List (String × Json)}
      (all : ∀ member ∈ members, Finite member.2) : Finite (.object members)

/-! ## Ends of values -/

/-- A text that may follow a value. -/
def Closes (text : List Char) : Prop :=
  ∀ char ∈ text.head?, char = ',' ∨ char = ']' ∨ char = '\x7d'

theorem closes_nil : Closes [] :=
  fun _ absent => nomatch absent

/-! ## Numbers -/

/-- The letters of numbers end where something else follows. -/
theorem eq_of_append_eq {left right after rest : List Char}
    (first : ∀ char ∈ left, FloatLayout.isNumeral char = true)
    (second : ∀ char ∈ right, FloatLayout.isNumeral char = true)
    (closes : Closes after) (ends : Closes rest)
    (same : left ++ after = right ++ rest) : left = right ∧ after = rest := by
  have stops {text : List Char} (closes : Closes text) :
      text.takeWhile FloatLayout.isNumeral = [] := by
    cases text with
    | nil => rfl
    | cons char text =>
        refine List.takeWhile_cons_of_neg ?_
        rcases closes char rfl with rfl | rfl | rfl <;> decide
  -- Both numbers are what is taken off the same text.
  have taken := congrArg (List.takeWhile FloatLayout.isNumeral) same
  rw [List.takeWhile_append_of_pos first, List.takeWhile_append_of_pos second,
    stops closes, stops ends, List.append_nil, List.append_nil] at taken
  subst taken
  exact ⟨rfl, List.append_cancel_left same⟩

theorem mem_writeInteger {number : Int} {char : Char}
    (member : char ∈ writeInteger number) :
    char.isDigit = true ∨ char = '-' := by
  have digit {magnitude : Nat} (here : char ∈ Nat.toDigits 10 magnitude) :
      char.isDigit = true :=
    Nat.isDigit_of_mem_toDigits (by decide) (by decide) here
  cases number with
  | ofNat magnitude => exact Or.inl (digit member)
  | negSucc magnitude =>
      rcases List.mem_cons.mp member with sign | here
      · exact Or.inr sign
      · exact Or.inl (digit here)

theorem writeInteger_injective : Function.Injective writeInteger := by
  intro left right same
  have reads := readNumeral?_writeInteger left apart_nil
  rw [same, readNumeral?_writeInteger right apart_nil] at reads
  have spelled : Numeral.ofInteger right = Numeral.ofInteger left := by
    simpa using reads
  simp only [Numeral.ofInteger, Numeral.mk.injEq, decide_eq_decide] at spelled
  have magnitudes := congrArg (Nat.ofDigitChars 10 · 0) spelled.2.1
  simp only [Nat.ofDigitChars_ten_toDigits] at magnitudes
  omega

/-! ## First letters -/

/-- What the first letter of a value tells about it. -/
inductive Form where
  | null
  | yes
  | no
  | number
  | text
  | array
  | object
  deriving DecidableEq, Repr

/-- The form of the values that start with a letter. -/
def Form.ofLetter? (letter : Char) : Option Form :=
  if letter.isDigit || letter = '-' || letter = 'N' || letter = 'i' then
    some .number
  else
    match letter with
    | 'n' => some .null
    | 't' => some .yes
    | 'f' => some .no
    | '"' => some .text
    | '[' => some .array
    | '\x7b' => some .object
    | _ => none

/-- The form of a value. -/
def form : Json → Form
  | .null => .null
  | .bool true => .yes
  | .bool false => .no
  | .integer _ => .number
  | .float _ => .number
  | .string _ => .text
  | .array _ => .array
  | .object _ => .object

theorem head?_writeInteger (number : Int) :
    ∃ first rest, writeInteger number = first :: rest ∧
      (first = '-' ∨ first.isDigit = true) := by
  cases written : writeInteger number with
  | nil => cases number <;> simp [writeInteger] at written
  | cons first rest =>
      have member : first ∈ writeInteger number := by simp [written]
      exact ⟨first, rest, rfl, (mem_writeInteger member).symm⟩

theorem ofLetter?_number {first : Char}
    (starts : first = '-' ∨ first.isDigit = true ∨ first = 'N' ∨ first = 'i') :
    Form.ofLetter? first = some .number := by
  unfold Form.ofLetter?
  rw [if_pos]
  rcases starts with rfl | digit | rfl | rfl
  · rfl
  · rw [digit]
    rfl
  · rfl
  · rfl

/-- The first letter of a value shows its form. -/
theorem form_of_write {value : Json} (finite : Finite value) :
    ∃ first rest, value.write none = first :: rest ∧
      Form.ofLetter? first = some value.form := by
  cases finite with
  | null => exact ⟨'n', ['u', 'l', 'l'], rfl, rfl⟩
  | bool value =>
      cases value with
      | false => exact ⟨'f', ['a', 'l', 's', 'e'], rfl, rfl⟩
      | true => exact ⟨'t', ['r', 'u', 'e'], rfl, rfl⟩
  | integer value =>
      rcases head?_writeInteger value with ⟨first, rest, here, starts⟩
      exact ⟨first, rest, here,
        ofLetter?_number (starts.imp_right Or.inl)⟩
  | @float value finite =>
      rcases FloatLayout.document.head?_write value with
        ⟨first, rest, here, starts⟩
      refine ⟨first, rest, ?_, ofLetter?_number starts⟩
      rw [write, writeFloat, if_pos finite, here]
  | string => exact ⟨'"', _, rfl, rfl⟩
  | @array items => cases items <;> exact ⟨'[', _, rfl, rfl⟩
  | @object members => cases members <;> exact ⟨'\x7b', _, rfl, rfl⟩

theorem form_eq {value other : Json} (finite : Finite value)
    (alsoFinite : Finite other) {after rest : List Char}
    (same : value.write none ++ after = other.write none ++ rest) :
    value.form = other.form := by
  rcases form_of_write finite with ⟨first, _, here, shows⟩
  rcases form_of_write alsoFinite with ⟨second, _, there, alsoShows⟩
  rw [here, there] at same
  rw [(List.cons.inj same).1, alsoShows] at shows
  exact (Option.some.inj shows).symm

theorem write_ne_closing {value : Json} (finite : Finite value)
    {closing : Char} (closes : closing = ']' ∨ closing = '\x7d')
    {after rest : List Char} : value.write none ++ after ≠ closing :: rest := by
  intro same
  rcases form_of_write finite with ⟨first, _, here, shows⟩
  rw [here] at same
  rw [(List.cons.inj same).1] at shows
  rcases closes with rfl | rfl <;> cases shows

/-! ## Values in a row -/

/-- A value in front of what may follow it, and what follows, are determined by
their text. -/
def Determined (value : Json) : Prop :=
  ∀ other, Finite other → ∀ after rest, Closes after → Closes rest →
    value.write none ++ after = other.write none ++ rest →
      value = other ∧ after = rest

theorem closes_writeItems (items : List Json) (after : List Char) :
    Closes (writeItems none items ++ after) := by
  intro char first
  cases items with
  | nil =>
      cases first
      exact Or.inr (.inl rfl)
  | cons item items =>
      cases first
      exact Or.inl rfl

theorem closes_writeMembers (members : List (String × Json))
    (after : List Char) : Closes (writeMembers none members ++ after) := by
  intro char first
  cases members with
  | nil =>
      cases first
      exact Or.inr (.inr rfl)
  | cons member members =>
      cases first
      exact Or.inl rfl

/-- Items are determined where each of them is. -/
theorem items_eq {items others : List Json}
    (determined : ∀ item ∈ items, Determined item)
    (finite : ∀ item ∈ others, Finite item) {after rest : List Char}
    (same : writeItems none items ++ after = writeItems none others ++ rest) :
    items = others ∧ after = rest := by
  induction items generalizing others with
  | nil =>
      cases others with
      | nil => exact ⟨rfl, (List.cons.inj same).2⟩
      | cons other others => cases (List.cons.inj same).1
  | cons item items induction =>
      cases others with
      | nil => cases (List.cons.inj same).1
      | cons other others =>
          have texts : item.write none ++ (writeItems none items ++ after) =
              other.write none ++ (writeItems none others ++ rest) := by
            simpa [writeItems, Spacing.deeper, Spacing.line] using same
          rcases determined item (List.mem_cons_self ..) other
            (finite other (List.mem_cons_self ..)) _ _
            (closes_writeItems items after) (closes_writeItems others rest)
            texts with ⟨rfl, remaining⟩
          rcases induction
            (fun item here => determined item (List.mem_cons_of_mem _ here))
            (fun item here => finite item (List.mem_cons_of_mem _ here))
            remaining with ⟨rfl, equal⟩
          exact ⟨rfl, equal⟩

theorem encode_append_eq {key other : String} {after rest : List Char}
    (same : Text.Quoted.encode key ++ after =
      Text.Quoted.encode other ++ rest) : key = other ∧ after = rest := by
  have first := readString_of_spells
    (Text.Quoted.spells_escape key.toList) after
  have second := readString_of_spells
    (Text.Quoted.spells_escape other.toList) rest
  have texts : key.toList.flatMap Text.Quoted.escape ++ '"' :: after =
      other.toList.flatMap Text.Quoted.escape ++ '"' :: rest := by
    simpa [Text.Quoted.encode] using same
  rw [texts, second] at first
  cases first
  exact ⟨rfl, rfl⟩

theorem members_eq {members others : List (String × Json)}
    (determined : ∀ member ∈ members, Determined member.2)
    (finite : ∀ member ∈ others, Finite member.2) {after rest : List Char}
    (same : writeMembers none members ++ after =
      writeMembers none others ++ rest) : members = others ∧ after = rest := by
  -- As for items, but each value has a key in front.
  induction members generalizing others with
  | nil =>
      cases others with
      | nil => exact ⟨rfl, (List.cons.inj same).2⟩
      | cons other others => cases (List.cons.inj same).1
  | cons member members induction =>
      cases others with
      | nil => cases (List.cons.inj same).1
      | cons other others =>
          rcases member with ⟨key, value⟩
          rcases other with ⟨otherKey, otherValue⟩
          have texts : Text.Quoted.encode key ++ ':' ::
              (value.write none ++ (writeMembers none members ++ after)) =
              Text.Quoted.encode otherKey ++ ':' ::
              (otherValue.write none ++ (writeMembers none others ++ rest)) := by
            simpa [writeMembers, Spacing.deeper, Spacing.line, Spacing.colon]
              using same
          rcases encode_append_eq texts with ⟨rfl, values⟩
          obtain ⟨rfl, remaining⟩ : value = otherValue ∧ _ :=
            determined _ (List.mem_cons_self ..) otherValue
              (finite _ (List.mem_cons_self ..)) _ _
              (closes_writeMembers members after)
              (closes_writeMembers others rest) (List.cons.inj values).2
          rcases induction
            (fun member here => determined member (List.mem_cons_of_mem _ here))
            (fun member here => finite member (List.mem_cons_of_mem _ here))
            remaining with ⟨rfl, equal⟩
          exact ⟨rfl, equal⟩

theorem isNumeral_of_mem_writeInteger {number : Int} :
    ∀ char ∈ writeInteger number, FloatLayout.isNumeral char = true := by
  intro char member
  rcases mem_writeInteger member with digit | rfl
  · exact FloatLayout.isNumeral_of_isDigit digit
  · rfl

theorem write_float {value : Float} (finite : value.isFinite = true) :
    (Json.float value).write none =
      (FloatLayout.document.write value).toList := by
  rw [write, writeFloat, if_pos finite]

theorem isNumeral_of_mem_write {value : Float} :
    ∀ char ∈ (FloatLayout.document.write value).toList,
      FloatLayout.isNumeral char = true :=
  fun _ => FloatLayout.mem_write FloatLayout.numeric_document

/-- In documents no double is written like a whole number. -/
theorem write_float_ne_writeInteger (value : Float) (number : Int) :
    (FloatLayout.document.write value).toList ≠ writeInteger number := by
  intro same
  rcases FloatLayout.exists_mark value with ⟨char, member, mark, unsigned⟩
  rw [same] at member
  rcases mem_writeInteger member with digit | sign
  · rw [digit] at mark
    cases mark
  · exact unsigned sign

theorem determined_integer (value : Int) : Determined (.integer value) := by
  intro other finite after rest closes ends same
  have shape := form_eq (.integer value) finite same
  cases finite with
  | integer other =>
      rcases eq_of_append_eq isNumeral_of_mem_writeInteger
        isNumeral_of_mem_writeInteger closes ends same with ⟨numbers, equal⟩
      exact ⟨congrArg Json.integer (writeInteger_injective numbers), equal⟩
  | @float other finite =>
      rw [write_float finite] at same
      have numbers := (eq_of_append_eq isNumeral_of_mem_writeInteger
        isNumeral_of_mem_write closes ends same).1
      exact absurd numbers.symm (write_float_ne_writeInteger other value)
  | bool other => cases other <;> cases shape
  | _ => cases shape

theorem determined_float {value : Float} (finite : value.isFinite = true) :
    Determined (.float value) := by
  intro other alsoFinite after rest closes ends same
  have shape := form_eq (.float finite) alsoFinite same
  rw [write_float finite] at same
  cases alsoFinite with
  | integer other =>
      have numbers := (eq_of_append_eq isNumeral_of_mem_write
        isNumeral_of_mem_writeInteger closes ends same).1
      exact absurd numbers (write_float_ne_writeInteger value other)
  | @float other finite =>
      rw [write_float finite] at same
      rcases eq_of_append_eq isNumeral_of_mem_write isNumeral_of_mem_write
        closes ends same with ⟨numbers, equal⟩
      have values := FloatLayout.write_injective FloatLayout.numeric_document
        (String.toList_inj.mp numbers)
      exact ⟨congrArg Json.float values, equal⟩
  | bool other => cases other <;> cases shape
  | _ => cases shape

/-- Arrays are determined where their items are. -/
theorem array_eq {items others : List Json}
    (determined : ∀ item ∈ items, Determined item)
    (finite : ∀ item ∈ items, Finite item)
    (alsoFinite : ∀ item ∈ others, Finite item) {after rest : List Char}
    (same : (Json.array items).write none ++ after =
      (Json.array others).write none ++ rest) :
    items = others ∧ after = rest := by
  cases items with
  | nil =>
      cases others with
      | nil => exact ⟨rfl, List.append_cancel_left same⟩
      | cons other others =>
          have closing : other.write none ++ (writeItems none others ++ rest) =
              ']' :: after := by
            simpa [write, Spacing.deeper, Spacing.line] using same.symm
          exact absurd closing
            (write_ne_closing (alsoFinite other (by simp)) (.inl rfl))
  | cons item items =>
      cases others with
      | nil =>
          have closing : item.write none ++ (writeItems none items ++ after) =
              ']' :: rest := by
            simpa [write, Spacing.deeper, Spacing.line] using same
          exact absurd closing
            (write_ne_closing (finite item (by simp)) (.inl rfl))
      | cons other others =>
          -- The first item is written like any other, but for the comma.
          refine items_eq determined alsoFinite ?_
          simpa [write, writeItems, Spacing.deeper, Spacing.line] using same

theorem object_eq {members others : List (String × Json)}
    (determined : ∀ member ∈ members, Determined member.2)
    (finite : ∀ member ∈ others, Finite member.2) {after rest : List Char}
    (same : (Json.object members).write none ++ after =
      (Json.object others).write none ++ rest) :
    members = others ∧ after = rest := by
  cases members with
  | nil =>
      cases others with
      | nil => exact ⟨rfl, List.append_cancel_left same⟩
      | cons other others => cases (List.cons.inj (List.cons.inj same).2).1
  | cons member members =>
      cases others with
      | nil => cases (List.cons.inj (List.cons.inj same).2).1
      | cons other others =>
          refine members_eq determined finite ?_
          simpa [write, writeMembers, Spacing.deeper, Spacing.line] using same

/-- Every value with finite numbers is determined by its text. -/
theorem determined {value : Json} (finite : Finite value) :
    Determined value := by
  -- The other value is of the same form, which leaves one constructor for it;
  -- only numbers of two kinds share a form.
  induction finite with
  | integer value => exact determined_integer value
  | float finite => exact determined_float finite
  | null =>
      intro other finite after rest closes ends same
      have shape := form_eq .null finite same
      cases finite with
      | null => exact ⟨rfl, List.append_cancel_left same⟩
      | bool value => cases value <;> cases shape
      | _ => cases shape
  | bool value =>
      intro other finite after rest closes ends same
      have shape := form_eq (.bool value) finite same
      cases finite with
      | bool other =>
          cases value <;> cases other <;> cases shape
          · exact ⟨rfl, List.append_cancel_left same⟩
          · exact ⟨rfl, List.append_cancel_left same⟩
      | _ => cases value <;> cases shape
  | string value =>
      intro other finite after rest closes ends same
      have shape := form_eq (.string value) finite same
      cases finite with
      | string other =>
          rcases encode_append_eq same with ⟨rfl, equal⟩
          exact ⟨rfl, equal⟩
      | bool other => cases other <;> cases shape
      | _ => cases shape
  | @array items finite induction =>
      intro other alsoFinite after rest closes ends same
      have shape := form_eq (.array finite) alsoFinite same
      cases alsoFinite with
      | array alsoFinite =>
          rcases array_eq induction finite alsoFinite same with ⟨rfl, equal⟩
          exact ⟨rfl, equal⟩
      | bool other => cases other <;> cases shape
      | _ => cases shape
  | @object members finite induction =>
      intro other alsoFinite after rest closes ends same
      have shape := form_eq (.object finite) alsoFinite same
      cases alsoFinite with
      | object alsoFinite =>
          rcases object_eq induction alsoFinite same with ⟨rfl, equal⟩
          exact ⟨rfl, equal⟩
      | bool other => cases other <;> cases shape
      | _ => cases shape

/-- The document without blanks determines a value with finite numbers. -/
theorem compact_injective {value other : Json} (finite : Finite value)
    (alsoFinite : Finite other) (same : value.compact = other.compact) :
    value = other := by
  have texts := String.ofList_injective same
  refine (determined finite other alsoFinite [] [] closes_nil closes_nil ?_).1
  rw [texts]

end EntityCatalog.Json

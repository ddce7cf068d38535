import EntityCatalog.Json.Decode
import EntityCatalog.Proofs.Json.Numerals
import EntityCatalog.Proofs.Text.Quoted

/-!
# Spellings of documents

A JSON value whose numbers are whole has many spellings: blanks may stand
between its parts and strings may be escaped in several ways.  `Spells` is the
grammar of these spellings, written without the reader.  Reading a spelling
gives the value's node (`ofText_of_spells`), so it understands whatever the
grammar admits, and what is written with either spacing is a spelling
(`spells_write`).
-/

namespace EntityCatalog.Json

/-! ## The grammar -/

/-- A text of blanks. -/
def Blank (text : List Char) : Prop :=
  ∀ char ∈ text, isBlank char = true

mutual

/-- A text is a spelling of a value, without blanks around it. -/
inductive Spells : Json → List Char → Prop
  | null : Spells .null ['n', 'u', 'l', 'l']
  | yes : Spells (.bool true) ['t', 'r', 'u', 'e']
  | no : Spells (.bool false) ['f', 'a', 'l', 's', 'e']
  | integer {number : Int} (inRange : InRange number) :
      Spells (.integer number) (writeInteger number)
  | string {value : String} {body : List Char}
      (spells : Text.Quoted.Spells value.toList body) :
      Spells (.string value) ('"' :: body ++ ['"'])
  | empty {blank : List Char} (blanks : Blank blank) :
      Spells (.array []) ('[' :: blank ++ [']'])
  | array {items : List Json} {text : List Char}
      (spells : SpellsItems items text) : Spells (.array items) ('[' :: text)
  | bare {blank : List Char} (blanks : Blank blank) :
      Spells (.object []) ('\x7b' :: blank ++ ['\x7d'])
  | object {members : List (String × Json)} {text : List Char}
      (spells : SpellsMembers members text) :
      Spells (.object members) ('\x7b' :: text)

/-- A text is a spelling of the items of an array, with its end. -/
inductive SpellsItems : List Json → List Char → Prop
  | last {item : Json} {before text after : List Char} (leading : Blank before)
      (spells : Spells item text) (trailing : Blank after) :
      SpellsItems [item] (before ++ (text ++ (after ++ [']'])))
  | more {item : Json} {items : List Json} {before text after rest : List Char}
      (leading : Blank before) (spells : Spells item text)
      (trailing : Blank after) (others : SpellsItems items rest) :
      SpellsItems (item :: items) (before ++ (text ++ (after ++ ',' :: rest)))

/-- A text is a spelling of the members of an object, with its end. -/
inductive SpellsMembers : List (String × Json) → List Char → Prop
  | last {key : String} {value : Json}
      {before body between gap text after : List Char} (leading : Blank before)
      (named : Text.Quoted.Spells key.toList body) (closing : Blank between)
      (opening : Blank gap) (spells : Spells value text)
      (trailing : Blank after) :
      SpellsMembers [(key, value)]
        (before ++ '"' :: (body ++ '"' :: (between ++ ':' ::
          (gap ++ (text ++ (after ++ ['\x7d']))))))
  | more {key : String} {value : Json} {members : List (String × Json)}
      {before body between gap text after rest : List Char}
      (leading : Blank before) (named : Text.Quoted.Spells key.toList body)
      (closing : Blank between) (opening : Blank gap)
      (spells : Spells value text) (trailing : Blank after)
      (others : SpellsMembers members rest) :
      SpellsMembers ((key, value) :: members)
        (before ++ '"' :: (body ++ '"' :: (between ++ ':' ::
          (gap ++ (text ++ (after ++ ',' :: rest))))))

end

/-! ## Nodes of values -/

mutual

/-- The node of a value. -/
def node : Json → Node
  | .null => .null
  | .bool value => .bool value
  | .integer value => .number (some (.integer value))
  | .float value => .number (some (.float value))
  | .string value => .string (some value)
  | .array items => .array (nodes items) true
  | .object members => .object (memberNodes members) true

/-- The nodes of items. -/
def nodes : List Json → List Node
  | [] => []
  | item :: rest => item.node :: nodes rest

/-- The nodes of members. -/
def memberNodes : List (String × Json) → List (Node × Node)
  | [] => []
  | (key, value) :: rest =>
    (.string (some key), value.node) :: memberNodes rest

end

/-! ## Blanks -/

theorem skipBlanks_append {blank : List Char} (blanks : Blank blank)
    (text : List Char) : skipBlanks (blank ++ text) = skipBlanks text :=
  List.dropWhile_append_of_pos blanks

theorem skipBlanks_cons {char : Char} (other : isBlank char = false)
    (text : List Char) : skipBlanks (char :: text) = char :: text := by
  rw [skipBlanks, List.dropWhile_cons, if_neg (by simp [other])]

/-- No number goes on with blanks. -/
theorem apart_append {blank : List Char} (blanks : Blank blank)
    {text : List Char} (apart : Apart text) : Apart (blank ++ text) := by
  cases blank with
  | nil => exact apart
  | cons first rest =>
      intro char equal
      cases equal
      have blank := blanks first (List.mem_cons_self ..)
      simp only [isBlank, Bool.or_eq_true, decide_eq_true_eq] at blank
      rcases blank with ((rfl | rfl) | rfl) | rfl <;> decide

theorem apart_cons (char : Char)
    (other : char = ',' ∨ char = ']' ∨ char = '\x7d') (text : List Char) :
    Apart (char :: text) := by
  intro first equal
  cases equal
  rcases other with rfl | rfl | rfl <;> decide

/-! ## Reading -/

theorem readString_of_spells {value : String} {body : List Char}
    (spells : Text.Quoted.Spells value.toList body) (rest : List Char) :
    readString (body ++ '"' :: rest) = (.string (some value), rest) := by
  rcases spells.exists_scan with ⟨pieces, joined, scans⟩
  simp [readString, scans, Text.Quoted.text?, joined]

/-- A numeral is read as a number. -/
theorem readValue_of_readNumeral? {text rest : List Char} {numeral : Numeral}
    (reads : readNumeral? text = some (numeral, rest)) (bound : Nat) :
    readValue (bound + 1) text = (.number numeral.value?, rest) := by
  have scalar : readScalar text = (.number numeral.value?, rest) := by
    rw [readScalar.eq_def]
    split
    case h_4 => rw [reads]
    all_goals simp [readNumeral?, readSign, readDigits] at reads
  rw [readValue.eq_def]
  dsimp only
  split
  case h_5 => exact scalar
  all_goals simp_all [readNumeral?, readSign, readDigits]

/-- A spelling starts with a character that is neither blank nor a closing
bracket. -/
theorem Spells.head {value : Json} {text : List Char}
    (spells : Spells value text) :
    ∃ first rest, text = first :: rest ∧ isBlank first = false ∧
      first ≠ ']' := by
  cases spells with
  | null | yes | no => exact ⟨_, _, rfl, rfl, by decide⟩
  | string | empty | array | bare | object => exact ⟨_, _, rfl, rfl, by decide⟩
  | @integer number inRange =>
      cases number with
      | negSucc => exact ⟨_, _, rfl, rfl, by decide⟩
      | ofNat magnitude =>
          have digit : ∀ char ∈ Nat.toDigits 10 magnitude,
              char.isDigit = true :=
            fun _ => Nat.isDigit_of_mem_toDigits (by decide) (by decide)
          cases written : Nat.toDigits 10 magnitude with
          | nil => exact absurd written Nat.toDigits_ne_nil
          | cons first rest =>
              have isDigit := digit first (by simp [written])
              refine ⟨first, rest, written, ?_, ?_⟩
              · refine Bool.eq_false_iff.2 fun blank => ?_
                simp only [isBlank, Bool.or_eq_true, decide_eq_true_eq] at blank
                rcases blank with ((rfl | rfl) | rfl) | rfl <;>
                  exact absurd isDigit (by decide)
              · rintro rfl
                exact absurd isDigit (by decide)

/-- An item is read together with what follows it. -/
theorem readItems_of_readValue {bound : Nat} {first : Char}
    (other : first ≠ ']') {others rest : List Char} {item : Node}
    (reads : readValue bound (first :: others) = (item, rest)) (isFirst : Bool) :
    readItems (bound + 1) isFirst (first :: others) =
      match skipBlanks rest with
      | ',' :: rest =>
        let (items, closed, rest) := readItems bound false (skipBlanks rest)
        (item :: items, closed, rest)
      | ']' :: rest => ([item], true, rest)
      | _ => ([item], false, []) := by
  have opens : ∀ rest, first :: others = ']' :: rest → False :=
    fun _ same => other (List.cons.inj same).1
  rw [readItems]
  · generalize readValue bound (first :: others) = read at reads ⊢
    cases reads
    rfl
  · exact opens

mutual

theorem readValue_of_spells {value : Json} {text : List Char}
    (spells : Spells value text) (bound : Nat)
    (enough : 2 * text.length ≤ bound) {rest : List Char}
    (apart : Apart rest) :
    readValue bound (text ++ rest) = (value.node, rest) := by
  -- The bound is spent on nesting, of which there is less than there are letters.
  rcases spells.head with ⟨first, others, here, -, -⟩
  obtain ⟨bound, rfl⟩ : ∃ less, bound = less + 2 := by
    refine ⟨bound - 2, ?_⟩
    rw [here, List.length_cons] at enough
    omega
  cases spells with
  | null | yes | no => rfl
  | integer inRange =>
      rw [readValue_of_readNumeral? (readNumeral?_writeInteger _ apart),
        value?_ofInteger inRange]
      rfl
  | string spells =>
      simp only [List.cons_append, List.append_assoc, List.nil_append]
      rw [readValue, readString_of_spells spells]
      rfl
  | empty blanks =>
      simp only [List.cons_append, List.append_assoc, List.nil_append]
      rw [readValue, skipBlanks_append blanks, skipBlanks_cons rfl, readItems]
      rfl
  | array spells =>
      rw [List.length_cons] at enough
      rw [List.cons_append, readValue,
        readItems_of_spells spells _ (by omega)]
      rfl
  | bare blanks =>
      simp only [List.cons_append, List.append_assoc, List.nil_append]
      rw [readValue, skipBlanks_append blanks, skipBlanks_cons rfl,
        readMembers]
      rfl
  | object spells =>
      rw [List.length_cons] at enough
      rw [List.cons_append, readValue,
        readMembers_of_spells spells _ (by omega)]
      rfl

theorem readItems_of_spells {items : List Json} {text : List Char}
    (spells : SpellsItems items text) (bound : Nat)
    (enough : 2 * text.length + 1 ≤ bound) (isFirst : Bool)
    (rest : List Char) :
    readItems bound isFirst (skipBlanks (text ++ rest)) =
      (nodes items, true, rest) := by
  obtain ⟨bound, rfl⟩ : ∃ less, bound = less + 1 := ⟨bound - 1, by omega⟩
  cases spells with
  | @last item before text after leading spells trailing =>
      simp only [List.length_append, List.length_singleton] at enough
      rcases spells.head with ⟨first, others, rfl, shown, other⟩
      have reads := readValue_of_spells spells bound (by omega)
        (apart_append trailing (apart_cons ']' (by simp) rest))
      simp only [List.append_assoc, List.cons_append, List.nil_append]
        at reads ⊢
      rw [skipBlanks_append leading, skipBlanks_cons shown,
        readItems_of_readValue other reads, skipBlanks_append trailing,
        skipBlanks_cons rfl]
      rfl
  | @more item items before text after others' leading spells trailing more =>
      simp only [List.length_append, List.length_cons] at enough
      rcases spells.head with ⟨first, others, rfl, shown, other⟩
      have reads := readValue_of_spells spells bound (by omega)
        (apart_append trailing (apart_cons ',' (by simp)
          (others' ++ rest)))
      simp only [List.append_assoc, List.cons_append] at reads ⊢
      rw [skipBlanks_append leading, skipBlanks_cons shown,
        readItems_of_readValue other reads, skipBlanks_append trailing,
        skipBlanks_cons rfl]
      simp only [readItems_of_spells more bound (by omega)]
      rfl

theorem readMembers_of_spells {members : List (String × Json)}
    {text : List Char} (spells : SpellsMembers members text) (bound : Nat)
    (enough : 2 * text.length + 1 ≤ bound) (isFirst : Bool)
    (rest : List Char) :
    readMembers bound isFirst (skipBlanks (text ++ rest)) =
      (memberNodes members, true, rest) := by
  obtain ⟨bound, rfl⟩ : ∃ less, bound = less + 1 := ⟨bound - 1, by omega⟩
  cases spells with
  | @last key value before body between gap text after leading named closing
      opening spells trailing =>
      simp only [List.length_append, List.length_cons, List.length_nil]
        at enough
      rcases spells.head with ⟨first, others, rfl, shown, -⟩
      have reads := readValue_of_spells spells bound (by omega)
        (apart_append trailing (apart_cons '\x7d' (by simp) rest))
      simp only [List.append_assoc, List.cons_append, List.nil_append]
        at reads ⊢
      rw [skipBlanks_append leading, skipBlanks_cons rfl, readMembers,
        readString_of_spells named]
      dsimp only
      rw [skipBlanks_append closing, skipBlanks_cons rfl]
      simp only [skipBlanks_append opening, skipBlanks_cons shown, reads]
      rw [skipBlanks_append trailing, skipBlanks_cons rfl]
      rfl
  | @more key value members before body between gap text after others' leading
      named closing opening spells trailing more =>
      simp only [List.length_append, List.length_cons] at enough
      rcases spells.head with ⟨first, others, rfl, shown, -⟩
      have reads := readValue_of_spells spells bound (by omega)
        (apart_append trailing (apart_cons ',' (by simp)
          (others' ++ rest)))
      simp only [List.append_assoc, List.cons_append] at reads ⊢
      rw [skipBlanks_append leading, skipBlanks_cons rfl, readMembers,
        readString_of_spells named]
      dsimp only
      rw [skipBlanks_append closing, skipBlanks_cons rfl]
      simp only [skipBlanks_append opening, skipBlanks_cons shown, reads]
      rw [skipBlanks_append trailing, skipBlanks_cons rfl]
      simp only [readMembers_of_spells more bound (by omega)]
      rfl

end

/-- Reading a spelling, blanks around it allowed, gives the node of its
value. -/
theorem ofText_of_spells {value : Json} {before spelling after : List Char}
    {text : String} (here : text.toList = before ++ (spelling ++ after))
    (leading : Blank before) (spells : Spells value spelling)
    (trailing : Blank after) : Document.ofText text = ⟨value.node, true⟩ := by
  rcases spells.head with ⟨first, others, rfl, shown, -⟩
  have apart : Apart after := by
    simpa using apart_append trailing apart_nil
  have reads := readValue_of_spells spells (2 * text.toList.length + 2)
    (by simp only [here, List.length_append]; omega) apart
  have ends : skipBlanks after = [] := by
    simpa [skipBlanks] using skipBlanks_append trailing []
  have starts : skipBlanks text.toList = first :: others ++ after := by
    rw [here, skipBlanks_append leading]
    exact skipBlanks_cons shown (others ++ after)
  simp only [Document.ofText, starts, reads, ends, List.isEmpty_nil]

/-- Decoding a spelling decodes the node of its value. -/
theorem decodeText_of_spells {Value : Type} {decode : Decoder Value}
    {value : Json} {before spelling after : List Char} {text : String}
    (here : text.toList = before ++ (spelling ++ after))
    (leading : Blank before) (spells : Spells value spelling)
    (trailing : Blank after) :
    decodeText decode text = decode nestingLimit value.node := by
  rw [decodeText, ofText_of_spells here leading spells trailing]
  cases decode nestingLimit value.node <;> rfl

/-! ## Writing -/

theorem blank_nil : Blank [] :=
  fun _ absent => nomatch absent

theorem blank_line (spacing : Spacing) : Blank spacing.line := by
  cases spacing with
  | none => exact blank_nil
  | some indent =>
      intro char here
      rcases List.mem_cons.1 here with rfl | more
      · rfl
      · rw [List.eq_of_mem_replicate more]
        rfl

theorem colon_eq (spacing : Spacing) :
    ∃ gap, Blank gap ∧ spacing.colon = ':' :: gap := by
  cases spacing with
  | none => exact ⟨[], blank_nil, rfl⟩
  | some =>
      refine ⟨[' '], ?_, rfl⟩
      intro char here
      rw [List.mem_singleton.1 here]
      rfl

theorem spellsItems_write {spacing : Spacing} {before : List Char}
    (leading : Blank before) {item : Json} {rest : List Json}
    (spells : ∀ other ∈ item :: rest,
      Spells other (other.write spacing.deeper)) :
    SpellsItems (item :: rest)
      (before ++ (item.write spacing.deeper ++ writeItems spacing rest)) := by
  have first := spells item (List.mem_cons_self ..)
  induction rest generalizing item before with
  | nil => exact .last leading first (blank_line spacing)
  | cons second rest induction =>
      have others := induction (blank_line spacing.deeper)
        (fun other here => spells other (List.mem_cons_of_mem _ here))
        (spells second (by simp))
      simpa [writeItems] using SpellsItems.more leading first blank_nil others

theorem spellsMembers_write {spacing : Spacing} {before : List Char}
    (leading : Blank before) {key : String} {value : Json}
    {rest : List (String × Json)}
    (spells : ∀ other ∈ (key, value) :: rest,
      Spells other.2 (other.2.write spacing.deeper)) :
    SpellsMembers ((key, value) :: rest)
      (before ++ (Text.Quoted.encode key ++ (spacing.colon ++
        (value.write spacing.deeper ++ writeMembers spacing rest)))) := by
  have first := spells (key, value) (List.mem_cons_self ..)
  have named := Text.Quoted.spells_escape key.toList
  rcases colon_eq spacing with ⟨gap, opening, colon⟩
  induction rest generalizing key value before with
  | nil =>
      simpa [writeMembers, Text.Quoted.encode, colon] using
        SpellsMembers.last leading named blank_nil opening first
          (blank_line spacing)
  | cons second rest induction =>
      have others := induction (blank_line spacing.deeper)
        (fun other here => spells other (List.mem_cons_of_mem _ here))
        (spells second (by simp)) (Text.Quoted.spells_escape _)
      simpa [writeMembers, Text.Quoted.encode, colon] using
        SpellsMembers.more leading named blank_nil opening first blank_nil
          others

/-- A value whose numbers are whole and in range. -/
inductive Whole : Json → Prop
  | null : Whole .null
  | bool (value : Bool) : Whole (.bool value)
  | integer {number : Int} (inRange : InRange number) : Whole (.integer number)
  | string (value : String) : Whole (.string value)
  | array {items : List Json} (all : ∀ item ∈ items, Whole item) :
      Whole (.array items)
  | object {members : List (String × Json)}
      (all : ∀ member ∈ members, Whole member.2) : Whole (.object members)

/-- What is written, with either spacing, spells the value. -/
theorem spells_write {value : Json} (whole : Whole value) (spacing : Spacing) :
    Spells value (value.write spacing) := by
  induction whole generalizing spacing with
  | null => exact .null
  | bool value =>
      cases value
      · exact .no
      · exact .yes
  | integer inRange => exact .integer inRange
  | string value => exact .string (Text.Quoted.spells_escape value.toList)
  | @array items _ induction =>
      cases items with
      | nil => exact .empty blank_nil
      | cons item rest =>
          simpa [write] using Spells.array
            (spellsItems_write (blank_line spacing.deeper)
              fun other here => induction other here spacing.deeper)
  | @object members _ induction =>
      cases members with
      | nil => exact .bare blank_nil
      | cons member rest =>
          simpa [write] using Spells.object
            (spellsMembers_write (blank_line spacing.deeper)
              fun other here => induction other here spacing.deeper)

end EntityCatalog.Json

import EntityCatalog.Proofs.Resolution.Located
import EntityCatalog.Proofs.Resolution.Reported

/-!
# Defects told apart by their wording

Two defects with one wording are reported once.  The wording of a defect starts
with the place it is about, the entity and the property joined by a dot, so two
places can look alike.  Where names have no dots, colons and blanks to confuse
them with (`Setting.Legible`), the wording of a broken declaration's defect tells
its place from that of every other defect (`Setting.place_of_message`).
-/

namespace EntityCatalog

/-! ## Texts that start with a place -/

/-- A mark that stands in neither part tells where the parts end. -/
theorem append_mark_inj {Letter : Type} {mark : Letter}
    {left right rest later : List Letter} (plain : mark ∉ left)
    (other : mark ∉ right)
    (same : left ++ mark :: rest = right ++ mark :: later) :
    left = right ∧ rest = later := by
  induction left generalizing right with
  | nil =>
      cases right with
      | nil => exact ⟨rfl, (List.cons.inj same).2⟩
      | cons letter more =>
          rw [(List.cons.inj same).1] at other
          exact absurd (List.mem_cons_self ..) other
  | cons letter more induction =>
      rw [List.mem_cons, not_or] at plain
      cases right with
      | nil => exact absurd (List.cons.inj same).1.symm plain.1
      | cons first further =>
          rw [List.mem_cons, not_or] at other
          rcases List.cons.inj same with ⟨rfl, tails⟩
          rcases induction plain.2 other.2 tails with ⟨rfl, rests⟩
          exact ⟨rfl, rests⟩

/-- The name of the entity has no dot, colon or blank, that of the property no
colon. -/
structure Place.Legible (place : Place) : Prop where
  dot : '.' ∉ place.entity.toList
  colon : ':' ∉ place.entity.toList
  blank : ' ' ∉ place.entity.toList
  property : ':' ∉ place.property.toList

theorem Place.toList_text (place : Place) :
    place.text.toList = place.entity.toList ++ '.' :: place.property.toList := by
  simp [text]

namespace Place.Legible

/-- Up to the first colon a text tells the entity it starts with. -/
theorem text_append_inj {left right : Place} (legible : left.Legible)
    (other : right.Legible) {between rest later : List Char}
    (plain : ':' ∉ between)
    (same : left.text.toList ++ ':' :: rest =
      right.text.toList ++ between ++ ':' :: later) :
    left.entity = right.entity ∧
      left.property.toList = right.property.toList ++ between ∧
      rest = later := by
  simp only [toList_text, List.append_assoc, List.cons_append] at same
  rcases append_mark_inj legible.dot other.dot same with ⟨entity, properties⟩
  rw [← List.append_assoc] at properties
  have tail : ':' ∉ right.property.toList ++ between := by
    rw [List.mem_append, not_or]
    exact ⟨other.property, plain⟩
  rcases append_mark_inj legible.property tail properties with
    ⟨property, rests⟩
  exact ⟨String.toList_inj.mp entity, property, rests⟩

/-- What starts with a place does not call it an entity. -/
theorem not_text_append {place : Place} (legible : place.Legible)
    {rest later : List Char} :
    place.text.toList ++ rest ≠ "entity '".toList ++ later := by
  intro same
  rw [toList_text, List.append_assoc, List.cons_append] at same
  rcases List.append_eq_append_iff.mp same with
    ⟨more, words, follows⟩ | ⟨more, entity, -⟩
  · -- The entity would stop within these words, at a dot.
    rcases more with _ | ⟨letter, more⟩
    · rw [List.append_nil] at words
      exact legible.blank (words ▸ by decide)
    · rcases List.cons.inj follows with ⟨rfl, -⟩
      have dotted : '.' ∈ "entity '".toList := by
        rw [words]
        simp
      exact absurd dotted (by decide)
  · apply legible.blank
    rw [entity]
    exact List.mem_append_left _ (by decide)

end Place.Legible

/-- How a defect is worded, as far as its place goes. -/
inductive Defect.Worded (defect : Defect) : Prop
  | place {place : Place} {rest : List Char} (legible : place.Legible)
      (words : defect.message.toList = place.text.toList ++ ':' :: rest)
      (entity : defect.entity = place.entity)
      (property : defect.property? = some place.property)
  | places {place : Place} {between rest : List Char} (legible : place.Legible)
      (plain : ':' ∉ between)
      (words : defect.message.toList =
        place.text.toList ++ between ++ ':' :: rest)
      (other : ∀ letter ∈ ['i', 'c', 'u'], ∀ more, rest ≠ ' ' :: letter :: more)
  | entity {rest : List Char}
      (words : defect.message.toList = "entity '".toList ++ rest)

namespace Resolution.Setting

variable {setting : Setting} {tally : Tally} {place : Place}
  {defect other : Defect}

/-- Names by which a wording tells the place it starts with. -/
structure Legible (setting : Setting) : Prop where
  entities : ∀ name ∈ setting.schemas.keys,
    '.' ∉ name.toList ∧ ':' ∉ name.toList ∧ ' ' ∉ name.toList
  properties : ∀ schema ∈ setting.schemas.items,
    ∀ name ∈ schema.properties.keys, ':' ∉ name.toList
  inverses : ∀ entity ∈ setting.schemas.keys, ∀ schema ∈ setting.schemas.items,
    ∀ name ∈ schema.properties.keys,
      ':' ∉ (setting.config.inverseNaming.inverseName entity name).toList

namespace Legible

variable (legible : setting.Legible)

include legible

theorem of_registered {entity property : String}
    (registered : entity ∈ setting.schemas.keys)
    (plain : ':' ∉ property.toList) : Place.Legible ⟨entity, property⟩ where
  dot := (legible.entities entity registered).1
  colon := (legible.entities entity registered).2.1
  blank := (legible.entities entity registered).2.2
  property := plain

theorem of_declares (declares : setting.Declares tally place) :
    place.Legible := by
  rcases declares.declared with ⟨schema, member, named, -⟩
  exact legible.of_registered declares.registered
    (legible.properties schema member _ named)

theorem of_adds {source : Place} (adds : setting.Adds tally source place) :
    place.Legible := by
  cases adds with
  | intro inverts registered =>
      have declares := declares_place inverts.held
      rcases declares.declared with ⟨schema, member, named, -⟩
      exact legible.of_registered registered
        (legible.inverses _ declares.registered schema member _ named)

/-- How the defects of a resolution are worded. -/
theorem worded (located : setting.Located tally defect) : defect.Worded := by
  cases located with
  | misused declared misuse =>
      exact .place (legible.of_declares declared)
        (by simp [Defect.message]; rfl) rfl rfl
  | added added embeddable =>
      exact .place (legible.of_adds added)
        (by simp [Defect.message]; rfl) rfl rfl
  | @ambiguous first second declared other ambiguity =>
      have legibleSecond : second.Legible :=
        other.elim legible.of_declares fun ⟨_, adds⟩ => legible.of_adds adds
      have plain : ':' ∉ " and ".toList ++ second.text.toList := by
        rw [Place.toList_text]
        simp [legibleSecond.colon, legibleSecond.property]
      exact .places (legible.of_declares declared) plain
        (by simp [Defect.message]; rfl) (by simp)
  | dangling declared target name hint =>
      exact .place (legible.of_declares declared)
        (by simp [Defect.message]; rfl) rfl rfl
  | @otherKind place declared kind other otherKind =>
      have legible := legible.of_declares declared
      cases kind with
      | manyToOne | manyToMany =>
          exact @Defect.Worded.places _ place " (m".toList _ legible (by decide)
            (by simp [Defect.message, PropertyKind.tag]; rfl) (by simp)
      | oneToOne | oneToMany =>
          exact @Defect.Worded.places _ place " (1".toList _ legible (by decide)
            (by simp [Defect.message, PropertyKind.tag]; rfl) (by simp)
  | otherTarget declared other found =>
      exact .place (legible.of_declares declared)
        (by simp [Defect.message]; rfl) rfl rfl
  | missed declared miss =>
      cases miss with
      | unsettled evaluations =>
          exact .place (legible.of_declares declared)
            (by simp [Defect.message, Miss.targetDefect]; rfl) rfl rfl
      | unknown name =>
          exact .place (legible.of_declares declared)
            (by simp [Defect.message, Miss.targetDefect]; rfl) rfl rfl
  | @base entity miss misses =>
      rcases misses with ⟨schema, _, found, -⟩
      have registered := Table.mem_keys_of_find? found
      cases miss with
      | unsettled evaluations =>
          exact .place (legible.of_registered registered (by decide))
            (by simp [Defect.message, Miss.baseDefect]; rfl) rfl rfl
      | unknown name =>
          exact .entity (by simp [Defect.message, Miss.baseDefect]; rfl)
  | cycle registered chain => exact .entity (by simp [Defect.message]; rfl)
  | key registered => exact .entity (by simp [Defect.message]; rfl)

end Legible

/-- The defect of a broken declaration starts with its place and goes on in a way
of its own. -/
theorem words_of_breaks (breaks : setting.Breaks place defect) :
    ∃ letter ∈ ['i', 'c', 'u'], ∃ more,
      defect.message.toList = place.text.toList ++ ':' :: ' ' :: letter :: more := by
  cases breaks with
  | options registered declared fails =>
      exact ⟨'i', by decide, _, by simp [Defect.message]; rfl⟩
  | @target _ _ miss steady declared pointed missed =>
      cases miss with
      | unsettled evaluations =>
          exact ⟨'c', by decide, _, by simp [Defect.message, Miss.targetDefect]; rfl⟩
      | unknown name =>
          exact ⟨'u', by decide, _, by simp [Defect.message, Miss.targetDefect]; rfl⟩

theorem declares_of_breaks (breaks : setting.Breaks place defect) :
    setting.Declares tally place := by
  cases breaks with
  | options registered declared fails =>
      rcases Table.find?_eq_some registered with ⟨member, named⟩
      refine ⟨Table.mem_keys_of_find? registered, _, member,
        Table.mem_keys_of_find? declared, ?_⟩
      rw [named]
      exact .refl _
  | target steady declared pointed missed => exact declares_of_own declared

/-- Among legible names, a defect that is worded like that of a broken declaration
is about the same property. -/
theorem place_of_message (legible : setting.Legible)
    (breaks : setting.Breaks place defect)
    (located : setting.Located tally other)
    (same : other.message = defect.message) :
    other.entity = place.entity ∧ other.property? = some place.property := by
  have declares : setting.Declares tally place := declares_of_breaks breaks
  have here := legible.of_declares declares
  rcases words_of_breaks breaks with ⟨letter, known, more, words⟩
  rw [← same] at words
  -- Of the three ways to begin, only that with one place goes on like this.
  cases legible.worded located with
  | @place another rest there worded entity property =>
      have starts : place.text.toList ++ ':' :: ' ' :: letter :: more =
          another.text.toList ++ [] ++ ':' :: rest := by
        rw [← words, worded, List.append_nil]
      rcases here.text_append_inj there List.not_mem_nil starts with
        ⟨entities, properties, -⟩
      rw [List.append_nil] at properties
      rw [entity, property, entities, String.toList_inj.mp properties]
      exact ⟨rfl, rfl⟩
  | @places another between rest there plain worded goesOn =>
      rw [words] at worded
      have follows := (here.text_append_inj there plain worded).2.2
      exact absurd follows.symm (goesOn letter known more)
  | entity worded =>
      rw [words] at worded
      exact absurd worded here.not_text_append

end Resolution.Setting

end EntityCatalog

import EntityCatalog.Proofs.Schema.Portable
import EntityCatalog.Registry

/-!
# Registering documents

Documents and programs are two ways to declare the same thing.  A document
that says what portable declarations say registers exactly what a program
registers that builds them (`Registry.registerText_eq_registerAll`): the
answer is the same, the refusal included, and so is the registry afterwards.
-/

namespace EntityCatalog

namespace Registry

/-- Registering a document does what registering the built schemas in turn
does, whatever is registered already. -/
theorem registerText_eq_registerAll (registry : Registry)
    {declarations : List PortableSchema} {text : String}
    (declares : Declares declarations text) :
    registry.registerText text =
      registry.registerAll (declarations.map PortableSchema.schema) := by
  rw [registerText, declares.listOfText]

end Registry

/-! ## Books -/

/-- Authors and their books; the author of a book is declared twice. -/
def bookDeclarations : List PortableSchema := [
  { name := "Author"
    properties := [
      ("id", { typeName := some "integer", primary := true }),
      ("books", {
        kind := some (.relation .oneToMany)
        entity := some "Book"
        mappedBy := some "author" })] },
  { name := "Book"
    keyless := true
    properties := [
      ("author", { typeName := some "string" }),
      ("form", {
        isEnum := true
        items := some [.string "a\n\"b\"", .integer (-1)]
        default := some (.integer (-1)) }),
      ("author", {
        kind := some (.relation .manyToOne)
        entity := some "Author"
        nullable := some false
        deleteRule := some "CASCADE" })] }]

/-- The properties of authors in a document. -/
def authorProperties : List (String × Json) := [
  ("id", .object [
    ("primary", .bool true), ("default", .null), ("type", .string "integer")]),
  ("books", .object [
    ("mappedBy", .string "author"), ("entity", .string "Book"),
    ("kind", .string "1:m")])]

/-- The properties of books in a document. -/
def bookProperties : List (String × Json) := [
  ("author", .object [("type", .string "string")]),
  ("form", .object [
    ("enum", .bool true), ("array", .bool false), ("default", .integer (-1)),
    ("items", .array [.string "a\n\"b\"", .integer (-1)])]),
  ("author", .object [
    ("deleteRule", .string "CASCADE"), ("nullable", .bool false),
    ("kind", .string "m:1"), ("entity", .string "Author")])]

/-- The document, with members in an order of its own. -/
def bookDocuments : List Json := [
  .object [
    ("properties", .object authorProperties), ("name", .string "Author")],
  .object [
    ("name", .string "Book"), ("properties", .object bookProperties),
    ("keyless", .bool true)]]

theorem spelled_books :
    List.Forall₂ PortableSchema.Spelled bookDeclarations bookDocuments := by
  have options : ∀ {portable : PortableOptions} {members : List (String × Json)},
      Spelled (PortableOptions.members {}) portable.members members →
        portable.Spelled (.object members) :=
    fun spelled => ⟨_, rfl, spelled⟩
  refine .cons ⟨authorProperties, _, rfl, ?ofAuthor, ?author⟩
    (.cons ⟨bookProperties, _, rfl, ?ofBook, ?book⟩ .nil)
  case author | book =>
      constructor <;>
        simp [PortableSchema.members, PortableSchema.optionalMembers, Json.orNull]
  case ofAuthor =>
      refine .cons ⟨rfl, options ?_⟩ (.cons ⟨rfl, options ?_⟩ .nil)
      all_goals
        constructor <;>
          simp [PortableOptions.members, Json.orNull, PropertyKind.tag]
  case ofBook =>
      refine .cons ⟨rfl, options ?_⟩
        (.cons ⟨rfl, options ?_⟩ (.cons ⟨rfl, options ?_⟩ .nil))
      all_goals
        constructor <;>
          simp [PortableOptions.members, Json.orNull, Literal.json,
            PropertyKind.tag]

theorem registerText_eq_registerAll_books :
    Declares bookDeclarations
        (Json.object [("entities", .array bookDocuments)]).pretty ∧
      ({} : Registry).registerText
          (Json.object [("entities", .array bookDocuments)]).pretty =
        ({} : Registry).registerAll
          (bookDeclarations.map PortableSchema.schema) :=
  have declares := declares_write spelled_books (some 0)
  ⟨declares, Registry.registerText_eq_registerAll {} declares⟩

end EntityCatalog

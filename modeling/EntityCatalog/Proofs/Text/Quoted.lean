import EntityCatalog.Text.Quoted

/-!
# Spellings of quoted strings

A string has many spellings between quotes: most characters may stand for
themselves or be escaped by a letter, by one sixteen-bit unit or by two.
`Spells` lists the ways.  Reading understands every spelling
(`Spells.exists_scan`), and what writing puts between quotes is one
(`spells_escape`).
-/

namespace EntityCatalog.Text.Quoted

/-- What stands between quotes spells some characters. -/
inductive Spells : List Char → List Char → Prop
  | nil : Spells [] []
  | plain {char : Char} {chars text : List Char} (shown : 32 ≤ char.toNat)
      (unquoted : char ≠ '"') (unescaped : char ≠ '\\')
      (rest : Spells chars text) : Spells (char :: chars) (char :: text)
  | letter {letter char : Char} {chars text : List Char}
      (means : simpleEscape? letter = some char) (rest : Spells chars text) :
      Spells (char :: chars) ('\\' :: letter :: text)
  | unit {first second third fourth : Char} {unit : Nat}
      {chars text : List Char}
      (reads : hexUnit? first second third fourth = some unit)
      (whole : unit < 0xD800 ∨ 0xE000 ≤ unit) (rest : Spells chars text) :
      Spells (Char.ofNat unit :: chars)
        ('\\' :: 'u' :: first :: second :: third :: fourth :: text)
  | halves {first second third fourth fifth sixth seventh eighth : Char}
      {high low : Nat} {chars text : List Char}
      (readsHigh : hexUnit? first second third fourth = some high)
      (isHigh : 0xD800 ≤ high ∧ high < 0xDC00)
      (readsLow : hexUnit? fifth sixth seventh eighth = some low)
      (isLow : 0xDC00 ≤ low ∧ low < 0xE000) (rest : Spells chars text) :
      Spells
        (Char.ofNat (0x10000 + (high - 0xD800) * 0x400 + (low - 0xDC00)) ::
          chars)
        ('\\' :: 'u' :: first :: second :: third :: fourth ::
          '\\' :: 'u' :: fifth :: sixth :: seventh :: eighth :: text)

/-! ## Reading -/

theorem scan_plain {char : Char} (shown : 32 ≤ char.toNat)
    (unquoted : char ≠ '"') (unescaped : char ≠ '\\') (found : List Piece)
    (text : List Char) :
    scan found (char :: text) = scan (.char char :: found) text := by
  have kept : ¬(char.toNat < 32 ∨ char = '\\') :=
    not_or.mpr ⟨Nat.not_lt.mpr shown, unescaped⟩
  rw [scan, if_neg kept]
  · exact unquoted
  · exact fun _ _ _ _ _ escape _ => unescaped escape
  · exact fun _ _ escape _ => unescaped escape

theorem scan_letter {letter char : Char}
    (means : simpleEscape? letter = some char) (found : List Piece)
    (text : List Char) :
    scan found ('\\' :: letter :: text) = scan (.char char :: found) text := by
  -- The letter that starts a unit is no escape of its own.
  have other : letter ≠ 'u' := by
    rintro rfl
    cases means
  rw [scan, means]
  simp [other]

theorem scan_unit {first second third fourth : Char} {unit : Nat}
    (reads : hexUnit? first second third fourth = some unit)
    (found : List Piece) (text : List Char) :
    scan found ('\\' :: 'u' :: first :: second :: third :: fourth :: text) =
      scan (.ofUnit unit :: found) text := by
  rw [scan, reads]

/-- Reading finds the pieces of a spelling, up to the closing quote, and they
make up the characters that are spelled. -/
theorem Spells.exists_scan {chars text : List Char}
    (spells : Spells chars text) :
    ∃ pieces, joinHalves pieces = some chars ∧
      ∀ found rest, scan found (text ++ '"' :: rest) =
        some (found.reverse ++ pieces, rest) := by
  induction spells with
  | nil => exact ⟨[], rfl, fun found rest => by simp [scan]⟩
  | @plain char chars text shown unquoted unescaped _ induction =>
      rcases induction with ⟨pieces, joined, scans⟩
      refine ⟨.char char :: pieces, by rw [joinHalves, joined]; rfl, ?_⟩
      intro found rest
      rw [List.cons_append, scan_plain shown unquoted unescaped, scans]
      simp
  | @letter letter char chars text means _ induction =>
      rcases induction with ⟨pieces, joined, scans⟩
      refine ⟨.char char :: pieces, by rw [joinHalves, joined]; rfl, ?_⟩
      intro found rest
      rw [List.cons_append, List.cons_append, scan_letter means, scans]
      simp
  | @unit first second third fourth unit chars text reads whole _ induction =>
      rcases induction with ⟨pieces, joined, scans⟩
      have piece : Piece.ofUnit unit = .char (Char.ofNat unit) :=
        if_neg (by omega)
      refine ⟨.char (Char.ofNat unit) :: pieces,
        by rw [joinHalves, joined]; rfl, ?_⟩
      intro found rest
      simp only [List.cons_append]
      rw [scan_unit reads, piece, scans]
      simp
  | @halves _ _ _ _ _ _ _ _ high low chars text readsHigh isHigh readsLow isLow
      _ induction =>
      rcases induction with ⟨pieces, joined, scans⟩
      have first : Piece.ofUnit high = .half high := if_pos (by omega)
      have second : Piece.ofUnit low = .half low := if_pos (by omega)
      refine ⟨.half high :: .half low :: pieces, ?_, ?_⟩
      · rw [joinHalves, if_pos ⟨isHigh.2, isLow.1⟩, joined]
        rfl
      · intro found rest
        simp only [List.cons_append]
        rw [scan_unit readsHigh, scan_unit readsLow, first, second, scans]
        simp

/-! ## Writing -/

/-- The two digits of a control below the blank name it as a unit. -/
theorem hexUnit?_of_lt :
    ∀ number < 32,
      hexUnit? '0' '0' (hexDigit (number / 16)) (hexDigit (number % 16)) =
        some number := by
  decide

/-- What a character is written as spells it, whatever follows. -/
theorem Spells.escape {chars text : List Char} (rest : Spells chars text)
    (char : Char) : Spells (char :: chars) (Quoted.escape char ++ text) := by
  unfold Quoted.escape
  -- Seven characters are escaped by a letter.
  iterate 7
    split
    · rename_i special
      subst special
      exact .letter rfl rest
  split
  · rename_i control
    have unit := Spells.unit (hexUnit?_of_lt _ control) (by omega) rest
    rwa [Char.ofNat_toNat] at unit
  · rename_i unquoted unescaped _ _ _ _ _ shown
    exact .plain (Nat.le_of_not_lt shown) unquoted unescaped rest

/-- What is written between quotes spells the string. -/
theorem spells_escape (chars : List Char) :
    Spells chars (chars.flatMap escape) := by
  induction chars with
  | nil => exact .nil
  | cons char rest induction => exact induction.escape char

end EntityCatalog.Text.Quoted

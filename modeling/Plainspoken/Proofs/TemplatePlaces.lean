import Mathlib.Data.List.Forall2
import Plainspoken.Catalog.Basic
import Plainspoken.Proofs.Source.DigitRuns

/-!
# Places of templates

A place of a template is a run of digits between braces, wherever it is written.  Two places
have no character in common, since braces are not digits, so a template falls into its places
and what stands between them in one way only.

Filling a template in goes through it once.  What stands between the places is copied, and so
is every text that is put in a place, whatever it holds.
-/

namespace Plainspoken

namespace Template

def written (digits : List Char) : List Char :=
  openBrace :: digits ++ [closeBrace]

/-- The digits of a place: at least one, of any script. -/
structure IsPlace (digits : List Char) : Prop where
  nonempty : digits ≠ []
  decimal : ∀ digit ∈ digits, Character.isDecimalDigit digit = true

/-- No place is written among some characters. -/
def Placeless (characters : List Char) : Prop :=
  ∀ digits, IsPlace digits → ¬ written digits <:+: characters

/-- A template taken apart: what stands before its first place, and the digits of each place
with what stands between it and the next one. -/
structure Division where
  opening : List Char
  places : List (List Char × List Char)

namespace Division

/-- The characters of a division with a text for each of its places. -/
def woven (division : Division) (texts : List (List Char)) : List Char :=
  division.opening ++
    (List.zipWith (fun text place => text ++ place.2) texts division.places).flatten

/-- A division takes a template apart at all of its places. -/
structure Divides (division : Division) (template : List Char) : Prop where
  whole : division.woven (division.places.map fun place => written place.1) = template
  digits : ∀ place ∈ division.places, IsPlace place.1
  opening : Placeless division.opening
  between : ∀ place ∈ division.places, Placeless place.2

end Division

/-- Digits denote a number if they are plain ones and 64 bits hold the number. -/
def Denotes (characters : List Char) (number : Nat) : Prop :=
  ∃ digits, List.Forall₂ (IsDigit 10) digits characters ∧ number = numeral 10 digits ∧
    number < UInt64.size

end Template

open Template

/-- What is put in a place with given digits. -/
inductive Catalog.Fills (catalog : Catalog) (span : Span) (buffered : String)
    (arguments : List Argument) (digits : List Char) : String → Prop where
  | position : Denotes digits 0 → Fills catalog span buffered arguments digits span.display
  | quotation : Denotes digits 1 → Fills catalog span buffered arguments digits buffered
  | argument {index : Nat} {argument : Argument} : Denotes digits (index + 2) →
      arguments[index]? = some argument →
      Fills catalog span buffered arguments digits (catalog.argument argument)
  | missing {index : Nat} : Denotes digits (index + 2) → arguments.length ≤ index →
      Fills catalog span buffered arguments digits ""
  | unreadable : (∀ number, ¬ Denotes digits number) →
      Fills catalog span buffered arguments digits ""

namespace Template

/-! ## Reading one place -/

theorem isDecimalDigit_openBrace : Character.isDecimalDigit openBrace = false := by
  decide

theorem isDecimalDigit_closeBrace : Character.isDecimalDigit closeBrace = false := by
  decide

theorem ne_of_isDecimalDigit {digit other : Char} (decimal : Character.isDecimalDigit digit = true)
    (brace : Character.isDecimalDigit other = false) : digit ≠ other := by
  rintro rfl
  rw [brace] at decimal
  cases decimal

section Pieces

variable {digits more rest : List Char} {character : Char}

theorem piecesFrom_opened (rest : List Char) :
    piecesFrom none (openBrace :: rest) = piecesFrom (some []) rest := by
  rw [piecesFrom, if_pos rfl]

theorem piecesFrom_copied (notOpened : character ≠ openBrace) (rest : List Char) :
    piecesFrom none (character :: rest) = .literal character :: piecesFrom none rest := by
  rw [piecesFrom, if_neg notOpened]

theorem piecesFrom_closed (decimal : ∀ digit ∈ more, Character.isDecimalDigit digit = true)
    (nonempty : digits.reverse ++ more ≠ []) (rest : List Char) :
    piecesFrom (some digits) (more ++ closeBrace :: rest) =
      .place (digits.reverse ++ more) :: piecesFrom none rest := by
  induction more generalizing digits with
  | nil =>
      rw [List.append_nil, ne_eq, List.reverse_eq_nil_iff] at nonempty
      rw [List.nil_append, piecesFrom, if_pos ⟨rfl, nonempty⟩, List.append_nil]
  | cons digit more ih =>
      obtain ⟨here, later⟩ := List.forall_mem_cons.mp decimal
      have notClosed := ne_of_isDecimalDigit here isDecimalDigit_closeBrace
      have read := @ih (digit :: digits) later (by simp)
      rw [List.cons_append, piecesFrom, if_neg (fun closes => notClosed closes.1), if_pos here,
        read]
      simp

/-- An opening brace and digits that no closing brace ends are copied, and reading goes on
behind them. -/
theorem piecesFrom_unclosed (unclosed : ∀ more behind, rest = more ++ closeBrace :: behind →
    (∀ digit ∈ more, Character.isDecimalDigit digit = true) → digits.reverse ++ more = []) :
    piecesFrom (some digits) rest = literals digits ++ piecesFrom none rest := by
  induction rest generalizing digits with
  | nil => simp [piecesFrom]
  | cons character rest ih =>
      have notClosed : ¬ (character = closeBrace ∧ digits ≠ []) := by
        rintro ⟨rfl, nonempty⟩
        have none := unclosed [] rest rfl (List.forall_mem_nil _)
        simp [nonempty] at none
      conv_lhs => rw [piecesFrom, if_neg notClosed]
      split
      · next decimal =>
        have notOpened := ne_of_isDecimalDigit decimal isDecimalDigit_openBrace
        have read := @ih (character :: digits) fun more behind split areDecimal => by
          have none := unclosed (character :: more) behind (by rw [split]; rfl)
            (List.forall_mem_cons.mpr ⟨decimal, areDecimal⟩)
          simp at none
        rw [read, piecesFrom_copied notOpened]
        simp [literals]
      · split
        · next opened => rw [opened, piecesFrom_opened]
        · next notOpened => rw [piecesFrom_copied notOpened]

theorem piecesFrom_place (place : IsPlace digits) (rest : List Char) :
    piecesFrom none (written digits ++ rest) = .place digits :: piecesFrom none rest := by
  have read := @piecesFrom_closed [] digits place.decimal (by simpa using place.nonempty) rest
  simpa [written, piecesFrom_opened] using read

/-- A character at which no place begins is copied. -/
theorem piecesFrom_literal
    (apart : ∀ digits, IsPlace digits → ¬ written digits <+: character :: rest) :
    piecesFrom none (character :: rest) = .literal character :: piecesFrom none rest := by
  by_cases opened : character = openBrace
  · rw [opened, piecesFrom_opened, piecesFrom_unclosed]
    · rfl
    · intro more behind split decimal
      by_contra nonempty
      refine apart more ⟨by simpa using nonempty, decimal⟩ ⟨behind, ?_⟩
      rw [opened, split]
      simp [written]
  · exact piecesFrom_copied opened rest

end Pieces

/-! ## Reading a whole template -/

/-- A rest of a template at which a place begins, or its end. -/
def BeginsWithPlace (rest : List Char) : Prop :=
  ∀ next, rest.head? = some next → next = openBrace

private theorem openBrace_not_mem {digits : List Char} (place : IsPlace digits) :
    openBrace ∉ digits ++ [closeBrace] := by
  intro member
  obtain isDigit | isClose := List.mem_append.mp member
  · exact ne_of_isDecimalDigit (place.decimal _ isDigit) isDecimalDigit_openBrace rfl
  · exact absurd (List.mem_singleton.mp isClose) (by decide)

theorem placeless_nil : Placeless [] := by
  intro digits _ within
  exact absurd (List.infix_nil.mp within) (List.cons_ne_nil _ _)

theorem placeless_cons {character : Char} {characters : List Char} :
    Placeless (character :: characters) ↔
      (∀ digits, IsPlace digits → ¬ written digits <+: character :: characters) ∧
        Placeless characters := by
  constructor
  · intro placeless
    refine ⟨fun digits place begins => placeless digits place begins.isInfix, ?_⟩
    intro digits place within
    exact placeless digits place (List.infix_cons within)
  · rintro ⟨apart, placeless⟩ digits place within
    obtain begins | within := List.infix_cons_iff.mp within
    · exact apart digits place begins
    · exact placeless digits place within

/-- No place begins among characters without one and ends behind them, where another one
begins. -/
theorem Placeless.not_prefix {character : Char} {characters rest : List Char}
    (placeless : Placeless (character :: characters)) (begins : BeginsWithPlace rest)
    {digits : List Char} (place : IsPlace digits) :
    ¬ written digits <+: character :: (characters ++ rest) := by
  rintro ⟨behind, whole⟩
  have isPrefix : written digits <+: character :: characters ++ rest := ⟨behind, whole⟩
  obtain within | ⟨overlap, overlaps⟩ :=
    List.prefix_or_prefix_of_prefix isPrefix (List.prefix_append (character :: characters) rest)
  · exact placeless digits place within.isInfix
  · rw [← overlaps, List.append_assoc, List.cons_append, List.cons_inj_right] at whole
    have isRest := List.append_cancel_left whole
    have isClosing : characters ++ overlap = digits ++ [closeBrace] := (List.cons.inj overlaps).2
    cases overlap with
    | nil =>
        rw [List.append_nil] at overlaps
        exact placeless digits place (overlaps ▸ List.infix_refl _)
    | cons next overlap =>
        have isOpen : next = openBrace := begins next (by rw [← isRest]; rfl)
        apply openBrace_not_mem place
        rw [← isClosing, isOpen]
        simp

/-- Characters without a place are copied. -/
theorem piecesFrom_placeless {characters rest : List Char} (placeless : Placeless characters)
    (begins : BeginsWithPlace rest) :
    piecesFrom none (characters ++ rest) = characters.map .literal ++ piecesFrom none rest := by
  induction characters with
  | nil => rfl
  | cons character characters ih =>
      have read := ih (placeless_cons.mp placeless).2
      rw [List.cons_append, piecesFrom_literal fun digits => placeless.not_prefix begins, read]
      rfl

namespace Division

def pieces (division : Division) : List Piece :=
  division.opening.map .literal ++
    division.places.flatMap fun place => .place place.1 :: place.2.map .literal

def ofPieces : List Piece → Division
  | [] => ⟨[], []⟩
  | .literal character :: pieces =>
      let division := ofPieces pieces
      ⟨character :: division.opening, division.places⟩
  | .place digits :: pieces =>
      let division := ofPieces pieces
      ⟨[], (digits, division.opening) :: division.places⟩

theorem ofPieces_append (characters : List Char) (pieces : List Piece) :
    ofPieces (characters.map .literal ++ pieces) =
      ⟨characters ++ (ofPieces pieces).opening, (ofPieces pieces).places⟩ := by
  induction characters with
  | nil => rfl
  | cons character characters ih =>
      rw [List.map_cons, List.cons_append, ofPieces, ih]
      rfl

/-- Pieces belong to one division only. -/
theorem ofPieces_pieces (division : Division) : ofPieces division.pieces = division := by
  obtain ⟨opening, places⟩ := division
  have behind : ofPieces (places.flatMap fun place => .place place.1 :: place.2.map .literal) =
      ⟨[], places⟩ := by
    induction places with
    | nil => rfl
    | cons place places ih =>
        rw [List.flatMap_cons, List.cons_append, ofPieces, ofPieces_append, ih]
        simp
  rw [pieces, ofPieces_append, behind]
  simp

theorem woven_map (division : Division) (text : List Char × List Char → List Char) :
    division.woven (division.places.map text) =
      division.opening ++ division.places.flatMap fun place => text place ++ place.2 := by
  rw [woven, List.zipWith_map_left, List.zipWith_self, List.flatMap_def]

/-- What a template is filled in to, place by place. -/
theorem flatMap_pieces (division : Division) (text : Piece → List Char)
    (copies : ∀ character, text (.literal character) = [character]) :
    division.pieces.flatMap text =
      division.woven (division.places.map fun place => text (.place place.1)) := by
  have copied : ∀ characters : List Char,
      (characters.map Piece.literal).flatMap text = characters := by
    intro characters
    rw [List.flatMap_map]
    simp [copies]
  rw [woven_map, pieces, List.flatMap_append, copied, List.flatMap_assoc]
  simp only [List.flatMap_cons, copied]

/-- The scan of a template finds its places and what stands between them. -/
theorem Divides.pieces_eq {division : Division} {template : List Char}
    (divides : division.Divides template) : piecesFrom none template = division.pieces := by
  obtain ⟨opening, places⟩ := division
  obtain ⟨rfl, digits, opens, between⟩ := divides
  rw [woven_map, pieces]
  dsimp only at digits opens between ⊢
  induction places generalizing opening with
  | nil =>
      have read := @piecesFrom_placeless opening [] opens (by simp [BeginsWithPlace])
      simpa [piecesFrom] using read
  | cons place places ih =>
      obtain ⟨isPlace, digits⟩ := List.forall_mem_cons.mp digits
      obtain ⟨placeless, between⟩ := List.forall_mem_cons.mp between
      have begins : BeginsWithPlace ((place :: places).flatMap fun place =>
          written place.1 ++ place.2) := by
        intro next isNext
        simpa [written, eq_comm] using isNext
      rw [piecesFrom_placeless opens begins, List.flatMap_cons, List.flatMap_cons,
        List.append_assoc, piecesFrom_place isPlace, ih place.2 digits placeless between,
        List.cons_append]

end Division

/-- A place in front of a template that is taken apart. -/
theorem exists_divides_of_place {digits rest : List Char} {division : Division}
    (isPlace : IsPlace digits) (divides : division.Divides rest) :
    ∃ whole : Division, whole.Divides (written digits ++ rest) := by
  have isRest := divides.whole
  rw [Division.woven_map] at isRest
  refine ⟨⟨[], (digits, division.opening) :: division.places⟩, ?_, ?_, placeless_nil, ?_⟩
  · rw [Division.woven_map]
    simp [isRest]
  · exact List.forall_mem_cons.mpr ⟨isPlace, divides.digits⟩
  · exact List.forall_mem_cons.mpr ⟨divides.opening, divides.between⟩

/-- A character in front of a template that is taken apart, if no place begins with it. -/
theorem exists_divides_of_character {character : Char} {rest : List Char} {division : Division}
    (apart : ∀ digits, IsPlace digits → ¬ written digits <+: character :: rest)
    (divides : division.Divides rest) :
    ∃ whole : Division, whole.Divides (character :: rest) := by
  have isRest := divides.whole
  rw [Division.woven_map] at isRest
  refine ⟨⟨character :: division.opening, division.places⟩, ?_, divides.digits, ?_,
    divides.between⟩
  · rw [Division.woven_map, List.cons_append, isRest]
  · refine placeless_cons.mpr ⟨fun digits isPlace begins => ?_, divides.opening⟩
    have opens : division.opening <+: rest := ⟨_, isRest⟩
    exact apart digits isPlace (begins.trans ((List.prefix_cons_inj character).mpr opens))

/-- Every template is taken apart at its places. -/
theorem exists_divides (template : List Char) :
    ∃ division : Division, division.Divides template := by
  induction size : template.length using Nat.strong_induction_on generalizing template with
  | _ size ih =>
      subst size
      by_cases begins : ∃ digits, IsPlace digits ∧ written digits <+: template
      · obtain ⟨digits, isPlace, rest, rfl⟩ := begins
        obtain ⟨division, divides⟩ := ih rest.length (by simp [written]; omega) rest rfl
        exact exists_divides_of_place isPlace divides
      · cases template with
        | nil => exact ⟨⟨[], []⟩, rfl, by simp, placeless_nil, by simp⟩
        | cons character rest =>
            obtain ⟨division, divides⟩ := ih rest.length (by simp) rest rfl
            exact exists_divides_of_character
              (fun digits isPlace isPrefix => begins ⟨digits, isPlace, isPrefix⟩) divides

/-! ## Numbers of places -/

private theorem toNat_of_isDigit {digit : Nat} {character : Char}
    (isDigit : IsDigit 10 digit character) : character.toNat - '0'.toNat = digit := by
  have all : ∀ digit < 10, digit.digitChar.toNat - '0'.toNat = digit ∧
      digit.digitChar.toUpper.toNat - '0'.toNat = digit := by
    decide
  obtain ⟨bound, rfl | rfl⟩ := isDigit
  · exact (all digit bound).1
  · exact (all digit bound).2

private theorem isDigit_of_plain {character : Char} (plain : character.isDigit = true) :
    IsDigit 10 (character.toNat - '0'.toNat) character := by
  have all : ∀ code < 58, 48 ≤ code → IsDigit 10 (code - 48) (Char.ofNat code) := by
    decide
  obtain ⟨least, greatest⟩ := Bool.and_eq_true_iff.mp plain
  have above : 48 ≤ character.toNat := UInt32.le_iff_toNat_le.mp (of_decide_eq_true least)
  have below : character.toNat ≤ 57 := UInt32.le_iff_toNat_le.mp (of_decide_eq_true greatest)
  have isDigit := all character.toNat (by omega) above
  rwa [Char.ofNat_toNat] at isDigit

/-- The number that has been read so far is the one that the digits so far denote. -/
theorem foldl_numeral {digits : List Nat} {characters : List Char}
    (areDigits : List.Forall₂ (IsDigit 10) digits characters) (earlier : List Nat) :
    characters.foldl (fun value digit => value * 10 + (digit.toNat - '0'.toNat))
      (numeral 10 earlier) = numeral 10 (earlier ++ digits) := by
  induction areDigits generalizing earlier with
  | nil => simp
  | cons isDigit _ ih =>
      rw [List.foldl_cons, toNat_of_isDigit isDigit, ← numeral_concat, ih, List.append_assoc,
        List.singleton_append]

theorem all_isDigit_iff {characters : List Char} :
    characters.all Char.isDigit = true ↔
      ∃ digits, List.Forall₂ (IsDigit 10) digits characters := by
  rw [List.all_eq_true]
  constructor
  · intro plain
    refine ⟨characters.map fun character => character.toNat - '0'.toNat, ?_⟩
    rw [List.forall₂_map_left_iff, List.forall₂_same]
    exact fun character member => isDigit_of_plain (plain character member)
  · rintro ⟨digits, areDigits⟩
    induction areDigits with
    | nil => exact List.forall_mem_nil _
    | cons isDigit _ ih => exact List.forall_mem_cons.mpr ⟨isDigit.isDigit, ih⟩

theorem denotes_iff {characters : List Char} {number : Nat} :
    Denotes characters number ↔ placeNumber? characters = some number := by
  by_cases plain : characters.all Char.isDigit = true
  · have value : ∀ {digits}, List.Forall₂ (IsDigit 10) digits characters →
        characters.foldl (fun value digit => value * 10 + (digit.toNat - '0'.toNat)) 0 =
          numeral 10 digits :=
      fun areDigits => foldl_numeral areDigits []
    rw [placeNumber?, if_pos plain]
    constructor
    · rintro ⟨digits, areDigits, rfl, fits⟩
      simp only [value areDigits, if_pos fits]
    · intro isNumber
      obtain ⟨digits, areDigits⟩ := all_isDigit_iff.mp plain
      simp only [value areDigits, Option.ite_none_right_eq_some, Option.some.injEq] at isNumber
      obtain ⟨fits, rfl⟩ := isNumber
      exact ⟨digits, areDigits, rfl, fits⟩
  · rw [placeNumber?, if_neg plain]
    constructor
    · rintro ⟨digits, areDigits, -⟩
      exact absurd (all_isDigit_iff.mpr ⟨digits, areDigits⟩) plain
    · exact fun isNumber => absurd isNumber (Option.some_ne_none number).symm

theorem not_denotes_iff {characters : List Char} :
    (∀ number, ¬ Denotes characters number) ↔ placeNumber? characters = none := by
  simp only [denotes_iff, Option.eq_none_iff_forall_ne_some, ne_eq]

end Template

namespace Catalog

variable {catalog : Catalog} {span : Span} {buffered : String} {arguments : List Argument}

/-- One text is put in a place. -/
theorem fills_iff {digits : List Char} {text : String} :
    Fills catalog span buffered arguments digits text ↔
      ((placeNumber? digits).map (catalog.placeContent span buffered arguments)).getD "" =
        text := by
  constructor
  · intro fills
    cases fills with
    | position denotes => rw [denotes_iff.mp denotes]; rfl
    | quotation denotes => rw [denotes_iff.mp denotes]; rfl
    | argument denotes found =>
        rw [denotes_iff.mp denotes]
        simp [placeContent, found]
    | missing denotes beyond =>
        rw [denotes_iff.mp denotes]
        simp [placeContent, List.getElem?_eq_none beyond]
    | unreadable undenoted => rw [not_denotes_iff.mp undenoted]; rfl
  · rintro rfl
    cases reads : placeNumber? digits with
    | none => exact .unreadable (not_denotes_iff.mpr reads)
    | some number =>
        have denotes := denotes_iff.mpr reads
        match number, denotes with
        | 0, denotes => exact .position denotes
        | 1, denotes => exact .quotation denotes
        | index + 2, denotes =>
            cases found : arguments[index]? with
            | none =>
                have beyond := List.getElem?_eq_none_iff.mp found
                simpa [placeContent, found] using Fills.missing denotes beyond
            | some argument => simpa [placeContent, found] using Fills.argument denotes found

end Catalog

/-- A template is taken apart at its places in one way, and rendered in one pass: what stands
between the places is copied, and so is the text of every place. -/
theorem templates_are_rendered_in_one_pass (catalog : Catalog) (template : String) :
    ∃ division : Division, division.Divides template.toList ∧
      (∀ other : Division, other.Divides template.toList → other = division) ∧
      ∀ (span : Span) (buffered : String) (arguments : List Argument),
        ∃ texts : List String,
          (∀ others, List.Forall₂
            (fun place text => catalog.Fills span buffered arguments place.1 text)
            division.places others ↔ others = texts) ∧
          catalog.render template span buffered arguments =
            String.ofList (division.woven (texts.map String.toList)) := by
  obtain ⟨division, divides⟩ := exists_divides template.toList
  refine ⟨division, divides, ?_, ?_⟩
  · intro other alsoDivides
    rw [← Division.ofPieces_pieces other, ← alsoDivides.pieces_eq, divides.pieces_eq,
      Division.ofPieces_pieces]
  · intro span buffered arguments
    refine ⟨division.places.map fun place => ((placeNumber? place.1).map
      (catalog.placeContent span buffered arguments)).getD "", ?_, ?_⟩
    · intro others
      rw [eq_comm, ← List.forall₂_eq_eq_eq, List.forall₂_map_left_iff]
      simp only [Catalog.fills_iff]
    · rw [Catalog.render, fill, Template.pieces, divides.pieces_eq,
        Division.flatMap_pieces _ _ fun _ => rfl, List.map_map]
      rfl

-- The quoted text holds a place itself, and stray braces stand next to the one that is filled.
example (catalog : Catalog) (span : Span) :
    catalog.render "\x7b\x7b1\x7d2\x7d" span "\x7b0\x7d" [] = "\x7b\x7b0\x7d2\x7d" := by
  cbv

end Plainspoken

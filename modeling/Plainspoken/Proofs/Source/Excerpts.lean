import Mathlib.Data.List.DropRight
import Plainspoken.Console
import Plainspoken.Proofs.Source.Positions
import Plainspoken.Proofs.Source.Progress

/-!
# Excerpts

A token carries the line and the column that the cursor has counted.  The console, which shows
where a token stands, counts anew: it takes the whole source apart at its line feeds, and puts
a caret behind as many spaces as the column tells.

Both agree on a source whose lines end with line feeds and nothing else, as long as no text or
comment goes over lines and no brace begins one.  The caret then points at the first character
of the token.
-/

namespace Plainspoken

def LineBreak.lineFeed : LineBreak :=
  ⟨'\n', none⟩

/-- Lines that cannot end with anything but a line feed, and do not begin with a brace. -/
structure HasPlainLines (characters : List Char) : Prop where
  noReturn : '\r' ∉ characters
  noSeparator : recordSeparator ∉ characters
  noBrace : ∀ brace, Cursor.isBrace brace = true → ¬ ['\n', brace] <:+: characters

/-- A place on a line of a source.  What stands above ends with a line feed, and what stands
below begins with the one that ends the line; each may be empty. -/
structure PlaceOnLine (source : List Char) where
  above : List Char
  left : List Char
  right : List Char
  below : List Char
  whole : above ++ left ++ (right ++ below) = source
  closed : ∀ last, above.getLast? = some last → last = '\n'
  unbroken : '\n' ∉ left ++ right
  ended : ∀ next, below.head? = some next → next = '\n'

namespace PlaceOnLine

variable {source : List Char}

def line (place : PlaceOnLine source) : List Char :=
  place.left ++ place.right

def lineNumber (place : PlaceOnLine source) : Nat :=
  1 + place.above.count '\n'

/-- The line with its number, and a caret under the place: behind one space for each character
that stands on the line before it. -/
def excerpt (place : PlaceOnLine source) : String :=
  "    |\n" ++ Console.flushRight 3 (toString place.lineNumber) ++ " | " ++
    String.ofList place.line ++ "\n    | " ++
    String.ofList (List.replicate place.left.length ' ' ++ ['^'])

end PlaceOnLine

/-! ## Lines that end with line feeds -/

theorem LineBreak.proper_lineFeed {form : LineBreak} (isForm : some lineFeed = some form) :
    form.Proper := by
  cases isForm
  exact proper_alone rfl

namespace HasPlainLines

variable {characters others : List Char}

theorem of_infix (plain : HasPlainLines characters) (within : others <:+: characters) :
    HasPlainLines others where
  noReturn := fun member => plain.noReturn (within.subset member)
  noSeparator := fun member => plain.noSeparator (within.subset member)
  noBrace := fun brace isBrace follows => plain.noBrace brace isBrace (follows.trans within)

/-- A character that breaks lines is a line feed. -/
theorem eq_of_breaksLine (plain : HasPlainLines characters) {character : Char}
    (member : character ∈ characters) (breaks : breaksLine character = true) :
    character = '\n' := by
  simp only [breaksLine, Bool.or_eq_true, beq_iff_eq] at breaks
  obtain (rfl | isFeed) | rfl := breaks
  · exact absurd member plain.noReturn
  · exact isFeed
  · exact absurd member plain.noSeparator

private theorem breaksLine_eq_false (plain : HasPlainLines characters)
    (unbroken : '\n' ∉ characters) :
    ∀ character ∈ characters, breaksLine character = false := by
  intro character member
  by_contra breaks
  have isFeed := plain.eq_of_breaksLine member (by simpa using breaks)
  exact unbroken (isFeed ▸ member)

theorem eq_lineFeed {form : LineBreak} (plain : HasPlainLines (form.characters ++ others))
    (proper : form.Proper) : form = .lineFeed := by
  have isFeed : ∀ character ∈ form.characters, character = '\n' := fun character member =>
    plain.eq_of_breaksLine (List.mem_append_left others member) (proper.breaks character member)
  have differ := proper.differ
  obtain ⟨first, second⟩ := form
  obtain rfl : first = '\n' := isFeed first List.mem_cons_self
  cases second with
  | none => rfl
  | some second =>
      obtain rfl : second = '\n' := isFeed second (by simp [LineBreak.characters])
      exact absurd rfl differ

/-- Behind a line feed there is no brace to be passed. -/
theorem dropWhile_isBrace (plain : HasPlainLines (LineBreak.lineFeed.characters ++ others)) :
    others.dropWhile Cursor.isBrace = others := by
  cases others with
  | nil => rfl
  | cons next others =>
      rw [List.dropWhile_cons_of_neg]
      intro isBrace
      exact plain.noBrace next isBrace (List.prefix_append ['\n', next] others).isInfix

end HasPlainLines

/-! ## The line breaks of a reading -/

namespace Cursor

section NextToken

variable {limits : Limits} {cursor rest : Cursor} {token : Token}

/-- A line break is a line feed, and fixes that form for those behind it. -/
theorem lineFeed_of_nextToken (plain : HasPlainLines cursor.remaining)
    (known : ∀ form, cursor.lineBreak = some form → form = .lineFeed)
    (read : cursor.nextToken limits = .ok (token, rest)) :
    (∀ form, rest.lineBreak = some form → form = .lineFeed) ∧
      (token.lexeme = .lineBreak →
        Finding.characters ⟨cursor.restartBuffer.skipBlanks, token, rest⟩ = ['\n']) := by
  have sameForm : cursor.restartBuffer.skipBlanks.lineBreak = cursor.lineBreak :=
    lineBreak_skipBlanks cursor.restartBuffer
  have plain := plain.of_infix (Reaches.blanks cursor).remaining.isInfix
  obtain ⟨-, ⟨isEnd, rfl⟩ | ⟨-, taken⟩ | ⟨-, notBreak, lexemeRead⟩⟩ := nextToken_cases read
  · refine ⟨sameForm ▸ known, fun isBreak => ?_⟩
    rw [isEnd] at isBreak
    cases isBreak
  · obtain ⟨form, isForm, isOn, rfl⟩ := takeLineBreak?_cases taken
    obtain ⟨others, remaining⟩ := exists_remaining_of_isOnForm isOn
    rw [remaining] at plain
    obtain rfl : form = .lineFeed := by
      obtain isKnown | ⟨-, proper⟩ := isForm
      · exact known form (sameForm ▸ isKnown)
      · exact plain.eq_lineFeed proper
    obtain ⟨behind, -, shown⟩ := passLineBreak_fields .lineFeed remaining
    rw [plain.dropWhile_isBrace] at behind
    refine ⟨fun form isShown => ?_, fun _ => Finding.characters_eq ?_⟩
    · rw [shown] at isShown
      exact (Option.some.inj isShown).symm
    · dsimp only
      rw [remaining, behind]
      rfl
  · obtain ⟨characters, moves, -⟩ := passes_of_lexeme lexemeRead
    exact ⟨moves.lineBreak_eq ▸ sameForm ▸ known, fun isBreak => absurd isBreak notBreak⟩

end NextToken

namespace Scans

variable {limits : Limits} {cursor : Cursor} {found : List Finding}
  {failure : Option LexicalError}

theorem lineFeeds (scans : cursor.Scans limits found failure)
    (plain : HasPlainLines cursor.remaining)
    (known : ∀ form, cursor.lineBreak = some form → form = .lineFeed) :
    ∀ finding ∈ found, (∀ form, finding.rest.lineBreak = some form → form = .lineFeed) ∧
      (finding.token.lexeme = .lineBreak → finding.characters = ['\n']) := by
  induction scans with
  | fails => exact List.forall_mem_nil _
  | ends read _ => exact List.forall_mem_singleton.mpr (lineFeed_of_nextToken plain known read)
  | goesOn read notEnd _ ih =>
      have here := lineFeed_of_nextToken plain known read
      have behind := (reaches_of_nextToken read notEnd).remaining
      exact List.forall_mem_cons.mpr ⟨here, ih (plain.of_infix behind.isInfix) here.1⟩

/-- Every token that is neither a line break nor the end of the source is a lexeme, read at its
first character. -/
theorem lexemes (scans : cursor.Scans limits found failure) :
    ∀ finding ∈ found, finding.token.lexeme ≠ .lineBreak →
      finding.token.lexeme ≠ .endOfSource →
      finding.start.lexeme limits = .ok (finding.token.lexeme, finding.rest) := by
  have ofRead {cursor rest : Cursor} {token : Token}
      (read : cursor.nextToken limits = .ok (token, rest)) (notBreak : token.lexeme ≠ .lineBreak)
      (notEnd : token.lexeme ≠ .endOfSource) :
      cursor.restartBuffer.skipBlanks.lexeme limits = .ok (token.lexeme, rest) := by
    obtain ⟨-, ⟨isEnd, -⟩ | ⟨isBreak, -⟩ | ⟨-, -, lexemeRead⟩⟩ := nextToken_cases read
    · exact absurd isEnd notEnd
    · exact absurd isBreak notBreak
    · exact lexemeRead
  induction scans with
  | fails => exact List.forall_mem_nil _
  | ends read _ => exact List.forall_mem_singleton.mpr (ofRead read)
  | goesOn read _ _ ih => exact List.forall_mem_cons.mpr ⟨ofRead read, ih⟩

end Scans

end Cursor

/-! ## Lines counted by the cursor -/

theorem breakEnds_lineFeed_snoc (passed others : List Char) (character : Char) :
    breakEnds (some .lineFeed) (passed ++ [character] ++ others) 0 (passed ++ [character]).length =
      breakEnds (some .lineFeed) (passed ++ character :: others) 0 passed.length ++
        if character = '\n' then [passed.length + 1] else [] := by
  have isEnd : (some LineBreak.lineFeed).any (fun form =>
      form.characters.isSuffixOf (passed ++ [character])) = true ↔ character = '\n' := by
    rw [Option.any_some, List.isSuffixOf_iff_suffix, LineBreak.suffix_snoc_iff]
    rfl
  rw [List.append_assoc, List.singleton_append, List.length_append, List.length_singleton,
    breakEnds_append (Nat.zero_le _) (Nat.le_succ _), breakEnds_snoc]
  simp only [isEnd]

/-- Each line feed ends a line break. -/
theorem length_breakEnds_lineFeed (passed others : List Char) :
    (breakEnds (some .lineFeed) (passed ++ others) 0 passed.length).length =
      passed.count '\n' := by
  induction passed using List.reverseRecOn generalizing others with
  | nil => rfl
  | append_singleton passed character ih =>
      rw [breakEnds_lineFeed_snoc, List.length_append, ih, List.count_append]
      split
      · next isFeed => simp [isFeed]
      · next other => simp [other]

/-- The last line break ends with the last line feed. -/
theorem getLast?_breakEnds_lineFeed {above : List Char} (others : List Char)
    (closed : ∀ last, above.getLast? = some last → last = '\n') :
    (breakEnds (some .lineFeed) (above ++ others) 0 above.length).getLast?.getD 0 =
      above.length := by
  induction above using List.reverseRecOn with
  | nil => rfl
  | append_singleton above character ih =>
      rw [breakEnds_lineFeed_snoc, if_pos (closed character List.getLast?_concat)]
      simp

namespace PlaceOnLine

variable {source : List Char}

/-- Every place is on a line. -/
theorem exists_of_append {passed remaining : List Char} (whole : passed ++ remaining = source) :
    ∃ place : PlaceOnLine source,
      place.above ++ place.left = passed ∧ place.right ++ place.below = remaining := by
  let inLine : Char → Bool := fun character => character != '\n'
  have front := List.rdropWhile_append_rtakeWhile (p := inLine) (l := passed)
  have back := @List.takeWhile_append_dropWhile _ inLine remaining
  refine ⟨⟨passed.rdropWhile inLine, passed.rtakeWhile inLine, remaining.takeWhile inLine,
    remaining.dropWhile inLine, ?_, ?_, ?_, ?_⟩, front, back⟩
  · rw [front, back, whole]
  · intro last isLast
    have nonempty : passed.rdropWhile inLine ≠ [] := by
      intro none
      rw [none] at isLast
      cases isLast
    rw [List.getLast?_eq_some_getLast nonempty] at isLast
    have stops := List.rdropWhile_last_not inLine passed nonempty
    simpa [inLine, Option.some.inj isLast] using stops
  · intro member
    obtain isLeft | isRight := List.mem_append.mp member
    · exact absurd (List.mem_rtakeWhile_imp isLeft) (by decide)
    · exact absurd (List.mem_takeWhile_imp isRight) (by decide)
  · intro next isNext
    have stops := List.head?_dropWhile_not inLine remaining
    rw [isNext] at stops
    simpa [inLine] using stops

/-- The cursor counts the lines above and the characters to the left. -/
theorem ofPlace_eq (plain : HasPlainLines source) (place : PlaceOnLine source) :
    Span.ofPlace (some .lineFeed) source (place.above ++ place.left).length =
      ⟨place.lineNumber, 1 + place.left.length⟩ := by
  obtain ⟨above, left, right, below, rfl, closed, unbroken, ended⟩ := place
  have feeds := length_breakEnds_lineFeed above (left ++ (right ++ below))
  have lastFeed := getLast?_breakEnds_lineFeed (left ++ (right ++ below)) closed
  have plainLeft : HasPlainLines left := plain.of_infix (List.infix_append above left _)
  have onLine := @breakEnds_eq_nil_of_unbroken _ above left (right ++ below)
    (fun _ => LineBreak.proper_lineFeed)
    (plainLeft.breaksLine_eq_false fun member => unbroken (List.mem_append_left right member))
  dsimp only [lineNumber]
  have split := @breakEnds_append (some .lineFeed) (above ++ (left ++ (right ++ below))) 0
    above.length (above ++ left).length (Nat.zero_le _) (by simp)
  rw [Span.ofPlace, List.append_assoc, split, onLine, List.append_nil, feeds, lastFeed,
    List.length_append, Nat.add_sub_cancel_left]

end PlaceOnLine

/-! ## Lines taken apart by the console -/

namespace SourceLine

theorem splitFrom_cons {pending rest : List Char} {character : Char} (notFeed : character ≠ '\n')
    (notReturn : character ≠ '\r') :
    splitFrom pending (character :: rest) = splitFrom (character :: pending) rest := by
  rw [splitFrom]
  · exact fun isFeed => notFeed isFeed
  · exact fun _ isReturn => absurd isReturn notReturn

/-- A line is reached behind as many line feeds as there are lines above. -/
theorem splitFrom_above {pending above : List Char} (rest : List Char) (noReturn : '\r' ∉ above)
    (closed : above.getLast? = some '\n') :
    (splitFrom pending (above ++ rest))[above.count '\n']? = (splitFrom [] rest)[0]? := by
  induction above generalizing pending with
  | nil => cases closed
  | cons character above ih =>
      rw [List.mem_cons, not_or] at noReturn
      by_cases isFeed : character = '\n'
      · subst isFeed
        rw [List.cons_append, splitFrom, List.count_cons_self, List.getElem?_cons_succ]
        cases above with
        | nil => rfl
        | cons next above =>
            exact ih noReturn.2 (by rwa [List.getLast?_cons_cons] at closed)
      · rw [List.cons_append, splitFrom_cons isFeed (Ne.symm noReturn.1),
          List.count_cons_of_ne isFeed]
        cases above with
        | nil => exact absurd (Option.some.inj closed) isFeed
        | cons next above =>
            exact ih noReturn.2 (by rwa [List.getLast?_cons_cons] at closed)

theorem splitFrom_line {pending line below : List Char} (noReturn : '\r' ∉ line)
    (unbroken : '\n' ∉ line) (shown : pending.reverse ++ line ≠ [])
    (ended : ∀ next, below.head? = some next → next = '\n') :
    (splitFrom pending (line ++ below))[0]? = some (String.ofList (pending.reverse ++ line)) := by
  induction line generalizing pending with
  | nil =>
      cases below with
      | nil =>
          rw [List.append_nil] at shown
          simp [splitFrom, List.reverse_eq_nil_iff.not.mp shown]
      | cons next below =>
          obtain rfl := ended next rfl
          simp [splitFrom]
  | cons character line ih =>
      rw [List.mem_cons, not_or] at noReturn unbroken
      have read := @ih (character :: pending) noReturn.2 unbroken.2 (by simp)
      rw [List.cons_append, splitFrom_cons (Ne.symm unbroken.1) (Ne.symm noReturn.1), read]
      simp

end SourceLine

namespace PlaceOnLine

private theorem numbered?_eq {source : String} (plain : HasPlainLines source.toList)
    (place : PlaceOnLine source.toList) (shown : place.line ≠ []) :
    SourceLine.numbered? source place.lineNumber = some (String.ofList place.line) := by
  obtain ⟨above, left, right, below, whole, closed, unbroken, ended⟩ := place
  rw [← whole] at plain
  have plainAbove : HasPlainLines above :=
    plain.of_infix (by simpa using (List.prefix_append above (left ++ (right ++ below))).isInfix)
  have plainLine : HasPlainLines (left ++ right) :=
    plain.of_infix (by simpa using List.infix_append above (left ++ right) below)
  have reached : (SourceLine.splitFrom [] (above ++ (left ++ right ++ below)))[above.count '\n']? =
      (SourceLine.splitFrom [] (left ++ right ++ below))[0]? := by
    cases isLast : above.getLast? with
    | none =>
        rw [List.getLast?_eq_none_iff.mp isLast]
        rfl
    | some last =>
        exact SourceLine.splitFrom_above _ plainAbove.noReturn (closed last isLast ▸ isLast)
  have read := @SourceLine.splitFrom_line [] (left ++ right) below plainLine.noReturn unbroken
    shown ended
  dsimp only [lineNumber, line]
  rw [Nat.add_comm, SourceLine.numbered?, SourceLine.all, ← whole, List.append_assoc,
    ← List.append_assoc left, reached, read]
  rfl

private theorem excerptOf?_eq {source : String} (plain : HasPlainLines source.toList)
    (place : PlaceOnLine source.toList) (shown : place.line ≠ []) :
    Console.excerptOf? source ⟨place.lineNumber, 1 + place.left.length⟩ = some place.excerpt := by
  unfold Console.excerptOf?
  dsimp only
  rw [place.numbered?_eq plain shown, Option.map_some, excerpt, Console.caret,
    Nat.add_sub_cancel_left]

/-- A character other than a line feed stands on its line. -/
theorem head?_right {source others : List Char} {first : Char} (place : PlaceOnLine source)
    (starts : place.right ++ place.below = first :: others) (notFeed : first ≠ '\n') :
    place.right.head? = some first := by
  cases isRight : place.right with
  | nil =>
      rw [isRight, List.nil_append] at starts
      exact absurd (place.ended first (by rw [starts]; rfl)) notFeed
  | cons character right =>
      rw [isRight] at starts
      cases starts
      rfl

end PlaceOnLine

/-- A lexeme takes a line feed only within a text or a comment. -/
theorem Finding.not_mem_characters {limits : Limits} {finding : Finding}
    (read : finding.start.lexeme limits = .ok (finding.token.lexeme, finding.rest))
    (unbroken : finding.isBody = true → '\n' ∉ finding.characters) :
    '\n' ∉ finding.characters := by
  cases isBody : finding.isBody with
  | true => exact unbroken isBody
  | false =>
      obtain ⟨characters, passes, -, spared⟩ := Cursor.passes_of_lexeme read
      rw [Finding.characters_eq passes.split]
      intro member
      have spares := spared isBody '\n' member
      cases spares

section Reading

variable {limits : Limits} {source : String}

/-- Every token carries the place at which it starts, counted with line feeds for line breaks. -/
theorem exists_passed_of_findings (plain : HasPlainLines source.toList)
    (unbroken : ∀ finding ∈ findings limits source, finding.isBody = true →
      '\n' ∉ finding.characters) :
    ∀ finding ∈ findings limits source, ∃ passed,
      passed ++ finding.start.remaining = source.toList ∧
        finding.token.span = Span.ofPlace (some .lineFeed) source.toList passed.length := by
  intro finding member
  have scans := Cursor.scans_ofSource limits source
  obtain ⟨braces, begun⟩ := Tracks.ofSource source fun _ => LineBreak.proper_lineFeed
  have feeds := scans.lineFeeds (plain.of_infix ⟨braces, [], by simp [begun.stands.whole]⟩)
    (by rw [Cursor.lineBreak_ofSource]; rintro form ⟨⟩)
  obtain ⟨before, after, split⟩ := List.append_of_mem member
  obtain ⟨span, passed, tracks⟩ := begun.findings (fun _ => LineBreak.proper_lineFeed)
    (fun other isOther form shown => congrArg some ((feeds other isOther).1 form shown).symm) split
  rw [List.nil_append] at tracks
  refine ⟨passed, tracks.stands.whole.symm, span.trans (tracks.position_eq_iff.mpr ⟨?_, ?_⟩)⟩
  · intro earlier isBefore isBody within
    have isEarlier : earlier ∈ findings limits source :=
      split ▸ List.mem_append_left _ isBefore
    exact unbroken earlier isEarlier isBody (within.subset List.mem_cons_self)
  · intro last isLast
    obtain ⟨isBefore, isBreak⟩ := List.mem_filter.mp (List.mem_of_getLast? isLast)
    have isEarlier : last ∈ findings limits source :=
      split ▸ List.mem_append_left _ isBefore
    exact (feeds last isEarlier).2 (eq_of_beq isBreak)

/-- The caret points at the token.  In a source whose lines end with line feeds and do not begin
with braces, and whose texts and comments do not go over lines, every token but the line breaks
and the end of the source has an excerpt: the line on which its first character stands, and a
caret behind as many spaces as there are characters on that line before it. -/
theorem carets_point_at_tokens {tokens : List Token} (plain : HasPlainLines source.toList)
    (read : tokenize limits source = .ok tokens)
    (unbroken : ∀ finding ∈ findings limits source, finding.isBody = true →
      '\n' ∉ finding.characters) :
    (findings limits source).map Finding.token = tokens ∧
    ∀ finding ∈ findings limits source, finding.token.lexeme ≠ .lineBreak →
      finding.token.lexeme ≠ .endOfSource →
      finding.start.lexeme limits = .ok (finding.token.lexeme, finding.rest) ∧
      ∃ place : PlaceOnLine source.toList,
        place.right ++ place.below = finding.start.remaining ∧
        (∃ first, finding.characters.head? = some first ∧ place.right.head? = some first) ∧
        ∀ catalog, Console.excerpt? ⟨catalog, some source⟩ finding.token.span =
          some place.excerpt := by
  have scans := Cursor.scans_ofSource limits source
  constructor
  · exact map_token_findings_of_tokenize read
  · intro finding member notBreak notEnd
    have lexemeRead := scans.lexemes finding member notBreak notEnd
    have consumes := scans.consumes finding member notEnd
    have notFeed := Finding.not_mem_characters lexemeRead (unbroken finding member)
    obtain ⟨passed, whole, span⟩ := exists_passed_of_findings plain unbroken finding member
    obtain ⟨place, isPassed, isRemaining⟩ := PlaceOnLine.exists_of_append whole
    obtain ⟨first, others, characters⟩ := List.exists_cons_of_ne_nil consumes.taken
    have isFirst : place.right.head? = some first := by
      refine @PlaceOnLine.head?_right _ (others ++ finding.rest.remaining) first place ?_ ?_
      · rw [isRemaining, consumes.split, characters]
        rfl
      · rintro rfl
        exact notFeed (characters ▸ List.mem_cons_self)
    have shown : place.line ≠ [] := by
      intro empty
      rw [(List.append_eq_nil_iff.mp empty).2] at isFirst
      cases isFirst
    refine ⟨lexemeRead, place, isRemaining, ⟨first, by rw [characters]; rfl, isFirst⟩, ?_⟩
    intro catalog
    rw [Console.excerpt?, Option.bind_some, span, ← isPassed, place.ofPlace_eq plain,
      place.excerptOf?_eq plain shown]

end Reading

/-- A brace within a line stands there in the excerpt and counts as a character. -/
theorem caret_points_at_name_behind_brace :
    HasPlainLines "A;\n \x7bB #c#".toList ∧
    tokenize .standard "A;\n \x7bB #c#" = .ok [⟨.identifier "A", ⟨1, 1⟩⟩,
      ⟨.mark .semicolon, ⟨1, 2⟩⟩, ⟨.lineBreak, ⟨1, 3⟩⟩, ⟨.identifier "B", ⟨2, 3⟩⟩,
      ⟨.comment "c", ⟨2, 5⟩⟩, ⟨.endOfSource, ⟨2, 8⟩⟩] ∧
    ∃ name ∈ findings .standard "A;\n \x7bB #c#", name.token = ⟨.identifier "B", ⟨2, 3⟩⟩ ∧
      ∃ place : PlaceOnLine "A;\n \x7bB #c#".toList,
        place.right ++ place.below = name.start.remaining ∧
        place.excerpt = "    |\n  2 |  \x7bB #c#\n    |   ^" ∧
        ∀ catalog, Console.excerpt? ⟨catalog, some "A;\n \x7bB #c#"⟩ ⟨2, 3⟩ =
          some place.excerpt := by
  have plain : HasPlainLines "A;\n \x7bB #c#".toList := by
    refine ⟨by decide, by decide, fun brace isBrace => ?_⟩
    simp only [Cursor.isBrace, Bool.or_eq_true, beq_iff_eq] at isBrace
    obtain rfl | rfl := isBrace <;> decide +kernel
  have read : tokenize .standard "A;\n \x7bB #c#" = .ok [⟨.identifier "A", ⟨1, 1⟩⟩,
      ⟨.mark .semicolon, ⟨1, 2⟩⟩, ⟨.lineBreak, ⟨1, 3⟩⟩, ⟨.identifier "B", ⟨2, 3⟩⟩,
      ⟨.comment "c", ⟨2, 5⟩⟩, ⟨.endOfSource, ⟨2, 8⟩⟩] := by
    decide +kernel
  obtain ⟨same, points⟩ := carets_point_at_tokens plain read (by decide +kernel)
  have isName : ⟨.identifier "B", ⟨2, 3⟩⟩ ∈
      (findings .standard "A;\n \x7bB #c#").map Finding.token := by
    rw [same]
    exact .tail _ (.tail _ (.tail _ (.head _)))
  obtain ⟨name, member, token⟩ := List.mem_map.mp isName
  obtain ⟨-, place, isRemaining, -, excerpt⟩ :=
    points name member (by rw [token]; exact nofun) (by rw [token]; exact nofun)
  rw [token] at excerpt
  have written : Console.excerptOf? "A;\n \x7bB #c#" ⟨2, 3⟩ =
      some "    |\n  2 |  \x7bB #c#\n    |   ^" := by
    decide +kernel
  have shown := excerpt ⟨"", "", [], [], [], [], []⟩
  rw [Console.excerpt?, Option.bind_some, written, Option.some.injEq] at shown
  exact ⟨plain, read, name, member, token, place, isRemaining, shown.symm, excerpt⟩

end Plainspoken

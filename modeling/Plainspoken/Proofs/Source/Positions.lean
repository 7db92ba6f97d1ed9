import Mathlib.Data.List.Induction
import Plainspoken.Proofs.Source.Findings

/-!
# Positions of tokens

A token stands on the line and in the column that its place in the source gives: one line
for each line break before it, one column for each character since.  The cursor counts
otherwise in two ways.  A line break that is written out in a text or a comment is not
counted, and the columns of a line begin with the first character that is not a brace.

So the position of a token is the one of its place just when neither comes before it.
-/

namespace Plainspoken

/-- The places behind a start, up to a stop, at which a line break ends. -/
def breakEnds (form? : Option LineBreak) (source : List Char) (start stop : Nat) : List Nat :=
  (List.range' (start + 1) (stop - start)).filter fun place =>
    form?.any fun form => form.characters.isSuffixOf (source.take place)

/-- The line and the column of a place in a source whose lines break in a given form. -/
def Span.ofPlace (form? : Option LineBreak) (source : List Char) (place : Nat) : Span :=
  let ends := breakEnds form? source 0 place
  ⟨1 + ends.length, 1 + (place - ends.getLast?.getD 0)⟩

def lastBreak? (before : List Finding) : Option Finding :=
  (before.filter Finding.isBreak).getLast?

/-- The place from which columns are counted: behind the last line break, or at the start. -/
def lineStart (source : List Char) (before : List Finding) : Nat :=
  ((lastBreak? before).map (Finding.stop source)).getD 0

/-! ## Where line breaks end -/

section BreakEnds

variable {form? : Option LineBreak} {source passed others : List Char}

theorem breakEnds_append {start middle stop : Nat} (first : start ≤ middle)
    (second : middle ≤ stop) :
    breakEnds form? source start stop =
      breakEnds form? source start middle ++ breakEnds form? source middle stop := by
  have counts : stop - start = (middle - start) + (stop - middle) := by omega
  have joined : start + 1 + (middle - start) = middle + 1 := by omega
  unfold breakEnds
  rw [← List.filter_append, counts, ← List.range'_append_1, joined]

private theorem mem_breakEnds {start stop place : Nat} :
    place ∈ breakEnds form? source start stop ↔ (start < place ∧ place ≤ stop) ∧
      ∃ form, form? = some form ∧ form.characters <:+ source.take place := by
  simp only [breakEnds, List.mem_filter, List.mem_range'_1, Option.any_eq_true,
    List.isSuffixOf_iff_suffix]
  constructor
  · rintro ⟨bounds, found⟩
    exact ⟨by omega, found⟩
  · rintro ⟨bounds, found⟩
    exact ⟨by omega, found⟩

theorem breakEnds_eq_nil_iff {start stop : Nat} :
    breakEnds form? source start stop = [] ↔ ∀ form, form? = some form →
      ∀ place, start < place → place ≤ stop → ¬ form.characters <:+ source.take place := by
  rw [List.eq_nil_iff_forall_not_mem]
  simp only [mem_breakEnds]
  constructor
  · intro none form isForm place behind upTo ends
    exact none place ⟨⟨behind, upTo⟩, form, isForm, ends⟩
  · rintro none place ⟨⟨behind, upTo⟩, form, isForm, ends⟩
    exact none form isForm place behind upTo ends

/-- One more character ends a line break, or it does not. -/
theorem breakEnds_snoc (character : Char) :
    breakEnds form? (passed ++ character :: others) passed.length (passed.length + 1) =
      if form?.any fun form => form.characters.isSuffixOf (passed ++ [character])
        then [passed.length + 1] else [] := by
  have taken : (passed ++ character :: others).take (passed.length + 1) = passed ++ [character] := by
    rw [List.append_cons, List.take_left' (by simp)]
  simp only [breakEnds, Nat.add_sub_cancel_left, List.range'_one, List.filter_cons, List.filter_nil,
    taken]

end BreakEnds

namespace LineBreak

variable {form : LineBreak} {passed : List Char} {character : Char}

/-- A line break ends with a given character. -/
theorem suffix_snoc_iff :
    form.characters <:+ passed ++ [character] ↔ match form.second with
      | none => character = form.first
      | some second => character = second ∧ passed.getLast? = some form.first := by
  obtain ⟨first, second⟩ := form
  rw [← List.reverse_prefix]
  cases second with
  | none => simp [characters, eq_comm]
  | some second =>
      simp only [characters, Option.toList_some, List.reverse_cons, List.reverse_nil, List.nil_append,
        List.cons_append, List.reverse_append, List.cons_prefix_cons, List.getLast?_eq_head?_reverse]
      cases passed.reverse with
      | nil => simp
      | cons last others => simp [eq_comm]

private theorem Proper.not_suffix_snoc (proper : form.Proper)
    (unbroken : breaksLine character = false) :
    ¬ form.characters <:+ passed ++ [character] := by
  intro ends
  have member : character ∈ form.characters := by
    rw [suffix_snoc_iff] at ends
    cases isSecond : form.second with
    | none => simp_all [characters]
    | some second => simp_all [characters]
  have breaks := proper.breaks character member
  rw [unbroken] at breaks
  cases breaks

end LineBreak

/-- No line break ends among characters that cannot break a line. -/
theorem breakEnds_eq_nil_of_unbroken {form? : Option LineBreak} {passed characters others : List Char}
    (proper : ∀ form, form? = some form → form.Proper)
    (unbroken : ∀ character ∈ characters, breaksLine character = false) :
    breakEnds form? (passed ++ (characters ++ others)) passed.length
      (passed ++ characters).length = [] := by
  induction characters generalizing passed with
  | nil => simp [breakEnds]
  | cons character characters ih =>
      obtain ⟨here, later⟩ := List.forall_mem_cons.mp unbroken
      have ends := @ih (passed ++ [character]) later
      rw [List.append_assoc, List.append_assoc, List.length_append] at ends
      rw [breakEnds_append (Nat.le_succ _) (by simp), List.cons_append, breakEnds_snoc,
        if_neg, List.nil_append]
      · exact ends
      · intro found
        obtain ⟨form, isForm, ends⟩ := Option.any_eq_true _ _ |>.mp found
        exact (proper form isForm).not_suffix_snoc here (List.isSuffixOf_iff_suffix.mp ends)

/-- A line break ends where it is written, and not before its last character. -/
theorem breakEnds_of_break {form : LineBreak} {passed others : List Char} (proper : form.Proper) :
    breakEnds (some form) (passed ++ (form.characters ++ others)) passed.length
      (passed ++ form.characters).length = [passed.length + form.characters.length] := by
  obtain ⟨first, second⟩ := form
  cases second with
  | none =>
      have ended : (LineBreak.mk first none).characters <:+ passed ++ [first] :=
        List.suffix_append passed [first]
      simp only [LineBreak.characters, Option.toList_none, List.cons_append, List.nil_append,
        List.length_append, List.length_singleton]
      rw [breakEnds_snoc, Option.any_some, if_pos (List.isSuffixOf_iff_suffix.mpr ended)]
  | some second =>
      have notEnded : ¬ (LineBreak.mk first (some second)).characters <:+ passed ++ [first] := by
        rw [LineBreak.suffix_snoc_iff]
        rintro ⟨rfl, -⟩
        exact proper.differ rfl
      have ended : (LineBreak.mk first (some second)).characters <:+
          passed ++ [first] ++ [second] := by
        rw [LineBreak.suffix_snoc_iff]
        exact ⟨rfl, List.getLast?_concat⟩
      have atSecond := @breakEnds_snoc (some ⟨first, some second⟩) (passed ++ [first]) others second
      rw [Option.any_some, if_pos (List.isSuffixOf_iff_suffix.mpr ended), List.append_assoc,
        List.length_append] at atSecond
      simp only [LineBreak.characters, Option.toList_some, List.cons_append, List.nil_append,
        List.length_append, List.length_cons, List.length_nil]
      rw [breakEnds_append (Nat.le_succ _) (by omega), breakEnds_snoc, Option.any_some,
        if_neg (by rwa [List.isSuffixOf_iff_suffix]), List.nil_append]
      exact atSecond

/-! ## Where the cursor stands -/

/-- The cursor stands behind the characters passed, knows no other form of line break than
the given one, and is not between the two characters of a line break. -/
structure Cursor.Stands (source : List Char) (form? : Option LineBreak) (passed : List Char)
    (cursor : Cursor) : Prop where
  whole : source = passed ++ cursor.remaining
  known : ∀ form, cursor.lineBreak = some form → form? = some form
  settled : ∀ form second, form? = some form → form.second = some second →
    passed.getLast? = some form.first → cursor.current ≠ some second

namespace Cursor.Stands

variable {source passed characters : List Char} {form? : Option LineBreak} {cursor rest : Cursor}

theorem length_eq (stands : cursor.Stands source form? passed) :
    source.length - cursor.ahead = passed.length := by
  have lengths := congrArg List.length stands.whole
  rw [List.length_append] at lengths
  unfold Cursor.ahead
  omega

/-- Behind a character that does not break lines no line break goes on. -/
theorem passes (stands : cursor.Stands source form? passed)
    (proper : ∀ form, form? = some form → form.Proper) (moves : cursor.Passes characters rest)
    (unbroken : ∀ last, characters.getLast? = some last → breaksLine last = false) :
    rest.Stands source form? (passed ++ characters) where
  whole := by rw [stands.whole, moves.split, List.append_assoc]
  known := by rw [moves.lineBreak_eq]; exact stands.known
  settled := by
    intro form second isForm isSecond isLast
    cases last : characters.getLast? with
    | none =>
        obtain rfl := List.getLast?_eq_none_iff.mp last
        rw [← moves.moved]
        rw [List.append_nil] at isLast
        exact stands.settled form second isForm isSecond isLast
    | some final =>
        rw [List.getLast?_append, last, Option.some_or] at isLast
        cases isLast
        have breaks := (proper form isForm).breaks form.first List.mem_cons_self
        rw [unbroken form.first last] at breaks
        cases breaks

/-- A blank that is not a line break ends none either. -/
theorem blank {character : Char} (stands : cursor.Stands source form? passed)
    (proper : ∀ form, form? = some form → form.Proper) (isCurrent : cursor.current = some character)
    (notBreak : cursor.isOnLineBreak = false) :
    cursor.advance.Stands source form? (passed ++ [character]) ∧
      breakEnds form? source passed.length (passed ++ [character]).length = [] := by
  have moves := Passes.advance isCurrent
  have ends : breakEnds form? source passed.length (passed ++ [character]).length =
      if form?.any fun form => form.characters.isSuffixOf (passed ++ [character])
        then [passed.length + 1] else [] := by
    rw [stands.whole, moves.split, List.length_append]
    exact breakEnds_snoc character
  rw [ends]
  unfold isOnLineBreak at notBreak
  split at notBreak
  · next form known =>
    have isForm := stands.known form known
    have notEnd : ¬ form.characters <:+ passed ++ [character] := by
      rw [LineBreak.suffix_snoc_iff]
      cases isSecond : form.second with
      | none =>
          intro isFirst
          simp [isOnForm, isOn, isCurrent, isSecond, isFirst] at notBreak
      | some second =>
          rintro ⟨rfl, isFirst⟩
          exact stands.settled form character isForm isSecond isFirst isCurrent
    refine ⟨⟨?_, ?_, ?_⟩, ?_⟩
    · rw [stands.whole, moves.split, List.append_assoc]
    · rw [moves.lineBreak_eq]
      exact stands.known
    · intro other second isOther isSecond isFirst follows
      rw [isForm] at isOther
      cases isOther
      rw [List.getLast?_concat] at isFirst
      cases isFirst
      simp only [isOnForm, isOn, isCurrent, isSecond, beq_self_eq_true, Option.all_some,
        Bool.true_and, beq_eq_false_iff_ne, ne_eq] at notBreak
      exact notBreak follows
    · rw [isForm, Option.any_some, if_neg (by rwa [List.isSuffixOf_iff_suffix])]
  · next unknown =>
    have absent : cursor.lineBreakHere? = none := by simpa using notBreak
    have unbroken := breaksLine_eq_false_of_lineBreakHere? isCurrent absent
    refine ⟨stands.passes proper moves (by simpa using unbroken), if_neg ?_⟩
    intro found
    obtain ⟨form, isForm, ended⟩ := Option.any_eq_true _ _ |>.mp found
    exact (proper form isForm).not_suffix_snoc unbroken (List.isSuffixOf_iff_suffix.mp ended)

/-- A line break ends behind its last character, and the braces that follow change nothing. -/
theorem lineBreak {form : LineBreak} {braces : List Char}
    (stands : cursor.Stands source (some form) passed) (proper : form.Proper)
    (moves : cursor.Passes (form.characters ++ braces) rest)
    (areBraces : ∀ brace ∈ braces, isBrace brace = true) :
    Cursor.Stands source (some form) (passed ++ (form.characters ++ braces))
        { rest with
          position := rest.position.nextLine
          lineBreak := some form }.restartBuffer ∧
      breakEnds (some form) source passed.length (passed ++ (form.characters ++ braces)).length =
        [passed.length + form.characters.length] := by
  have unbroken : ∀ brace ∈ braces, breaksLine brace = false := fun _ member =>
    breaksLine_eq_false_of_isBrace (areBraces _ member)
  refine ⟨⟨?_, fun other known => known, ?_⟩, ?_⟩
  · rw [stands.whole, moves.split]
    exact (List.append_assoc _ _ _).symm
  · intro other second isForm isSecond isLast
    cases isForm
    rw [← List.append_assoc, List.getLast?_append] at isLast
    cases lastBrace : braces.getLast? with
    | some brace =>
        rw [lastBrace, Option.some_or] at isLast
        cases isLast
        have breaks := proper.breaks form.first List.mem_cons_self
        rw [unbroken form.first (List.mem_of_getLast? lastBrace)] at breaks
        cases breaks
    | none =>
        rw [lastBrace, Option.none_or, List.getLast?_append, LineBreak.characters,
          isSecond] at isLast
        exact absurd (isSecond.trans isLast) proper.differ
  · have here := @breakEnds_of_break form passed (braces ++ rest.remaining) proper
    have behind := @breakEnds_eq_nil_of_unbroken (some form) (passed ++ form.characters) braces
      rest.remaining (fun _ isForm => by cases isForm; exact proper) unbroken
    rw [List.append_assoc, List.append_assoc] at behind
    rw [stands.whole, moves.split, List.append_assoc,
      breakEnds_append (by simp : passed.length ≤ (passed ++ form.characters).length) (by simp),
      here, behind, List.append_nil]

/-- A line break ends among the characters behind the cursor just when it is written there. -/
theorem breakEnds_eq_nil_iff_infix (stands : cursor.Stands source form? passed)
    (moves : cursor.Passes characters rest) :
    breakEnds form? source passed.length (passed ++ characters).length = [] ↔
      ∀ form, form? = some form → ¬ form.characters <:+: characters := by
  have whole : source = passed ++ (characters ++ rest.remaining) := by
    rw [stands.whole, moves.split]
  rw [breakEnds_eq_nil_iff]
  constructor
  · rintro quiet form isForm ⟨front, back, split⟩
    refine quiet form isForm (passed ++ front ++ form.characters).length ?_ ?_ ?_
    · simp only [LineBreak.characters, List.length_append, List.length_cons]
      omega
    · simp [← split]
    · have divided : source = passed ++ front ++ form.characters ++ (back ++ rest.remaining) := by
        rw [whole, ← split]
        simp
      rw [divided, List.take_left]
      exact List.suffix_append _ _
  · intro absent form isForm place behind upTo ends
    have taken : source.take place = passed ++ characters.take (place - passed.length) := by
      rw [List.length_append] at upTo
      rw [whole, List.take_append, List.take_of_length_le (by omega),
        List.take_append_of_le_length (by omega)]
    have front : characters.take (place - passed.length) <+: characters := List.take_prefix _ _
    obtain none | ⟨init, last, split⟩ :=
      List.eq_nil_or_concat (characters.take (place - passed.length))
    · have length := congrArg List.length none
      rw [List.length_take, List.length_nil] at length
      rw [List.length_append] at upTo
      omega
    · rw [List.concat_eq_append] at split
      rw [split] at front taken
      apply absent form isForm
      refine List.IsInfix.trans ?_ front.isInfix
      rw [taken, ← List.append_assoc, LineBreak.suffix_snoc_iff] at ends
      apply List.IsSuffix.isInfix
      rw [LineBreak.suffix_snoc_iff]
      cases isSecond : form.second with
      | none =>
          rw [isSecond] at ends
          exact ends
      | some second =>
          rw [isSecond] at ends
          obtain ⟨rfl, isFirst⟩ := ends
          refine ⟨rfl, ?_⟩
          cases inner : init.getLast? with
          | some first =>
              rw [List.getLast?_append, inner] at isFirst
              exact isFirst
          | none =>
              -- The line break would go across the place of the cursor.
              obtain rfl := List.getLast?_eq_none_iff.mp inner
              rw [List.append_nil] at isFirst
              obtain ⟨others, isFront⟩ := front
              refine absurd ?_ (stands.settled form last isForm isSecond isFirst)
              rw [Cursor.current, moves.split, ← isFront]
              rfl

end Cursor.Stands

/-! ## What the cursor has counted -/

/-- The line breaks that end within a token. -/
def Finding.ends (source : List Char) (form? : Option LineBreak) (finding : Finding) : List Nat :=
  breakEnds form? source (finding.place source) (finding.stop source)

/-- A line break ends within a token where it is written there: once in a line break, any
number of times in a text or a comment, and nowhere else. -/
structure Finding.Accounted (source : List Char) (form? : Option LineBreak) (finding : Finding) :
    Prop where
  stop_eq : finding.stop source = finding.place source + finding.characters.length
  ends_iff : finding.ends source form? = [] ↔
    ∀ form, form? = some form → ¬ form.characters <:+: finding.characters
  ofBreak : finding.isBreak = true → ∃ form braces, form? = some form ∧
    finding.characters = form.characters ++ braces ∧
    finding.ends source form? = [finding.place source + form.characters.length]
  ofOther : finding.isBreak = false → finding.isBody = false → finding.ends source form? = []

/-- What a token takes, counted from where its cursors stand. -/
theorem Cursor.Stands.accounted {source passed characters : List Char} {form? : Option LineBreak}
    {finding : Finding} {between : Cursor} (stands : finding.start.Stands source form? passed)
    (moves : finding.start.Passes characters between)
    (ended : finding.rest.Stands source form? (passed ++ characters))
    (ofBreak : finding.isBreak = true → ∃ form braces, form? = some form ∧
      characters = form.characters ++ braces ∧
      breakEnds form? source passed.length (passed ++ characters).length =
        [passed.length + form.characters.length])
    (ofOther : finding.isBreak = false → finding.isBody = false →
      breakEnds form? source passed.length (passed ++ characters).length = []) :
    finding.Accounted source form? := by
  have place : finding.place source = passed.length := stands.length_eq
  have stop : finding.stop source = (passed ++ characters).length := ended.length_eq
  have taken : finding.characters = characters := by
    have same : between.remaining = finding.rest.remaining := by
      have whole := stands.whole
      rw [moves.split, ← List.append_assoc, ended.whole] at whole
      exact (List.append_cancel_left whole).symm
    exact Finding.characters_eq (same ▸ moves.split)
  refine ⟨?_, ?_, ?_, ?_⟩
  · rw [stop, place, taken, List.length_append]
  · rw [Finding.ends, place, stop, taken]
    exact stands.breakEnds_eq_nil_iff_infix moves
  · rw [Finding.ends, place, stop, taken]
    exact ofBreak
  · rw [Finding.ends, place, stop]
    exact ofOther

/-- What the cursor knows of the tokens before it: its line and column follow from them, and
every line break that has ended did so within one of them. -/
structure Tracks (source : List Char) (form? : Option LineBreak) (before : List Finding)
    (passed : List Char) (cursor : Cursor) : Prop where
  stands : cursor.Stands source form? passed
  started : lineStart source before ≤ passed.length
  position : cursor.position =
    ⟨1 + before.countP Finding.isBreak, 1 + (passed.length - lineStart source before)⟩
  counted : breakEnds form? source 0 passed.length = before.flatMap (Finding.ends source form?)
  accounted : ∀ earlier ∈ before, earlier.Accounted source form?

theorem lastBreak?_snoc (before : List Finding) (finding : Finding) :
    lastBreak? (before ++ [finding]) =
      if finding.isBreak then some finding else lastBreak? before := by
  unfold lastBreak?
  rw [List.filter_append]
  cases isBreak : finding.isBreak <;> simp [isBreak]

namespace Tracks

variable {source passed characters : List Char} {form? : Option LineBreak}
variable {before : List Finding} {cursor rest : Cursor}

theorem restartBuffer (tracks : Tracks source form? before passed cursor) :
    Tracks source form? before passed cursor.restartBuffer where
  stands := ⟨tracks.stands.whole, tracks.stands.known, tracks.stands.settled⟩
  started := tracks.started
  position := tracks.position
  counted := tracks.counted
  accounted := tracks.accounted

/-- Moving on where no line break ends. -/
theorem passes (tracks : Tracks source form? before passed cursor)
    (moves : cursor.Passes characters rest)
    (stands : rest.Stands source form? (passed ++ characters))
    (quiet : breakEnds form? source passed.length (passed ++ characters).length = []) :
    Tracks source form? before (passed ++ characters) rest where
  stands := stands
  started := by
    have started := tracks.started
    rw [List.length_append]
    omega
  position := by
    have started := tracks.started
    rw [moves.position_eq, tracks.position, List.length_append, Span.mk.injEq]
    exact ⟨rfl, by simp only; omega⟩
  counted := by
    have longer : passed.length ≤ (passed ++ characters).length := by simp
    rw [breakEnds_append (Nat.zero_le _) longer, quiet, List.append_nil, tracks.counted]
  accounted := tracks.accounted

theorem crosses (proper : ∀ form, form? = some form → form.Proper)
    (tracks : Tracks source form? before passed cursor) (crosses : cursor.Crosses rest) :
    ∃ further, Tracks source form? before (passed ++ further) rest := by
  obtain ⟨characters, moves, unbroken⟩ := crosses
  refine ⟨characters, tracks.passes moves (tracks.stands.passes proper moves fun last isLast =>
    unbroken last (List.mem_of_getLast? isLast)) ?_⟩
  rw [tracks.stands.whole, moves.split]
  exact breakEnds_eq_nil_of_unbroken proper unbroken

theorem skipBlanks (proper : ∀ form, form? = some form → form.Proper)
    (tracks : Tracks source form? before passed cursor) :
    ∃ further, Tracks source form? before (passed ++ further) cursor.skipBlanks := by
  unfold Cursor.skipBlanks
  generalize cursor.remaining.length = steps
  induction steps generalizing cursor passed with
  | zero => exact ⟨[], by simpa [Cursor.skipBlanksUpTo] using tracks⟩
  | succ steps ih =>
      unfold Cursor.skipBlanksUpTo
      split
      · next blank =>
        obtain ⟨onBlank, notSpecial⟩ := Bool.and_eq_true_iff.mp blank
        obtain ⟨character, isCurrent, -⟩ := Cursor.exists_current_of_isOnClass onBlank
        have notBreak : cursor.isOnLineBreak = false := by
          simp only [Cursor.isOnSpecial, Bool.not_or, Bool.and_eq_true, Bool.not_eq_true'] at notSpecial
          exact notSpecial.2
        obtain ⟨stands, quiet⟩ := tracks.stands.blank proper isCurrent notBreak
        have moved := tracks.passes (.advance isCurrent) stands quiet
        obtain ⟨braces, reached⟩ := moved.crosses proper
          (.advanceWhile _ fun _ => Cursor.breaksLine_eq_false_of_isBrace)
        obtain ⟨others, ended⟩ := ih reached
        refine ⟨[character] ++ (braces ++ others), ?_⟩
        rw [← List.append_assoc, ← List.append_assoc]
        exact ended
      · exact ⟨[], by simpa using tracks⟩

/-- A token is added to those before the cursor. -/
theorem add {finding : Finding} (tracks : Tracks source form? before passed finding.start)
    (stands : finding.rest.Stands source form? (passed ++ characters))
    (position : finding.rest.position =
      if finding.isBreak then ⟨finding.start.position.line + 1, 1⟩
      else ⟨finding.start.position.line, finding.start.position.column + characters.length⟩)
    (accounted : finding.Accounted source form?) :
    Tracks source form? (before ++ [finding]) (passed ++ characters) finding.rest := by
  have place : finding.place source = passed.length := tracks.stands.length_eq
  have stop : finding.stop source = (passed ++ characters).length := stands.length_eq
  have longer : passed.length ≤ (passed ++ characters).length := by simp
  have started := tracks.started
  refine ⟨stands, ?_, ?_, ?_, ?_⟩
  · unfold lineStart at started ⊢
    rw [lastBreak?_snoc]
    split
    · exact Nat.le_of_eq stop
    · exact Nat.le_trans started longer
  · unfold lineStart at started ⊢
    have before_eq := tracks.position
    unfold lineStart at before_eq
    rw [position, before_eq, lastBreak?_snoc, List.countP_append, List.countP_singleton]
    split
    · simp only [Option.map_some, Option.getD_some, stop, Nat.sub_self, Nat.add_zero,
        Nat.add_assoc]
    · simp only [Nat.add_zero, List.length_append]
      congr 1
      omega
  · rw [breakEnds_append (Nat.zero_le _) longer, tracks.counted, List.flatMap_append]
    simp only [List.flatMap_cons, List.flatMap_nil, List.append_nil, Finding.ends, place, stop]
  · exact List.forall_mem_append.mpr ⟨tracks.accounted, List.forall_mem_singleton.mpr accounted⟩

/-- A lexeme takes characters among which a line break ends only in a text or a comment. -/
theorem lexeme {limits : Limits} {start : Cursor} {token : Token}
    (proper : ∀ form, form? = some form → form.Proper)
    (tracks : Tracks source form? before passed start) (notBreak : token.lexeme ≠ .lineBreak)
    (read : start.lexeme limits = .ok (token.lexeme, rest)) :
    ∃ further, Tracks source form? (before ++ [⟨start, token, rest⟩]) (passed ++ further) rest := by
  obtain ⟨characters, moves, lastUnbroken, unbroken⟩ := Cursor.passes_of_lexeme read
  have stands := tracks.stands.passes proper moves lastUnbroken
  have notBreak : Finding.isBreak ⟨start, token, rest⟩ = false := by
    simpa [Finding.isBreak] using notBreak
  refine ⟨characters, @add _ _ characters _ _ ⟨start, token, rest⟩ tracks stands ?_ ?_⟩
  · rw [notBreak]
    exact moves.position_eq
  · apply tracks.stands.accounted moves stands
    · rw [notBreak]
      intro impossible
      cases impossible
    · intro _ notBody
      rw [tracks.stands.whole, moves.split]
      exact breakEnds_eq_nil_of_unbroken proper (unbroken notBody)

/-- A line break takes its own characters and the braces behind them. -/
theorem lineBreak {start : Cursor} {token : Token}
    (proper : ∀ form, form? = some form → form.Proper)
    (tracks : Tracks source form? before passed start) (isBreak : token.lexeme = .lineBreak)
    (taken : start.takeLineBreak? = some rest)
    (shown : ∀ form, rest.lineBreak = some form → form? = some form) :
    ∃ further, Tracks source form? (before ++ [⟨start, token, rest⟩]) (passed ++ further) rest := by
  obtain ⟨form, -, isOn, rfl⟩ := Cursor.takeLineBreak?_cases taken
  obtain ⟨braces, between, moves, areBraces, ended⟩ := Cursor.passes_of_passLineBreak isOn
  obtain rfl : form? = some form := shown form rfl
  obtain ⟨stands, ends⟩ := tracks.stands.lineBreak (proper form rfl) moves areBraces
  have stands : (start.passLineBreak form).Stands source (some form)
      (passed ++ (form.characters ++ braces)) := by
    rw [ended]
    exact stands
  have isBreak : Finding.isBreak ⟨start, token, start.passLineBreak form⟩ = true := by
    simpa [Finding.isBreak] using isBreak
  refine ⟨form.characters ++ braces,
    @add _ _ _ _ _ ⟨start, token, start.passLineBreak form⟩ tracks stands ?_ ?_⟩
  · rw [isBreak, if_pos rfl]
    simp only [ended]
    change between.position.nextLine = _
    rw [moves.position_eq]
    rfl
  · apply tracks.stands.accounted moves stands
    · exact fun _ => ⟨form, braces, rfl, rfl, ends⟩
    · rw [isBreak]
      intro impossible
      cases impossible

end Tracks

/-! ## Positions of all tokens -/

theorem Tracks.ofSource (source : String) {form? : Option LineBreak}
    (proper : ∀ form, form? = some form → form.Proper) :
    ∃ passed, Tracks source.toList form? [] passed (Cursor.ofSource source) := by
  obtain ⟨start, remaining, position, unknown, crosses⟩ := Cursor.ofSource_crosses source
  have begun : Tracks source.toList form? [] [] start := by
    refine ⟨⟨remaining.symm, ?_, ?_⟩, Nat.zero_le _, position, ?_, List.forall_mem_nil _⟩
    · rw [unknown]
      intro form known
      cases known
    · intro form second _ _ isLast
      cases isLast
    · simp [breakEnds]
  obtain ⟨braces, reached⟩ := begun.crosses proper crosses
  exact ⟨_, reached⟩

/-- Whatever has been read, the cursor on a token knows of the tokens before it. -/
theorem Tracks.findings {limits : Limits} {budget : Nat} {source passed : List Char}
    {form? : Option LineBreak} {before earlier after : List Finding} {finding : Finding}
    {cursor : Cursor} (proper : ∀ form, form? = some form → form.Proper)
    (tracks : Tracks source form? before passed cursor)
    (shown : ∀ other ∈ cursor.findings limits budget, ∀ form,
      other.rest.lineBreak = some form → form? = some form)
    (split : cursor.findings limits budget = earlier ++ finding :: after) :
    finding.token.span = finding.start.position ∧
      ∃ passed, Tracks source form? (before ++ earlier) passed finding.start := by
  induction budget generalizing cursor before passed earlier with
  | zero => simp [Cursor.findings] at split
  | succ budget ih =>
      obtain none | ⟨token, rest, others, read, isFirst, later⟩ :=
        Cursor.findings_succ limits budget cursor
      · simp [none] at split
      · obtain ⟨blanks, tracksStart⟩ := tracks.restartBuffer.skipBlanks proper
        obtain ⟨span, ending⟩ := Cursor.nextToken_cases read
        rw [isFirst] at split shown
        obtain ⟨restShown, othersShown⟩ := List.forall_mem_cons.mp shown
        cases earlier with
        | nil =>
            cases split
            exact ⟨span, _, by simpa using tracksStart⟩
        | cons first earlier =>
            cases split
            obtain none | ⟨notEnd, same⟩ := later
            · simp at none
            have step : ∃ further, Tracks source form?
                (before ++ [⟨cursor.restartBuffer.skipBlanks, token, rest⟩])
                (passed ++ blanks ++ further) rest := by
              obtain ⟨isEnd, -⟩ | ⟨isBreak, taken⟩ | ⟨-, notBreak, lexemeRead⟩ := ending
              · exact absurd isEnd notEnd
              · exact tracksStart.lineBreak proper isBreak taken restShown
              · exact tracksStart.lexeme proper notBreak lexemeRead
            obtain ⟨further, tracksRest⟩ := step
            obtain ⟨spanLater, passedLater, tracksLater⟩ :=
              ih tracksRest (same ▸ othersShown) same.symm
            rw [List.append_assoc] at tracksLater
            exact ⟨spanLater, passedLater, tracksLater⟩

section Counting

variable {source : List Char} {form? : Option LineBreak} {before : List Finding}

private theorem Finding.isBreak_eq_false_of_isBody {finding : Finding}
    (isBody : finding.isBody = true) :
    finding.isBreak = false := by
  obtain ⟨start, ⟨lexeme, span⟩, rest⟩ := finding
  cases lexeme <;> first | rfl | cases isBody

/-- Each line break counts once, and those written in texts and comments come on top. -/
theorem length_flatMap_ends (accounted : ∀ earlier ∈ before, earlier.Accounted source form?) :
    (before.flatMap (Finding.ends source form?)).length =
      before.countP Finding.isBreak +
        ((before.filter Finding.isBody).flatMap (Finding.ends source form?)).length := by
  induction before with
  | nil => rfl
  | cons finding before ih =>
      obtain ⟨here, later⟩ := List.forall_mem_cons.mp accounted
      rw [List.flatMap_cons, List.length_append, ih later, List.countP_cons, List.filter_cons]
      cases isBody : finding.isBody with
      | true =>
          rw [if_pos rfl, finding.isBreak_eq_false_of_isBody isBody, List.flatMap_cons,
            List.length_append]
          simp only [Bool.false_eq_true, if_false]
          omega
      | false =>
          cases isBreak : finding.isBreak with
          | true =>
              obtain ⟨form, braces, -, -, ends⟩ := here.ofBreak isBreak
              rw [ends]
              simp
              omega
          | false =>
              rw [here.ofOther isBreak isBody]
              simp

/-- Where no text or comment hides one, the last line break to end is the last token of that
kind. -/
theorem getLast?_flatMap_ends {form : LineBreak}
    (accounted : ∀ earlier ∈ before, earlier.Accounted source (some form))
    (quiet : (before.filter Finding.isBody).flatMap (Finding.ends source (some form)) = []) :
    (before.flatMap (Finding.ends source (some form))).getLast? =
      (lastBreak? before).map (·.place source + form.characters.length) := by
  induction before using List.reverseRecOn with
  | nil => rfl
  | append_singleton before finding ih =>
      obtain ⟨earlier, here⟩ := List.forall_mem_append.mp accounted
      have here := List.forall_mem_singleton.mp here
      rw [List.filter_append, List.flatMap_append, List.append_eq_nil_iff] at quiet
      rw [List.flatMap_append, List.getLast?_append, ih earlier quiet.1, lastBreak?_snoc]
      simp only [List.flatMap_cons, List.flatMap_nil, List.append_nil]
      cases isBreak : finding.isBreak with
      | true =>
          obtain ⟨shown, braces, isForm, -, ends⟩ := here.ofBreak isBreak
          cases isForm
          simp [ends]
      | false =>
          have none : finding.ends source (some form) = [] := by
            cases isBody : finding.isBody with
            | true => simpa [isBody] using quiet.2
            | false => exact here.ofOther isBreak isBody
          simp [none]

theorem hidden_eq_nil_iff (accounted : ∀ earlier ∈ before, earlier.Accounted source form?) :
    (before.filter Finding.isBody).flatMap (Finding.ends source form?) = [] ↔
      ∀ earlier ∈ before, earlier.isBody = true →
        ∀ form, form? = some form → ¬ form.characters <:+: earlier.characters := by
  rw [List.flatMap_eq_nil_iff]
  constructor
  · intro quiet earlier member isBody
    exact (accounted earlier member).ends_iff.mp
      (quiet earlier (List.mem_filter.mpr ⟨member, isBody⟩))
  · intro absent earlier member
    obtain ⟨member, isBody⟩ := List.mem_filter.mp member
    exact (accounted earlier member).ends_iff.mpr (absent earlier member isBody)

private theorem lastBreak?_eq_none (accounted : ∀ earlier ∈ before, earlier.Accounted source none) :
    lastBreak? before = none := by
  rw [lastBreak?, List.getLast?_eq_none_iff, List.filter_eq_nil_iff]
  intro earlier member isBreak
  obtain ⟨form, braces, isForm, -⟩ := (accounted earlier member).ofBreak isBreak
  cases isForm

end Counting

namespace Tracks

variable {source passed : List Char} {form : LineBreak} {before : List Finding} {cursor : Cursor}

/-- Without line breaks a position is its place on the first line. -/
theorem position_eq_of_unbroken (tracks : Tracks source none before passed cursor) :
    cursor.position = Span.ofPlace none source passed.length := by
  have absent := lastBreak?_eq_none tracks.accounted
  have noBreaks : before.countP Finding.isBreak = 0 := by
    rw [List.countP_eq_length_filter, List.length_eq_zero_iff]
    exact List.getLast?_eq_none_iff.mp absent
  have noEnds : breakEnds none source 0 passed.length = [] := by
    simp [breakEnds]
  rw [tracks.position, noBreaks, lineStart, absent, Span.ofPlace, noEnds]
  rfl

theorem position_eq_iff (tracks : Tracks source (some form) before passed cursor) :
    cursor.position = Span.ofPlace (some form) source passed.length ↔
      (∀ earlier ∈ before, earlier.isBody = true → ¬ form.characters <:+: earlier.characters) ∧
      ∀ last, lastBreak? before = some last → last.characters = form.characters := by
  have hidden := hidden_eq_nil_iff tracks.accounted
  simp only [Option.some.injEq, forall_eq'] at hidden
  have started := tracks.started
  rw [← hidden, tracks.position, Span.ofPlace, tracks.counted, Span.mk.injEq,
    length_flatMap_ends tracks.accounted]
  have line : 1 + before.countP Finding.isBreak = 1 + (before.countP Finding.isBreak +
      ((before.filter Finding.isBody).flatMap (Finding.ends source (some form))).length) ↔
        (before.filter Finding.isBody).flatMap (Finding.ends source (some form)) = [] := by
    rw [← List.length_eq_zero_iff]
    omega
  rw [line]
  refine and_congr_right fun quiet => ?_
  rw [getLast?_flatMap_ends tracks.accounted quiet]
  unfold lineStart at started ⊢
  cases isLast : lastBreak? before with
  | none => simp
  | some last =>
      obtain ⟨member, isBreak⟩ := List.mem_filter.mp (List.mem_of_getLast? isLast)
      have accounted := tracks.accounted last member
      obtain ⟨shown, braces, isForm, taken, -⟩ := accounted.ofBreak isBreak
      cases isForm
      have stop := accounted.stop_eq
      rw [taken, List.length_append] at stop
      simp only [isLast, Option.map_some, Option.getD_some] at started ⊢
      have column : 1 + (passed.length - last.stop source) =
          1 + (passed.length - (last.place source + form.characters.length)) ↔
            braces.length = 0 := by
        omega
      rw [column, List.length_eq_zero_iff]
      simp [taken]

end Tracks

/-- A token stands on the line that the line breaks before it give and as far to the right
as it is behind the last of them.  That is the position of its place in the source just when
no text or comment before it holds a line break and no brace follows the last line break. -/
theorem tokens_stand_at_their_places {limits : Limits} {source : String} {tokens : List Token}
    (read : tokenize limits source = .ok tokens) :
    (findings limits source).map Finding.token = tokens ∧
    ∀ before finding after, findings limits source = before ++ finding :: after →
      finding.start.remaining = source.toList.drop (finding.place source.toList) ∧
      finding.token.span = ⟨1 + before.countP Finding.isBreak,
        1 + (finding.place source.toList - lineStart source.toList before)⟩ ∧
      (finding.token.span =
          Span.ofPlace (shownBreak? limits source) source.toList (finding.place source.toList) ↔
        ∀ form, shownBreak? limits source = some form →
          (∀ earlier ∈ before, earlier.isBody = true →
            ¬ form.characters <:+: earlier.characters) ∧
          ∀ last, lastBreak? before = some last → last.characters = form.characters) := by
  have complete : (TokenRun.ofSource limits source).tokens = tokens := by
    rw [tokenize_eq_ok_iff.mp read]
  have proper : ∀ form, shownBreak? limits source = some form → form.Proper := by
    intro form shown
    obtain ⟨last, isLast, shown⟩ := Option.bind_eq_some_iff.mp shown
    refine Cursor.proper_of_mem_findings ?_ last (List.mem_of_getLast? isLast) form shown
    rw [Cursor.lineBreak_ofSource]
    intro form unknown
    cases unknown
  have shown : ∀ finding ∈ findings limits source, ∀ form,
      finding.rest.lineBreak = some form → shownBreak? limits source = some form := by
    intro finding member form known
    have present := List.getLast?_eq_some_getLast (List.ne_nil_of_mem member)
    rw [shownBreak?, present, Option.bind_some]
    exact Cursor.lineBreak_of_getLast? present member known
  obtain ⟨braces, begun⟩ := Tracks.ofSource source proper
  refine ⟨(map_token_findings _ _ _).trans complete, ?_⟩
  intro before finding after split
  obtain ⟨span, passed, tracks⟩ := begun.findings proper shown split
  rw [List.nil_append] at tracks
  have place : finding.place source.toList = passed.length := tracks.stands.length_eq
  rw [place, span]
  refine ⟨?_, tracks.position, ?_⟩
  · rw [tracks.stands.whole, List.drop_left]
  · cases form : shownBreak? limits source with
    | none =>
        rw [form] at tracks
        simp [tracks.position_eq_of_unbroken]
    | some form =>
        rw [form] at tracks
        simp [tracks.position_eq_iff]

/-- A name that follows a line break and a brace: its place is on the second column of the
second line, and it is said to be on the first, since the line break takes the brace along. -/
theorem name_behind_brace_is_out_of_place :
    tokenize .standard "a\n\x7bb" = .ok [⟨.identifier "a", ⟨1, 1⟩⟩, ⟨.lineBreak, ⟨1, 2⟩⟩,
      ⟨.identifier "b", ⟨2, 1⟩⟩, ⟨.endOfSource, ⟨2, 2⟩⟩] ∧
    ∃ before name after, findings .standard "a\n\x7bb" = before ++ name :: after ∧
      name.token = ⟨.identifier "b", ⟨2, 1⟩⟩ ∧ name.place "a\n\x7bb".toList = 3 ∧
      Span.ofPlace (shownBreak? .standard "a\n\x7bb") "a\n\x7bb".toList 3 = ⟨2, 2⟩ ∧
      name.token.span ≠ Span.ofPlace (shownBreak? .standard "a\n\x7bb") "a\n\x7bb".toList
        (name.place "a\n\x7bb".toList) := by
  have read : tokenize .standard "a\n\x7bb" = .ok [⟨.identifier "a", ⟨1, 1⟩⟩,
      ⟨.lineBreak, ⟨1, 2⟩⟩, ⟨.identifier "b", ⟨2, 1⟩⟩, ⟨.endOfSource, ⟨2, 2⟩⟩] := by
    decide +kernel
  obtain ⟨-, spans⟩ := tokens_stand_at_their_places read
  have split := List.take_append_drop 2 (findings .standard "a\n\x7bb")
  rw [List.drop_eq_getElem_cons (by decide +kernel)] at split
  obtain ⟨-, -, placed⟩ := spans _ _ _ split.symm
  refine ⟨read, _, _, _, split.symm, by decide +kernel, by decide +kernel, by decide +kernel, ?_⟩
  intro same
  have taken := (placed.mp same ⟨'\n', none⟩ (by decide +kernel)).2
    ((findings .standard "a\n\x7bb").get ⟨1, by decide +kernel⟩) rfl
  have brace : ((findings .standard "a\n\x7bb").get ⟨1, by decide +kernel⟩).characters =
      ['\n', Char.ofNat 0x7B] := by
    decide +kernel
  rw [brace] at taken
  cases taken

end Plainspoken

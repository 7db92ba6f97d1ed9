import Plainspoken.Proofs.Source.Stops

/-!
# What failures quote

The buffer of a cursor begins anew when a token is looked for, and grows with every character
passed, whichever way the cursor moves on.  So it holds all that has been passed since then,
and the character under the cursor.

A failure quotes the buffer of the place where the reading of its token stops: the characters
of the source from where the call began up to there, the blanks before the token, braces,
separators and escapes among them.  Only the white space at both ends is left out.
-/

namespace Plainspoken

/-- The characters from one index to another, both included. -/
def slice (characters : List Char) (first last : Nat) : List Char :=
  (characters.drop first).take (last + 1 - first)

private theorem slice_of_ended (passed taken : List Char) (some : taken ≠ []) :
    slice (passed ++ taken) passed.length ((passed ++ taken).length - 1) = taken := by
  have nonempty : 0 < taken.length := List.length_pos_iff.mpr some
  have count : (passed ++ taken).length - 1 + 1 - passed.length = taken.length := by
    rw [List.length_append]
    omega
  rw [slice, count, List.drop_left, List.take_length]

private theorem slice_of_current (passed taken others : List Char) (character : Char) :
    slice (passed ++ (taken ++ character :: others)) passed.length
      (passed.length + taken.length) = taken ++ [character] := by
  have count : passed.length + taken.length + 1 - passed.length = taken.length + 1 := by omega
  rw [slice, count, List.drop_left, List.take_length_add_append]
  rfl

namespace Cursor

variable {limits : Limits} {source : List Char} {cursor rest : Cursor} {passed : List Char}

/-! ## The buffer -/

/-- The buffer holds what has been passed since some place, and the character under the
cursor. -/
def Buffers (cursor : Cursor) (passed : List Char) : Prop :=
  cursor.consumed.reverse = passed ++ cursor.current.toList

theorem buffers_restartBuffer (cursor : Cursor) : cursor.restartBuffer.Buffers [] := by
  change cursor.current.toList.reverse = cursor.current.toList
  cases cursor.current <;> rfl

namespace Buffers

theorem advance {character : Char} (buffers : cursor.Buffers passed)
    (isCurrent : cursor.current = some character) :
    cursor.advance.Buffers (passed ++ [character]) := by
  have holds : cursor.consumed.reverse = passed ++ [character] := by
    rw [buffers, isCurrent]
    rfl
  change (cursor.following.toList ++ cursor.consumed).reverse = _ ++ cursor.following.toList
  rw [List.reverse_append, holds]
  cases cursor.following <;> rfl

theorem passes {characters : List Char} (buffers : cursor.Buffers passed)
    (passes : cursor.Passes characters rest) : rest.Buffers (passed ++ characters) := by
  induction characters generalizing cursor passed with
  | nil =>
      cases passes.moved
      rw [List.append_nil]
      exact buffers
  | cons character characters ih =>
      have isCurrent : cursor.current = some character := current_of_remaining passes.split
      have behind : cursor.advance.Passes characters rest :=
        ⟨remaining_advance passes.split, passes.moved⟩
      rw [List.append_cons]
      exact ih (buffers.advance isCurrent) behind

private theorem buffered_eq (buffers : cursor.Buffers passed) :
    cursor.buffered = String.ofList (Character.trim (passed ++ cursor.current.toList)) := by
  rw [buffered, buffers]

end Buffers

/-! ## Calls -/

/-- The cursors at which the next token of a source may be asked for.  After a failure the
cursor stays where the reading has stopped, and may be asked again. -/
inductive Called (limits : Limits) (source : String) : Cursor → Prop where
  | first : Called limits source (ofSource source)
  | afterToken {cursor token rest} : Called limits source cursor →
      cursor.nextToken limits = .ok (token, rest) → Called limits source rest
  | afterFailure {cursor error stop} : Called limits source cursor →
      cursor.nextToken limits = .error error →
      Reading.Stops limits .start cursor.restartBuffer.skipBlanks error.cause stop →
      Called limits source stop

/-- All that is passed in a call before the reading of its token stops. -/
theorem passes_of_stops {cause : LexicalCause} {stop : Cursor}
    (stops : Reading.Stops limits .start cursor.restartBuffer.skipBlanks cause stop) :
    ∃ taken, cursor.restartBuffer.Passes taken stop := by
  obtain ⟨blanks, passesBlanks⟩ := passes_skipBlanks cursor.restartBuffer
  obtain ⟨taken, passesTaken⟩ := stops.passes
  exact ⟨blanks ++ taken, passesBlanks.trans passesTaken⟩

private theorem remaining_of_nextToken {token : Token}
    (read : cursor.nextToken limits = .ok (token, rest)) :
    rest.remaining <:+ cursor.remaining := by
  by_cases ends : token.lexeme = .endOfSource
  · obtain ⟨-, ⟨-, rfl⟩ | ⟨isBreak, -⟩ | ⟨notEnd, -⟩⟩ := nextToken_cases read
    · exact (Reaches.blanks cursor).remaining
    · cases ends.symm.trans isBreak
    · exact absurd ends notEnd
  · exact (reaches_of_nextToken read ends).remaining

/-- What remains where a token is asked for is the end of the source. -/
theorem Called.remaining {source : String} (called : Called limits source cursor) :
    cursor.remaining <:+ source.toList := by
  induction called with
  | first =>
      rw [ofSource, remaining_advanceWhile]
      exact List.dropWhile_suffix _
  | afterToken _ read ih => exact (remaining_of_nextToken read).trans ih
  | afterFailure _ _ stops ih =>
      obtain ⟨taken, passes⟩ := passes_of_stops stops
      exact (Reaches.of_passes passes).remaining.trans ih

/-! ## Quotations -/

/-- The index of the character under the cursor; where the source is exhausted, its length. -/
def index (source : List Char) (cursor : Cursor) : Nat :=
  source.length - cursor.ahead

/-- The index of the character under the cursor; where the source is exhausted, that of its
last character. -/
def indexOrLast (source : List Char) (cursor : Cursor) : Nat :=
  min (cursor.index source) (source.length - 1)

theorem drop_index (within : cursor.remaining <:+ source) :
    source.drop (cursor.index source) = cursor.remaining :=
  (List.suffix_iff_eq_drop.mp within).symm

theorem index_append (passed : List Char) (cursor : Cursor) :
    cursor.index (passed ++ cursor.remaining) = passed.length := by
  rw [index, List.length_append, ahead, Nat.add_sub_cancel]

/-- What the failure of a call at a cursor tells of the source: where the reading of the token
stops, and the slice of the source from the cursor to there. -/
structure Quotes (limits : Limits) (source : List Char) (cursor : Cursor) (error : LexicalError)
    (stop : Cursor) : Prop where
  stops : Reading.Stops limits .start cursor.restartBuffer.skipBlanks error.cause stop
  span : error.span = stop.position
  began : source.drop (cursor.index source) = cursor.remaining
  stopped : source.drop (stop.index source) = stop.remaining
  ordered : cursor.index source ≤ stop.indexOrLast source
  within : stop.indexOrLast source < source.length
  buffered : error.buffered = String.ofList
    (Character.trim (slice source (cursor.index source) (stop.indexOrLast source)))

/-- The slice between two places of a source, of which the first is not its end. -/
theorem slice_of_split {taken : List Char} {stop : Cursor} (within : cursor.remaining <:+ source)
    (notEnd : cursor.remaining ≠ []) (split : cursor.remaining = taken ++ stop.remaining) :
    cursor.index source ≤ stop.indexOrLast source ∧ stop.indexOrLast source < source.length ∧
      slice source (cursor.index source) (stop.indexOrLast source) =
        taken ++ stop.current.toList := by
  obtain ⟨passed, rfl⟩ := within
  have began := index_append passed cursor
  have stopped : stop.index (passed ++ cursor.remaining) = passed.length + taken.length := by
    rw [split, ← List.append_assoc, index_append, List.length_append]
  have some : 0 < cursor.remaining.length := List.length_pos_iff.mpr notEnd
  have whole : cursor.remaining.length = taken.length + stop.remaining.length := by
    rw [split, List.length_append]
  rw [indexOrLast, stopped, began, List.length_append]
  refine ⟨by omega, by omega, ?_⟩
  cases remaining : stop.remaining with
  | nil =>
      have all : cursor.remaining = taken := by rw [split, remaining, List.append_nil]
      have last : min (passed.length + taken.length) (passed.length + taken.length - 1) =
          (passed ++ taken).length - 1 := by
        rw [List.length_append]
        omega
      rw [current_of_ended remaining, all, last, slice_of_ended passed taken (all ▸ notEnd)]
      exact (List.append_nil taken).symm
  | cons character others =>
      have last : min (passed.length + taken.length)
          (passed.length + cursor.remaining.length - 1) = passed.length + taken.length := by
        rw [whole, remaining, List.length_cons]
        omega
      rw [last, split, remaining, slice_of_current, current_of_remaining remaining]
      rfl

end Cursor

open Cursor

/-- Whenever no token can be read, the failure quotes the source: from the character under the
cursor when the token was asked for, to the one under the cursor where the reading of the token
stops, or to the last one if the source is exhausted there.  White space at both ends is left
out.  The failure is reported at that place, and there is only one such place. -/
theorem failures_quote_the_source {limits : Limits} {source : String} {cursor : Cursor}
    {error : LexicalError} (called : Called limits source cursor)
    (failed : cursor.nextToken limits = .error error) :
    ∃! stop, Quotes limits source.toList cursor error stop := by
  obtain ⟨notEnd, stop, stops, failure⟩ := stops_of_nextToken failed
  obtain ⟨taken, passes⟩ := passes_of_stops stops
  have within : cursor.remaining <:+ source.toList := called.remaining
  have some : cursor.remaining ≠ [] := by
    intro ended
    have blanks := (Reaches.blanks cursor).remaining
    rw [ended, List.suffix_nil] at blanks
    rw [atEnd, blanks] at notEnd
    cases notEnd
  have stopWithin := (Reaches.of_passes passes).remaining.trans within
  obtain ⟨ordered, below, quoted⟩ := slice_of_split within some passes.split
  have buffered := ((buffers_restartBuffer cursor).passes passes).buffered_eq
  rw [List.nil_append, ← quoted] at buffered
  refine ⟨stop, ⟨stops, ?_, drop_index within, drop_index stopWithin, ordered, below, ?_⟩,
    fun other quotes => (quotes.stops.unique stops).2⟩
  · rw [failure]
    rfl
  · rw [failure]
    exact buffered

/-- A blank before the number, a brace and a separator in it: all are quoted up to the letter
that is no base, the blank apart. -/
theorem number_in_braces_is_quoted :
    ∃ cursor, Called .standard "x \x7b0_q\x7d;" cursor ∧
      cursor.nextToken .standard = .error ⟨.numberUnknownBase, ⟨1, 6⟩, "\x7b0_q"⟩ ∧
      ∃! stop, Quotes .standard "x \x7b0_q\x7d;".toList cursor
        ⟨.numberUnknownBase, ⟨1, 6⟩, "\x7b0_q"⟩ stop := by
  have read : (ofSource "x \x7b0_q\x7d;").nextToken .standard =
      .ok (⟨.identifier "x", ⟨1, 1⟩⟩, ⟨" \x7b0_q\x7d;".toList, ⟨1, 2⟩, none, [' ', 'x']⟩) := by
    decide +kernel
  have called := Called.first.afterToken read
  have failed : Cursor.nextToken .standard ⟨" \x7b0_q\x7d;".toList, ⟨1, 2⟩, none, [' ', 'x']⟩ =
      .error ⟨.numberUnknownBase, ⟨1, 6⟩, "\x7b0_q"⟩ := by
    decide +kernel
  exact ⟨_, called, failed, failures_quote_the_source called failed⟩

end Plainspoken

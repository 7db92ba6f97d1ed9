import Mathlib.Data.List.Induction
import Plainspoken.Words

/-!
# Taking texts apart

The words of a text are determined by the text: no word holds a space, and the words with a
space between neighbours are the text again.  Leading, trailing and neighbouring spaces stand
between empty words.

Every function on words takes a text apart at its first or at its last space, so that nothing
is lost.  Taking words off again and again, at either end, yields all of them.
-/

namespace Plainspoken

/-- Words without spaces that make up a text, with a space between neighbours. -/
structure AreWordsOf (words : List String) (text : String) : Prop where
  nonempty : words ≠ []
  solid : ∀ word ∈ words, ' ' ∉ word.toList
  whole : " ".intercalate words = text

namespace Words

/-- Taking the first word off a text, and then off what is left of it, as long as anything is
left, yields these words. -/
inductive SplitsInto : String → List String → Prop where
  | last {text head : String} : splitFirst text = (head, none) → SplitsInto text [head]
  | more {text head tail : String} {heads : List String} :
      splitFirst text = (head, some tail) → SplitsInto tail heads →
      SplitsInto text (head :: heads)

/-- Taking the last word off a text, and then off what is left of it, as long as there is one
to be taken off, yields these words and leaves a rest. -/
inductive SplitsBackInto : String → List String → String → Prop where
  | done {text : String} : (splitLast text).2 = none → SplitsBackInto text [] text
  | more {text body tip rest : String} {tips : List String} :
      splitLast text = (body, some tip) → SplitsBackInto body tips rest →
      SplitsBackInto text (tip :: tips) rest

/-! ## The words of a text -/

private theorem split_eq_splitOn (characters : List Char) :
    split characters = characters.splitOn ' ' := by
  induction characters with
  | nil => rfl
  | cons character characters ih =>
      rw [split, ih, List.splitOn_cons_eq_if_modifyHead]
      simp only [beq_iff_eq]
      split
      · rfl
      · cases words : characters.splitOn ' ' with
        | nil => exact absurd words (List.splitOn_ne_nil ' ' characters)
        | cons word words => rfl

theorem solid_split (characters : List Char) : ∀ word ∈ split characters, ' ' ∉ word := by
  induction characters with
  | nil => simp [split]
  | cons character characters ih =>
      unfold split
      split
      · exact List.forall_mem_cons.mpr ⟨List.not_mem_nil, ih⟩
      · next solid =>
        split
        · simpa using Ne.symm solid
        · next word words isSplit =>
          rw [isSplit] at ih
          obtain ⟨wordSolid, wordsSolid⟩ := List.forall_mem_cons.mp ih
          exact List.forall_mem_cons.mpr ⟨by simp [Ne.symm solid, wordSolid], wordsSolid⟩

theorem join_map_toList (words : List String) :
    join (words.map String.toList) = " ".intercalate words :=
  String.toList_injective (by simp [join])

theorem areWordsOf_ofText (text : String) :
    AreWordsOf ((ofText text).map String.ofList) text where
  nonempty := by
    rw [ofText, split_eq_splitOn]
    simp
  solid := by
    simpa [ofText] using solid_split text.toList
  whole := by
    rw [← join_map_toList, List.map_map, ofText, split_eq_splitOn]
    simp [join, Function.comp_def]

end Words

namespace AreWordsOf

open Words

variable {words : List String} {word rest text : String}

theorem ofText_eq (areWords : AreWordsOf words text) : ofText text = words.map String.toList := by
  have whole := congrArg String.toList areWords.whole
  rw [String.toList_intercalate] at whole
  rw [ofText, split_eq_splitOn, ← whole]
  apply List.splitOn_intercalate
  · simpa using areWords.solid
  · simpa using areWords.nonempty

theorem unique {others : List String} (areWords : AreWordsOf words text)
    (areOthers : AreWordsOf others text) : others = words := by
  have same := areOthers.ofText_eq.symm.trans areWords.ofText_eq
  exact (List.map_inj_right fun _ _ => String.toList_inj.mp).mp same

/-! ## Words at either end -/

theorem single (solid : ' ' ∉ text.toList) : AreWordsOf [text] text where
  nonempty := List.cons_ne_nil _ _
  solid := List.forall_mem_singleton.mpr solid
  whole := String.intercalate_singleton

theorem cons (solid : ' ' ∉ word.toList) (areWords : AreWordsOf words rest) :
    AreWordsOf (word :: words) (word ++ " " ++ rest) where
  nonempty := List.cons_ne_nil _ _
  solid := List.forall_mem_cons.mpr ⟨solid, areWords.solid⟩
  whole := by
    rw [String.intercalate_cons_of_ne_nil areWords.nonempty, areWords.whole]

theorem concat (areWords : AreWordsOf words rest) (solid : ' ' ∉ word.toList) :
    AreWordsOf (words ++ [word]) (rest ++ " " ++ word) where
  nonempty := by simp
  solid := List.forall_mem_append.mpr ⟨areWords.solid, List.forall_mem_singleton.mpr solid⟩
  whole := by
    rw [String.intercalate_append_of_ne_nil areWords.nonempty (List.cons_ne_nil _ _),
      areWords.whole, String.intercalate_singleton]

/-- What is left of words when one is taken off makes up a text as well. -/
theorem of_subset {others : List String} (areWords : AreWordsOf words text)
    (nonempty : others ≠ []) (subset : others ⊆ words) :
    AreWordsOf others (" ".intercalate others) :=
  ⟨nonempty, fun word member => areWords.solid word (subset member), rfl⟩

/-- A text with a space has several words, and any other text is its only word. -/
theorem space_mem_iff (areWords : AreWordsOf words text) :
    ' ' ∈ text.toList ↔ 1 < words.length := by
  rw [← areWords.whole]
  cases words with
  | nil => exact absurd rfl areWords.nonempty
  | cons word words =>
      cases words with
      | nil => simpa using areWords.solid word List.mem_cons_self
      | cons second words => simp [String.intercalate_cons_cons]

section Front

variable (areWords : AreWordsOf (word :: words) text)

include areWords

private theorem first_eq : first text = word := by
  simp [first, areWords.ofText_eq]

private theorem tail_eq :
    tail text = if words = [] then none else some (" ".intercalate words) := by
  simp only [tail, areWords.ofText_eq, List.map_cons, List.length_cons, List.length_map,
    List.tail_cons, join_map_toList]
  cases words <;> simp

end Front

section Back

variable (areWords : AreWordsOf (words ++ [word]) text)

include areWords

private theorem last_eq : last text = word := by
  simp [last, areWords.ofText_eq]

private theorem body_eq :
    body text = if words = [] then none else some (" ".intercalate words) := by
  simp only [body, areWords.ofText_eq, List.map_append, List.map_cons, List.map_nil,
    List.length_append, List.length_map, List.length_singleton, List.dropLast_concat,
    join_map_toList]
  cases words <;> simp

private theorem splitLast_eq : splitLast text =
    (" ".intercalate words, if words = [] then none else some word) := by
  simp only [splitLast, areWords.last_eq, areWords.ofText_eq, List.map_append, List.map_cons,
    List.map_nil, List.length_append, List.length_map, List.length_singleton,
    List.dropLast_concat, join_map_toList]
  cases words <;> simp

end Back

/-- A text begins with its first word, and what is left of it has the other words. -/
theorem splitFirst_cases (areWords : AreWordsOf (word :: words) text) :
    (words = [] ∧ splitFirst text = (word, none)) ∨
      ∃ rest, AreWordsOf words rest ∧ text = word ++ " " ++ rest ∧
        splitFirst text = (word, some rest) := by
  rw [splitFirst, areWords.first_eq, areWords.tail_eq]
  by_cases single : words = []
  · exact .inl ⟨single, by rw [if_pos single]⟩
  · refine .inr ⟨_, areWords.of_subset single (List.subset_cons_self word words), ?_, ?_⟩
    · rw [← areWords.whole, String.intercalate_cons_of_ne_nil single]
    · rw [if_neg single]

/-- A text ends with its last word, and what is left of it has the other words. -/
theorem splitLast_cases (areWords : AreWordsOf (words ++ [word]) text) :
    (words = [] ∧ splitLast text = ("", none)) ∨
      ∃ rest, AreWordsOf words rest ∧ text = rest ++ " " ++ word ∧ body text = some rest ∧
        splitLast text = (rest, some word) := by
  rw [areWords.splitLast_eq, areWords.body_eq]
  by_cases single : words = []
  · exact .inl ⟨single, by simp [single]⟩
  · refine .inr ⟨_, areWords.of_subset single (List.subset_append_left words [word]), ?_, ?_, ?_⟩
    · rw [← areWords.whole, String.intercalate_append_of_ne_nil single (List.cons_ne_nil _ _),
        String.intercalate_singleton]
    · rw [if_neg single]
    · rw [if_neg single]

end AreWordsOf

namespace Words

variable {text : String}

private theorem exists_first_word (text : String) :
    ∃ word words, AreWordsOf (word :: words) text := by
  have areWords := areWordsOf_ofText text
  obtain ⟨word, words, same⟩ := List.exists_cons_of_ne_nil areWords.nonempty
  exact ⟨word, words, same ▸ areWords⟩

private theorem exists_last_word (text : String) :
    ∃ words word, AreWordsOf (words ++ [word]) text := by
  have areWords := areWordsOf_ofText text
  obtain none | ⟨words, word, same⟩ := List.eq_nil_or_concat ((ofText text).map String.ofList)
  · exact absurd none areWords.nonempty
  · rw [List.concat_eq_append] at same
    exact ⟨words, word, same ▸ areWords⟩

/-! ## Taking off all words -/

/-- Taken off from the front, the words come in their order. -/
theorem splitsInto_iff {heads : List String} : SplitsInto text heads ↔ AreWordsOf heads text := by
  constructor
  · intro splits
    induction splits with
    | @last text head split =>
        obtain ⟨word, words, areWords⟩ := exists_first_word text
        obtain ⟨rfl, same⟩ | ⟨rest, -, -, same⟩ := areWords.splitFirst_cases
        · cases split.symm.trans same
          exact areWords
        · cases split.symm.trans same
    | @more text head rest heads split _ ih =>
        obtain ⟨word, words, areWords⟩ := exists_first_word text
        obtain ⟨rfl, same⟩ | ⟨rest, areRest, -, same⟩ := areWords.splitFirst_cases
        · cases split.symm.trans same
        · cases split.symm.trans same
          rw [areRest.unique ih]
          exact areWords
  · intro areWords
    induction heads generalizing text with
    | nil => exact absurd rfl areWords.nonempty
    | cons head heads ih =>
        obtain ⟨rfl, split⟩ | ⟨rest, areRest, -, split⟩ := areWords.splitFirst_cases
        · exact .last split
        · exact .more split (ih areRest)

/-- Taken off from the back, the words come in reverse order, down to the first one, which
stays. -/
theorem splitsBackInto_iff {tips : List String} {rest : String} :
    SplitsBackInto text tips rest ↔ AreWordsOf (rest :: tips.reverse) text := by
  constructor
  · intro splits
    induction splits with
    | @done text split =>
        obtain ⟨words, word, areWords⟩ := exists_last_word text
        obtain ⟨rfl, -⟩ | ⟨rest, -, -, -, same⟩ := areWords.splitLast_cases
        · have single : text = word := areWords.whole.symm.trans String.intercalate_singleton
          rw [single] at areWords ⊢
          exact areWords
        · rw [same] at split
          cases split
    | @more text body tip rest tips split _ ih =>
        obtain ⟨words, word, areWords⟩ := exists_last_word text
        obtain ⟨rfl, same⟩ | ⟨_, areRest, -, -, same⟩ := areWords.splitLast_cases
        · cases split.symm.trans same
        · cases split.symm.trans same
          rw [List.reverse_cons, ← List.cons_append, areRest.unique ih]
          exact areWords
  · intro areWords
    induction tips generalizing text with
    | nil =>
        have areWords : AreWordsOf ([] ++ [rest]) text := areWords
        obtain ⟨-, split⟩ | ⟨_, areRest, -⟩ := areWords.splitLast_cases
        · have single : text = rest := areWords.whole.symm.trans String.intercalate_singleton
          rw [← single]
          exact .done (by rw [split])
        · exact absurd rfl areRest.nonempty
    | cons tip tips ih =>
        rw [List.reverse_cons, ← List.cons_append] at areWords
        obtain ⟨impossible, -⟩ | ⟨body, areRest, -, -, split⟩ := areWords.splitLast_cases
        · cases impossible
        · exact .more split (ih areRest)

end Words

/-! ## Main statement -/

open Words in
/-- Texts are taken apart without loss.  A text is its first word and its tail with a space
between them, and its body and its last word with a space between them, unless it is a single
word, which has neither tail nor body.  Every text has its words, and no other ones: they come in
order when the first word is taken off again and again, and from the last down to the second when
the last one is, while the first word stays. -/
theorem texts_are_taken_apart_without_loss (text : String) :
    ' ' ∉ (first text).toList ∧ ' ' ∉ (last text).toList ∧
    (' ' ∉ text.toList ↔ tail text = none) ∧ (' ' ∉ text.toList ↔ body text = none) ∧
    (' ' ∉ text.toList → first text = text ∧ last text = text) ∧
    (' ' ∈ text.toList → ∃ front back, tail text = some back ∧ body text = some front ∧
      first text ++ " " ++ back = text ∧ front ++ " " ++ last text = text ∧
      splitLast text = (front, some (last text))) ∧
    splitFirst text = (first text, tail text) ∧
    ((splitLast text).2 = none ↔ (splitFirst text).2 = none) ∧
    (∃! words, AreWordsOf words text) ∧
    (∀ heads, SplitsInto text heads ↔ AreWordsOf heads text) ∧
    ∀ tips rest, SplitsBackInto text tips rest ↔ AreWordsOf (rest :: tips.reverse) text := by
  obtain ⟨head, others, fromFront⟩ := exists_first_word text
  obtain ⟨init, tip, fromBack⟩ := exists_last_word text
  have firstSolid : ' ' ∉ (first text).toList := by
    rw [fromFront.first_eq]
    exact fromFront.solid head List.mem_cons_self
  have lastSolid : ' ' ∉ (last text).toList := by
    rw [fromBack.last_eq]
    exact fromBack.solid tip (by simp)
  have hasTail : ' ' ∈ text.toList ↔ others ≠ [] := by
    rw [fromFront.space_mem_iff, List.length_cons, ← List.length_pos_iff]
    omega
  have hasBody : ' ' ∈ text.toList ↔ init ≠ [] := by
    rw [fromBack.space_mem_iff, List.length_append, List.length_singleton, ← List.length_pos_iff]
    omega
  refine ⟨firstSolid, lastSolid, ?_, ?_, ?_, ?_, rfl, ?_, ⟨_, fromFront, fun _ => fromFront.unique⟩,
    fun _ => splitsInto_iff, fun _ _ => splitsBackInto_iff⟩
  · rw [hasTail, fromFront.tail_eq]
    split <;> simp [*]
  · rw [hasBody, fromBack.body_eq]
    split <;> simp [*]
  · intro solid
    have single : AreWordsOf ([] ++ [text]) text := AreWordsOf.single solid
    exact ⟨single.first_eq, single.last_eq⟩
  · intro spaced
    obtain ⟨single, -⟩ | ⟨back, -, frontWhole, split⟩ := fromFront.splitFirst_cases
    · exact absurd single (hasTail.mp spaced)
    obtain ⟨single, -⟩ | ⟨front, -, backWhole, isBody, splitBack⟩ := fromBack.splitLast_cases
    · exact absurd single (hasBody.mp spaced)
    refine ⟨front, back, congrArg Prod.snd split, isBody, ?_, ?_, ?_⟩
    · rw [fromFront.first_eq, ← frontWhole]
    · rw [fromBack.last_eq, ← backWhole]
    · rw [fromBack.last_eq, splitBack]
  · have same : others = [] ↔ init = [] := not_iff_not.mp (hasTail.symm.trans hasBody)
    rw [fromBack.splitLast_eq, splitFirst, fromFront.tail_eq]
    simp [same]

end Plainspoken

import Mathlib
import Aml.Yaml.Token.Reader

/-!
# Reading block mappings of words

A word is a plain scalar of letters, digits, underscores and hyphens that starts with a letter. Such
a word ends no scalar early and starts no other token, so before a colon it is read as a key
(`Reader.Ready.key`) and before the end of its line as a value (`Reader.HasKey.value`). Where the
reader comes to the column of a mapping, it is ready for the next key, and at the end of the source
it closes the mappings. By induction on the lines, a header and indented lines of two words each are
read as a mapping within a mapping (`kinds_tokens`).
-/
namespace Aml.Yaml

/-! ## Words -/

/-- A letter followed by letters, digits, underscores and hyphens. -/
structure IsPlainWord (word : List Char) : Prop where
  starts : ∀ character ∈ word.head?, character.isAlpha = true
  present : word ≠ []
  all : ∀ character ∈ word, isWord character = true

/-- A letter is none of the characters that are not letters. -/
theorem ne_of_isAlpha {letter other : Char} (alpha : letter.isAlpha = true)
    (outside : other.isAlpha = false) : letter ≠ other :=
  ne_of_apply_ne Char.isAlpha (by rw [alpha, outside]; decide)

/-- A character of a word is none of the characters outside words. -/
theorem ne_of_isWord {character other : Char} (word : isWord character = true)
    (outside : isWord other = false) : character ≠ other :=
  ne_of_apply_ne isWord (by rw [word, outside]; decide)

/-- White space is outside words. -/
theorem isSpace_of_isWord {character : Char} (word : isWord character = true) :
    isSpace character = false := by
  have other (space : Char) (outside : isWord space = false) : character ≠ space :=
    ne_of_isWord word outside
  simp [isSpace, isBlank, isBreak, other ' ' (by decide), other '\t' (by decide),
    other '\n' (by decide), other (Char.ofNat 0x2028) (by decide),
    other (Char.ofNat 0x2029) (by decide)]

/-- A plain scalar goes on through the characters of words. -/
theorem Plain.run_append {word rest : List Char} (all : ∀ character ∈ word, isWord character = true)
    (ends : run false rest = []) : run false (word ++ rest) = word := by
  induction word with
  | nil => exact ends
  | cons first word ih =>
    obtain ⟨part, others⟩ := List.forall_mem_cons.mp all
    have colon : first ≠ ':' := ne_of_isWord part (by decide)
    rw [List.cons_append, run, isSpace_of_isWord part, endsAt]
    simp [colon, ih others]

/-- A marker between documents starts with its character. -/
theorem atMarker_cons {character first : Char} (other : first ≠ character) (rest : List Char) :
    atMarker character (first :: rest) = false := by
  match rest with
  | [] => rfl
  | [_] => rfl
  | second :: third :: rest => simp [atMarker, other]

/-- A plain scalar that is a word is read up to where it ends, when an empty gap follows or one that
leaves the mapping and has no tab where none may stand. -/
theorem Plain.read_word {indent : Nat} {cursor after : Cursor} {word rest : List Char} {gap : Gap}
    (spelled : IsPlainWord word) (follows : cursor.rest = word ++ rest)
    (ends : run false rest = [])
    (passes : Gap.read indent {} rest (cursor.mark.right word.length) = (gap, after))
    (spaced : gap.tabbed = false) (leaves : gap = {} ∨ after.mark.column < indent) :
    read false indent cursor = some ⟨word, gap.isBroken, after⟩ := by
  obtain ⟨starts, present, all⟩ := spelled
  obtain ⟨first, others, rfl⟩ := List.exists_cons_of_ne_nil present
  have letter : first.isAlpha = true := starts first rfl
  have marker : cursor.atDocumentMarker = false := by
    rw [Cursor.atDocumentMarker, follows, List.cons_append,
      atMarker_cons (ne_of_isAlpha letter (by decide)),
      atMarker_cons (ne_of_isAlpha letter (by decide))]
    simp
  have comment : startsWith '#' cursor.rest = false := by
    rw [follows, List.cons_append, startsWith]
    exact decide_eq_false (ne_of_isAlpha letter (by decide))
  have part : run false cursor.rest = first :: others := by
    rw [follows]
    exact run_append all ends
  have beyond : (cursor.skip (first :: others).length).rest = rest := by
    rw [Cursor.skip, follows]
    exact List.drop_left
  rw [read, readFrom]
  dsimp only
  rw [part, marker, comment, beyond]
  simp only [List.isEmpty_cons, Bool.or_self, Bool.false_eq_true, if_false]
  have moved : (cursor.skip (first :: others).length).mark =
      cursor.mark.right (first :: others).length := rfl
  rw [moved, passes]
  simp only [spaced, Bool.false_eq_true, if_false]
  rw [if_pos (by simpa using leaves)]
  rfl

namespace Reader

/-! ## Single tokens -/

/-- The kinds of the tokens so far, latest first. -/
def kinds (reader : Reader) : List TokenKind :=
  reader.tokens.map Token.kind

/-- Outside brackets a letter starts a plain scalar. -/
theorem token_word {reader : Reader} (outside : reader.outer = []) {first : Char}
    (letter : first.isAlpha = true) (rest : List Char) :
    reader.token first rest = reader.plainScalar := by
  have other (character : Char) (differs : character.isAlpha = false) : first ≠ character :=
    ne_of_isAlpha letter differs
  have word : isWord first = true := by simp [isWord, Char.isAlphanum, letter]
  have starts : startsPlain false first rest = true := by
    simp [startsPlain, isSpace_of_isWord word, indicators, other '-' (by decide),
      other '?' (by decide), other ':' (by decide), other ',' (by decide), other '[' (by decide),
      other ']' (by decide), other '{' (by decide), other '}' (by decide), other '#' (by decide),
      other '&' (by decide), other '*' (by decide), other '!' (by decide), other '|' (by decide),
      other '>' (by decide), other '\'' (by decide), other '"' (by decide), other '%' (by decide),
      other '@' (by decide), other (Char.ofNat 0x60) (by decide)]
  simp [token, inFlow, outside, starts, atMarker_cons (other '-' (by decide)),
    atMarker_cons (other '.' (by decide)), other '%' (by decide), other '[' (by decide),
    other '{' (by decide), other ']' (by decide), other '}' (by decide), other ',' (by decide),
    other '-' (by decide), other '?' (by decide), other ':' (by decide), other '*' (by decide),
    other '&' (by decide), other '!' (by decide), other '|' (by decide), other '>' (by decide),
    other '\'' (by decide), other '"' (by decide)]

/-- A colon before white space ends a key. -/
theorem token_colon (reader : Reader) {rest : List Char} (spaced : atSpace rest = true) :
    reader.token ':' rest = reader.value := by
  simp [token, spaced, atMarker_cons (show ':' ≠ '-' by decide),
    atMarker_cons (show ':' ≠ '.' by decide)]

/-- A column that is not to the left of the innermost collection ends none. -/
theorem unroll_of_le {reader : Reader} {column : Int} (inside : reader.indent ≤ column) :
    reader.unroll column = reader := by
  rw [unroll]
  split
  · rfl
  · cases reader.indents with
    | nil => rw [unrollFrom]
    | cons outer indents => rw [unrollFrom, if_neg (not_lt.mpr inside)]

/-- Where no comment follows, none is skipped. -/
theorem skipComment_of_plain {reader : Reader}
    (plain : startsWith '#' reader.cursor.skipBlanks.rest = false) :
    reader.skipComment = reader := by
  simp [skipComment, plain]

/-- Reading a token that is there goes on after it. -/
theorem readAll_succ {reader after : Reader} (unfinished : reader.isFinished = false)
    (reads : reader.next = some after) (fuel : Nat) :
    readAll (fuel + 1) reader = readAll fuel after := by
  rw [readAll, unfinished, reads]
  rfl

/-! ## Keys -/

/-- A reader whose next token starts with the given characters in a column, where a key may
start. -/
structure Ready (column : Nat) (rest : List Char) (reader : Reader) : Prop where
  outer : reader.outer = []
  candidate : reader.candidate = none
  unfinished : reader.isFinished = false
  arrives : ∃ mark : Mark, mark.column = column ∧
    skipSpace false reader.keyAllowed .absent reader.cursor.rest reader.mark = (true, ⟨rest, mark⟩)

/-- The kind of the token that opens a mapping at a column, unless the column is that of the
innermost one. -/
def opening (indent : Int) (column : Nat) : List TokenKind :=
  if indent < column then [.blockMappingStart] else []

/-- A reader at the colon after a word in a column, which an earlier reader was ready for. -/
structure AtColon (earlier : Reader) (column : Nat) (word rest : List Char) (reader : Reader) :
    Prop where
  outer : reader.outer = []
  follows : reader.cursor.rest = ':' :: rest
  beyond : column ≤ reader.mark.column
  indent : reader.indent = earlier.indent
  indents : reader.indents = earlier.indents
  scalar : ∃ token : Token, token.kind = .scalar .plain (textOf word) ∧
    reader.tokens = token :: earlier.tokens
  candidate : ∃ candidate : Candidate, reader.candidate = some candidate ∧
    candidate.count = earlier.tokens.length ∧ candidate.mark.column = column ∧
    candidate.isFresh reader.mark = true

/-- A reader past the colon after a key in a column, which an earlier reader was ready for. -/
structure HasKey (earlier : Reader) (column : Nat) (word rest : List Char) (reader : Reader) :
    Prop where
  outer : reader.outer = []
  candidate : reader.candidate = none
  unfinished : reader.isFinished = false
  keyAllowed : reader.keyAllowed = false
  follows : reader.cursor.rest = rest
  beyond : column ≤ reader.mark.column
  indent : reader.indent = column
  indents : reader.indents =
    if earlier.indent < column then earlier.indent :: earlier.indents else earlier.indents
  kinds : reader.kinds = .value :: .scalar .plain (textOf word) :: .key ::
    (opening earlier.indent column ++ earlier.kinds)

/-- The colon after a word makes it a key, which may open a mapping in its column. -/
theorem hasKey_simpleValue {earlier reader : Reader} {column : Nat} {word rest : List Char}
    {candidate : Candidate} (atColon : AtColon earlier column word rest reader)
    (inside : earlier.indent ≤ column) (held : reader.candidate = some candidate) :
    HasKey earlier column word rest (reader.simpleValue candidate) := by
  obtain ⟨outside, follows, beyond, indent, indents, ⟨token, kind, found⟩,
    ⟨_, same, count, placed, _⟩⟩ := atColon
  obtain rfl := Option.some.inj (held.symm.trans same)
  have one : earlier.tokens.length + 1 - earlier.tokens.length = 1 := by omega
  have two : earlier.tokens.length + 1 + 1 - earlier.tokens.length = 2 := by omega
  have past : column ≤ reader.mark.column + 1 := Nat.le_succ_of_le beyond
  by_cases opens : earlier.indent < column
  · constructor <;>
      simp [simpleValue, insert, roll, pushIndicator, push, inFlow, Reader.mark, Cursor.skip,
        isFinished, Mark.right, kinds, opening, outside, follows, found, count, placed, indent,
        indents, opens, one, two, kind]
    exact past
  · have level : earlier.indent = column := by omega
    constructor <;>
      simp [simpleValue, insert, roll, pushIndicator, push, inFlow, Reader.mark, Cursor.skip,
        isFinished, Mark.right, kinds, opening, outside, follows, found, count, placed, indent,
        indents, level, one, kind]
    exact past

/-- Where a word starts, beyond the columns of all collections, the next token is its scalar. -/
theorem next_of_scalar {reader arrived after : Reader} {first : Char} {others : List Char}
    (moved : reader.toToken = arrived) (inside : arrived.indent ≤ arrived.mark.column)
    (outside : arrived.outer = []) (begins : arrived.cursor.rest = first :: others)
    (letter : first.isAlpha = true) (scalar : arrived.plainScalar = some after)
    (plain : after.skipComment = after) : reader.next = some after := by
  rw [next]
  simp only [moved, unroll_of_le inside, begins, token_word outside letter, scalar,
    Option.map_some, plain]

/-- A plain scalar that can be read is the next token. -/
theorem plainScalar_eq {reader saved : Reader} {reading : Plain.Reading}
    (saves : reader.saveCandidate = some saved) (outside : saved.outer = [])
    (read : Plain.read false (saved.indent + 1).toNat saved.cursor = some reading) :
    reader.plainScalar = some
      { saved.push (.scalar .plain (textOf reading.value)) reading.cursor with
        keyAllowed := reading.broken } := by
  have flat : saved.inFlow = false := by rw [inFlow, outside]; rfl
  simp only [plainScalar, saves, Option.bind_eq_bind, Option.bind_some, flat, read]

/-- A word before a colon is read as a scalar where a key may have started. -/
theorem Ready.next_scalar {column : Nat} {word rest : List Char} {reader : Reader}
    (ready : Ready column (word ++ ':' :: rest) reader) (spelled : IsPlainWord word)
    (short : word.length ≤ 1024) (inside : reader.indent ≤ column) (spaced : atSpace rest = true) :
    ∃ after, reader.next = some after ∧ AtColon reader column word rest after := by
  obtain ⟨outside, free, _, mark, placed, arrives⟩ := ready
  have flat : reader.inFlow = false := by rw [inFlow, outside]; rfl
  have ends : Plain.run false (':' :: rest) = [] := by
    simp [Plain.run, Plain.endsAt, spaced]
  have passes : Gap.read (reader.indent + 1).toNat {} (':' :: rest) (mark.right word.length) =
      ({}, ⟨':' :: rest, mark.right word.length⟩) := by
    simp [Gap.read, isBreak, isBlank]
  have read : Plain.read false (reader.indent + 1).toNat ⟨word ++ ':' :: rest, mark⟩ =
      some ⟨word, false, ⟨':' :: rest, mark.right word.length⟩⟩ :=
    Plain.read_word spelled rfl ends passes rfl (.inl rfl)
  obtain ⟨first, others, same⟩ := List.exists_cons_of_ne_nil spelled.present
  have letter : first.isAlpha = true := spelled.starts first (by rw [same]; rfl)
  let arrived : Reader :=
    { reader with keyAllowed := true, cursor := ⟨word ++ ':' :: rest, mark⟩ }
  have moved : reader.toToken = arrived := by
    rw [toToken, flat, arrives]
  have begins : arrived.cursor.rest = first :: (others ++ ':' :: rest) := by
    change word ++ ':' :: rest = _
    rw [same, List.cons_append]
  have within : arrived.indent ≤ arrived.mark.column := by
    change reader.indent ≤ (mark.column : Int)
    rw [placed]
    exact inside
  let candidate : Candidate :=
    ⟨!arrived.inFlow && arrived.indent = arrived.mark.column, reader.tokens.length, mark⟩
  let after : Reader :=
    { reader with
      cursor := ⟨':' :: rest, mark.right word.length⟩
      tokens := ⟨.scalar .plain (textOf word), mark, mark.right word.length⟩ :: reader.tokens
      keyAllowed := false
      candidate := some candidate }
  have saved : arrived.saveCandidate = some { arrived with candidate := some candidate } := by
    simp only [saveCandidate, dropCandidate, arrived, free]
    rfl
  have scalar : arrived.plainScalar = some after := plainScalar_eq saved outside read
  have plain : after.skipComment = after := by
    refine skipComment_of_plain ?_
    simp [after, Cursor.skipBlanks, Cursor.skipWhile, Cursor.leaving, isBlank, startsWith]
  refine ⟨after, next_of_scalar moved within outside begins letter scalar plain, ?_⟩
  refine ⟨outside, rfl, ?_, rfl, rfl, ⟨_, rfl, rfl⟩, ⟨candidate, rfl, rfl, placed, ?_⟩⟩
  · change column ≤ mark.column + word.length
    omega
  · simp [candidate, after, Candidate.isFresh, Reader.mark, Mark.right, short]

/-- The colon after a word makes it a key, which may open a mapping. -/
theorem AtColon.next_value {earlier reader : Reader} {column : Nat} {word rest : List Char}
    (atColon : AtColon earlier column word rest reader) (inside : earlier.indent ≤ column)
    (spaced : atSpace rest = true)
    (plain : startsWith '#' (rest.dropWhile isBlank) = false) :
    ∃ after, reader.next = some after ∧ HasKey earlier column word rest after := by
  obtain ⟨outside, follows, beyond, indent, indents, ⟨token, kind, found⟩,
    ⟨candidate, held, count, placed, fresh⟩⟩ := atColon
  have flat : reader.inFlow = false := by rw [inFlow, outside]; rfl
  have moved : reader.toToken = reader := by
    have stays : skipSpace false reader.keyAllowed .absent reader.cursor.rest reader.mark =
        (reader.keyAllowed, reader.cursor) := by
      have whole : reader.cursor = ⟨':' :: rest, reader.mark⟩ := by rw [← follows]; rfl
      rw [whole]
      simp [skipSpace, isBreak]
    rw [toToken, flat, stays]
  have stays : reader.unroll reader.mark.column = reader := unroll_of_le (by omega)
  have made := hasKey_simpleValue ⟨outside, follows, beyond, indent, indents,
    ⟨token, kind, found⟩, ⟨candidate, held, count, placed, fresh⟩⟩ inside held
  have clear : (reader.simpleValue candidate).skipComment = reader.simpleValue candidate := by
    refine skipComment_of_plain ?_
    change startsWith '#' ((reader.simpleValue candidate).cursor.rest.dropWhile isBlank) = false
    rw [made.follows, plain]
  have reads : reader.next = some (reader.simpleValue candidate) := by
    rw [next]
    simp only [moved, stays, follows, token_colon reader spaced, value, held, fresh, if_true,
      Option.map_some, clear]
  exact ⟨_, reads, made⟩

/-- A word and the colon after it are read as a key, which may open a mapping. -/
theorem Ready.key {column : Nat} {word rest : List Char} {reader : Reader}
    (ready : Ready column (word ++ ':' :: rest) reader) (spelled : IsPlainWord word)
    (short : word.length ≤ 1024) (inside : reader.indent ≤ column) (spaced : atSpace rest = true)
    (plain : startsWith '#' (rest.dropWhile isBlank) = false) :
    ∃ after, (∀ fuel, readAll (fuel + 2) reader = readAll fuel after) ∧
      HasKey reader column word rest after := by
  obtain ⟨middle, first, atColon⟩ := ready.next_scalar spelled short inside spaced
  obtain ⟨after, second, hasKey⟩ := atColon.next_value inside spaced plain
  have unfinished : middle.isFinished = false := by
    obtain ⟨token, kind, found⟩ := atColon.scalar
    simp [isFinished, found, kind]
  refine ⟨after, fun fuel => ?_, hasKey⟩
  rw [readAll_succ ready.unfinished first, readAll_succ unfinished second]

/-! ## Lines -/

/-- What comes after the end of a line: nothing more, or a line of a given indentation that starts
with a letter. The next token starts in the column with the rest. -/
inductive Follows (indent : Nat) : (lines : List Char) → (column : Nat) → (rest : List Char) → Prop
  | nothing : Follows indent [] 0 []
  | line {first : Char} (letter : first.isAlpha = true) (others : List Char) :
      Follows indent (List.replicate indent ' ' ++ first :: others) indent (first :: others)

/-- A letter is read as white space by nobody. -/
theorem isSpace_of_isAlpha {letter : Char} (alpha : letter.isAlpha = true) :
    isSpace letter = false :=
  isSpace_of_isWord (by simp [isWord, Char.isAlphanum, alpha])

/-- Where a token starts, no white space is skipped. -/
theorem Follows.skipSpace_eq {indent column : Nat} {lines rest : List Char}
    (follows : Follows indent lines column rest) (keyAllowed : Bool) (mark : Mark) :
    skipSpace false keyAllowed .absent rest mark = (keyAllowed, ⟨rest, mark⟩) := by
  cases follows with
  | nothing => rfl
  | line letter others =>
    have solid := isSpace_of_isAlpha letter
    simp only [isSpace, isBlank, Bool.or_eq_false_iff, decide_eq_false_iff_not] at solid
    simp [skipSpace, solid, ne_of_isAlpha letter (show '#'.isAlpha = false by decide)]

/-- The spaces in front of a token are skipped. -/
theorem skipSpace_spaces (keyAllowed : Bool) (count : Nat) (rest : List Char) (mark : Mark) :
    skipSpace false keyAllowed .absent (List.replicate count ' ' ++ rest) mark =
      skipSpace false keyAllowed .absent rest (mark.right count) := by
  induction count generalizing mark with
  | zero => rfl
  | succ count ih =>
    have step : (mark.right 1).right count = mark.right (count + 1) := by
      simp [Mark.right, Nat.add_assoc, Nat.add_comm 1 count]
    rw [List.replicate_succ, List.cons_append, skipSpace]
    simp [isBreak, ih, step]

/-- A gap that has a line break passes the spaces after it. -/
theorem Gap.read_spaces {gap : Gap} (broken : gap.isBroken = true) (indent count : Nat)
    (rest : List Char) (mark : Mark) :
    Gap.read indent gap (List.replicate count ' ' ++ rest) mark =
      Gap.read indent gap rest (mark.right count) := by
  induction count generalizing mark with
  | zero => rfl
  | succ count ih =>
    have step : (mark.right 1).right count = mark.right (count + 1) := by
      simp [Mark.right, Nat.add_assoc, Nat.add_comm 1 count]
    rw [List.replicate_succ, List.cons_append, Gap.read]
    simp [isBreak, isBlank, Gap.addBlank, broken, ih, step]

/-- A gap goes from the end of a line to the next token. -/
theorem Follows.gap_read {indent column : Nat} {lines rest : List Char}
    (follows : Follows indent lines column rest) (least : Nat) (mark : Mark) :
    ∃ reached : Mark, reached.column = column ∧
      Gap.read least {} ('\n' :: lines) mark = ({ breaks := ['\n'] }, ⟨rest, reached⟩) := by
  have broken : Gap.isBroken { breaks := ['\n'] } = true := rfl
  have first : Gap.read least {} ('\n' :: lines) mark =
      Gap.read least { breaks := ['\n'] } lines mark.down := by
    simp [Gap.read, isBreak, Gap.addBreak]
  rw [first]
  cases follows with
  | nothing => exact ⟨mark.down, rfl, rfl⟩
  | line letter others =>
    have solid := isSpace_of_isAlpha letter
    simp only [isSpace, Bool.or_eq_false_iff] at solid
    refine ⟨mark.down.right indent, by simp [Mark.right, Mark.down], ?_⟩
    rw [Gap.read_spaces broken, Gap.read]
    simp [solid]

/-- Past the end of the line of a key, a reader is ready for the next line. -/
theorem HasKey.ready {earlier reader : Reader} {column indent next : Nat}
    {word lines rest : List Char} (hasKey : HasKey earlier column word ('\n' :: lines) reader)
    (follows : Follows indent lines next rest) : Ready next rest reader := by
  refine ⟨hasKey.outer, hasKey.candidate, hasKey.unfinished, ?_⟩
  have first : skipSpace false reader.keyAllowed .absent reader.cursor.rest reader.mark =
      skipSpace false true .absent lines reader.mark.down := by
    rw [hasKey.follows, hasKey.keyAllowed, skipSpace]
    simp [isBreak]
  rw [first]
  have arrives := follows.skipSpace_eq
  cases follows with
  | nothing => exact ⟨reader.mark.down, rfl, rfl⟩
  | line letter others =>
    refine ⟨reader.mark.down.right indent, by simp [Mark.right, Mark.down], ?_⟩
    rw [skipSpace_spaces, arrives]

/-- A word up to the end of its line is read as the value of a key. -/
theorem HasKey.value {earlier reader : Reader} {column indent next : Nat}
    {key word lines rest : List Char}
    (hasKey : HasKey earlier column key (' ' :: (word ++ '\n' :: lines)) reader)
    (spelled : IsPlainWord word) (follows : Follows indent lines next rest)
    (outdented : next ≤ column) :
    ∃ after, (∀ fuel, readAll (fuel + 1) reader = readAll fuel after) ∧ Ready next rest after ∧
      after.indent = reader.indent ∧ after.indents = reader.indents ∧
      after.kinds = .scalar .plain (textOf word) :: reader.kinds := by
  have outside := hasKey.outer
  have flat : reader.inFlow = false := by rw [inFlow, outside]; rfl
  obtain ⟨first, others, same⟩ := List.exists_cons_of_ne_nil spelled.present
  have letter : first.isAlpha = true := spelled.starts first (by rw [same]; rfl)
  let start := reader.mark.right 1
  let arrived : Reader := { reader with cursor := ⟨word ++ '\n' :: lines, start⟩ }
  have moved : reader.toToken = arrived := by
    have spaces : skipSpace false reader.keyAllowed .absent reader.cursor.rest reader.mark =
        (reader.keyAllowed, ⟨word ++ '\n' :: lines, start⟩) := by
      have one := skipSpace_spaces reader.keyAllowed 1 (word ++ '\n' :: lines) reader.mark
      have arrives := (@Follows.line 0 _ letter (others ++ '\n' :: lines)).skipSpace_eq
        reader.keyAllowed start
      rw [hasKey.follows]
      rw [same] at one ⊢
      exact one.trans arrives
    rw [toToken, flat, spaces]
  have begins : arrived.cursor.rest = first :: (others ++ '\n' :: lines) := by
    change word ++ '\n' :: lines = _
    rw [same, List.cons_append]
  have beyond := hasKey.beyond
  have level := hasKey.indent
  have within : arrived.indent ≤ arrived.mark.column := by
    change reader.indent ≤ ((reader.mark.column + 1 : Nat) : Int)
    omega
  have saved : arrived.saveCandidate = some arrived := by
    have none : arrived.keyAllowed = false := hasKey.keyAllowed
    rw [saveCandidate, none]
    rfl
  obtain ⟨reached, placed, passes⟩ :=
    follows.gap_read (reader.indent + 1).toNat (start.right word.length)
  have ends : Plain.run false ('\n' :: lines) = [] := by
    simp [Plain.run, isSpace, isBreak]
  have leaves : reached.column < (reader.indent + 1).toNat := by
    rw [level, placed]
    omega
  have split : arrived.cursor.rest = word ++ '\n' :: lines := rfl
  have read := Plain.read_word spelled split ends passes rfl (.inr leaves)
  let after : Reader :=
    { reader with
      cursor := ⟨rest, reached⟩
      tokens := ⟨.scalar .plain (textOf word), start, reached⟩ :: reader.tokens
      keyAllowed := true }
  have scalar : arrived.plainScalar = some after := plainScalar_eq saved outside read
  have plain : after.skipComment = after := by
    simp [skipComment, leavesLine, after]
  have reads := next_of_scalar moved within outside begins letter scalar plain
  have ready : Ready next rest after :=
    ⟨outside, hasKey.candidate, rfl, reached, placed, follows.skipSpace_eq true reached⟩
  exact ⟨after, readAll_succ hasKey.unfinished reads, ready, rfl, rfl, rfl⟩

/-- At its end, a source with a mapping inside a mapping closes both. -/
theorem Ready.finish {reader : Reader} (ready : Ready 0 [] reader) (inside : 0 < reader.indent)
    (around : reader.indents = [0, -1]) :
    ∃ after, (∀ fuel, readAll (fuel + 1) reader = after) ∧ after.isFinished = true ∧
      after.kinds = .streamEnd :: .blockEnd :: .blockEnd :: reader.kinds := by
  obtain ⟨outside, free, unfinished, mark, placed, arrives⟩ := ready
  have flat : reader.inFlow = false := by rw [inFlow, outside]; rfl
  let arrived : Reader := { reader with keyAllowed := true, cursor := ⟨[], mark⟩ }
  have moved : reader.toToken = arrived := by
    rw [toToken, flat, arrives]
  let closed : Reader :=
    { arrived with
      tokens := ⟨.blockEnd, mark, mark⟩ :: reader.tokens
      indent := 0
      indents := [-1] }
  have unrolled : arrived.unroll arrived.mark.column = closed := by
    have column : arrived.mark.column = 0 := placed
    have deeper : arrived.indent = reader.indent := rfl
    rw [unroll, column]
    simp [unrollFrom, arrived, closed, inFlow, outside, around, inside, insert, Reader.mark]
  let finished : Reader :=
    { closed with
      tokens := [⟨.streamEnd, mark, mark⟩, ⟨.blockEnd, mark, mark⟩] ++ closed.tokens
      indent := -1
      indents := []
      keyAllowed := false }
  have ends : closed.streamEnd = some finished := by
    simp [streamEnd, closed, finished, arrived, leaveDocument, unroll, unrollFrom, insert,
      dropCandidate, inFlow, outside, free, placed, push, Reader.mark]
  have reads : reader.next = some finished := by
    rw [next]
    simp only [moved, unrolled]
    exact ends
  refine ⟨finished, fun fuel => ?_, rfl, rfl⟩
  rw [readAll_succ unfinished reads]
  cases fuel <;> rfl

/-! ## Mappings of words -/

/-- An entry as a line of a mapping in a column. -/
def line (column : Nat) (entry : List Char × List Char) : List Char :=
  List.replicate column ' ' ++ (entry.1 ++ ':' :: ' ' :: (entry.2 ++ ['\n']))

/-- The texts of an entry. -/
def textsOf (entry : List Char × List Char) : Text × Text :=
  (textOf entry.1, textOf entry.2)

/-- The kinds of the tokens of an entry of plain scalars. -/
def entryKinds (texts : Text × Text) : List TokenKind :=
  [.key, .scalar .plain texts.1, .value, .scalar .plain texts.2]

/-- An entry of a word that is short enough for a key, and another word. -/
structure IsEntry (entry : List Char × List Char) : Prop where
  key : IsPlainWord entry.1
  short : entry.1.length ≤ 1024
  value : IsPlainWord entry.2

/-- The column of the first word of entries, or of the end. -/
def startOf (column : Nat) : List (List Char × List Char) → Nat
  | [] => 0
  | _ :: _ => column

/-- Entries start in their column or not at all. -/
theorem startOf_le (column : Nat) (entries : List (List Char × List Char)) :
    startOf column entries ≤ column := by
  cases entries with
  | nil => exact Nat.zero_le _
  | cons => exact le_rfl

/-- Without its indentation, a line starts with its key. -/
theorem drop_line (column : Nat) (entry : List Char × List Char) (lines : List Char) :
    (line column entry ++ lines).drop column =
      entry.1 ++ ':' :: ' ' :: (entry.2 ++ '\n' :: lines) := by
  rw [line, List.append_assoc, List.drop_append]
  simp

/-- The lines of entries follow a line, and the next token is their first word. -/
theorem follows_lines {entries : List (List Char × List Char)}
    (sound : ∀ entry ∈ entries, IsEntry entry) (column : Nat) :
    Follows column (entries.flatMap (line column)) (startOf column entries)
      ((entries.flatMap (line column)).drop column) := by
  cases entries with
  | nil => simpa [startOf] using Follows.nothing
  | cons entry entries =>
    obtain ⟨first, others, same⟩ := List.exists_cons_of_ne_nil (sound entry (by simp)).key.present
    have letter : first.isAlpha = true :=
      (sound entry (by simp)).key.starts first (by rw [same]; rfl)
    rw [List.flatMap_cons, drop_line, line, List.append_assoc, same]
    simpa [startOf] using Follows.line letter
      (others ++ ':' :: ' ' :: (entry.2 ++ '\n' :: entries.flatMap (line column)))

/-- An entry is read as a key and a value, which may open a mapping. -/
theorem Ready.entry {column indent next : Nat} {entry : List Char × List Char}
    {lines rest : List Char} {reader : Reader}
    (ready : Ready column (entry.1 ++ ':' :: ' ' :: (entry.2 ++ '\n' :: lines)) reader)
    (sound : IsEntry entry) (inside : reader.indent ≤ column)
    (follows : Follows indent lines next rest) (outdented : next ≤ column) :
    ∃ after, (∀ fuel, readAll (fuel + 3) reader = readAll fuel after) ∧ Ready next rest after ∧
      after.indent = column ∧
      after.indents = (if reader.indent < column then reader.indent :: reader.indents
        else reader.indents) ∧
      after.kinds = (opening reader.indent column ++ entryKinds (textsOf entry)).reverse ++
        reader.kinds := by
  obtain ⟨first, others, same⟩ := List.exists_cons_of_ne_nil sound.value.present
  have letter : first.isAlpha = true := sound.value.starts first (by rw [same]; rfl)
  have plain : startsWith '#' ((' ' :: (entry.2 ++ '\n' :: lines)).dropWhile isBlank) = false := by
    have space : isBlank ' ' = true := rfl
    have solid := isSpace_of_isAlpha letter
    rw [isSpace, Bool.or_eq_false_iff] at solid
    rw [List.dropWhile_cons_of_pos space, same, List.cons_append,
      List.dropWhile_cons_of_neg (by simp [solid.1]), startsWith]
    exact decide_eq_false (ne_of_isAlpha letter (by decide))
  obtain ⟨middle, keys, hasKey⟩ := ready.key sound.key sound.short inside rfl plain
  obtain ⟨after, values, arrives, level, around, kinds⟩ :=
    hasKey.value sound.value follows outdented
  refine ⟨after, fun fuel => ?_, arrives, level.trans hasKey.indent,
    around.trans hasKey.indents, ?_⟩
  · rw [keys (fuel + 1), values]
  · rw [kinds, hasKey.kinds, opening]
    split <;> simp [entryKinds, textsOf]

/-- Entries at the end of a source are read one after the other, and then the mappings are
closed. -/
theorem Ready.entries {column : Nat} (deep : 0 < column) {entries : List (List Char × List Char)}
    (sound : ∀ entry ∈ entries, IsEntry entry) {reader : Reader}
    (ready : Ready (startOf column entries) ((entries.flatMap (line column)).drop column) reader)
    (level : reader.indent = column) (around : reader.indents = [0, -1]) :
    ∃ after, (∀ fuel, readAll (fuel + 1 + 3 * entries.length) reader = after) ∧
      after.isFinished = true ∧
      after.kinds = [.streamEnd, .blockEnd, .blockEnd] ++
        (((entries.map textsOf).flatMap entryKinds).reverse ++ reader.kinds) := by
  induction entries generalizing reader with
  | nil =>
    rw [List.flatMap_nil, List.drop_nil] at ready
    exact ready.finish (by omega) around
  | cons entry entries ih =>
    obtain ⟨own, others⟩ := List.forall_mem_cons.mp sound
    rw [List.flatMap_cons, drop_line, startOf] at ready
    have follows := follows_lines others column
    obtain ⟨middle, first, arrives, inside, outside, kinds⟩ :=
      Ready.entry ready own level.le follows (startOf_le column entries)
    have same : ¬reader.indent < column := by omega
    rw [if_neg same, around] at outside
    obtain ⟨after, later, finished, found⟩ := ih others arrives inside outside
    refine ⟨after, fun fuel => ?_, finished, ?_⟩
    · rw [← later fuel, ← first, List.length_cons]
      congr 1
    · rw [found, kinds, opening, if_neg same, List.map_cons, List.flatMap_cons]
      simp

/-- Every line of an entry has three characters, so a source has enough characters for the tokens of
its entries. -/
theorem length_lines (column : Nat) (entries : List (List Char × List Char)) :
    3 * entries.length ≤ (entries.flatMap (line column)).length := by
  induction entries with
  | nil => exact Nat.zero_le _
  | cons entry entries ih =>
    rw [List.flatMap_cons, List.length_append, List.length_cons, line]
    simp only [List.length_append, List.length_cons, List.length_replicate, List.length_nil]
    omega

/-- A word at the start of a source is a key there. -/
theorem ready_start {word : List Char} (spelled : IsPlainWord word) (rest : List Char) :
    Ready 0 (word ++ rest) { cursor := ⟨word ++ rest, {}⟩ } := by
  obtain ⟨first, others, same⟩ := List.exists_cons_of_ne_nil spelled.present
  have letter : first.isAlpha = true := spelled.starts first (by rw [same]; rfl)
  have arrives := (@Follows.line 0 _ letter (others ++ rest)).skipSpace_eq true {}
  rw [same]
  exact ⟨rfl, rfl, rfl, {}, rfl, arrives⟩

end Reader

/-- A header and indented entries under it are read as a mapping inside a mapping. -/
theorem kinds_tokens {header : List Char} {column : Nat} {entries : List (List Char × List Char)}
    (headed : IsPlainWord header) (short : header.length ≤ 1024) (deep : 0 < column)
    (sound : ∀ entry ∈ entries, Reader.IsEntry entry) (present : entries ≠ []) :
    (tokens (header ++ ':' :: '\n' :: entries.flatMap (Reader.line column))).map Token.kind =
      .blockMappingStart :: .key :: .scalar .plain (textOf header) :: .value ::
        .blockMappingStart :: ((entries.map Reader.textsOf).flatMap Reader.entryKinds ++
          [.blockEnd, .blockEnd, .streamEnd]) := by
  obtain ⟨entry, others, rfl⟩ := List.exists_cons_of_ne_nil present
  obtain ⟨own, remaining⟩ := List.forall_mem_cons.mp sound
  generalize whole :
    header ++ ':' :: '\n' :: (entry :: others).flatMap (Reader.line column) = source
  generalize opened : ({ cursor := ⟨source, {}⟩ } : Reader) = start
  have ready : Reader.Ready 0 source start := by
    rw [← opened, ← whole]
    exact Reader.ready_start headed _
  have outermost : start.indent = -1 ∧ start.indents = [] ∧ start.kinds = [] := by
    rw [← opened]
    exact ⟨rfl, rfl, rfl⟩
  obtain ⟨least, nowhere, fresh⟩ := outermost
  -- The header opens the outer mapping.
  rw [← whole] at ready
  obtain ⟨under, keys, hasKey⟩ := ready.key headed short (by omega) rfl rfl
  have level : under.indent = 0 := hasKey.indent
  have around : under.indents = [-1] := by
    rw [hasKey.indents, least, nowhere]
    rfl
  have headKinds : under.kinds =
      [.value, .scalar .plain (textOf header), .key, .blockMappingStart] := by
    rw [hasKey.kinds, fresh, least]
    rfl
  -- The first entry opens the inner mapping.
  have arrives := hasKey.ready (Reader.follows_lines sound column)
  rw [List.flatMap_cons, Reader.drop_line, Reader.startOf] at arrives
  have follows := Reader.follows_lines remaining column
  have deeper : under.indent < column := by omega
  obtain ⟨inner, first, next, inside, outside, entryKinds⟩ :=
    Reader.Ready.entry arrives own deeper.le follows (Reader.startOf_le column others)
  rw [if_pos deeper, level, around] at outside
  obtain ⟨last, later, finished, kinds⟩ :=
    Reader.Ready.entries deep remaining next inside outside
  have enough : 6 + 3 * others.length ≤ source.length := by
    have lines := Reader.length_lines column (entry :: others)
    have some := List.length_pos_of_ne_nil headed.present
    rw [← whole, List.length_append, List.length_cons, List.length_cons]
    rw [List.length_cons] at lines
    omega
  have read : Reader.readAll (source.length + 2) start = last := by
    obtain ⟨spare, fuel⟩ := Nat.exists_eq_add_of_le enough
    have split : source.length + 2 = spare + 2 + 1 + 3 * others.length + 3 + 2 := by omega
    rw [split, keys, first, later]
  have collected : last.tokens.reverse.map Token.kind = last.kinds.reverse := List.map_reverse
  rw [tokens, opened, read, if_pos finished, collected, kinds, entryKinds, headKinds]
  simp [Reader.opening, deeper]

end Aml.Yaml

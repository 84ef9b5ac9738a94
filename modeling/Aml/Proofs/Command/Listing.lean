import Mathlib
import Aml.Command.Run
import Aml.Proofs.Scan.LogicalLine
import Aml.Proofs.Scan.Placement
import Aml.Proofs.Text.Columns
import Aml.Proofs.Token

/-!
# What the listing shows of tokens

The command prints the row of every token as one block, in order. The block starts with the logical
line and the column of the token, and has one line unless the lexeme or the value has a newline, or
a form feed outside escape bytes (`Command.exists_blocks`). The column is that of the place of the
token, and so is the line as long as no string before it has a newline
(`Command.exists_place_of_token`). Hence the listing has one line for each token, and each line
names the place of its token, exactly for the tokens without such line ends
(`Command.listing_exact`); a string over two lines is a token of the language and breaks both
(`Command.listing_broken`).
-/
namespace Aml

open Text (newline)
open Columns (lineEnds)

/-- The bytes of graphic texts are plain cells. -/
theorem Text.IsGraphic.isPlain {text : Text} (graphic : text.IsGraphic) :
    ∀ byte ∈ text, Columns.IsPlain byte := by
  intro byte member
  have bounds := isGraphic_iff.mp graphic byte member
  refine ⟨?_, ?_, ?_, ?_, ?_⟩ <;> rintro rfl <;> revert bounds <;> decide

/-- A graphic text has no escape bytes. -/
theorem Text.IsGraphic.count_escapeByte {text : Text} (graphic : text.IsGraphic) :
    text.count Columns.escapeByte = 0 :=
  List.count_eq_zero.mpr fun member => (graphic.isPlain _ member).2.2.2.2 rfl

namespace Command

/-! ## Rows of tokens -/

/-- The line and the column that the row of a token starts with. -/
def location (token : Token) : Text :=
  Text.ofInt token.line ++ ":" ++ Text.ofInt token.position.column

/-- The other cells of the row of a token: its kind, its lexeme and its value. -/
def cells (token : Token) : Text :=
  token.kind.name ++ 9 :: (token.lexeme ++ 9 :: token.shownValue)

/-- The row of a token is its location and the other cells. -/
theorem tokenRow_eq (token : Token) :
    tokenRow token = location token ++ 9 :: (cells token ++ [newline]) := by
  obtain ⟨kind, lexeme, value, line, position⟩ := token
  cases value with
  | none => simp [tokenRow, row, Text.joined, location, cells, Token.shownValue]
  | some value => simp [tokenRow, row, Text.joined, location, cells, Token.shownValue]

/-- A location is graphic. -/
theorem isGraphic_location (token : Token) : (location token).IsGraphic := by
  have colon : (Text.ofString ":").IsGraphic := by decide
  exact ((Text.isGraphic_ofInt _).append colon).append (Text.isGraphic_ofInt _)

/-- A token of the language closes the escapes that it opens: what is between the quotes of a string
is shown twice. -/
theorem even_count_cells (table : KeywordTable) (line : Int) (position : Position)
    (spelling : Spelling) :
    Even ((cells (spelling.token table line position)).count Columns.escapeByte) := by
  have name := (spelling.kind table).isGraphic_name.count_escapeByte
  have split : (cells (spelling.token table line position)).count Columns.escapeByte =
      spelling.text.count Columns.escapeByte +
        (spelling.token table line position).shownValue.count Columns.escapeByte := by
    have tab : (9 : UInt8) ≠ Columns.escapeByte := by decide
    rw [cells, List.count_append, List.count_cons_of_ne tab, List.count_append,
      List.count_cons_of_ne tab]
    exact (congrArg (· + _) name).trans (Nat.zero_add _)
  rw [split]
  rcases spelling.isGraphic table line position with ⟨body, sound, rfl⟩ | ⟨text, value⟩
  · have quoted : (Spelling.string body sound).text.count Columns.escapeByte =
        body.count Columns.escapeByte := by
      rw [Spelling.text, List.count_cons, List.count_append]
      simp [Columns.escapeByte, Converter.quote]
    have shown : ((Spelling.string body sound).token table line position).shownValue = body := rfl
    rw [quoted, shown]
    exact ⟨_, rfl⟩
  · rw [text.count_escapeByte, value.count_escapeByte]
    exact ⟨0, rfl⟩

/-- Every token has a block, which starts with its location and two spaces and has one line more
than line ends among the other cells. -/
def IsBlock (token : Token) (block : Text) : Prop :=
  ∃ shown, block = location token ++ (Text.spaces Columns.padding ++ (shown ++ [newline])) ∧
    shown.newlines = lineEnds false (cells token)

section Listing

variable {table : KeywordTable} {source : Text} {tokens : List Token}
  (scanned : (Scanner.language table).scan source = .ok tokens)

include scanned

/-- The listing of the tokens of a source is a block for each of them, in order. -/
theorem exists_blocks :
    ∃ blocks, tokenListing tokens = blocks.flatten ∧ List.Forall₂ IsBlock tokens blocks := by
  have scans := Scanner.language_scans table source
  rw [Scanner.scan_eq_ok_iff.mp scanned] at scans
  have spelled := scans.exists_spelling (by rw [Text.ofCharacters_characters])
  obtain ⟨rows, whole, shown⟩ : ∃ rows : List Columns.Row,
      tokens.flatMap tokenRow = rows.flatMap Columns.Row.text ∧
        List.Forall₂ (fun token row => row.head = location token ∧ row.tail = cells token)
          tokens rows := by
    clear scans scanned
    induction tokens with
    | nil => exact ⟨[], rfl, .nil⟩
    | cons token tokens ih =>
      obtain ⟨⟨spelling, same⟩, others⟩ := List.forall_mem_cons.mp spelled
      obtain ⟨rows, whole, shown⟩ := ih others
      let row : Columns.Row := ⟨location token, cells token, (isGraphic_location token).isPlain,
        same ▸ even_count_cells table _ _ spelling⟩
      refine ⟨row :: rows, ?_, .cons ⟨rfl, rfl⟩ shown⟩
      rw [List.flatMap_cons, List.flatMap_cons, whole, tokenRow_eq]
      rfl
  obtain ⟨blocks, aligned, prints⟩ := Columns.exists_align_rows rows
  refine ⟨blocks, by rw [tokenListing, whole, aligned], ?_⟩
  clear whole aligned spelled scans scanned
  induction shown generalizing blocks with
  | nil =>
    cases prints
    exact .nil
  | @cons token row tokens rows same _ ih =>
    cases prints with
    | @cons _ block _ blocks own others =>
      obtain ⟨shown, printed, ends⟩ := own
      rw [same.1] at printed
      rw [same.2] at ends
      exact .cons ⟨shown, printed, ends⟩ (ih blocks others)

/-- The place of a token in its source: its lexeme begins there, its column counts the characters
before it on its line, and its line is less than the number of that line by the newlines of the
strings before it. -/
theorem exists_place_of_token {earlier later : List Token} {token : Token}
    (listed : tokens = earlier ++ token :: later) :
    ∃ place : source.Place, token.position.offset = place.offset ∧
      token.lexeme <+: source.drop place.offset ∧
      token.position.column = 1 + place.line.length ∧
      token.line = 1 + place.row - stringNewlines earlier := by
  have done := Scanner.scan_eq_ok_iff.mp scanned
  have scans := Scanner.language_scans table source
  have laid := ((Scanner.language table).laid source).1
  rw [done] at scans laid
  subst listed
  have line := scans.line_eq_sub
  obtain ⟨gap, taken, after, whole, _, spelled, counted⟩ := laid.exists_of_mem token (by simp)
  obtain ⟨place, split, follows⟩ := Text.exists_place whole
  have reached : token.position = ⟨1 + place.row, 1 + place.line.length, place.offset⟩ := by
    rw [counted, ← split, Text.ofCharacters_append]
    exact place.start_advance
  have bytes : (Text.ofCharacters (place.above ++ place.line)).length = place.offset := by
    rw [Text.ofCharacters_append]
    rfl
  have begins : token.lexeme <+: source.drop place.offset := by
    rw [← split] at whole
    rw [← bytes, Text.drop_of_characters whole, Text.ofCharacters_append, spelled]
    exact List.prefix_append _ _
  rw [reached] at line
  exact ⟨place, by rw [reached], begins, by rw [reached], line⟩

end Listing

/-! ## Lines of a listing -/

/-- A line that starts with the line and the column, both counted from 1, of the place at which a
token begins in a source. -/
def Locates (source : Text) (token : Token) (line : Text) : Prop :=
  ∃ place : source.Place, token.position.offset = place.offset ∧
    token.lexeme <+: source.drop place.offset ∧
    ∃ rest, line = Text.ofNat (1 + place.row) ++ ":" ++ Text.ofNat (1 + place.line.length) ++ rest ∧
      ∀ byte ∈ rest.head?, ¬Numeral.isDigit byte

/-- An output with one line for each token, in order, that locates the token. -/
def Lists (source : Text) (tokens : List Token) (output : Text) : Prop :=
  ∃ lines : List Text, output = lines.flatMap (· ++ [newline]) ∧
    (∀ line ∈ lines, newline ∉ line) ∧ List.Forall₂ (Locates source) tokens lines

/-- The newlines of lines that are each ended by one. -/
theorem newlines_flatMap {lines : List Text} (inline : ∀ line ∈ lines, newline ∉ line) :
    Text.newlines (lines.flatMap (· ++ [newline])) = lines.length := by
  induction lines with
  | nil => rfl
  | cons line lines ih =>
    obtain ⟨first, others⟩ := List.forall_mem_cons.mp inline
    have none : line.newlines = 0 := List.count_eq_zero.mpr first
    have one : Text.newlines [newline] = 1 := rfl
    rw [List.flatMap_cons, Text.newlines_append, Text.newlines_append, none, one, ih others,
      List.length_cons]
    omega

/-- The newlines of blocks are one for each token and the line ends in its cells. -/
theorem newlines_blocks {tokens : List Token} {blocks : List Text}
    (made : List.Forall₂ IsBlock tokens blocks) :
    Text.newlines blocks.flatten =
      tokens.length + (tokens.map fun token => lineEnds false (cells token)).sum := by
  induction made with
  | nil => rfl
  | @cons token block tokens blocks own _ ih =>
    obtain ⟨shown, rfl, ends⟩ := own
    have head : (location token).newlines = 0 :=
      List.count_eq_zero.mpr (isGraphic_location token).newline_notMem
    have one : Text.newlines [newline] = 1 := rfl
    rw [List.flatten_cons, Text.newlines_append, Text.newlines_append, Text.newlines_append,
      Text.newlines_append, head, Columns.newlines_spaces, ends, one, ih, List.map_cons,
      List.sum_cons, List.length_cons]
    omega

/-- A token whose cells end no line has no newline. -/
theorem newlines_lexeme_of_lineEnds {token : Token} (none : lineEnds false (cells token) = 0) :
    token.lexeme.newlines = 0 := by
  have absent := Columns.newline_notMem_of_lineEnds none
  exact List.count_eq_zero.mpr fun member => absurd (by simp [cells, member]) absent

/-- Blocks of tokens whose cells end no line are lines. -/
theorem exists_lines_of_blocks {tokens : List Token} {blocks : List Text}
    (made : List.Forall₂ IsBlock tokens blocks)
    (single : ∀ token ∈ tokens, lineEnds false (cells token) = 0) :
    ∃ lines : List Text, blocks.flatten = lines.flatMap (· ++ [newline]) ∧
      (∀ line ∈ lines, newline ∉ line) ∧
      List.Forall₂ (fun token line => ∃ shown, line = location token ++ 32 :: shown)
        tokens lines := by
  induction made with
  | nil => exact ⟨[], rfl, by simp, .nil⟩
  | @cons token block tokens blocks own _ ih =>
    obtain ⟨none, later⟩ := List.forall_mem_cons.mp single
    obtain ⟨lines, joined, inline, starts⟩ := ih later
    obtain ⟨shown, rfl, ends⟩ := own
    rw [none] at ends
    have blanks : newline ∉ (32 :: 32 :: shown) := by
      have clear : newline ∉ shown := List.count_eq_zero.mp ends
      simpa [newline] using clear
    refine ⟨(location token ++ 32 :: 32 :: shown) :: lines, ?_, ?_, .cons ⟨_, rfl⟩ starts⟩
    · have gap : Text.spaces Columns.padding = [32, 32] := rfl
      rw [List.flatten_cons, joined, List.flatMap_cons, gap]
      simp only [List.append_assoc, List.cons_append, List.nil_append]
    · refine List.forall_mem_cons.mpr ⟨?_, inline⟩
      exact List.not_mem_append (isGraphic_location token).newline_notMem blanks

/-- Without newlines in strings, the location of a token is that of its place. -/
theorem locates_of_location {table : KeywordTable} {source : Text} {tokens : List Token}
    (scanned : (Scanner.language table).scan source = .ok tokens)
    (flat : ∀ token ∈ tokens, token.lexeme.newlines = 0) :
    ∀ token ∈ tokens, ∀ shown, Locates source token (location token ++ 32 :: shown) := by
  intro token member shown
  obtain ⟨earlier, later, listed⟩ := List.append_of_mem member
  obtain ⟨place, offset, begins, column, line⟩ := exists_place_of_token scanned listed
  have none : stringNewlines earlier = 0 := by
    refine List.sum_eq_zero_iff.mpr (List.forall_mem_map.mpr fun other within => ?_)
    split
    · exact flat other (by simp [listed, within])
    · rfl
  have row : Text.ofInt token.line = Text.ofNat (1 + place.row) := by
    rw [line, none]
    have same : (1 + place.row - (0 : Nat) : Int) = Int.ofNat (1 + place.row) := by
      simp
    rw [same]
    rfl
  have place' : Text.ofInt token.position.column = Text.ofNat (1 + place.line.length) := by
    rw [column]
    have same : (1 + place.line.length : Int) = Int.ofNat (1 + place.line.length) := by
      simp
    rw [same]
    rfl
  refine ⟨place, offset, begins, 32 :: shown, by rw [location, row, place'], ?_⟩
  simp [Numeral.isDigit]

/-- The listing of the tokens of a source has one line for each of them that locates it exactly when
the cells of no token end a line. -/
theorem lists_iff {table : KeywordTable} {source : Text} {tokens : List Token}
    (scanned : (Scanner.language table).scan source = .ok tokens) :
    Lists source tokens (tokenListing tokens) ↔
      ∀ token ∈ tokens, lineEnds false (cells token) = 0 := by
  obtain ⟨blocks, joined, made⟩ := exists_blocks scanned
  rw [joined]
  constructor
  · rintro ⟨lines, split, inline, located⟩
    have counted := newlines_blocks made
    rw [split, newlines_flatMap inline, ← located.length_eq] at counted
    have none : (tokens.map fun token => lineEnds false (cells token)).sum = 0 := by omega
    exact List.forall_mem_map.mp (List.sum_eq_zero_iff.mp none)
  · intro single
    obtain ⟨lines, split, inline, starts⟩ := exists_lines_of_blocks made single
    have located := locates_of_location scanned fun token member =>
      newlines_lexeme_of_lineEnds (single token member)
    refine ⟨lines, split, inline, ?_⟩
    refine ((List.forall₂_and_left _ _).mpr ⟨located, starts⟩).imp ?_
    rintro token _ ⟨locates, shown, rfl⟩
    exact locates shown

/-! ## Runs -/

section Run

variable {read : Text → Id FileContents} {color : Bool} {arguments : List Text}
  {options : Options} {path source : Text} {table : KeywordTable} {tokens : List Token}

/-- A run without the option for the rules scans the file that its arguments name, with the keyword
table that they name or the default one, and lists the tokens. -/
theorem run_eq (parsed : Options.read arguments {} = .ok (options, [path]))
    (scanning : options.rules = false)
    (keyed : (if options.keywords.isEmpty then .ok .default
      else loadTable options.keywords (read options.keywords).run) = Except.ok table)
    (contents : (read path).run = .text source)
    (scanned : (Scanner.language table).scan source = .ok tokens) :
    (run read color arguments).run =
      { status := 0
        output := tokenListing tokens
        summary := some (.scanned path tokens.length) } := by
  have whole : scanFile (.language table) color path (.text source) =
      { status := 0
        output := tokenListing tokens
        summary := some (.scanned path tokens.length) } := by
    rw [scanFile, FileContents.read]
    simp only [scanned]
  have listed : (runWith read color options [path] table).run =
      { status := 0
        output := tokenListing tokens
        summary := some (.scanned path tokens.length) } := by
    -- Unfolding in place is much faster than rewriting with the equation of the definition.
    unfold runWith
    rw [← whole, ← contents, Scanner.build_defaults]
    simp [scanning]
  rw [run, parsed]
  split_ifs at keyed with builtin
  · obtain rfl := Except.ok.inj keyed
    simpa [builtin] using listed
  · simpa [builtin, keyed] using listed

/-- The listing of a source that scans. A run of the command that does not list the rules succeeds
and prints a block for each token, in order. A block starts with the logical line and the column of
its token and with two spaces, and goes on with a newline for each line end among the kind, the
lexeme and the value. The column is that of the place where the lexeme begins, and the line is that
of this place less the newlines of the strings before it. There is one line for each token, which
starts with the line and the column of this place, exactly when no kind, lexeme or value has a line
end. -/
theorem listing_exact {scanner : Scanner}
    (parsed : Options.read arguments {} = .ok (options, [path]))
    (scanning : options.rules = false)
    (keyed : (if options.keywords.isEmpty then .ok .default
      else loadTable options.keywords (read options.keywords).run) = Except.ok table)
    (contents : (read path).run = .text source)
    (built : Scanner.build (some table) Rule.defaults = .ok scanner)
    (scanned : scanner.scan source = .ok tokens) :
    (run read color arguments).run.status = 0 ∧
    (∃ blocks, (run read color arguments).run.output = blocks.flatten ∧
      List.Forall₂ IsBlock tokens blocks) ∧
    (∀ (earlier : List Token) (token : Token) (later : List Token),
      tokens = earlier ++ token :: later → ∃ place : source.Place,
        token.position.offset = place.offset ∧ token.lexeme <+: source.drop place.offset ∧
        token.position.column = 1 + place.line.length ∧
        token.line = 1 + place.row - stringNewlines earlier) ∧
    (Lists source tokens (run read color arguments).run.output ↔
      ∀ token ∈ tokens, lineEnds false (cells token) = 0) := by
  obtain ⟨words, same, rfl⟩ := Scanner.language_of_built built
  obtain rfl := Option.some.inj same
  rw [run_eq parsed scanning keyed contents scanned]
  refine ⟨rfl, exists_blocks scanned, ?_, lists_iff scanned⟩
  exact fun _ _ _ listed => exists_place_of_token scanned listed

/-- Reads every file as one source. -/
def oneFile (source : Text) : Text → Id FileContents :=
  fun _ => pure (.text source)

/-- A name and a string on one line are listed on one line each. -/
theorem listing_exact_inline :
    ∃ tokens, (Scanner.language .default).scan ("a \"b\"" : String) = .ok tokens ∧
      Lists ("a \"b\"" : String) tokens
        (run (oneFile ("a \"b\"" : String)) false [("f" : String)]).run.output := by
  have parsed : Options.read [("f" : String)] {} = .ok ({}, [("f" : String)]) := by rfl
  have contents : (oneFile ("a \"b\"" : String) ("f" : String)).run =
      .text ("a \"b\"" : String) := rfl
  have scanned : (Scanner.language .default).scan ("a \"b\"" : String) =
      .ok [⟨.operand .identifier, ("a" : String), some (.string ("a" : String)), 1, ⟨1, 1, 0⟩⟩,
        ⟨.operand .string, ("\"b\"" : String), some (.string ("b" : String)), 1, ⟨1, 3, 2⟩⟩] := by
    rfl
  have built := Scanner.build_defaults .default
  refine ⟨_, scanned, (listing_exact parsed rfl rfl contents built scanned).2.2.2.mpr ?_⟩
  decide

/-- A string over two lines and a name are two tokens, but four lines, of which the one of the name
does not start with the line on which the name stands. -/
theorem listing_broken :
    ∃ tokens, (Scanner.language .default).scan ("\"a\nb\" c" : String) = .ok tokens ∧
      tokens.length = 2 ∧
      Text.newlines
        (run (oneFile ("\"a\nb\" c" : String)) false [("f" : String)]).run.output = 4 ∧
      ¬Lists ("\"a\nb\" c" : String) tokens
        (run (oneFile ("\"a\nb\" c" : String)) false [("f" : String)]).run.output := by
  have parsed : Options.read [("f" : String)] {} = .ok ({}, [("f" : String)]) := by rfl
  have contents : (oneFile ("\"a\nb\" c" : String) ("f" : String)).run =
      .text ("\"a\nb\" c" : String) := rfl
  have scanned : (Scanner.language .default).scan ("\"a\nb\" c" : String) =
      .ok [⟨.operand .string, ("\"a\nb\"" : String), some (.string ("a\nb" : String)), 1,
          ⟨1, 1, 0⟩⟩,
        ⟨.operand .identifier, ("c" : String), some (.string ("c" : String)), 1, ⟨2, 4, 6⟩⟩] := by
    rfl
  refine ⟨_, scanned, rfl, ?_, ?_⟩
  · obtain ⟨blocks, joined, made⟩ := exists_blocks scanned
    rw [run_eq parsed rfl rfl contents scanned, joined, newlines_blocks made]
    decide
  · rw [run_eq parsed rfl rfl contents scanned, lists_iff scanned]
    decide

end Run

end Command

end Aml

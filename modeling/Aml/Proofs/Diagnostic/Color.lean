import Mathlib
import Aml.Diagnostic.Report
import Aml.Proofs.Text.Graphic
import Aml.Proofs.Text.Line
import Aml.Proofs.Text.Paint

/-!
# Colour leaves reports as they are

Every part of a report shows the same part of the report without colour (`Text.Shows`): the names of
levels, labels and carets are painted whole, after they are padded and repeated, and all else is not
painted. The parts are put together in the same way in both, so without its control sequences a
coloured report is the plain one (`Reporter.report_unpainted`).
-/
namespace Aml

open Text (escape Shows)

/-- The texts that a diagnostic shows in its report. -/
def Diagnostic.texts (diagnostic : Diagnostic) : List Text :=
  [diagnostic.level.name, diagnostic.code, diagnostic.message, diagnostic.help] ++
    diagnostic.suggestions.flatMap (fun suggestion => [suggestion.message, suggestion.replacement])
    ++ diagnostic.notes

/-- Integers have no escape byte. -/
theorem Text.escape_notMem_ofInt (value : Int) : escape ∉ Text.ofInt value :=
  (Text.isGraphic_ofInt value).notMem (by decide)

/-- Repetitions of another byte have no escape byte. -/
theorem Text.escape_notMem_repeated {byte : UInt8} (other : escape ≠ byte) (count : Nat) :
    escape ∉ Text.repeated byte count :=
  fun member => other (List.eq_of_mem_replicate member)

/-- A line of a text without escape bytes has none. -/
theorem Text.escape_notMem_line {text line : Text} (clean : escape ∉ text)
    (listed : line ∈ text.lines) : escape ∉ line :=
  fun member => clean (Text.subset_of_mem_lines listed member)

namespace Reporter

/-- A reporter without colour. -/
def plain (reporter : Reporter) : Reporter :=
  { reporter with color := false }

variable {reporter : Reporter} {diagnostic : Diagnostic} {indent : Text}

/-- The first line shows the one without colour. -/
theorem shows_headline (clean : ∀ text ∈ diagnostic.texts, escape ∉ text) :
    Shows (reporter.headline diagnostic) (reporter.plain.headline diagnostic) := by
  have level : escape ∉ diagnostic.level.name := clean _ (by simp [Diagnostic.texts])
  have code : escape ∉ diagnostic.code := clean _ (by simp [Diagnostic.texts])
  have message : escape ∉ diagnostic.message := clean _ (by simp [Diagnostic.texts])
  have label : escape ∉ (if diagnostic.code = [] then Text.ofString ""
      else Text.ofString "[" ++ diagnostic.code ++ Text.ofString "]") := by
    split
    · decide
    · exact List.not_mem_append (List.not_mem_append (by decide) code) (by decide)
  exact (((Shows.paint level _ _).append (.refl label)).append (.refl (by decide))).append
    (.refl message)

/-- The carets show those without colour. -/
theorem shows_marker (reporter : Reporter) (diagnostic : Diagnostic) :
    Shows (reporter.marker diagnostic) (reporter.plain.marker diagnostic) :=
  (Shows.refl (Text.escape_notMem_repeated (by decide) _)).append
    (.paint (Text.escape_notMem_repeated (by decide) _) _ _)

/-- The lines of a suggestion show those without colour. -/
theorem shows_suggestionLines (blank : escape ∉ indent) (first : Bool) {suggestion : Suggestion}
    (message : escape ∉ suggestion.message) (replacement : escape ∉ suggestion.replacement) :
    List.Forall₂ Shows (reporter.suggestionLines indent first suggestion)
      (reporter.plain.suggestionLines indent first suggestion) := by
  have margin : Shows (indent ++ Text.ofString " ") (indent ++ Text.ofString " ") :=
    .refl (List.not_mem_append blank (by decide))
  have space : Shows (Text.ofString " ") (Text.ofString " ") := .refl (by decide)
  have label : escape ∉ (if first then Text.ofString "help" else Text.ofString "    ") := by
    split <;> decide
  unfold suggestionLines
  dsimp only
  refine .cons (((margin.append (.paint label _ _)).append space).append (.refl message)) ?_
  split
  · exact .nil
  · exact .cons (((margin.append (.paint (by decide) _ _)).append space).append
      (.paint replacement _ _)) .nil

/-- The lines of all suggestions show those without colour. -/
theorem shows_adviceLines (blank : escape ∉ indent) {suggestions : List Suggestion}
    (clean : ∀ suggestion ∈ suggestions,
      escape ∉ suggestion.message ∧ escape ∉ suggestion.replacement) :
    List.Forall₂ Shows (reporter.adviceLines indent suggestions)
      (reporter.plain.adviceLines indent suggestions) := by
  cases suggestions with
  | nil => exact .nil
  | cons suggestion rest =>
    obtain ⟨first, others⟩ := List.forall_mem_cons.mp clean
    have later : List.Forall₂ Shows (rest.flatMap (reporter.suggestionLines indent false))
        (rest.flatMap (reporter.plain.suggestionLines indent false)) := by
      clear clean
      induction rest with
      | nil => exact .nil
      | cons suggestion rest ih =>
        obtain ⟨second, others⟩ := List.forall_mem_cons.mp others
        exact List.rel_append (shows_suggestionLines blank false second.1 second.2) (ih others)
    exact List.rel_append (shows_suggestionLines blank true first.1 first.2) later

/-- The line that a reporter finds is a line of its source. -/
theorem mem_lines_of_line? {number : Int} {line : Text}
    (found : reporter.line? number = some line) : line ∈ reporter.source.lines := by
  unfold line? at found
  split at found
  · exact List.mem_of_getElem? found
  · contradiction

/-- What stands left of the text of a line shows the same without colour. -/
theorem shows_gutter {left right : Text} (shown : Shows left right) (color : Bool) :
    Shows (left ++ Text.ofString " " ++ paint color [.faint] "│" ++ Text.ofString " ")
      (right ++ Text.ofString " " ++ Text.ofString "│" ++ Text.ofString " ") := by
  have space : Shows (Text.ofString " ") (Text.ofString " ") := .refl (by decide)
  exact ((shown.append space).append (.paint (by decide) _ _)).append space

/-- The lines of a report show those without colour. -/
theorem shows_reportLines (source : escape ∉ reporter.source) (name : escape ∉ reporter.filename)
    (clean : ∀ text ∈ diagnostic.texts, escape ∉ text) :
    List.Forall₂ Shows (reporter.reportLines diagnostic)
      (reporter.plain.reportLines diagnostic) := by
  have help : escape ∉ diagnostic.help := clean _ (by simp [Diagnostic.texts])
  have notes : ∀ note ∈ diagnostic.notes, escape ∉ note := fun note member =>
    clean note (List.mem_append_right _ member)
  have advice : ∀ suggestion ∈ diagnostic.suggestions,
      escape ∉ suggestion.message ∧ escape ∉ suggestion.replacement := by
    intro suggestion member
    have listed {text : Text} (part : text ∈ [suggestion.message, suggestion.replacement]) :
        text ∈ diagnostic.texts :=
      List.mem_append_left _ (List.mem_append_right _ (List.mem_flatMap.mpr ⟨_, member, part⟩))
    exact ⟨clean _ (listed (by simp)), clean _ (listed (by simp))⟩
  have place : escape ∉ diagnostic.position.render :=
    List.not_mem_append (List.not_mem_append (Text.escape_notMem_ofInt _) (by decide))
      (Text.escape_notMem_ofInt _)
  have space : Shows (Text.ofString " ") (Text.ofString " ") := .refl (by decide)
  unfold reportLines
  dsimp only
  -- Both reports have the same width of line numbers, which is taken before anything is painted.
  generalize max 3 (List.length (Text.ofInt diagnostic.position.line)) = width
  have blank : escape ∉ Text.spaces width := Text.escape_notMem_repeated (by decide) width
  have margin := (Shows.refl blank).append space
  have gutter := shows_gutter (.refl blank) reporter.color
  have arrow : Shows (paint reporter.color [.faint] "-->") (Text.ofString "-->") :=
    .paint (by decide) _ _
  have colon : Shows (Text.ofString ":") (Text.ofString ":") := .refl (by decide)
  refine List.rel_append (List.rel_append (List.rel_append (List.rel_append (List.rel_append
    (.cons (shows_headline clean) (.cons ?place (.cons ?bar .nil))) ?excerpt)
    (shows_adviceLines blank advice)) ?notes) ?help) (.cons (.refl List.not_mem_nil) .nil)
  case place =>
    exact ((((margin.append arrow).append space).append (.refl name)).append colon).append
      (.refl place)
  case bar => exact margin.append (.paint (by decide) _ _)
  case excerpt =>
    have same : reporter.plain.line? diagnostic.position.line =
        reporter.line? diagnostic.position.line := rfl
    rw [same]
    split
    · next line found =>
      have number : escape ∉ Text.padLeft width (Text.ofInt diagnostic.position.line) :=
        List.not_mem_append (Text.escape_notMem_repeated (by decide) _)
          (Text.escape_notMem_ofInt _)
      have excerpt := Text.escape_notMem_line source (mem_lines_of_line? found)
      exact .cons ((shows_gutter (.paint number _ _) _).append (.refl excerpt))
        (.cons (gutter.append (shows_marker reporter diagnostic)) .nil)
    · exact .nil
  case notes =>
    rw [List.forall₂_map_left_iff, List.forall₂_map_right_iff, List.forall₂_same]
    intro note member
    exact ((gutter.append (.paint (by decide) _ _)).append space).append (.refl (notes note member))
  case help =>
    split
    · exact .nil
    · exact .cons (((gutter.append (.paint (by decide) _ _)).append space).append (.refl help)) .nil

end Reporter

/-- Colour never changes the text of a report. Where no text of a diagnostic, its source or the name
of the source has an escape byte, deleting the control sequences from the report, with colour or
without it, gives the report without colour. -/
theorem Reporter.report_unpainted {filename source : Text} {diagnostic : Diagnostic}
    (clean : ∀ text ∈ filename :: source :: diagnostic.texts, escape ∉ text) (color : Bool) :
    Text.unpainted ((Reporter.mk filename source color).report diagnostic) =
      (Reporter.mk filename source false).report diagnostic := by
  obtain ⟨named, clean⟩ := List.forall_mem_cons.mp clean
  obtain ⟨sourced, clean⟩ := List.forall_mem_cons.mp clean
  have shown : List.Forall₂ Shows ((Reporter.mk filename source color).reportLines diagnostic)
      ((Reporter.mk filename source false).reportLines diagnostic) :=
    shows_reportLines sourced named clean
  exact (Shows.lines shown).unpainted_eq

/-- A warning with all its parts, on the second line of a source. -/
theorem Reporter.report_unpainted_warning :
    ∃ diagnostic : Diagnostic,
      diagnostic = ⟨.warning, "E0002", "odd", ⟨2, 3, 4⟩, 2, [⟨"drop it", []⟩, ⟨"or write", "b"⟩],
        ["seen before"], "see below"⟩ ∧
      (∀ text ∈ Text.ofString "u" :: Text.ofString "a\nbcde" :: diagnostic.texts, escape ∉ text) ∧
      escape ∈ (Reporter.mk "u" "a\nbcde" true).report diagnostic ∧
      Text.unpainted ((Reporter.mk "u" "a\nbcde" true).report diagnostic) =
        (Reporter.mk "u" "a\nbcde" false).report diagnostic := by
  refine ⟨_, rfl, ?_⟩
  have clean : ∀ text ∈ Text.ofString "u" :: Text.ofString "a\nbcde" ::
      Diagnostic.texts ⟨.warning, "E0002", "odd", ⟨2, 3, 4⟩, 2,
        [⟨"drop it", []⟩, ⟨"or write", "b"⟩], ["seen before"], "see below"⟩, escape ∉ text := by
    decide
  exact ⟨clean, by decide, report_unpainted clean true⟩

end Aml

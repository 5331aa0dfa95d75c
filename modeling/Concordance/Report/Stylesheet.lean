import Concordance.Text.Basic

set_option autoImplicit false

/-!
# The style sheet of the page

The rules by which the page looks as it does. A rule is written over several lines, or on one if it
only sets one thing.
-/

namespace Concordance.Stylesheet

open Text

/-- A property and its value. -/
structure Setting where
  property : Text
  value : Text

/-- The settings for what some selectors select. -/
inductive Rule where
  | block (selectors : List Text) (settings : List Setting)
  | line (selector : Text) (setting : Setting)

namespace Rule

/-- A setting with its end. -/
def renderSetting (s : Setting) : Text := s.property ++ ": " ++ s.value ++ ";"

/-- A setting on a line of its own. -/
def settingLine (s : Setting) : Text := "  " ++ renderSetting s ++ "\n"

/-- A rule on lines of its own. -/
def render : Rule → Text
  | block selectors settings =>
    joinWith ",\n" selectors ++ " \x7b\n" ++
      settings.flatMap settingLine ++ "\x7d\n"
  | line selector setting => selector ++ " \x7b " ++ renderSetting setting ++ " \x7d\n"

end Rule

/-- The rules, in groups of those that belong together. -/
def rules : List (List Rule) :=
  [ [.block [":root"]
      [⟨"--error", "#c62828"⟩, ⟨"--warning", "#ef6c00"⟩, ⟨"--info", "#1565c0"⟩,
        ⟨"--ok", "#2e7d32"⟩, ⟨"--muted", "#6b7280"⟩, ⟨"--border", "#e5e7eb"⟩]],
    [.block ["body"]
      [⟨"font-family",
          "-apple-system, BlinkMacSystemFont, \"Segoe UI\", Roboto, sans-serif"⟩,
        ⟨"margin", "0 auto"⟩, ⟨"max-width", "960px"⟩, ⟨"padding", "2rem 1rem"⟩,
        ⟨"color", "#111827"⟩, ⟨"line-height", "1.5"⟩]],
    [.block ["header h1"] [⟨"margin-bottom", "0.25rem"⟩]],
    [.block [".generated"] [⟨"color", "var(--muted)"⟩, ⟨"font-size", "0.9rem"⟩]],
    [.block [".summary"]
      [⟨"display", "grid"⟩, ⟨"grid-template-columns", "repeat(4, 1fr)"⟩, ⟨"gap", "1rem"⟩,
        ⟨"margin", "1.5rem 0"⟩]],
    [.block [".stat"]
      [⟨"border", "1px solid var(--border)"⟩, ⟨"border-radius", "6px"⟩, ⟨"padding", "0.75rem"⟩,
        ⟨"text-align", "center"⟩]],
    [.block [".stat .value"] [⟨"font-size", "1.75rem"⟩, ⟨"font-weight", "600"⟩]],
    [.line ".stat.errors .value" ⟨"color", "var(--error)"⟩,
      .line ".stat.warnings .value" ⟨"color", "var(--warning)"⟩],
    [.block [".concept"]
      [⟨"border", "1px solid var(--border)"⟩, ⟨"border-radius", "6px"⟩,
        ⟨"margin-bottom", "1.5rem"⟩, ⟨"padding", "1rem 1.25rem"⟩]],
    [.block [".concept h2"]
      [⟨"display", "flex"⟩, ⟨"justify-content", "space-between"⟩, ⟨"margin-top", "0"⟩]],
    [.line ".score" ⟨"font-weight", "600"⟩, .line ".score.good" ⟨"color", "var(--ok)"⟩,
      .line ".score.fair" ⟨"color", "var(--warning)"⟩,
      .line ".score.poor" ⟨"color", "var(--error)"⟩],
    [.block [".files"]
      [⟨"color", "var(--muted)"⟩, ⟨"font-family", "monospace"⟩, ⟨"font-size", "0.85rem"⟩]],
    [.line ".issues h3" ⟨"margin-bottom", "0.25rem"⟩,
      .line ".issues.error h3" ⟨"color", "var(--error)"⟩,
      .line ".issues.warning h3" ⟨"color", "var(--warning)"⟩,
      .line ".issues.info h3" ⟨"color", "var(--info)"⟩],
    [.line ".issue" ⟨"margin", "0.5rem 0"⟩,
      .block [".issue .category"]
        [⟨"background", "#f3f4f6"⟩, ⟨"border-radius", "4px"⟩, ⟨"font-family", "monospace"⟩,
          ⟨"font-size", "0.8rem"⟩, ⟨"padding", "0 0.3rem"⟩],
      .block [".issue .location", ".issue .suggestion"]
        [⟨"color", "var(--muted)"⟩, ⟨"font-size", "0.85rem"⟩]],
    [.block [".assessment"]
      [⟨"background", "#f9fafb"⟩, ⟨"border-left", "3px solid var(--info)"⟩,
        ⟨"margin-top", "1rem"⟩, ⟨"padding", "0.5rem 1rem"⟩]],
    [.line ".clean" ⟨"color", "var(--ok)"⟩] ]

/-- The text of the style sheet. -/
def text : Text := joinWith "\n" (rules.map fun group => group.flatMap Rule.render)

end Concordance.Stylesheet

import Concordance.Text.Basic

set_option autoImplicit false

/-!
# The settings file of a new project

Every setting at its default, and what they are for.
-/

namespace Concordance.Settings

/-- The text of the settings file of a new project. -/
def template : Text :=
  Text.joinWith "\n" [
    "---",
    "project:",
    "  root: .",
    "paths:",
    "  specs: specs",
    "  implementations: concepts",
    "  related: syncs",
    "assessment:",
    "  enabled: false",
    "  model: gpt-4o-mini",
    "  endpoint: https://api.openai.com/v1",
    "  api_key: ~",
    "  timeout_secs: 60",
    "strict: false",
    "---",
    "",
    "# concept-lint configuration",
    "",
    "`paths` are resolved against `project.root`, which is itself relative to the",
    "directory that holds `.concept-lint/`.",
    "",
    "- `paths.specs`: concept specifications (`*.concept`, `*.md`)",
    "- `paths.implementations`: concept classes (`*.ts`)",
    "- `paths.related`: synchronizations that reference concepts",
    "",
    "Assessment calls an OpenAI-compatible chat-completions endpoint. Prefer the",
    "`CONCEPT_LINT_API_KEY` environment variable over storing `api_key` here.",
    "",
    "With `strict: true`, warnings fail the run as well as errors.",
    ""
  ]

end Concordance.Settings

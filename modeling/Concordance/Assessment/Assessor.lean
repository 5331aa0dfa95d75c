import Concordance.Assessment.Prompt
import Concordance.Assessment.Reply

set_option autoImplicit false

/-!
# Assessors

An assessor is anything that reviews concepts: all that is known of it is a name and what it makes
of a concept and its module, which may be nothing. There are two of them here. One is switched off;
the other asks a completion service, which answers a prompt with a reply or fails. A failure is not
passed on: it gives the assessment that none could be had. Assessors act in a monad, so that they
may be plain functions or talk to the world.
-/

namespace Concordance

/-- Who reviews concepts. -/
structure Assessor (m : Type → Type) where
  /-- The name of the kind of assessor. -/
  name : Text
  /-- Reviews a concept and its module, with the text of related files. -/
  assess : Specification → SourceModule → Option Text → m (Option Assessment)
  /-- Reviews one aspect of a concept and its module. -/
  assessAspect : Specification → SourceModule → Aspect → m (Option Assessment)

namespace Assessor

variable {m : Type → Type} [Monad m]

/-- The assessor that is switched off. -/
def disabled : Assessor m where
  name := "disabled"
  assess _ _ _ := pure none
  assessAspect _ _ _ := pure none

/-- The assessment in the answer of a service. -/
def ofAnswer : Option Text → Assessment
  | some reply => Reply.parse reply
  | none => .unavailable

/-- Asks a service for an assessment with a prompt. -/
def ask (complete : Text → m (Option Text)) (prompt : Text) : m (Option Assessment) := do
  let answer ← complete prompt
  pure (some (ofAnswer answer))

/-- The assessor that asks a service, which answers a prompt with a reply, or with nothing if it
fails. -/
def service (complete : Text → m (Option Text)) : Assessor m where
  name := "service"
  assess s d related := ask complete (Prompt.full s d related)
  assessAspect s d aspect := ask complete (Prompt.narrow s d aspect)

end Assessor

end Concordance

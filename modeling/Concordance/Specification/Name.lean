import Concordance.Text.Blank
import Concordance.Text.LetterCase

set_option autoImplicit false

/-!
# Names of concepts and queries

The class of a concept is named for it with the ending `Concept`. Two names mean the same concept
if their keys agree, that is, up to that ending, letter case and surrounding blanks. A query
carries a leading underscore.
-/

namespace Concordance

/-- The mark that a query's name starts with. -/
def queryMark : Char := '_'

/-- Whether a name carries the mark of a query. -/
def isQueryName (name : Text) : Bool := Text.startsWith [queryMark] name

/-- A name without leading query marks. -/
def unmarked (name : Text) : Text := Text.trimStartOf (· = queryMark) name

/-- The ending of a concept's class name. -/
def conceptEnding : Text := "Concept"

/-- A name without the ending of class names, in whatever case that is written. A name that is
nothing but the ending stays. -/
def baseName (name : Text) : Text :=
  let kept := name.length - conceptEnding.length
  if conceptEnding.length < name.length ∧
      (name.drop kept).map Char.toLower = conceptEnding.map Char.toLower then
    name.take kept
  else name

/-- The name of the class that a concept is expected to have. -/
def classNameOf (concept : Text) : Text := baseName concept ++ conceptEnding

/-- The key by which names of one concept agree. -/
def conceptKey (name : Text) : Text := Text.lower (baseName (Text.trim name))

end Concordance

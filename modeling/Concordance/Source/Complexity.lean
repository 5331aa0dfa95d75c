import Concordance.Source.Basic
import Concordance.Source.Lexeme

set_option autoImplicit false

/-!
# Complexity

The branches of a body are counted by its keywords and operators, and its calls by `await` and by
calls through `this`.
-/

namespace Concordance.Complexity

open Text Lexeme

/-- The keywords that begin a branch. -/
def branchKeywords : List Text := ["if", "for", "while", "case", "catch"]

/-- The maximal runs of word characters. -/
def wordRuns (t : Text) : List Text := t.splitOnP fun c => !isWordChar c

/-- The number of branch keywords among the words of a text. -/
def countBranchKeywords (t : Text) : Nat :=
  (wordRuns t).countP fun w => branchKeywords.any fun k => k = w

/-- What a call through `this` leaves of the text that starts with it. -/
def selfCall? (t : Text) : Option Text := do
  match ← after? "this." t with
  | [] => none
  | c :: t =>
    if startsIdentifier c then
      after? "(" (trimStart (t.dropWhile fun c => inIdentifier c || c = '.'))
    else none

/-- Counts calls through `this` from left to right without overlap. None begins inside a word, and
`skip` characters belong to the last one. -/
def countSelfCallsFrom : (inWord : Bool) → (skip : Nat) → Text → Nat
  | _, _, [] => 0
  | _, skip + 1, c :: t => countSelfCallsFrom (isWordChar c) skip t
  | inWord, 0, c :: t =>
    match if inWord then none else selfCall? (c :: t) with
    | some rest => countSelfCallsFrom (isWordChar c) (t.length - rest.length) t + 1
    | none => countSelfCallsFrom (isWordChar c) 0 t

/-- The number of calls through `this`. -/
def countSelfCalls (t : Text) : Nat := countSelfCallsFrom false 0 t

/-- The complexity of a method's text. -/
def ofText (body : Text) : Complexity :=
  { lineCount := (lines body).length
    branchCount :=
      countBranchKeywords body + count " ? " body + (count "&&" body + count "||" body) + 1
    externalCallCount := count "await " body + countSelfCalls body }

end Concordance.Complexity

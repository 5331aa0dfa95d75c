set_option autoImplicit false

/-!
# Text

Text is a list of characters, and each scanner of this library is a recursion on it. This module
holds what every scanner needs: recognising a fixed beginning or end, cutting at the first
occurrence of something, searching, counting, joining, and the order of texts.

Positions are never stored. A function that looks for something returns the pieces around it, so
that what it leaves is visibly a part of what it was given.
-/

namespace Concordance

/-- Text as the scanners see it: a sequence of characters. -/
abbrev Text := List Char

/-- A string literal stands for its characters. -/
instance : Coe String Text := ⟨String.toList⟩

namespace Text

/-- What follows `lead` in a text that starts with it. -/
def after? : (lead t : Text) → Option Text
  | [], t => some t
  | _ :: _, [] => none
  | a :: lead, c :: t => if a = c then after? lead t else none

/-- Whether a text starts with `lead`. -/
def startsWith (lead t : Text) : Bool := (after? lead t).isSome

/-- What precedes `tail` in a text that ends with it. -/
def before? (tail t : Text) : Option Text := (after? tail.reverse t.reverse).map List.reverse

/-- Whether a text ends with `tail`. -/
def endsWith (tail t : Text) : Bool := (before? tail t).isSome

/-- Drops every leading character of a class. -/
def trimStartOf (p : Char → Bool) (t : Text) : Text := t.dropWhile p

/-- Drops every trailing character of a class. -/
def trimEndOf (p : Char → Bool) (t : Text) : Text := (t.reverse.dropWhile p).reverse

/-- The text before and after the first character of a class. -/
def cutWhere (p : Char → Bool) : Text → Option (Text × Text)
  | [] => none
  | c :: t => if p c then some ([], t) else (cutWhere p t).map fun (a, b) => (c :: a, b)

/-- The text before and after the first occurrence of a character. -/
def cutAt (c : Char) (t : Text) : Option (Text × Text) := cutWhere (· = c) t

/-- The text before and after the first occurrence of `needle`. -/
def cutAtText (needle : Text) : Text → Option (Text × Text)
  | [] => (after? needle []).map fun rest => ([], rest)
  | c :: t =>
    match after? needle (c :: t) with
    | some rest => some ([], rest)
    | none => (cutAtText needle t).map fun (a, b) => (c :: a, b)

/-- Whether `needle` occurs in a text. -/
def contains (needle : Text) : Text → Bool
  | [] => needle.isEmpty
  | c :: t => startsWith needle (c :: t) || contains needle t

/-- Counts occurrences that do not overlap, from left to right; `skip` characters still belong to
the occurrence found last. -/
def countFrom (needle : Text) : (skip : Nat) → Text → Nat
  | _, [] => 0
  | skip + 1, _ :: t => countFrom needle skip t
  | 0, c :: t =>
    if startsWith needle (c :: t) then countFrom needle (needle.length - 1) t + 1
    else countFrom needle 0 t

/-- The number of occurrences of a non-empty text that do not overlap, taken from left to right. -/
def count (needle t : Text) : Nat := countFrom needle 0 t

/-- Writes `sep` between the parts. -/
def joinWith (sep : Text) (parts : List Text) : Text := List.intercalate sep parts

/-- A text under a condition, and nothing otherwise. -/
def onlyIf (condition : Bool) (t : Text) : Text := if condition then t else []

/-- The decimal digits of a number. -/
def ofNat (n : Nat) : Text := Nat.toDigits 10 n

end Text

end Concordance

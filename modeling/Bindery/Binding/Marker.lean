import Bindery.Text.Pieces
import Bindery.Text.WordChar

/-!
# Markers in documentation

A marker is a symbol between backticks: two or three words with points between them. A line of
documentation is shown with its markers replaced, one symbol after the other.

* `markerAt?`: the symbol of a marker, looked for behind a backtick.
* `markers`: the symbols of all markers of a line, from left to right and without overlap.
* `resolveMarkers`: a line with its markers replaced.
-/

namespace Bindery.Text

/-- The backtick. -/
def tick : Char := '\x60'

/-- A symbol between backticks. -/
def marker (symbol : List Char) : List Char :=
  tick :: symbol ++ [tick]

/-- The word at the front of a text and what follows it; a word is not empty. -/
def wordAt? (cs : List Char) : Option (List Char × List Char) :=
  match cs.takeWhile isWordChar with
  | [] => none
  | w => some (w, cs.dropWhile isWordChar)

/-- A point and a word at the front of a text, and what follows them. -/
def pointWordAt? : List Char → Option (List Char × List Char)
  | '.' :: cs => (wordAt? cs).map fun p => ('.' :: p.1, p.2)
  | _ => none

/-- The symbol of a marker whose opening backtick stands in front of the text. -/
def markerAt? (cs : List Char) : Option (List Char) := do
  let (first, cs) ← wordAt? cs
  let (second, cs) ← pointWordAt? cs
  let (third, cs) := (pointWordAt? cs).getD ([], cs)
  if cs.head? = some tick then some (first ++ second ++ third) else none

/-- The symbols of the markers behind the first characters, which belong to a marker that was found
before. -/
def markersAfter : Nat → List Char → List (List Char)
  | _, [] => []
  | skip + 1, _ :: cs => markersAfter skip cs
  | 0, c :: cs =>
    if c = tick then
      match markerAt? cs with
      | some symbol => symbol :: markersAfter (symbol.length + 1) cs
      | none => markersAfter 0 cs
    else markersAfter 0 cs

/-- The symbols of all markers of a line. -/
def markers (line : List Char) : List (List Char) :=
  markersAfter 0 line

/-- The different symbols of a line, in the order in which they come first. -/
def symbolsOf (line : List Char) : List (List Char) :=
  (markers line).eraseDups

/-- A line with its markers replaced. Each symbol is replaced everywhere in what the replacement of
the symbols before it left. -/
def resolveMarkers (replacement : List Char → List Char) (line : List Char) : List Char :=
  (symbolsOf line).foldl (fun text s => replaceAll (marker s) (replacement s) text) line

end Bindery.Text

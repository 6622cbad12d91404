import Bindery.Text.Pieces

/-!
# Names

A name is a sequence of lower-case words, written at each place in the casing that the place asks
for. The first words may be a prefix common to a whole interface: it takes part in every casing,
but not in the displayed form.

* `Name.new`, `Name.withPrefix`, `Name.extend`, `Name.withoutPrefix`: building names from texts.
* `Name.snake`, `Name.screaming`, `Name.camel`: the three casings.
* `Name.display`: the name as the description writes it, without the prefix.

Case is a matter of ASCII letters here: all others stay as they are in every casing.
-/

namespace Bindery

/-- One word of a name. -/
abbrev Word := List Char

/-- A name: its words, of which the first `lead` are the prefix of the interface. -/
structure Name where
  words : List Word
  lead : Nat
deriving DecidableEq, Repr, Inhabited

/-- The words of a text: the non-empty pieces between underscores, in lower case. -/
def Word.ofText (text : String) : List Word :=
  ((Text.pieces '_' text.toList).filter (· ≠ [])).map (·.map Char.toLower)

/-- A word with a capital wherever a letter follows no letter, and small letters elsewhere. -/
def Word.titleAfter : Bool → Word → List Char
  | _, [] => []
  | afterLetter, c :: cs =>
    if c.isAlpha then (if afterLetter then c.toLower else c.toUpper) :: titleAfter true cs
    else c :: titleAfter false cs

/-- A word with a capital wherever a letter follows no letter: `r8u` becomes `R8U`. -/
def Word.title (w : Word) : List Char :=
  Word.titleAfter false w

namespace Name

/-- The name that a text spells, without a prefix. -/
def new (text : String) : Name :=
  ⟨Word.ofText text, 0⟩

/-- The name that a text spells, behind the words of a prefix. -/
def withPrefix (lead text : String) : Name :=
  ⟨Word.ofText lead ++ Word.ofText text, (Word.ofText lead).length⟩

/-- The name with the words of a further text at its end. -/
def extend (name : Name) (text : String) : Name :=
  ⟨name.words ++ Word.ofText text, name.lead⟩

/-- The name without its prefix. A name of prefix words alone keeps them, so that something is
left. -/
def withoutPrefix (name : Name) : Name :=
  if name.lead < name.words.length then ⟨name.words.drop name.lead, 0⟩ else ⟨name.words, 0⟩

/-- Lower case with underscores. -/
def snake (name : Name) : String :=
  String.ofList (Text.joined ['_'] name.words)

/-- Upper case with underscores. -/
def screaming (name : Name) : String :=
  String.ofList (Text.joined ['_'] (name.words.map (·.map Char.toUpper)))

/-- Words run together, each with its capitals. -/
def camel (name : Name) : String :=
  String.ofList (name.words.flatMap Word.title)

/-- The name as the description writes it: lower case with underscores, without the prefix. -/
def display (name : Name) : String :=
  String.ofList (Text.joined ['_'] (name.words.drop name.lead))

end Name

end Bindery

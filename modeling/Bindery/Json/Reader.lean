import Bindery.Json.Scan

/-!
# Reading a JSON text

The tree of a text. Reading never fails: a text that breaks gives a tree with a rupture at the place
where it does, and what stands before it.

* `Text.tree`: the tree of a whole text, and whether anything but white space follows the value.
* `decode`: what a text holds, for a decoder of trees.
-/

namespace Bindery.Json

/-- A tree and the text behind it; no text if the tree ends in a rupture. -/
abbrev Cut := Tree × Option (List Char)

/-- The tree of a text that breaks. -/
def Cut.broken (b : Break) : Cut :=
  (.broken (.of b), none)

/-- The tree of a word, scanned from behind its first letter. A choice is none of these words. -/
def cutWord (word : List Char) (t : Tree) (cs : List Char) : Cut :=
  match scanWord word cs with
  | .ok rest => (t, some rest)
  | .error b => (.broken ⟨b, b, .malformed⟩, none)

/-- The tree of a string, scanned from behind its opening quote. -/
def cutString (cs : List Char) : Cut :=
  let s := scanString cs
  match s.rest, s.decode with
  | .ok rest, text => (.string text, some rest)
  | .error b, .error e => (.broken ⟨e, b, e⟩, none)
  | .error b, .ok _ => .broken b

/-- The tree of a number. -/
def cutNumber (cs : List Char) : Cut :=
  match scanNumber cs with
  | .ok (l, rest) => (.number l.value, some rest)
  | .error r => (.broken r, none)

/-- The tree of a value that is no container. -/
def cutPlain : List Char → Cut
  | [] => .broken .ended
  | 'n' :: r => cutWord ['u', 'l', 'l'] .null r
  | 't' :: r => cutWord ['r', 'u', 'e'] (.boolean true) r
  | 'f' :: r => cutWord ['a', 'l', 's', 'e'] (.boolean false) r
  | '\x22' :: r => cutString r
  | c :: r => if c = '-' ∨ c.isDigit then cutNumber (c :: r) else .broken .malformed

/-- The items of an array and the text behind its closing bracket. -/
structure Items where
  items : List Tree
  stop : Option Rupture
  rest : Option (List Char)

/-- The members of an object and the text behind its closing brace. -/
structure Members where
  members : List (Except Break String × Tree)
  stop : Option Rupture
  rest : Option (List Char)

/-- Items that break off. -/
def Items.broken (b : Break) : Items := ⟨[], some (.of b), none⟩

/-- Members that break off. -/
def Members.broken (b : Break) : Members := ⟨[], some (.of b), none⟩

/-- Members behind a comma, which a choice cannot have. -/
def Members.further (m : Members) : Members :=
  { m with stop := m.stop.map fun r => { r with choice := .malformed } }

mutual

/-- The tree at the front of a text. The fuel bounds the number of steps. -/
def cutTree : Nat → List Char → Cut
  | 0, _ => .broken .malformed
  | fuel + 1, cs =>
    match dropBlank cs with
    | '[' :: r =>
      let a : Items :=
        match dropBlank r with
        | [] => .broken .ended
        | ']' :: r => ⟨[], none, some r⟩
        | r => cutItems fuel r
      (.array a.items a.stop, a.rest)
    | '\x7b' :: r =>
      let o : Members :=
        match dropBlank r with
        | '\x7d' :: r => ⟨[], none, some r⟩
        | r => cutMembers fuel r
      (.object o.members o.stop, o.rest)
    | cs => cutPlain cs

/-- The items of an array, from the first one on. -/
def cutItems : Nat → List Char → Items
  | 0, _ => .broken .malformed
  | fuel + 1, cs =>
    match cutTree fuel cs with
    | (t, none) => ⟨[t], none, none⟩
    | (t, some r) =>
      let more : Items :=
        match dropBlank r with
        | [] => .broken .ended
        | ']' :: r => ⟨[], none, some r⟩
        | ',' :: r => cutItems fuel r
        | _ => .broken .malformed
      ⟨t :: more.items, more.stop, more.rest⟩

/-- The members of an object, from the first one on. -/
def cutMembers : Nat → List Char → Members
  | 0, _ => .broken .malformed
  | fuel + 1, cs =>
    match dropBlank cs with
    | [] => .broken .ended
    | '\x22' :: r =>
      let s := scanString r
      match s.rest with
      | .error b =>
        let e := match s.decode with
          | .ok _ => b
          | .error e => e
        ⟨[], some ⟨e, b, e⟩, none⟩
      | .ok r =>
        let cut : Cut :=
          match dropBlank r with
          | [] => .broken .ended
          | ':' :: r => cutTree fuel r
          | _ => .broken .malformed
        match cut with
        | (t, none) => ⟨[(s.decode, t)], none, none⟩
        | (t, some r) =>
          let more : Members :=
            match dropBlank r with
            | [] => .broken .ended
            | '\x7d' :: r => ⟨[], none, some r⟩
            | ',' :: r => (cutMembers fuel r).further
            | _ => .broken .malformed
          ⟨(s.decode, t) :: more.members, more.stop, more.rest⟩
    | _ => .broken .malformed

end

/-- What a whole text holds: a tree, and whether only white space follows it. -/
structure Reading where
  tree : Tree
  complete : Bool

/-- Reads a whole text. Each value takes at least one character, and at most two steps. -/
def readText (text : String) : Reading :=
  let cs := text.toList
  match cutTree (2 * cs.length + 1) cs with
  | (t, none) => ⟨t, true⟩
  | (t, some rest) => ⟨t, (dropBlank rest).isEmpty⟩

/-- What a text holds, by a decoder of its tree; nothing may follow the value. -/
def decode {α : Type} (decoder : Nat → Tree → Except Fault α) (text : String) :
    Except Fault α := do
  let reading := readText text
  let value ← decoder 0 reading.tree
  if reading.complete then .ok value else .error (.broken .malformed)

end Bindery.Json

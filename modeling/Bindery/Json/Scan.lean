import Bindery.Json.Tree

/-!
# Literals of a JSON text

Strings, numbers and words, each scanned off the front of a text. A scan gives what it found and
the rest of the text, or where the text broke.

* `scanString`, `decodeString`: the pieces of a string, and the text that they spell.
* `scanNumber`, `Literal.value`: the parts of a number, and the number that they spell.
* `scanWord`: one of the three words of JSON.
-/

namespace Bindery.Json

open Bindery.Number

/-- The white space of JSON. -/
def isBlank (c : Char) : Bool :=
  c == ' ' || c == '\t' || c == '\n' || c == '\r'

/-- A text without the white space at its front. -/
def dropBlank (cs : List Char) : List Char :=
  cs.dropWhile isBlank

/-- A piece of a string: a character, or a code unit of UTF-16 written as an escape. -/
inductive Piece where
  | char (c : Char)
  | unit (u : Nat)
deriving DecidableEq, Repr

/-- The value of a hexadecimal digit. -/
def hexDigit (c : Char) : Option Nat :=
  if c.isDigit then some (c.toNat - 48)
  else if 97 ≤ c.toNat ∧ c.toNat ≤ 102 then some (c.toNat - 87)
  else if 65 ≤ c.toNat ∧ c.toNat ≤ 70 then some (c.toNat - 55)
  else none

/-- The value of four hexadecimal digits. -/
def hexQuad (a b c d : Char) : Option Nat := do
  let a ← hexDigit a
  let b ← hexDigit b
  let c ← hexDigit c
  let d ← hexDigit d
  return ((a * 16 + b) * 16 + c) * 16 + d

/-- The character of an escape of one letter. -/
def escapeChar (c : Char) : Option Char :=
  match c with
  | '\x22' => some '\x22'
  | '\\' => some '\\'
  | '/' => some '/'
  | 'b' => some '\x08'
  | 'f' => some '\x0c'
  | 'n' => some '\n'
  | 'r' => some '\r'
  | 't' => some '\t'
  | _ => none

/-- Why no four hexadecimal digits follow, where fewer than four characters do: the text has ended
if fewer than four bytes are left. -/
def quadBreak (cs : List Char) : Break :=
  if (String.ofList cs).utf8ByteSize < 4 then .ended else .malformed

/-- A scanned string: its pieces, and the text behind the closing quote if there is one. -/
structure StringScan where
  pieces : List Piece
  rest : Except Break (List Char)

/-- A scan with one more piece in front. -/
def StringScan.push (p : Piece) (s : StringScan) : StringScan :=
  { s with pieces := p :: s.pieces }

/-- Scans a string from behind its opening quote. -/
def scanString : List Char → StringScan
  | [] => ⟨[], .error .ended⟩
  | '\x22' :: cs => ⟨[], .ok cs⟩
  | '\\' :: 'u' :: a :: b :: c :: d :: cs =>
    match hexQuad a b c d with
    | some u => (scanString cs).push (.unit u)
    | none => ⟨[], .error .malformed⟩
  | '\\' :: 'u' :: cs => ⟨[], .error (quadBreak cs)⟩
  | '\\' :: c :: cs =>
    match escapeChar c with
    | some e => (scanString cs).push (.char e)
    | none => ⟨[], .error .malformed⟩
  | c :: cs =>
    if c = '\\' then ⟨[], .error .ended⟩
    else if c.toNat < 0x20 then ⟨[], .error .malformed⟩
    else (scanString cs).push (.char c)

/-- Whether a code unit opens a surrogate pair. -/
def isHighSurrogate (u : Nat) : Bool :=
  0xD800 ≤ u && u ≤ 0xDBFF

/-- Whether a code unit closes a surrogate pair. -/
def isLowSurrogate (u : Nat) : Bool :=
  0xDC00 ≤ u && u ≤ 0xDFFF

/-- The characters that pieces spell, surrogates joined in pairs. The break is that of a string
which ends behind the first half of a pair. -/
def decodePieces (atEnd : Break) : List Piece → Except Break (List Char)
  | [] => .ok []
  | .char c :: ps => (decodePieces atEnd ps).map (c :: ·)
  | .unit u :: ps =>
    if isLowSurrogate u then .error .malformed
    else if isHighSurrogate u then
      match ps with
      | [] => .error atEnd
      | .char _ :: _ => .error .malformed
      | .unit v :: qs =>
        if isLowSurrogate v then
          let code := (u - 0xD800) * 0x400 + (v - 0xDC00) + 0x10000
          (decodePieces atEnd qs).map (Char.ofNat code :: ·)
        else .error .malformed
    else (decodePieces atEnd ps).map (Char.ofNat u :: ·)

/-- The text of a scanned string, closed or not. -/
def StringScan.decode (s : StringScan) : Except Break String :=
  match s.rest with
  | .ok _ => (decodePieces .malformed s.pieces).map String.ofList
  | .error b =>
    match decodePieces b s.pieces with
    | .ok _ => .error b
    | .error e => .error e

/-- The parts of a number. -/
structure Literal where
  negative : Bool
  whole : List Char
  fraction : Option (List Char)
  exponent : Option (Bool × List Char)

/-- A text that ends inside a number: to a reader it has ended, passed over it is malformed. A
choice is no number. -/
def numberEnd : List Char → Rupture
  | [] => ⟨.ended, .malformed, .malformed⟩
  | _ :: _ => .of .malformed

/-- The digits at the front of a text; there must be one. -/
def scanDigits (cs : List Char) : Except Rupture (List Char × List Char) :=
  match cs.takeWhile Char.isDigit with
  | [] => .error (numberEnd cs)
  | ds => .ok (ds, cs.dropWhile Char.isDigit)

/-- The whole part of a number: no digit may follow a leading zero. -/
def scanWhole (cs : List Char) : Except Rupture (List Char × List Char) := do
  let (ds, rest) ← scanDigits cs
  match ds with
  | '0' :: _ :: _ => .error (.of .malformed)
  | _ => .ok (ds, rest)

/-- The fraction of a number, if it has one. -/
def scanFraction : List Char → Except Rupture (Option (List Char) × List Char)
  | '.' :: cs => do
    let (ds, rest) ← scanDigits cs
    return (some ds, rest)
  | cs => .ok (none, cs)

/-- The exponent of a number, if it has one: whether it is negative, and its digits. -/
def scanExponent : List Char → Except Rupture (Option (Bool × List Char) × List Char)
  | [] => .ok (none, [])
  | e :: cs =>
    if e = 'e' ∨ e = 'E' then do
      let (negative, body) :=
        match cs with
        | '+' :: r => (false, r)
        | '-' :: r => (true, r)
        | r => (false, r)
      let (ds, rest) ← scanDigits body
      return (some (negative, ds), rest)
    else .ok (none, e :: cs)

/-- Scans a number. -/
def scanNumber (cs : List Char) : Except Rupture (Literal × List Char) := do
  let (negative, body) :=
    match cs with
    | '-' :: r => (true, r)
    | r => (false, r)
  let (whole, cs) ← scanWhole body
  let (fraction, cs) ← scanFraction cs
  let (exponent, cs) ← scanExponent cs
  return (⟨negative, whole, fraction, exponent⟩, cs)

/-- The number that digits spell. -/
def digitsValue (ds : List Char) : Nat :=
  ds.foldl (fun n d => n * 10 + (d.toNat - 48)) 0

/-- The largest integer that the digits of a number are collected in. -/
def maxDigits : Nat := 0xFFFFFFFFFFFFFFFF

/-- The largest integer that stays one behind a minus sign. -/
def maxNegated : Nat := 0x8000000000000000

/-- Collects digits behind those of `n` as long as they fit, and gives those that do not. -/
def collect (n : Nat) : List Char → Nat × List Char
  | [] => (n, [])
  | d :: ds =>
    let next := n * 10 + (d.toNat - 48)
    if maxDigits < next then (n, d :: ds) else collect next ds

/-- The decimal exponent that a number states. -/
def Literal.power (l : Literal) : Int :=
  match l.exponent with
  | none => 0
  | some (true, ds) => -(digitsValue ds : Int)
  | some (false, ds) => digitsValue ds

/-- The double that a number spells. Digits that do not fit are dropped: in the whole part they
count as zeros, in the fraction they do not count. -/
def Literal.double (l : Literal) : Except Break Number :=
  let (digits, dropped) := collect 0 l.whole
  let places := l.fraction.getD []
  let (digits, spare) := collect digits places
  let shift : Int := dropped.length - (places.length - spare.length : Nat)
  match Magnitude.ofScaled digits (shift + l.power) with
  | some m => .ok (.float ⟨l.negative, m⟩)
  | none => .error .malformed

/-- The number that a literal spells: an integer if it has neither fraction nor exponent and fits
into 64 bits, a double otherwise. Minus zero is a double. -/
def Literal.value (l : Literal) : Except Break Number :=
  if l.fraction = none ∧ l.exponent = none then
    let n := digitsValue l.whole
    if l.negative then
      if 0 < n ∧ n ≤ maxNegated then .ok (.integer (-(n : Int))) else l.double
    else if n ≤ maxDigits then .ok (.integer n)
    else l.double
  else l.double

/-- Scans the rest of a word. -/
def scanWord : List Char → List Char → Except Break (List Char)
  | [], cs => .ok cs
  | _ :: _, [] => .error .ended
  | w :: ws, c :: cs => if c = w then scanWord ws cs else .error .malformed

end Bindery.Json

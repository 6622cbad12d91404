import Bindery.Proofs.Inventory

/-!
# Numbers and their texts

An integer literal has neither a fraction nor an exponent. It spells an integer of any size; what is
read from it is that integer only if it fits into 64 bits, and a double otherwise.

* `Json.Literal.Integral`, `Json.Literal.integer`: integer literals, and the integers they spell.
* `Json.Literal.Exact`: integer literals that are read as integers; `value_eq_integer_iff`.
* `text_eq_iff`: **what is written for an integer literal is its integer exactly if the literal is
  exact**; a double is never written as an integer (`Number.Binary64.text_ne`).
* `toString_integer`: **the decimal text of an integer is the literal that spells it**, minus zero
  apart.
-/

namespace Bindery

open Json

theorem toString_int_inj {m n : Int} : toString m = toString n ↔ m = n := by
  rw [Int.toString_eq_repr, Int.toString_eq_repr, Int.repr_inj]

theorem isDigit_of_mem_repr {n : Nat} {c : Char} (h : c ∈ n.repr.toList) : c.isDigit = true := by
  rw [Nat.repr_eq_ofList_toDigits, String.toList_ofList] at h
  exact Nat.isDigit_of_mem_toDigits (by decide) (by decide) h

/-- The text of an integer consists of digits, perhaps behind a minus sign. -/
theorem mem_toString_int {n : Int} {c : Char} (h : c ∈ (toString n).toList) :
    c = '-' ∨ c.isDigit = true := by
  rw [Int.toString_eq_repr, Int.repr_eq_if] at h
  split at h
  · exact .inr (isDigit_of_mem_repr h)
  · rw [String.toList_append] at h
    rcases List.mem_append.1 h with h | h
    · exact .inl (by simpa using h)
    · exact .inr (isDigit_of_mem_repr h)

namespace Number

/-- The text of a double has a point or an exponent. -/
theorem Magnitude.mem_text (style : FloatStyle) (a : Magnitude) :
    '.' ∈ a.text style ∨ 'e' ∈ a.text style := by
  unfold Magnitude.text
  split
  · exact .inl (by simp)
  · dsimp only
    split
    · refine .inl ?_
      unfold positional
      dsimp only
      split
      · simp
      · split <;> simp
    · exact .inr (by simp [exponential])

/-- **A double is never written as an integer.** -/
theorem Binary64.text_ne (x : Binary64) (n : Int) : x.text ≠ toString n := by
  intro h
  have hmark : '.' ∈ x.text.toList ∨ 'e' ∈ x.text.toList := by
    unfold Binary64.text
    rw [String.toList_ofList]
    exact (Magnitude.mem_text _ _).imp (List.mem_append_right _) (List.mem_append_right _)
  rw [h] at hmark
  rcases hmark with hmark | hmark <;>
  · rcases mem_toString_int hmark with hc | hc
    · cases hc
    · cases hc

end Number

namespace Json

/-- Numbers that are written as one integer are that integer. -/
theorem Number.text_eq_toString_iff {v : Number} {n : Int} :
    v.text = toString n ↔ v = .integer n := by
  cases v with
  | integer m => exact toString_int_inj.trans (by rw [Number.integer.injEq])
  | float x => exact ⟨fun h => absurd h (x.text_ne n), fun h => by cases h⟩

namespace Literal

variable {l : Literal}

/-- **An integer literal**: one without a fraction and without an exponent. -/
structure Integral (l : Literal) : Prop where
  fraction : l.fraction = none
  exponent : l.exponent = none

/-- The integer that an integer literal spells. -/
def integer (l : Literal) : Int :=
  if l.negative then -(digitsValue l.whole : Int) else digitsValue l.whole

/-- **A literal whose integer has 64 bits**, with a sign or without. Minus zero has none. -/
structure Exact (l : Literal) : Prop where
  low : -0x8000000000000000 ≤ l.integer
  high : l.integer ≤ 0xFFFFFFFFFFFFFFFF
  notMinusZero : l.negative = true → l.integer ≠ 0

theorem exact_iff : l.Exact ↔
    if l.negative then 0 < digitsValue l.whole ∧ digitsValue l.whole ≤ maxNegated
    else digitsValue l.whole ≤ maxDigits := by
  have hmax : maxDigits = 0xFFFFFFFFFFFFFFFF := rfl
  have hneg : maxNegated = 0x8000000000000000 := rfl
  rcases hn : l.negative with _ | _
  · have hint : l.integer = digitsValue l.whole := by simp [integer, hn]
    rw [if_neg Bool.false_ne_true]
    exact ⟨fun h => by have := h.high; omega, fun h => ⟨by omega, by omega, by simp [hn]⟩⟩
  · have hint : l.integer = -(digitsValue l.whole : Int) := by simp [integer, hn]
    rw [if_pos rfl]
    constructor
    · intro h
      have hlow := h.low
      have hzero := h.notMinusZero hn
      omega
    · exact fun h => ⟨by omega, by omega, fun _ => by omega⟩

theorem double_ne_integer (n : Int) : l.double ≠ .ok (.integer n) := by
  unfold double
  dsimp only
  split
  · intro h
    cases h
  · intro h
    cases h

/-- **What is read from an integer literal**: its integer, if that has 64 bits. -/
theorem value_eq_integer_iff (hl : l.Integral) {n : Int} :
    l.value = .ok (.integer n) ↔ l.Exact ∧ n = l.integer := by
  unfold value
  rw [if_pos ⟨hl.fraction, hl.exponent⟩, exact_iff]
  dsimp only
  rcases hn : l.negative with _ | _
  · have hint : l.integer = digitsValue l.whole := by simp [integer, hn]
    simp only [Bool.false_eq_true, if_false]
    split
    · rename_i hfits
      simp [hint, hfits, eq_comm]
    · rename_i hfits
      simp [hfits, double_ne_integer]
  · have hint : l.integer = -(digitsValue l.whole : Int) := by simp [integer, hn]
    simp only [if_true]
    split
    · rename_i hfits
      simp [hint, hfits, eq_comm]
    · rename_i hfits
      simp only [hfits, false_and, iff_false]
      exact double_ne_integer n

/-- **What is written for an integer literal is its integer exactly if the literal is exact.** -/
theorem text_eq_iff (hl : l.Integral) {v : Number} (hv : l.value = .ok v) :
    v.text = toString l.integer ↔ l.Exact := by
  rw [Number.text_eq_toString_iff]
  constructor
  · rintro rfl
    exact ((value_eq_integer_iff hl).1 hv).1
  · intro he
    have hread := (value_eq_integer_iff hl).2 ⟨he, rfl⟩
    exact Except.ok.inj (hv.symm.trans hread)

/-- An integer that is read from an integer literal is the one that the literal spells. -/
theorem integer_eq (hl : l.Integral) {n : Int} (h : l.value = .ok (.integer n)) : n = l.integer :=
  ((value_eq_integer_iff hl).1 h).2

end Literal

/-- **Digits as a number has them**: at least one, and no zero in front of others. -/
structure Numeral (ds : List Char) : Prop where
  ne_nil : ds ≠ []
  digits : ∀ c ∈ ds, c.isDigit = true
  lead : ∀ rest, ds = '0' :: rest → rest = []

theorem toNat_of_isDigit {c : Char} (h : c.isDigit = true) : 48 ≤ c.toNat ∧ c.toNat ≤ 57 := by
  unfold Char.isDigit at h
  simp only [Bool.and_eq_true, decide_eq_true_eq, ge_iff_le, UInt32.le_iff_toNat_le] at h
  have : c.toNat = c.val.toNat := rfl
  have : '0'.val.toNat = 48 := rfl
  have : '9'.val.toNat = 57 := rfl
  omega

theorem digitChar_of_isDigit {c : Char} (h : c.isDigit = true) :
    Nat.digitChar (c.toNat - 48) = c := by
  have hc := toNat_of_isDigit h
  rw [← Char.toNat_inj, Nat.toNat_digitChar_of_lt_ten (by omega)]
  omega

/-- Digits behind a number are the digits behind its text. -/
theorem toDigits_foldl {ds : List Char} (hd : ∀ c ∈ ds, c.isDigit = true) {n : Nat} (hn : 0 < n) :
    Nat.toDigits 10 (ds.foldl (fun n d => n * 10 + (d.toNat - 48)) n) =
      Nat.toDigits 10 n ++ ds := by
  induction ds generalizing n with
  | nil => simp
  | cons c ds ih =>
    obtain ⟨hc, hds⟩ := List.forall_mem_cons.1 hd
    have hrange := toNat_of_isDigit hc
    have hlt : c.toNat - 48 < 10 := by omega
    have hone : Nat.toDigits 10 (n * 10 + (c.toNat - 48)) = Nat.toDigits 10 n ++ [c] := by
      rw [Nat.mul_comm, ← Nat.toDigits_append_toDigits (by decide) hn hlt,
        Nat.toDigits_of_lt_base hlt, digitChar_of_isDigit hc]
    rw [List.foldl_cons, ih hds (by omega), hone, List.append_assoc, List.singleton_append]

/-- **The decimal text of the number that digits spell** are these digits. -/
theorem Numeral.toDigits_digitsValue {ds : List Char} (h : Numeral ds) :
    Nat.toDigits 10 (digitsValue ds) = ds := by
  obtain ⟨c, ds, rfl⟩ := List.exists_cons_of_ne_nil h.ne_nil
  obtain ⟨hc, hds⟩ := List.forall_mem_cons.1 h.digits
  have hrange := toNat_of_isDigit hc
  unfold digitsValue
  rw [List.foldl_cons, Nat.zero_mul, Nat.zero_add]
  have hone : Nat.toDigits 10 (c.toNat - 48) = [c] := by
    rw [Nat.toDigits_of_lt_base (by omega), digitChar_of_isDigit hc]
  by_cases hz : c = '0'
  · subst hz
    obtain rfl := h.lead ds rfl
    rfl
  · have hpos : 0 < c.toNat - 48 := by
      have : c.toNat ≠ '0'.toNat := fun heq => hz (Char.toNat_inj.1 heq)
      have : '0'.toNat = 48 := rfl
      omega
    rw [toDigits_foldl hds hpos, hone, List.singleton_append]

/-- The characters of an integer literal. -/
def Literal.spelling (l : Literal) : List Char :=
  (if l.negative then ['-'] else []) ++ l.whole

/-- **The decimal text of an integer is the literal that spells it**, minus zero apart. -/
theorem Literal.toString_integer {l : Literal} (h : Numeral l.whole)
    (hz : l.negative = true → l.integer ≠ 0) : (toString l.integer).toList = l.spelling := by
  have hwhole : (digitsValue l.whole).repr.toList = l.whole := by
    rw [Nat.repr_eq_ofList_toDigits, String.toList_ofList, h.toDigits_digitsValue]
  rw [Int.toString_eq_repr, Int.repr_eq_if]
  unfold integer at hz ⊢
  unfold spelling
  rcases hn : l.negative with _ | _
  · simp [hwhole]
  · have hpos : digitsValue l.whole ≠ 0 := by
      have hne := hz hn
      simp only [hn, if_true] at hne
      omega
    simp [hpos, hwhole]

theorem numeral_of_scanWhole {cs ds rest : List Char} (h : scanWhole cs = .ok (ds, rest)) :
    Numeral ds ∧ cs = ds ++ rest := by
  obtain ⟨⟨found, behind⟩, hscan, h⟩ := bind_eq_ok.1 h
  have hfound : found ≠ [] ∧ found = cs.takeWhile Char.isDigit ∧
      behind = cs.dropWhile Char.isDigit := by
    unfold scanDigits at hscan
    rcases hw : cs.takeWhile Char.isDigit with _ | ⟨c, ds'⟩
    · simp [hw] at hscan
    · simp only [hw, Except.ok.injEq, Prod.mk.injEq] at hscan
      exact ⟨hscan.1 ▸ List.cons_ne_nil _ _, hscan.1.symm, hscan.2.symm⟩
  obtain ⟨hne, hfound, hbehind⟩ := hfound
  dsimp only at h
  split at h
  · cases h
  rename_i hlead
  obtain ⟨rfl, rfl⟩ := Prod.mk.inj (Except.ok.inj h)
  refine ⟨⟨hne, fun c hc => List.mem_takeWhile_imp (hfound ▸ hc), fun r hr => ?_⟩, ?_⟩
  · rcases r with _ | ⟨c, r⟩
    · rfl
    · exact absurd hr (hlead c r)
  · rw [hfound, hbehind, List.takeWhile_append_dropWhile]

theorem scanFraction_none {cs rest : List Char} (h : scanFraction cs = .ok (none, rest)) :
    cs = rest := by
  unfold scanFraction at h
  split at h
  · obtain ⟨p, -, h⟩ := bind_eq_ok.1 h
    cases h
  · exact (Prod.mk.inj (Except.ok.inj h)).2

theorem scanExponent_none {cs rest : List Char} (h : scanExponent cs = .ok (none, rest)) :
    cs = rest := by
  unfold scanExponent at h
  split at h
  · exact (Prod.mk.inj (Except.ok.inj h)).2
  · split at h
    · obtain ⟨p, -, h⟩ := bind_eq_ok.1 h
      cases h
    · exact (Prod.mk.inj (Except.ok.inj h)).2

/-- **An integer literal stands at the front of the text that it is scanned from.** -/
theorem spelling_of_scanNumber {cs rest : List Char} {l : Literal}
    (h : scanNumber cs = .ok (l, rest)) (hl : l.Integral) :
    Numeral l.whole ∧ cs = l.spelling ++ rest := by
  unfold scanNumber at h
  dsimp only at h
  obtain ⟨⟨whole, cs'⟩, hwhole, h⟩ := bind_eq_ok.1 h
  obtain ⟨⟨fraction, cs''⟩, hfraction, h⟩ := bind_eq_ok.1 h
  obtain ⟨⟨exponent, behind⟩, hexponent, h⟩ := bind_eq_ok.1 h
  obtain ⟨rfl, rfl⟩ := Prod.mk.inj (Except.ok.inj h)
  obtain rfl : fraction = none := hl.fraction
  obtain rfl : exponent = none := hl.exponent
  obtain ⟨hnumeral, hbody⟩ := numeral_of_scanWhole hwhole
  obtain rfl := scanFraction_none hfraction
  obtain rfl := scanExponent_none hexponent
  refine ⟨hnumeral, ?_⟩
  unfold Literal.spelling
  split at hbody
  · exact congrArg ('-' :: ·) hbody
  · exact hbody

end Json

end Bindery

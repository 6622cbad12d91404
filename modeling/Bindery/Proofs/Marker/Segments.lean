import Mathlib.Data.List.TakeWhile
import Bindery.Binding.Marker
import Bindery.Text.Pieces

/-!
# The segments of a line

A line of documentation consists of its markers and of the characters outside them.

* `segments`: the segments of a line, found by the scan that finds the markers.
* `spell_segments`, `markers_eq_symbols`: the segments spell the line, and their symbols are the
  markers.
* `IsSymbol`, `markerAt?_append`: a text without backticks is a symbol or not, whatever follows its
  closing backtick.
* `segments_append`, `segments_marker`, `segments_tick`: **a line is read piece by piece**, between
  one backtick and the next.
-/

namespace Bindery.Text

/-- The longest text in the form of a symbol at the front of a text, and what follows it. -/
def symbolAt? (cs : List Char) : Option (List Char × List Char) := do
  let (first, cs) ← wordAt? cs
  let (second, cs) ← pointWordAt? cs
  let (third, cs) := (pointWordAt? cs).getD ([], cs)
  some (first ++ second ++ third, cs)

/-- **A symbol**: two or three words with points between them. -/
def IsSymbol (u : List Char) : Prop :=
  symbolAt? u = some (u, [])

instance (u : List Char) : Decidable (IsSymbol u) :=
  inferInstanceAs (Decidable (_ = _))

theorem isWordChar_tick : isWordChar tick = false := by
  rw [isWordChar_of_ascii (by decide)]
  decide

theorem markerAt?_eq (cs : List Char) : markerAt? cs =
    (symbolAt? cs).bind fun p => if p.2.head? = some tick then some p.1 else none := by
  unfold markerAt? symbolAt?
  rcases wordAt? cs with _ | ⟨first, cs⟩
  · rfl
  rcases h : pointWordAt? cs with _ | ⟨second, cs'⟩
  · simp [h]
  · simp [h]

theorem wordAt?_spells {cs w rest : List Char} (h : wordAt? cs = some (w, rest)) :
    cs = w ++ rest ∧ ∀ c ∈ w, isWordChar c = true := by
  have hspell := List.takeWhile_append_dropWhile (p := isWordChar) (l := cs)
  unfold wordAt? at h
  split at h
  · cases h
  · cases h
    exact ⟨hspell.symm, fun c hc => List.mem_takeWhile_imp hc⟩

theorem pointWordAt?_spells {cs w rest : List Char} (h : pointWordAt? cs = some (w, rest)) :
    cs = w ++ rest ∧ ∀ c ∈ w, isWordChar c = true ∨ c = '.' := by
  unfold pointWordAt? at h
  split at h
  · obtain ⟨⟨word, after⟩, hw, hp⟩ := Option.map_eq_some_iff.1 h
    cases hp
    obtain ⟨rfl, hall⟩ := wordAt?_spells hw
    refine ⟨rfl, fun c hc => ?_⟩
    rcases List.mem_cons.1 hc with rfl | hc
    · exact Or.inr rfl
    · exact Or.inl (hall c hc)
  · cases h

theorem symbolAt?_spells {cs x rest : List Char} (h : symbolAt? cs = some (x, rest)) :
    cs = x ++ rest ∧ ∀ c ∈ x, isWordChar c = true ∨ c = '.' := by
  unfold symbolAt? at h
  rcases hf : wordAt? cs with _ | ⟨first, afterFirst⟩
  · simp [hf] at h
  rcases hs : pointWordAt? afterFirst with _ | ⟨second, afterSecond⟩
  · simp [hf, hs] at h
  obtain ⟨rfl, hfirst⟩ := wordAt?_spells hf
  obtain ⟨rfl, hsecond⟩ := pointWordAt?_spells hs
  rcases ht : pointWordAt? afterSecond with _ | ⟨third, afterThird⟩
  · simp only [hf, hs, ht, Option.bind_eq_bind, Option.bind_some, Option.getD_none,
      List.append_nil, Option.some.injEq, Prod.mk.injEq] at h
    obtain ⟨rfl, rfl⟩ := h
    refine ⟨by simp, fun c hc => ?_⟩
    rcases List.mem_append.1 hc with hc | hc
    · exact Or.inl (hfirst c hc)
    · exact hsecond c hc
  · obtain ⟨rfl, hthird⟩ := pointWordAt?_spells ht
    simp only [hf, hs, ht, Option.bind_eq_bind, Option.bind_some, Option.getD_some,
      Option.some.injEq, Prod.mk.injEq] at h
    obtain ⟨rfl, rfl⟩ := h
    refine ⟨by simp, fun c hc => ?_⟩
    rcases List.mem_append.1 hc with hc | hc
    · rcases List.mem_append.1 hc with hc | hc
      · exact Or.inl (hfirst c hc)
      · exact hsecond c hc
    · exact hthird c hc

/-- The characters of a symbol. -/
theorem IsSymbol.chars {u : List Char} (h : IsSymbol u) :
    ∀ c ∈ u, isWordChar c = true ∨ c = '.' :=
  (symbolAt?_spells h).2

theorem IsSymbol.notMem {u : List Char} (h : IsSymbol u) {c : Char} (hc : isWordChar c = false)
    (hp : c ≠ '.') : c ∉ u := by
  intro hmem
  rcases h.chars c hmem with hw | hw
  · rw [hc] at hw
    cases hw
  · exact hp hw

/-- A backtick ends every word, so that what follows it makes no difference. -/
theorem wordAt?_append_tick (u rest : List Char) : wordAt? (u ++ tick :: rest) =
    (wordAt? u).map fun p => (p.1, p.2 ++ tick :: rest) := by
  -- `takeWhile_append` would ask whether all of `u` is one word; the induction does not
  have hword : (u ++ tick :: rest).takeWhile isWordChar = u.takeWhile isWordChar ∧
      (u ++ tick :: rest).dropWhile isWordChar = u.dropWhile isWordChar ++ tick :: rest := by
    induction u with
    | nil => simp [isWordChar_tick]
    | cons c u ih =>
      by_cases hc : isWordChar c = true
      · simp [hc, ih]
      · simp [hc]
  unfold wordAt?
  rw [hword.1, hword.2]
  split <;> rfl

theorem pointWordAt?_append_tick (u rest : List Char) : pointWordAt? (u ++ tick :: rest) =
    (pointWordAt? u).map fun p => (p.1, p.2 ++ tick :: rest) := by
  cases u with
  | nil => rfl
  | cons c u =>
    by_cases hc : c = '.'
    · subst hc
      simp only [List.cons_append, pointWordAt?, wordAt?_append_tick, Option.map_map]
      rfl
    · simp [pointWordAt?, hc]

theorem symbolAt?_append_tick (u rest : List Char) : symbolAt? (u ++ tick :: rest) =
    (symbolAt? u).map fun p => (p.1, p.2 ++ tick :: rest) := by
  unfold symbolAt?
  rw [wordAt?_append_tick]
  rcases wordAt? u with _ | ⟨first, afterFirst⟩
  · rfl
  simp only [Option.map_some, Option.bind_eq_bind, Option.bind_some, pointWordAt?_append_tick]
  rcases pointWordAt? afterFirst with _ | ⟨second, afterSecond⟩
  · rfl
  simp only [Option.map_some, Option.bind_some, pointWordAt?_append_tick]
  rcases pointWordAt? afterSecond with _ | ⟨third, afterThird⟩ <;> rfl

/-- **A text between two backticks is a marker exactly if it is a symbol.** -/
theorem markerAt?_append {u : List Char} (hu : tick ∉ u) (rest : List Char) :
    markerAt? (u ++ tick :: rest) = if IsSymbol u then some u else none := by
  rw [markerAt?_eq, symbolAt?_append_tick]
  by_cases hs : IsSymbol u
  · rw [if_pos hs, show symbolAt? u = some (u, []) from hs]
    simp
  · rw [if_neg hs]
    rcases h : symbolAt? u with _ | ⟨x, after⟩
    · rfl
    · obtain ⟨rfl, -⟩ := symbolAt?_spells h
      -- a symbol that stops early is followed by a character of `u`, which is no backtick
      cases after with
      | nil => exact absurd (by simpa [IsSymbol] using h) hs
      | cons c after =>
        have hc : c ≠ tick := fun hc => hu (by simp [hc])
        simp [hc]

theorem markerAt?_of_notMem {u : List Char} (hu : tick ∉ u) : markerAt? u = none := by
  rw [markerAt?_eq]
  rcases h : symbolAt? u with _ | ⟨x, after⟩
  · rfl
  · obtain ⟨rfl, -⟩ := symbolAt?_spells h
    cases after with
    | nil => rfl
    | cons c after =>
      have hc : c ≠ tick := fun hc => hu (by simp [hc])
      simp [hc]

/-- A part of a line: a marker, or a character outside of all markers. -/
inductive Segment where
  | char (c : Char)
  | symbol (s : List Char)
deriving DecidableEq, Repr

/-- The symbol of a segment that is a marker. -/
def Segment.symbol? : Segment → Option (List Char)
  | char _ => none
  | symbol s => some s

/-- The text of a segment. -/
def Segment.spell : Segment → List Char
  | char c => [c]
  | symbol s => marker s

/-- The segments behind the first characters, which belong to a marker that was found before. -/
def segmentsAfter : Nat → List Char → List Segment
  | _, [] => []
  | skip + 1, _ :: cs => segmentsAfter skip cs
  | 0, c :: cs =>
    if c = tick then
      match markerAt? cs with
      | some symbol => .symbol symbol :: segmentsAfter (symbol.length + 1) cs
      | none => .char c :: segmentsAfter 0 cs
    else .char c :: segmentsAfter 0 cs

/-- **The segments of a line**: its leftmost markers that do not overlap, and the characters
between them. -/
def segments (line : List Char) : List Segment :=
  segmentsAfter 0 line

theorem segmentsAfter_append (x rest : List Char) :
    segmentsAfter x.length (x ++ rest) = segments rest := by
  induction x with
  | nil => rfl
  | cons c x ih => exact ih

theorem markerAt?_spells {cs s : List Char} (h : markerAt? cs = some s) :
    ∃ rest, cs = s ++ tick :: rest := by
  rw [markerAt?_eq] at h
  obtain ⟨⟨x, after⟩, hx, ht⟩ := Option.bind_eq_some_iff.1 h
  obtain ⟨rfl, -⟩ := symbolAt?_spells hx
  split at ht
  · rename_i htick
    obtain ⟨rest, rfl⟩ := List.head?_eq_some_iff.1 htick
    cases ht
    exact ⟨rest, rfl⟩
  · cases ht

/-- The segments of a line spell it. -/
theorem spell_segments (line : List Char) : (segments line).flatMap Segment.spell = line := by
  suffices h : ∀ skip cs, (segmentsAfter skip cs).flatMap Segment.spell = cs.drop skip from h 0 line
  intro skip cs
  fun_induction segmentsAfter skip cs with
  | case1 skip => simp
  | case2 skip c cs ih => simpa using ih
  | case3 cs symbol hm ih =>
    -- the characters that are passed over are those that the marker spells
    obtain ⟨rest, rfl⟩ := markerAt?_spells hm
    have hdrop : (symbol ++ tick :: rest).drop (symbol.length + 1) = rest := by
      simp [List.drop_append]
    simp [ih, hdrop, Segment.spell, marker]
  | case4 cs hm ih => simpa [Segment.spell] using ih
  | case5 c cs hc ih => simpa [Segment.spell] using ih

/-- The symbols of the segments are those of the markers. -/
theorem markers_eq_symbols (line : List Char) :
    markers line = (segments line).filterMap Segment.symbol? := by
  suffices h : ∀ skip cs, markersAfter skip cs =
      (segmentsAfter skip cs).filterMap Segment.symbol? from h 0 line
  intro skip cs
  fun_induction segmentsAfter skip cs with
  | case1 skip => cases skip <;> rfl
  | case2 skip c cs ih => simpa [markersAfter] using ih
  | case3 cs symbol hm ih => simpa [markersAfter, hm, Segment.symbol?] using ih
  | case4 cs hm ih => simpa [markersAfter, hm, Segment.symbol?, List.filterMap_cons] using ih
  | case5 c cs hc ih => simpa [markersAfter, hc, Segment.symbol?, List.filterMap_cons] using ih

theorem isSymbol_of_markerAt? {cs s : List Char} (h : markerAt? cs = some s) : IsSymbol s := by
  obtain ⟨rest, rfl⟩ := markerAt?_spells h
  rw [markerAt?_eq, symbolAt?_append_tick] at h
  rcases hs : symbolAt? s with _ | ⟨x, after⟩
  · simp [hs] at h
  · have hx : x = s := by
      rw [hs] at h
      obtain ⟨p, hp, ht⟩ := Option.bind_eq_some_iff.1 h
      cases hp
      split at ht
      · exact Option.some.inj ht
      · cases ht
    obtain ⟨hspell, -⟩ := symbolAt?_spells hs
    rw [hx, List.self_eq_append_right] at hspell
    rw [IsSymbol, hs, hx, hspell]

theorem isSymbol_of_mem_segments {line s : List Char} (h : .symbol s ∈ segments line) :
    IsSymbol s := by
  suffices hall : ∀ skip cs, .symbol s ∈ segmentsAfter skip cs → IsSymbol s from hall 0 line h
  intro skip cs
  fun_induction segmentsAfter skip cs with
  | case1 skip => simp
  | case2 skip c cs ih => exact ih
  | case3 cs symbol hm ih =>
    intro hmem
    rcases List.mem_cons.1 hmem with heq | hmem
    · cases heq
      exact isSymbol_of_markerAt? hm
    · exact ih hmem
  | case4 cs hm ih => exact fun hmem => ih (by simpa using hmem)
  | case5 c cs hc ih => exact fun hmem => ih (by simpa using hmem)

theorem segments_append {t : List Char} (ht : tick ∉ t) (rest : List Char) :
    segments (t ++ rest) = t.map .char ++ segments rest := by
  induction t with
  | nil => rfl
  | cons c t ih =>
    rw [List.mem_cons, not_or] at ht
    obtain ⟨hc, ht⟩ := ht
    unfold segments at ih ⊢
    simp [segmentsAfter, Ne.symm hc, ih ht]

theorem segments_of_notMem {t : List Char} (ht : tick ∉ t) : segments t = t.map .char := by
  have h := segments_append ht []
  rwa [List.append_nil, show segments [] = [] from rfl, List.append_nil] at h

theorem segments_marker {u : List Char} (hu : tick ∉ u) (hs : IsSymbol u) (rest : List Char) :
    segments (tick :: (u ++ tick :: rest)) = .symbol u :: segments rest := by
  have hskip := segmentsAfter_append (u ++ [tick]) rest
  rw [List.append_assoc, List.length_append] at hskip
  simpa [segments, segmentsAfter, markerAt?_append hu, hs] using hskip

theorem segments_tick {u : List Char} (hu : tick ∉ u) (hs : ¬ IsSymbol u) (rest : List Char) :
    segments (tick :: (u ++ tick :: rest)) = .char tick :: segments (u ++ tick :: rest) := by
  simp [segments, segmentsAfter, markerAt?_append hu, hs]

theorem segments_last {u : List Char} (hu : tick ∉ u) :
    segments (tick :: u) = .char tick :: segments u := by
  simp [segments, segmentsAfter, markerAt?_of_notMem hu]

section Pieces

-- the pieces of a line from one on: it is no marker itself, the next one may be
variable {t u : List Char}

theorem segments_joined_single (ht : tick ∉ t) : segments (joined [tick] [t]) = t.map .char :=
  segments_of_notMem ht

theorem segments_joined_pair (ht : tick ∉ t) (hu : tick ∉ u) :
    segments (joined [tick] [t, u]) = t.map .char ++ .char tick :: u.map .char := by
  rw [joined_cons_cons, List.append_assoc, segments_append ht]
  exact congrArg _ ((segments_last hu).trans (by rw [segments_of_notMem hu]))

theorem joined_tick (t u v : List Char) (rest : List (List Char)) :
    joined [tick] (t :: u :: v :: rest) =
      t ++ (tick :: (u ++ tick :: joined [tick] (v :: rest))) := by
  simp [joined_cons_cons]

theorem segments_joined_symbol (ht : tick ∉ t) (hu : tick ∉ u) (hs : IsSymbol u) (v : List Char)
    (rest : List (List Char)) : segments (joined [tick] (t :: u :: v :: rest)) =
      t.map .char ++ .symbol u :: segments (joined [tick] (v :: rest)) := by
  rw [joined_tick, segments_append ht, segments_marker hu hs]

theorem segments_joined_tick (ht : tick ∉ t) (hu : tick ∉ u) (hs : ¬ IsSymbol u) (v : List Char)
    (rest : List (List Char)) : segments (joined [tick] (t :: u :: v :: rest)) =
      t.map .char ++ .char tick :: segments (joined [tick] (u :: v :: rest)) := by
  rw [joined_tick, segments_append ht, segments_tick hu hs, joined_cons_cons, List.append_assoc]
  rfl

end Pieces

end Bindery.Text

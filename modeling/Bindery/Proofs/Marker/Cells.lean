import Mathlib.Data.List.Basic
import Mathlib.Data.List.Forall2
import Bindery.Binding.Reference
import Bindery.Proofs.Marker.Segments

/-!
# Replacing symbols one after the other

A line is cut at its backticks. A marker is a piece between two of them; replacing it changes the
piece and puts a link around it, into the two pieces beside. So the text at any time is told by
which pieces are shown as what they refer to.

* `replaceAll_append`, `replaceAll_marker`, `replaceAll_tick`: a replacement, piece by piece.
* `Cell`, `written`: the pieces with their state, and the text that they make.
* `replaced`: what the replacement of one symbol does to the cells; `replaceAll_written`: **this is
  what it does to the text**.
* `visible_eq_of_written_eq`: the text tells which cells are replaced.
-/

namespace Bindery

namespace Text

theorem replaceAfter_append (p new x rest : List Char) :
    replaceAfter p new x.length (x ++ rest) = replaceAll p new rest := by
  induction x with
  | nil => rfl
  | cons c x ih => exact ih

/-- Replacing a pattern by itself changes nothing. -/
theorem replaceAll_self {p : List Char} (hp : p ≠ []) (cs : List Char) :
    replaceAll p p cs = cs := by
  suffices h : ∀ skip cs, replaceAfter p p skip cs = cs.drop skip from h 0 cs
  intro skip cs
  fun_induction replaceAfter p p skip cs with
  | case1 skip => simp
  | case2 skip c cs ih => simpa using ih
  | case3 c cs hpre ih =>
    -- what is found is passed over, and written again
    obtain ⟨rest, hrest⟩ := List.isPrefixOf_iff_prefix.1 hpre
    cases p with
    | nil => exact absurd rfl hp
    | cons a p =>
      obtain ⟨rfl, rfl⟩ := List.cons.inj hrest
      rw [ih]
      simp
  | case4 c cs hpre ih => simpa using ih

/-- A text is cut at its first backtick in one way. -/
theorem append_tick_inj {u v x y : List Char} (hu : tick ∉ u) (hv : tick ∉ v)
    (h : u ++ tick :: x = v ++ tick :: y) : u = v ∧ x = y := by
  induction u generalizing v with
  | nil =>
    cases v with
    | nil => exact ⟨rfl, (List.cons.inj h).2⟩
    | cons d v => exact absurd (List.cons.inj h).1 fun hd => hv (by simp [hd])
  | cons c u ih =>
    cases v with
    | nil => exact absurd (List.cons.inj h).1 fun hc => hu (by simp [hc])
    | cons d v =>
      obtain ⟨rfl, hrest⟩ := List.cons.inj h
      obtain ⟨rfl, rfl⟩ := ih (fun hm => hu (by simp [hm])) (fun hm => hv (by simp [hm])) hrest
      exact ⟨rfl, rfl⟩

theorem replaceAll_append {t : List Char} (ht : tick ∉ t) (s new rest : List Char) :
    replaceAll (marker s) new (t ++ rest) = t ++ replaceAll (marker s) new rest := by
  induction t with
  | nil => rfl
  | cons c t ih =>
    rw [List.mem_cons, not_or] at ht
    have hc : (marker s).isPrefixOf (c :: (t ++ rest)) = false := by
      simp [marker, List.isPrefixOf, ht.1]
    have ih := ih ht.2
    unfold replaceAll at ih ⊢
    simp [replaceAfter, hc, ih]

theorem replaceAll_marker (s new rest : List Char) :
    replaceAll (marker s) new (marker s ++ rest) = new ++ replaceAll (marker s) new rest := by
  have hskip := replaceAfter_append (marker s) new (s ++ [tick]) rest
  have hpre : (marker s).isPrefixOf (marker s ++ rest) = true :=
    List.isPrefixOf_iff_prefix.2 (List.prefix_append _ _)
  have hlength : (marker s).length - 1 = (s ++ [tick]).length := by simp [marker]
  have hcons : marker s ++ rest = tick :: (s ++ [tick] ++ rest) := rfl
  rw [hcons] at hpre ⊢
  rw [← hskip, replaceAll, replaceAfter, if_pos hpre, hlength]

theorem replaceAll_of_notMem {t : List Char} (ht : tick ∉ t) (s new : List Char) :
    replaceAll (marker s) new t = t := by
  have h := replaceAll_append ht s new []
  rwa [List.append_nil, show replaceAll (marker s) new [] = [] from rfl, List.append_nil] at h

/-- A piece that is not the symbol is passed over, its opening backtick included. -/
theorem replaceAll_tick {u s : List Char} (hu : tick ∉ u) (hs : tick ∉ s) (hne : u ≠ s)
    (new rest : List Char) : replaceAll (marker s) new (tick :: (u ++ tick :: rest)) =
      tick :: replaceAll (marker s) new (u ++ tick :: rest) := by
  have hpre : (marker s).isPrefixOf (tick :: (u ++ tick :: rest)) = false := by
    rw [← Bool.not_eq_true, List.isPrefixOf_iff_prefix]
    rintro ⟨after, hafter⟩
    have hsplit : s ++ tick :: after = u ++ tick :: rest := by
      simpa [marker] using hafter
    exact hne (append_tick_inj hs hu hsplit).1.symm
  unfold replaceAll
  rw [replaceAfter, if_neg (by rw [hpre]; decide)]

/-- The last piece has no closing backtick. -/
theorem replaceAll_last {u : List Char} (hu : tick ∉ u) (s new : List Char) :
    replaceAll (marker s) new (tick :: u) = tick :: u := by
  have hpre : (marker s).isPrefixOf (tick :: u) = false := by
    rw [← Bool.not_eq_true, List.isPrefixOf_iff_prefix]
    rintro ⟨after, hafter⟩
    have hsplit : s ++ tick :: after = u := by
      simpa [marker] using hafter
    exact hu (by simp [← hsplit])
  have hrest := replaceAll_of_notMem hu s new
  unfold replaceAll at hrest ⊢
  rw [replaceAfter, if_neg (by rw [hpre]; decide), hrest]

end Text

namespace Reference

/-- What stands in front of the name of a reference, between the brackets of a link. -/
def opening (r : Reference) : List Char :=
  if r.link?.isSome then ['['] else []

/-- What stands behind the name of a reference. -/
def closing (r : Reference) : List Char :=
  match r.link? with
  | some link => ']' :: '(' :: link.toList ++ [')']
  | none => []

theorem toList_markdown (r : Reference) :
    r.markdown.toList = r.opening ++ Text.marker r.name.toList ++ r.closing := by
  unfold markdown opening closing
  cases r.link? with
  | none => simp [Text.marker, Text.tick]
  | some link => simp [Text.marker, Text.tick]

/-- What leads nowhere has no link. -/
theorem link?_of_isStray {r : Reference} (h : r.isStray = true) : r.link? = none := by
  cases r with
  | stray symbol => rfl
  | entry ident link => cases h
  | member ident => cases h

end Reference

namespace Marker

open Text

/-- **References that cannot be mistaken for symbols**: a symbol that leads nowhere is shown as it
is, and what others are shown as has neither a point nor a backtick. -/
structure Legible (look : List Char → Reference) : Prop where
  stray : ∀ s, (look s).isStray = true → (look s).name.toList = s
  dotted : ∀ s, (look s).isStray = false → '.' ∈ s
  name : ∀ s, (look s).isStray = false → ∀ c ∈ (look s).name.toList, c ≠ tick ∧ c ≠ '.'
  link : ∀ s, ∀ c ∈ (look s).closing, c ≠ tick ∧ c ≠ '.'

/-- A piece between two backticks, and whether it was replaced. -/
structure Cell where
  text : List Char
  shown : Bool
deriving DecidableEq, Repr

namespace Cell

variable (look : List Char → Reference)

/-- Whether a cell is shown as what it refers to. -/
def visible (c : Cell) : Bool :=
  c.shown && !(look c.text).isStray

/-- The text between the backticks, links apart. -/
def core (c : Cell) : List Char :=
  if c.visible look then (look c.text).name.toList else c.text

/-- What a cell puts in front of its opening backtick. -/
def opening (c : Cell) : List Char :=
  if c.visible look then (look c.text).opening else []

/-- What a cell puts behind its closing backtick. -/
def closing (c : Cell) : List Char :=
  if c.visible look then (look c.text).closing else []

/-- **The text of a row of cells**, from the first one on. -/
def written : Cell → List Cell → List Char
  | c, [] => c.core look
  | c, d :: ds => c.core look ++ d.opening look ++ tick :: (c.closing look ++ written d ds)

variable {look}

theorem tick_notMem_core (hl : Legible look) {c : Cell} (hc : tick ∉ c.text) :
    tick ∉ c.core look := by
  unfold core
  split
  · rename_i hv
    have hs : (look c.text).isStray = false := by
      simpa using (Bool.and_eq_true_iff.1 hv).2
    exact fun hm => (hl.name _ hs _ hm).1 rfl
  · exact hc

theorem tick_notMem_opening (c : Cell) : tick ∉ c.opening look := by
  unfold opening Reference.opening
  split
  · split <;> decide
  · simp

theorem tick_notMem_closing (hl : Legible look) (c : Cell) : tick ∉ c.closing look := by
  unfold closing
  split
  · exact fun hm => (hl.link _ _ hm).1 rfl
  · simp

theorem bracket_mem_opening {c : Cell} (h : c.opening look ≠ []) : '[' ∈ c.opening look := by
  unfold opening Reference.opening at h ⊢
  split at h
  · rename_i hv
    rw [if_pos hv]
    split at h
    · rename_i hsome
      simp [hsome]
    · exact absurd rfl h
  · exact absurd rfl h

theorem bracket_mem_closing {c : Cell} (h : c.closing look ≠ []) : ']' ∈ c.closing look := by
  unfold closing Reference.closing at h ⊢
  split at h
  · rename_i hv
    rw [if_pos hv]
    split at h
    · rename_i hsome
      simp
    · exact absurd rfl h
  · exact absurd rfl h

/-- A piece has a point exactly if it was written with one and is not replaced. -/
theorem dot_mem_core (hl : Legible look) (c : Cell) :
    '.' ∈ c.core look ↔ c.visible look = false ∧ '.' ∈ c.text := by
  unfold core
  by_cases hv : c.visible look = true
  · have hs : (look c.text).isStray = false := by
      simpa using (Bool.and_eq_true_iff.1 hv).2
    rw [if_pos hv]
    simp only [hv, Bool.true_eq_false, false_and, iff_false]
    exact fun hm => (hl.name _ hs _ hm).2 rfl
  · rw [if_neg hv]
    simp [hv]

theorem dot_notMem_opening (c : Cell) : '.' ∉ c.opening look := by
  unfold opening Reference.opening
  split
  · split <;> decide
  · simp

theorem core_hidden {c : Cell} (h : c.visible look = false) : c.core look = c.text := by
  rw [core, if_neg (by simp [h])]

theorem opening_hidden {c : Cell} (h : c.visible look = false) : c.opening look = [] := by
  rw [opening, if_neg (by simp [h])]

theorem closing_hidden {c : Cell} (h : c.visible look = false) : c.closing look = [] := by
  rw [closing, if_neg (by simp [h])]

/-- Two cells with the same piece are in the same state if they agree in having a point. -/
theorem visible_eq_of_dot (hl : Legible look) {c c' : Cell} (hc : c.text = c'.text)
    (hdot : '.' ∈ c.core look ↔ '.' ∈ c'.core look) : c.visible look = c'.visible look := by
  rw [dot_mem_core hl, dot_mem_core hl, hc] at hdot
  have hdotted : ∀ d : Cell, d.visible look = true → '.' ∈ d.text := fun d hd =>
    hl.dotted _ (by simpa using (Bool.and_eq_true_iff.1 hd).2)
  rcases hv : c.visible look with _ | _ <;> rcases hv' : c'.visible look with _ | _
  · rfl
  · have := hdotted c' hv'
    simp_all
  · have := hdotted c hv
    simp_all
  · rfl

/-- **The text tells which cells are replaced.** -/
theorem visible_eq_of_written_eq (hl : Legible look) {c c' : Cell} {ds ds' : List Cell}
    (ht : ∀ d ∈ c :: ds, tick ∉ d.text) (hc : c.text = c'.text)
    (hds : ds.map text = ds'.map text) (h : written look c ds = written look c' ds') :
    (c :: ds).map (visible look) = (c' :: ds').map (visible look) := by
  induction ds generalizing c c' ds' with
  | nil =>
    obtain rfl : ds' = [] := by simpa using hds
    simp only [written] at h
    simp [visible_eq_of_dot hl hc (by rw [h])]
  | cons d ds ih =>
    cases ds' with
    | nil => cases hds
    | cons d' ds' =>
      simp only [List.map_cons, List.cons.injEq] at hds
      have hfront : ∀ {c d : Cell}, tick ∉ c.text → tick ∉ c.core look ++ d.opening look :=
        fun hc => by simp [tick_notMem_core hl hc, tick_notMem_opening]
      have htc : tick ∉ c.text := ht c (by simp)
      -- the first backtick ends the piece of the first cell in both texts
      obtain ⟨hpiece, hrest⟩ := append_tick_inj (hfront htc) (hfront (hc ▸ htc)) h
      have hvisible : c.visible look = c'.visible look := by
        refine visible_eq_of_dot hl hc ?_
        have := congrArg ('.' ∈ ·) hpiece
        simpa [dot_notMem_opening] using this
      -- equal cells put the same link behind the backtick, which can be taken off
      have hclosing : c.closing look = c'.closing look := by
        unfold closing
        rw [hvisible, hc]
      rw [hclosing, List.append_cancel_left_eq] at hrest
      have hmore := ih (fun x hx => ht x (List.mem_cons_of_mem _ hx)) hds.1 hds.2 hrest
      exact List.cons_eq_cons.2 ⟨hvisible, hmore⟩

end Cell

open Cell

variable {look : List Char → Reference}

/-- **A cell that the replacement of a symbol changes**: it has the symbol, it is not changed yet,
and no link of a neighbour reaches into it. -/
def Ready (look : List Char → Reference) (s : List Char) (c d e : Cell) : Prop :=
  d.text = s ∧ d.shown = false ∧ c.closing look = [] ∧ e.opening look = []

instance (s : List Char) (c d e : Cell) : Decidable (Ready look s c d e) :=
  inferInstanceAs (Decidable (_ ∧ _))

/-- **What the replacement of a symbol does to the cells** behind the first one. The cell behind one
that is changed is passed over: its opening backtick closes the marker. -/
def replaced (look : List Char → Reference) (s : List Char) : Cell → List Cell → List Cell
  | _, [] => []
  | _, [d] => [d]
  | c, d :: e :: rest =>
    if Ready look s c d e then ⟨d.text, true⟩ :: e :: replaced look s e rest
    else d :: replaced look s d (e :: rest)

theorem map_text_replaced (s : List Char) (c : Cell) (ds : List Cell) :
    (replaced look s c ds).map text = ds.map text := by
  fun_induction replaced look s c ds with
  | case1 c => rfl
  | case2 c d => rfl
  | case3 c d e rest hready ih => simp [ih]
  | case4 c d e rest hready ih => simp [ih]

/-- A piece of the text is the symbol exactly if its cell is ready. -/
theorem piece_eq_iff (hl : Legible look) {s : List Char} (hs : IsSymbol s)
    (hlook : (look s).isStray = false) {c d e : Cell} :
    c.closing look ++ d.core look ++ e.opening look = s ↔ Ready look s c d e := by
  have hdot : '.' ∈ s := hl.dotted s hlook
  constructor
  · intro h
    have hclosing : c.closing look = [] := by
      by_contra hne
      have hmem : ']' ∈ s := by
        rw [← h]
        simp [bracket_mem_closing hne]
      exact hs.notMem (by rw [isWordChar_of_ascii] <;> decide) (by decide) hmem
    have hopening : e.opening look = [] := by
      by_contra hne
      have hmem : '[' ∈ s := by
        rw [← h]
        simp [bracket_mem_opening hne]
      exact hs.notMem (by rw [isWordChar_of_ascii] <;> decide) (by decide) hmem
    rw [hclosing, hopening, List.nil_append, List.append_nil] at h
    -- a replaced cell has no point, the symbol has one
    have hv := ((dot_mem_core hl d).1 (h ▸ hdot)).1
    rw [core, if_neg (by simp [hv])] at h
    refine ⟨h, ?_, hclosing, hopening⟩
    subst h
    simpa [visible, hlook] using hv
  · rintro ⟨rfl, hshown, hclosing, hopening⟩
    simp [hclosing, hopening, core, visible, hshown]

/-- **The replacement of a symbol in the text is its replacement in the cells.** -/
theorem replaceAll_written (hl : Legible look) {s : List Char} (hs : IsSymbol s)
    (hlook : (look s).isStray = false) {c : Cell} {ds : List Cell}
    (ht : ∀ d ∈ c :: ds, tick ∉ d.text) :
    replaceAll (marker s) (look s).markdown.toList (written look c ds) =
      written look c (replaced look s c ds) := by
  have hst : tick ∉ s := hs.notMem isWordChar_tick (by decide)
  fun_induction replaced look s c ds with
  | case1 c => exact replaceAll_of_notMem (tick_notMem_core hl (ht c (by simp))) _ _
  | case2 c d =>
    have hc := tick_notMem_core hl (ht c (by simp))
    have hd := tick_notMem_core hl (ht d (by simp))
    have hfront : tick ∉ c.core look ++ d.opening look := by
      simp [hc, tick_notMem_opening]
    have hlast : tick ∉ c.closing look ++ d.core look := by
      simp [hd, tick_notMem_closing hl]
    rw [written, written, replaceAll_append hfront, replaceAll_last hlast]
  | case3 c d e rest hready ih =>
    obtain ⟨rfl, hshown, hclosing, hopening⟩ := hready
    have hold : d.visible look = false := by simp [visible, hshown]
    have hnew : Cell.visible look ⟨d.text, true⟩ = true := by simp [visible, hlook]
    -- no link reaches the marker, so that it stands in the text as it was written
    have htext : written look c (d :: e :: rest) =
        c.core look ++ (marker d.text ++ written look e rest) := by
      simp only [written, core_hidden hold, opening_hidden hold, closing_hidden hold, hclosing,
        hopening]
      simp [marker]
    rw [htext, replaceAll_append (tick_notMem_core hl (ht c (by simp))), replaceAll_marker,
      ih (fun x hx => ht x (List.mem_cons_of_mem _ (List.mem_cons_of_mem _ hx))),
      Reference.toList_markdown]
    simp only [written, hclosing, hopening]
    simp [core, opening, closing, hnew, marker]
  | case4 c d e rest hready ih =>
    have hc := tick_notMem_core hl (ht c (by simp))
    have hd := tick_notMem_core hl (ht d (by simp))
    have hfront : tick ∉ c.core look ++ d.opening look := by
      simp [hc, tick_notMem_opening]
    have hpiece : tick ∉ c.closing look ++ d.core look ++ e.opening look := by
      simp [hd, tick_notMem_closing hl, tick_notMem_opening]
    have hne : c.closing look ++ d.core look ++ e.opening look ≠ s :=
      fun h => hready ((piece_eq_iff hl hs hlook).1 h)
    have hassoc : c.closing look ++ written look d (e :: rest) =
        (c.closing look ++ d.core look ++ e.opening look) ++
          tick :: (d.closing look ++ written look e rest) := by
      simp [written]
    rw [written, replaceAll_append hfront, hassoc, replaceAll_tick hpiece hst hne, ← hassoc,
      replaceAll_append (tick_notMem_closing hl c),
      ih (fun x hx => ht x (List.mem_cons_of_mem _ hx)), written]

end Marker

end Bindery

import Bindery.Proofs.Marker.Cells

/-!
# Rounds over the symbols of a line

The symbols of a line are replaced one after the other. As long as no round finds its symbol outside
the markers, the cells are those of a line in which some markers are replaced; from the first round
that does, they are not.

* `marks`, `written_marks`: the cells of a line in which some markers are replaced, and their text.
* `Clash`: a round that finds its symbol outside the markers.
* `replaced_marks`, `not_within_of_clash`: what a round does without and with a clash.
* `foldl_markerRound_of_not_clashes`, `foldl_markerRound_of_clashes`: **what all rounds do** without
  and with one.
-/

namespace Bindery.Marker

open Text Cell

variable {look : List Char → Reference} {S : List Char → Bool} {s t : List Char}
  {us : List (List Char)}

/-- The cells of a line, the first piece apart, with the markers replaced whose symbols are in a
set. -/
def marks (S : List Char → Bool) : List (List Char) → List Cell
  | [] => []
  | [u] => [⟨u, false⟩]
  | u :: v :: rest =>
    if IsSymbol u then ⟨u, S u⟩ :: ⟨v, false⟩ :: marks S rest else ⟨u, false⟩ :: marks S (v :: rest)

/-- What is written for a segment if the symbols in a set are replaced. -/
def displayIn (look : List Char → Reference) (S : List Char → Bool) : Segment → List Char
  | .char c => [c]
  | .symbol s => if S s then (look s).markdown.toList else marker s

/-- What is shown for a segment. -/
def display (look : List Char → Reference) : Segment → List Char
  | .char c => [c]
  | .symbol s => (look s).markdown.toList

theorem map_text_marks : (marks S us).map text = us := by
  fun_induction marks S us with
  | case1 => rfl
  | case2 u => rfl
  | case3 u v rest hu ih => simp [ih]
  | case4 u v rest hu ih => simp [ih]

theorem flatMap_displayIn_char (l : List Char) :
    (l.map Segment.char).flatMap (displayIn look S) = l := by
  induction l with
  | nil => rfl
  | cons c l ih =>
    rw [List.map_cons, List.flatMap_cons, ih]
    rfl

/-- **The text of the cells** in which some symbols are replaced. -/
theorem written_marks (hstray : ∀ s, S s = true → (look s).isStray = false)
    (ht : ∀ u ∈ t :: us, tick ∉ u) : written look ⟨t, false⟩ (marks S us) =
      (segments (joined [tick] (t :: us))).flatMap (displayIn look S) := by
  have hhidden : ∀ u, core look ⟨u, false⟩ = u ∧ opening look ⟨u, false⟩ = [] ∧
      closing look ⟨u, false⟩ = [] := fun u =>
    ⟨core_hidden rfl, opening_hidden rfl, closing_hidden rfl⟩
  fun_induction marks S us generalizing t with
  | case1 =>
    rw [segments_joined_single (ht t (by simp)), flatMap_displayIn_char]
    exact (hhidden t).1
  | case2 u =>
    rw [segments_joined_pair (ht t (by simp)) (ht u (by simp)), List.flatMap_append,
      List.flatMap_cons, flatMap_displayIn_char, flatMap_displayIn_char]
    simp [written, hhidden, displayIn]
  | case3 u v rest hu ih =>
    rw [segments_joined_symbol (ht t (by simp)) (ht u (by simp)) hu, List.flatMap_append,
      List.flatMap_cons, flatMap_displayIn_char,
      ← ih fun x hx => ht x (List.mem_cons_of_mem _ (List.mem_cons_of_mem _ hx))]
    by_cases hS : S u = true
    · have hv : Cell.visible look ⟨u, true⟩ = true := by simp [visible, hstray u hS]
      simp only [written, hhidden, hS, displayIn, if_true, Reference.toList_markdown]
      simp [core, opening, closing, hv, marker]
    · rw [Bool.not_eq_true] at hS
      simp [written, hhidden, hS, displayIn, marker]
  | case4 u v rest hu ih =>
    rw [segments_joined_tick (ht t (by simp)) (ht u (by simp)) hu, List.flatMap_append,
      List.flatMap_cons, flatMap_displayIn_char, ← ih fun x hx => ht x (List.mem_cons_of_mem _ hx)]
    simp [written, hhidden, displayIn]

/-- **A round that finds its symbol outside the markers**: the piece behind a marker is the symbol,
and neither the marker nor the one that begins behind the piece puts a link into it. -/
def Clash (look : List Char → Reference) (S : List Char → Bool) (s : List Char) :
    List (List Char) → Prop
  | [] => False
  | [_] => False
  | u :: v :: rest =>
    if IsSymbol u then
      (u ≠ s ∧ v = s ∧ closing look ⟨u, S u⟩ = [] ∧
        ∃ e ∈ (marks S rest).head?, e.opening look = []) ∨ Clash look S s rest
    else Clash look S s (v :: rest)

/-- Whether only markers are replaced. -/
def Within (look : List Char → Reference) (us : List (List Char)) (ds : List Cell) : Prop :=
  List.Forall₂ (fun d m => d.visible look = true → m.visible look = true) ds
    (marks (fun _ => true) us)

theorem within_marks : Within look us (marks S us) := by
  unfold Within
  fun_induction marks S us with
  | case1 => exact .nil
  | case2 u => exact .cons (fun h => h) .nil
  | case3 u v rest hu ih =>
    rw [marks, if_pos hu]
    refine .cons (fun h => ?_) (.cons (fun h => h) ih)
    simpa [visible] using (Bool.and_eq_true_iff.1 h).2
  | case4 u v rest hu ih =>
    rw [marks, if_neg hu]
    exact .cons (fun h => h) ih

theorem within_congr {ds ds' : List Cell} (h : ds.map (visible look) = ds'.map (visible look))
    (hw : Within look us ds') : Within look us ds := by
  unfold Within at *
  rw [← List.forall₂_map_left_iff (f := visible look)
    (R := fun b (m : Cell) => b = true → m.visible look = true)] at hw ⊢
  rwa [h]

/-- A round takes nothing back. -/
theorem within_of_replaced {c : Cell} {ds : List Cell}
    (h : Within look us (replaced look s c ds)) : Within look us ds := by
  unfold Within at *
  generalize marks (fun _ => true) us = ms at h
  fun_induction replaced look s c ds generalizing ms with
  | case1 c => exact h
  | case2 c d => exact h
  | case3 c d e rest hready ih =>
    cases h with
    | cons hd h =>
      cases h with
      | cons he h =>
        -- the cell that the round changes was not replaced before
        refine .cons (fun hv => ?_) (.cons he (ih _ h))
        simp [visible, hready.2.1] at hv
  | case4 c d e rest hready ih =>
    cases h with
    | cons hd h => exact .cons hd (ih _ h)

theorem replaced_cons {c d : Cell} {ds : List Cell}
    (h : ∀ e ∈ ds.head?, ¬ Ready look s c d e) :
    replaced look s c (d :: ds) = d :: replaced look s d ds := by
  cases ds with
  | nil => rfl
  | cons e rest => rw [replaced, if_neg (h e rfl)]

/-- **A round without a clash** replaces the markers with its symbol and nothing else. -/
theorem replaced_marks (hs : IsSymbol s) (hS : S s = false) (hclash : ¬ Clash look S s us) :
    replaced look s ⟨t, false⟩ (marks S us) = marks (fun u => S u || u == s) us := by
  fun_induction marks S us generalizing t with
  | case1 => rfl
  | case2 u => rfl
  | case3 u v rest hu ih =>
    rw [Clash, if_pos hu, not_or] at hclash
    rw [marks, if_pos hu]
    by_cases hus : u = s
    · -- the marker is ready: links of markers do not reach each other
      subst hus
      rw [replaced, if_pos ⟨rfl, hS, closing_hidden rfl, opening_hidden rfl⟩, ih hclash.2]
      simp
    · -- another marker stays, and so does the piece behind it
      have hmarker : ∀ e ∈ (Cell.mk v false :: marks S rest).head?,
          ¬ Ready look s ⟨t, false⟩ ⟨u, S u⟩ e := fun e _ hready => hus hready.1
      have hbehind : ∀ e ∈ (marks S rest).head?, ¬ Ready look s ⟨u, S u⟩ ⟨v, false⟩ e :=
        fun e he hready => hclash.1 ⟨hus, hready.1, hready.2.2.1, e, he, hready.2.2.2⟩
      rw [replaced_cons hmarker, replaced_cons hbehind, ih hclash.2]
      simp [hus]
  | case4 u v rest hu ih =>
    rw [Clash, if_neg hu] at hclash
    have hpiece : ∀ e ∈ (marks S (v :: rest)).head?, ¬ Ready look s ⟨t, false⟩ ⟨u, false⟩ e :=
      fun e _ hready => hu ((show u = s from hready.1) ▸ hs)
    rw [replaced_cons hpiece, ih hclash, marks, if_neg hu]

/-- **A round with a clash** replaces something that is no marker. -/
theorem not_within_of_clash (hs : IsSymbol s) (hlook : (look s).isStray = false) (hS : S s = false)
    (hclash : Clash look S s us) : ¬ Within look us (replaced look s ⟨t, false⟩ (marks S us)) := by
  unfold Within
  fun_induction marks S us generalizing t with
  | case1 => exact hclash.elim
  | case2 u => exact hclash.elim
  | case3 u v rest hu ih =>
    rw [Clash, if_pos hu] at hclash
    rw [marks, if_pos hu]
    by_cases hus : u = s
    · subst hus
      -- a marker of the symbol itself is replaced as it should be: the clash is further on
      have hrest := hclash.resolve_left fun h => h.1 rfl
      rw [replaced, if_pos ⟨rfl, hS, closing_hidden rfl, opening_hidden rfl⟩]
      rintro (_ | ⟨-, _ | ⟨-, h⟩⟩)
      exact ih hrest h
    · have hmarker : ∀ e ∈ (Cell.mk v false :: marks S rest).head?,
          ¬ Ready look s ⟨t, false⟩ ⟨u, S u⟩ e := fun e _ hready => hus hready.1
      rw [replaced_cons hmarker]
      by_cases hready : ∃ e ∈ (marks S rest).head?, Ready look s ⟨u, S u⟩ ⟨v, false⟩ e
      · -- the piece behind the marker is replaced
        obtain ⟨e, he, hready⟩ := hready
        obtain ⟨ds, hds⟩ := List.head?_eq_some_iff.1 he
        rw [hds, replaced, if_pos hready]
        rintro (_ | ⟨-, _ | ⟨h, -⟩⟩)
        have hv : Cell.visible look ⟨v, true⟩ = true := by
          simp [visible, show v = s from hready.1, hlook]
        exact absurd (h hv) (by simp [visible])
      · have hrest := hclash.resolve_left fun h => by
          obtain ⟨-, hv, hclosing, e, he, hopening⟩ := h
          exact hready ⟨e, he, hv, rfl, hclosing, hopening⟩
        rw [replaced_cons fun e he h => hready ⟨e, he, h⟩]
        rintro (_ | ⟨-, _ | ⟨-, h⟩⟩)
        exact ih hrest h
  | case4 u v rest hu ih =>
    rw [Clash, if_neg hu] at hclash
    have hpiece : ∀ e ∈ (marks S (v :: rest)).head?, ¬ Ready look s ⟨t, false⟩ ⟨u, false⟩ e :=
      fun e _ hready => hu ((show u = s from hready.1) ▸ hs)
    rw [replaced_cons hpiece, marks, if_neg hu]
    rintro (_ | ⟨-, h⟩)
    exact ih hclash h

/-- One round: a symbol is replaced everywhere in a text. -/
def markerRound (look : List Char → Reference) (line s : List Char) : List Char :=
  replaceAll (marker s) (look s).markdown.toList line

/-- The symbols that rounds have replaced. -/
def replacedBy (look : List Char → Reference) (done : List (List Char)) (s : List Char) : Bool :=
  s ∈ done && !(look s).isStray

/-- Whether one of the rounds clashes. -/
def Clashes (look : List Char → Reference) (us : List (List Char)) :
    List (List Char) → List (List Char) → Prop
  | _, [] => False
  | done, s :: more =>
    (look s).isStray = false ∧ Clash look (replacedBy look done) s us ∨
      Clashes look us (done ++ [s]) more

theorem clashes_iff {done more : List (List Char)} : Clashes look us done more ↔
    ∃ pre s post, more = pre ++ s :: post ∧ (look s).isStray = false ∧
      Clash look (replacedBy look (done ++ pre)) s us := by
  induction more generalizing done with
  | nil => simp [Clashes]
  | cons s more ih =>
    rw [Clashes, ih]
    constructor
    · rintro (⟨hlook, hclash⟩ | ⟨pre, x, post, rfl, hlook, hclash⟩)
      · exact ⟨[], s, more, rfl, hlook, by simpa using hclash⟩
      · exact ⟨s :: pre, x, post, rfl, hlook, by simpa using hclash⟩
    · rintro ⟨pre, x, post, hmore, hlook, hclash⟩
      cases pre with
      | nil =>
        obtain ⟨rfl, rfl⟩ := List.cons.inj hmore
        exact Or.inl ⟨hlook, by simpa using hclash⟩
      | cons y pre =>
        obtain ⟨rfl, rfl⟩ := List.cons.inj hmore
        exact Or.inr ⟨pre, x, post, rfl, hlook, by simpa using hclash⟩

theorem markdown_stray (hl : Legible look) (hlook : (look s).isStray = true) :
    (look s).markdown.toList = marker s := by
  have hlink := Reference.link?_of_isStray hlook
  rw [Reference.toList_markdown, hl.stray s hlook, Reference.opening, Reference.closing, hlink]
  simp

theorem markerRound_stray (hl : Legible look) (hlook : (look s).isStray = true) (line : List Char) :
    markerRound look line s = line := by
  unfold markerRound
  rw [markdown_stray hl hlook]
  exact replaceAll_self (by simp [marker]) line

theorem replacedBy_stray {done : List (List Char)} (hlook : (look s).isStray = true) :
    replacedBy look (done ++ [s]) = replacedBy look done := by
  funext u
  unfold replacedBy
  by_cases hu : u = s
  · simp [hu, hlook]
  · simp [hu]

theorem replacedBy_append {done : List (List Char)} (hlook : (look s).isStray = false) :
    replacedBy look (done ++ [s]) = fun u => replacedBy look done u || u == s := by
  funext u
  unfold replacedBy
  by_cases hu : u = s
  · simp [hu, hlook]
  · simp [hu]

/-- A symbol has its round once. -/
theorem replacedBy_new {done more : List (List Char)} (hn : (done ++ [s] ++ more).Nodup) :
    replacedBy look done s = false := by
  have hs : s ∉ done := fun h =>
    (List.nodup_append.1 (List.nodup_append.1 hn).1).2.2 s h s (by simp) rfl
  simp [replacedBy, hs]

theorem tick_notMem_cells (ht : ∀ u ∈ t :: us, tick ∉ u) {ds : List Cell}
    (hds : ds.map text = us) : ∀ d ∈ Cell.mk t false :: ds, tick ∉ d.text := by
  intro d hd
  rcases List.mem_cons.1 hd with rfl | hd
  · exact ht t (by simp)
  · exact ht d.text (List.mem_cons_of_mem _ (hds ▸ List.mem_map_of_mem hd))

section Rounds

variable (hl : Legible look) (ht : ∀ u ∈ t :: us, tick ∉ u)
include hl ht

/-- A round on the cells. -/
theorem markerRound_written (hs : IsSymbol s) (hlook : (look s).isStray = false) {ds : List Cell}
    (hds : ds.map text = us) : markerRound look (written look ⟨t, false⟩ ds) s =
      written look ⟨t, false⟩ (replaced look s ⟨t, false⟩ ds) :=
  replaceAll_written hl hs hlook (tick_notMem_cells ht hds)

/-- **Rounds without a clash** replace all markers with their symbols. -/
theorem foldl_markerRound_of_not_clashes {done more : List (List Char)}
    (hmore : ∀ s ∈ more, IsSymbol s) (hn : (done ++ more).Nodup)
    (hclash : ¬ Clashes look us done more) :
    more.foldl (markerRound look) (written look ⟨t, false⟩ (marks (replacedBy look done) us)) =
      written look ⟨t, false⟩ (marks (replacedBy look (done ++ more)) us) := by
  induction more generalizing done with
  | nil => simp
  | cons s more ih =>
    rw [Clashes, not_or] at hclash
    have hassoc : done ++ s :: more = (done ++ [s]) ++ more := by simp
    rw [hassoc] at hn ⊢
    rw [List.foldl_cons, ← ih (fun x hx => hmore x (List.mem_cons_of_mem _ hx)) hn hclash.2]
    congr 1
    by_cases hlook : (look s).isStray = true
    · rw [markerRound_stray hl hlook, replacedBy_stray hlook]
    · rw [Bool.not_eq_true] at hlook
      have hS : replacedBy look done s = false := replacedBy_new hn
      rw [markerRound_written hl ht (hmore s (by simp)) hlook map_text_marks,
        replaced_marks (hmore s (by simp)) hS fun h => hclash.1 ⟨hlook, h⟩,
        replacedBy_append hlook]

/-- What is replaced outside the markers stays replaced. -/
theorem foldl_markerRound_of_not_within {more : List (List Char)} (hmore : ∀ s ∈ more, IsSymbol s)
    {ds : List Cell} (hds : ds.map text = us) (hw : ¬ Within look us ds) :
    ∃ ds', ds'.map text = us ∧ ¬ Within look us ds' ∧
      more.foldl (markerRound look) (written look ⟨t, false⟩ ds) = written look ⟨t, false⟩ ds' := by
  induction more generalizing ds with
  | nil => exact ⟨ds, hds, hw, rfl⟩
  | cons s more ih =>
    have hmore' : ∀ s ∈ more, IsSymbol s := fun x hx => hmore x (List.mem_cons_of_mem _ hx)
    rw [List.foldl_cons]
    by_cases hlook : (look s).isStray = true
    · rw [markerRound_stray hl hlook]
      exact ih hmore' hds hw
    · rw [Bool.not_eq_true] at hlook
      rw [markerRound_written hl ht (hmore s (by simp)) hlook hds]
      exact ih hmore' (by rw [map_text_replaced, hds]) fun h => hw (within_of_replaced h)

/-- **Rounds with a clash** replace something outside the markers. -/
theorem foldl_markerRound_of_clashes {done more : List (List Char)} (hmore : ∀ s ∈ more, IsSymbol s)
    (hn : (done ++ more).Nodup) (hclash : Clashes look us done more) :
    ∃ ds, ds.map text = us ∧ ¬ Within look us ds ∧
      more.foldl (markerRound look) (written look ⟨t, false⟩ (marks (replacedBy look done) us)) =
        written look ⟨t, false⟩ ds := by
  induction more generalizing done with
  | nil => exact hclash.elim
  | cons s more ih =>
    have hmore' : ∀ s ∈ more, IsSymbol s := fun x hx => hmore x (List.mem_cons_of_mem _ hx)
    have hassoc : done ++ s :: more = (done ++ [s]) ++ more := by simp
    rw [hassoc] at hn
    rw [List.foldl_cons]
    by_cases hlook : (look s).isStray = true
    · rw [Clashes] at hclash
      have hlater := hclash.resolve_left fun h => by simp [hlook] at h
      rw [markerRound_stray hl hlook, ← replacedBy_stray hlook]
      exact ih hmore' hn hlater
    · rw [Bool.not_eq_true] at hlook
      have hS : replacedBy look done s = false := replacedBy_new hn
      rw [markerRound_written hl ht (hmore s (by simp)) hlook map_text_marks]
      by_cases hnow : Clash look (replacedBy look done) s us
      · -- the first clash
        refine foldl_markerRound_of_not_within hl ht hmore' ?_
          (not_within_of_clash (hmore s (by simp)) hlook hS hnow)
        rw [map_text_replaced, map_text_marks]
      · -- no clash yet: the cells are still those of a line
        rw [Clashes] at hclash
        have hlater := hclash.resolve_left fun h => hnow h.2
        rw [replaced_marks (hmore s (by simp)) hS hnow, ← replacedBy_append hlook]
        exact ih hmore' hn hlater

end Rounds

end Bindery.Marker

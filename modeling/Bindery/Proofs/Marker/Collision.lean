import Mathlib.Data.List.Induction
import Bindery.Proofs.Marker.Rounds

/-!
# When markers collide

Replacing the symbols of a line one after the other gives the line with each marker replaced on its
own, unless a round finds its symbol at a place that is no marker: behind a marker, whose closing
backtick it takes for an opening one.

* `pairwise_idxOf_eraseDups`: without repetitions, the first occurrences keep their order.
* `Exposed`: the text of a symbol at such a place.
* `clash_iff_exposed`: a round clashes exactly if the text of its symbol is exposed.
* `Collides`: the condition for a whole line.
* `resolveMarkers_eq_iff`: **the rounds are right exactly if no markers collide**.
-/

namespace Bindery

/-- **Without repetitions, first occurrences keep their order.** -/
theorem pairwise_idxOf_eraseDups {α : Type} [BEq α] [LawfulBEq α] (l : List α) :
    l.eraseDups.Pairwise fun a b => l.idxOf a < l.idxOf b := by
  induction l using List.reverseRecOn with
  | nil => simp
  | append_singleton l x ih =>
    have hbefore : ∀ a ∈ l, (l ++ [x]).idxOf a = l.idxOf a :=
      fun a ha => List.idxOf_append_of_mem ha
    have hkept : l.eraseDups.Pairwise fun a b => (l ++ [x]).idxOf a < (l ++ [x]).idxOf b :=
      ih.imp_of_mem fun ha hb hab => by
        rwa [hbefore _ (List.mem_eraseDups.1 ha), hbefore _ (List.mem_eraseDups.1 hb)]
    rw [List.eraseDups_append]
    by_cases hx : x ∈ l
    · have hnone : [x].removeAll l = [] := by simp [List.removeAll, hx]
      rwa [hnone, List.eraseDups_nil, List.append_nil]
    · have hone : [x].removeAll l = [x] := by simp [List.removeAll, hx]
      have hsingle : [x].eraseDups = [x] := rfl
      rw [hone, hsingle, List.pairwise_append]
      refine ⟨hkept, by simp, fun a ha b hb => ?_⟩
      obtain rfl := List.mem_singleton.1 hb
      have hmem := List.mem_eraseDups.1 ha
      have hlast : (l ++ [b]).idxOf b = l.length := by
        simp [List.idxOf_append_of_notMem hx]
      rw [hbefore a hmem, hlast]
      exact List.idxOf_lt_length_of_mem hmem

namespace Marker

open Text Cell

variable {look : List Char → Reference} {s t : List Char} {us : List (List Char)}

/-- Whether a symbol was replaced by a link in an earlier round. -/
def Linked (look : List Char → Reference) (earlier : List (List Char)) (s : List Char) : Prop :=
  s ∈ earlier ∧ (look s).link?.isSome

/-- Whether a backtick comes next, with no link in front of it. -/
def OpenTick (look : List Char → Reference) (earlier : List (List Char)) : List Segment → Prop
  | [] => False
  | .char c :: _ => c = tick
  | .symbol s :: _ => ¬ Linked look earlier s

/-- The text of a symbol stands behind another marker and in front of a backtick, and no link keeps
it from them. -/
def Exposed (look : List Char → Reference) (earlier : List (List Char)) (s : List Char)
    (line : List Segment) : Prop :=
  ∃ before a behind, line = before ++ .symbol a :: (s.map .char ++ behind) ∧ a ≠ s ∧
    ¬ Linked look earlier a ∧ OpenTick look earlier behind

/-- **Markers collide**: when a symbol has its round, its text is exposed behind another marker,
whose closing backtick is then taken for an opening one. -/
def Collides (look : List Char → Reference) (line : List Char) : Prop :=
  ∃ earlier s later, symbolsOf line = earlier ++ s :: later ∧ (look s).isStray = false ∧
    Exposed look earlier s (segments line)

theorem visible_replacedBy {earlier : List (List Char)} {u : List Char} :
    Cell.visible look ⟨u, replacedBy look earlier u⟩ = replacedBy look earlier u := by
  simp [visible, replacedBy]

theorem replacedBy_of_linked {earlier : List (List Char)} {u : List Char}
    (h : Linked look earlier u) : replacedBy look earlier u = true := by
  have hlook : (look u).isStray = false := by
    by_contra hstray
    have hlink := h.2
    rw [Reference.link?_of_isStray (by simpa using hstray)] at hlink
    cases hlink
  simp [replacedBy, h.1, hlook]

theorem mem_of_replacedBy {earlier : List (List Char)} {u : List Char}
    (h : replacedBy look earlier u = true) : u ∈ earlier := by
  simpa using (Bool.and_eq_true_iff.1 h).1

theorem closing_eq_nil_iff {earlier : List (List Char)} {u : List Char} :
    closing look ⟨u, replacedBy look earlier u⟩ = [] ↔ ¬ Linked look earlier u := by
  rw [closing, visible_replacedBy]
  by_cases hr : replacedBy look earlier u = true
  · rw [if_pos hr, Reference.closing, Linked]
    cases (look u).link? <;> simp [mem_of_replacedBy hr]
  · rw [if_neg hr]
    exact ⟨fun _ h => hr (replacedBy_of_linked h), fun _ => rfl⟩

theorem opening_eq_nil_iff {earlier : List (List Char)} {u : List Char} :
    opening look ⟨u, replacedBy look earlier u⟩ = [] ↔ ¬ Linked look earlier u := by
  rw [opening, visible_replacedBy]
  by_cases hr : replacedBy look earlier u = true
  · rw [if_pos hr, Reference.opening, Linked]
    cases (look u).link? <;> simp [mem_of_replacedBy hr]
  · rw [if_neg hr]
    exact ⟨fun _ h => hr (replacedBy_of_linked h), fun _ => rfl⟩

section Exposed

variable {earlier : List (List Char)}

theorem not_exposed_nil : ¬ Exposed look earlier s [] := by
  rintro ⟨before, a, behind, hl, -⟩
  cases before <;> cases hl

theorem exposed_char {c : Char} {l : List Segment} :
    Exposed look earlier s (.char c :: l) ↔ Exposed look earlier s l := by
  constructor
  · rintro ⟨before, a, behind, hl, h⟩
    cases before with
    | nil => cases hl
    | cons x before => exact ⟨before, a, behind, (List.cons.inj hl).2, h⟩
  · rintro ⟨before, a, behind, rfl, h⟩
    exact ⟨.char c :: before, a, behind, rfl, h⟩

theorem exposed_chars {u : List Char} {l : List Segment} :
    Exposed look earlier s (u.map .char ++ l) ↔ Exposed look earlier s l := by
  induction u with
  | nil => rfl
  | cons c u ih => exact exposed_char.trans ih

theorem exposed_symbol {a : List Char} {l : List Segment} :
    Exposed look earlier s (.symbol a :: l) ↔
      (∃ behind, l = s.map .char ++ behind ∧ a ≠ s ∧ ¬ Linked look earlier a ∧
        OpenTick look earlier behind) ∨ Exposed look earlier s l := by
  constructor
  · rintro ⟨before, x, behind, hl, h⟩
    cases before with
    | nil =>
      obtain ⟨ha, hrest⟩ := List.cons.inj hl
      cases ha
      exact Or.inl ⟨behind, hrest, h⟩
    | cons y before => exact Or.inr ⟨before, x, behind, (List.cons.inj hl).2, h⟩
  · rintro (⟨behind, rfl, h⟩ | ⟨before, x, behind, rfl, h⟩)
    · exact ⟨[], a, behind, rfl, h⟩
    · exact ⟨.symbol a :: before, x, behind, rfl, h⟩

/-- Two texts without backticks, each in front of a backtick or a marker, are the same. -/
theorem chars_append_inj {u v : List Char} {l l' : List Segment} (hu : tick ∉ u) (hv : tick ∉ v)
    (hl : ∀ c l₁, l = .char c :: l₁ → c = tick) (hl' : OpenTick look earlier l')
    (h : u.map .char ++ l = v.map .char ++ l') : u = v ∧ l = l' := by
  -- the text that ends first meets a backtick or a marker, and the other one holds neither
  induction u generalizing v with
  | nil =>
    cases v with
    | nil => exact ⟨rfl, h⟩
    | cons d v => exact absurd (hl d _ h) fun hd => hv (by simp [hd])
  | cons c u ih =>
    cases v with
    | nil =>
      have hl' : OpenTick look earlier (.char c :: (u.map .char ++ l)) := by
        rw [show Segment.char c :: (u.map .char ++ l) = l' from h]
        exact hl'
      exact absurd (show c = tick from hl') fun hc => hu (by simp [hc])
    | cons d v =>
      obtain ⟨hcd, hrest⟩ := List.cons.inj h
      cases hcd
      obtain ⟨rfl, rfl⟩ := ih (fun hm => hu (by simp [hm])) (fun hm => hv (by simp [hm])) hrest
      exact ⟨rfl, rfl⟩

/-- What follows the first piece of a line. -/
theorem segments_behind (v : List Char) (ht : ∀ u ∈ v :: us, tick ∉ u) :
    ∃ tail, segments (joined [tick] (v :: us)) = v.map .char ++ tail ∧
      (∀ c l, tail = .char c :: l → c = tick) ∧
      (OpenTick look earlier tail ↔
        ∃ e ∈ (marks (replacedBy look earlier) us).head?, e.opening look = []) := by
  have hv := ht v (by simp)
  have hhidden : ∀ u, opening look ⟨u, false⟩ = [] := fun u => opening_hidden rfl
  rcases us with _ | ⟨u, _ | ⟨w, rest⟩⟩
  · exact ⟨[], by simp [segments_joined_single hv], by simp, by simp [OpenTick, marks]⟩
  · exact ⟨_, segments_joined_pair hv (ht u (by simp)), by simp +contextual,
      by simp [OpenTick, marks, hhidden]⟩
  · by_cases hu : IsSymbol u
    · refine ⟨_, segments_joined_symbol hv (ht u (by simp)) hu w rest, by simp, ?_⟩
      rw [marks, if_pos hu]
      simp [OpenTick, opening_eq_nil_iff]
    · refine ⟨_, segments_joined_tick hv (ht u (by simp)) hu w rest, by simp +contextual, ?_⟩
      rw [marks, if_neg hu]
      simp [OpenTick, hhidden]

/-- **A round clashes exactly if the text of its symbol is exposed.** -/
theorem clash_iff_exposed (hs : tick ∉ s) (ht : ∀ u ∈ t :: us, tick ∉ u) :
    Clash look (replacedBy look earlier) s us ↔
      Exposed look earlier s (segments (joined [tick] (t :: us))) := by
  have hchars : ∀ u : List Char, ¬ Exposed look earlier s (u.map .char) := fun u h => by
    rw [← List.append_nil (u.map _), exposed_chars] at h
    exact not_exposed_nil h
  fun_induction Clash look (replacedBy look earlier) s us generalizing t with
  | case1 =>
    rw [segments_joined_single (ht t (by simp))]
    exact ⟨False.elim, hchars t⟩
  | case2 u =>
    rw [segments_joined_pair (ht t (by simp)) (ht u (by simp)), exposed_chars, exposed_char]
    exact ⟨False.elim, hchars u⟩
  | case3 u v rest hu ih =>
    have htv : ∀ x ∈ v :: rest, tick ∉ x := fun x hx =>
      ht x (List.mem_cons_of_mem _ (List.mem_cons_of_mem _ hx))
    obtain ⟨tail, htail, hstop, hopen⟩ := segments_behind v htv
    rw [segments_joined_symbol (ht t (by simp)) (ht u (by simp)) hu, exposed_chars, exposed_symbol,
      closing_eq_nil_iff, ← hopen]
    -- behind a marker, the piece `v` is all that stands in front of the next backtick
    refine or_congr ?_ (ih htv)
    rw [htail]
    constructor
    · rintro ⟨hus, rfl, hlinked, htick⟩
      exact ⟨tail, rfl, hus, hlinked, htick⟩
    · rintro ⟨behind, heq, hus, hlinked, htick⟩
      obtain ⟨rfl, rfl⟩ := chars_append_inj (ht v (by simp)) hs hstop htick heq
      exact ⟨hus, rfl, hlinked, htick⟩
  | case4 u v rest hu ih =>
    rw [segments_joined_tick (ht t (by simp)) (ht u (by simp)) hu, exposed_chars, exposed_char]
    exact ih fun x hx => ht x (List.mem_cons_of_mem _ hx)

end Exposed

theorem nodup_eraseDups (l : List (List Char)) : l.eraseDups.Nodup :=
  (pairwise_idxOf_eraseDups l).imp fun hlt heq => hlt.ne (congrArg l.idxOf heq)

theorem mem_symbolsOf {line s : List Char} : s ∈ symbolsOf line ↔ .symbol s ∈ segments line := by
  unfold symbolsOf
  rw [List.mem_eraseDups, markers_eq_symbols, List.mem_filterMap]
  constructor
  · rintro ⟨seg, hseg, hs⟩
    cases seg with
    | char c => cases hs
    | symbol x =>
      cases hs
      exact hseg
  · exact fun h => ⟨_, h, rfl⟩

/-- **The rounds give the line with each marker replaced on its own exactly if none collide.** -/
theorem resolveMarkers_eq_iff (hl : Legible look) (line : List Char) :
    resolveMarkers (fun s => (look s).markdown.toList) line =
      (segments line).flatMap (display look) ↔ ¬ Collides look line := by
  obtain ⟨t, us, hpieces⟩ := List.exists_cons_of_ne_nil (pieces_ne_nil tick line)
  have hline : joined [tick] (t :: us) = line := by rw [← hpieces, joined_pieces]
  have ht : ∀ u ∈ t :: us, tick ∉ u := hpieces ▸ notMem_of_mem_pieces line
  have hsymbols : ∀ s ∈ symbolsOf line, IsSymbol s := fun s hs =>
    isSymbol_of_mem_segments (mem_symbolsOf.1 hs)
  have hn : ([] ++ symbolsOf line).Nodup := nodup_eraseDups _
  have hwritten : ∀ S : List Char → Bool, (∀ s, S s = true → (look s).isStray = false) →
      written look ⟨t, false⟩ (marks S us) = (segments line).flatMap (displayIn look S) :=
    fun S hS => hline ▸ written_marks hS ht
  have hactive : ∀ done s, replacedBy look done s = true → (look s).isStray = false := by
    intro done s h
    simpa using (Bool.and_eq_true_iff.1 h).2
  -- no symbol is replaced at the start
  have hstart : written look ⟨t, false⟩ (marks (replacedBy look []) us) = line := by
    rw [hwritten _ (hactive [])]
    refine Eq.trans (List.flatMap_congr fun seg _ => ?_) (spell_segments line)
    cases seg with
    | char c => rfl
    | symbol s => simp [displayIn, Segment.spell, replacedBy]
  -- all symbols are replaced at the end, those that lead nowhere by themselves
  have hend : written look ⟨t, false⟩ (marks (replacedBy look (symbolsOf line)) us) =
      (segments line).flatMap (display look) := by
    rw [hwritten _ (hactive _)]
    refine List.flatMap_congr fun seg hseg => ?_
    cases seg with
    | char c => rfl
    | symbol s =>
      have hmem := mem_symbolsOf.2 hseg
      by_cases hlook : (look s).isStray = true
      · simp [displayIn, display, replacedBy, hlook, markdown_stray hl hlook]
      · simp [displayIn, display, replacedBy, hlook, hmem]
  have hclash : Collides look line ↔ Clashes look us [] (symbolsOf line) := by
    rw [clashes_iff]
    refine exists_congr fun earlier => exists_congr fun s => exists_congr fun later =>
      and_congr_right fun hsplit => and_congr_right fun _ => ?_
    have hs : IsSymbol s := hsymbols s (by simp [hsplit])
    rw [← hline]
    exact (clash_iff_exposed (hs.notMem isWordChar_tick (by decide)) ht).symm
  have hrounds : resolveMarkers (fun s => (look s).markdown.toList) line =
      (symbolsOf line).foldl (markerRound look) line := rfl
  rw [hrounds, hclash, ← hend]
  constructor
  · intro h hclash
    -- equal texts would have the same cells replaced, but with a clash not only markers are
    obtain ⟨ds, hds, hw, hresult⟩ := foldl_markerRound_of_clashes hl ht hsymbols hn hclash
    rw [hstart, h] at hresult
    have hvisible := visible_eq_of_written_eq hl (tick_notMem_cells ht hds) rfl
      (hds.trans map_text_marks.symm) hresult.symm
    exact hw (within_congr (List.cons_eq_cons.1 hvisible).2 within_marks)
  · intro h
    have hresult := foldl_markerRound_of_not_clashes hl ht hsymbols hn h
    rwa [hstart, List.nil_append] at hresult

end Marker

end Bindery

import Bindery.Proofs.StrayMarkers

/-!
# Lines of code spans

In a line whose backticks pair off, only the code spans can be markers, as long as no text between
two of them has the form of a symbol. Such a line is resolved span by span. What comes out is a line
of the same kind, and no marker in it leads anywhere.

* `Span`, `spanned`, `PairsOff`: lines of code spans, and what is asked of the texts between them.
* `segments_spanned`: the segments of such a line.
* `not_collides_spanned`: no markers collide in it.
* `shownSpans`, `PairsOff.shown`: the code spans of the line that comes out.
* `resolveLine_resolveLine`: **a line of code spans is resolved span by span, and resolving it again
  changes nothing**.
-/

namespace Bindery

namespace Text

/-- A code span and the text behind it, up to the next code span. -/
structure Span where
  code : List Char
  behind : List Char
deriving DecidableEq, Repr

/-- A text, and code spans each with the text behind it. -/
def spanned (front : List Char) (spans : List Span) : List Char :=
  front ++ spans.flatMap fun s => marker s.code ++ s.behind

/-- **The backticks of a line pair off.** No part of it has a backtick of its own, and no text
between two code spans has the form of a symbol. -/
structure PairsOff (front : List Char) (spans : List Span) : Prop where
  start : tick ∉ front
  code : ∀ s ∈ spans, tick ∉ s.code
  behind : ∀ s ∈ spans, tick ∉ s.behind
  between : ∀ s ∈ spans.dropLast, ¬ IsSymbol s.behind

variable {front : List Char} {s : Span} {spans : List Span}

theorem spanned_cons (front : List Char) (s : Span) (spans : List Span) :
    spanned front (s :: spans) = front ++ tick :: (s.code ++ tick :: spanned s.behind spans) := by
  simp [spanned, marker]

namespace PairsOff

theorem nil (h : tick ∉ front) : PairsOff front [] :=
  ⟨h, by simp, by simp, by simp⟩

theorem cons (hstart : tick ∉ front) (hcode : tick ∉ s.code)
    (hbetween : spans ≠ [] → ¬ IsSymbol s.behind) (h : PairsOff s.behind spans) :
    PairsOff front (s :: spans) where
  start := hstart
  code := List.forall_mem_cons.2 ⟨hcode, h.code⟩
  behind := List.forall_mem_cons.2 ⟨h.start, h.behind⟩
  between := by
    cases spans with
    | nil => simp
    | cons t rest => exact List.forall_mem_cons.2 ⟨hbetween (List.cons_ne_nil _ _), h.between⟩

theorem tail (h : PairsOff front (s :: spans)) : PairsOff s.behind spans where
  start := h.behind s (.head _)
  code t ht := h.code t (.tail _ ht)
  behind t ht := h.behind t (.tail _ ht)
  between t ht := by
    cases spans with
    | nil => cases ht
    | cons u rest => exact h.between t (.tail _ ht)

/-- The text behind a code span is no symbol if another code span follows. -/
theorem not_isSymbol_behind (h : PairsOff front (s :: spans)) (hne : spans ≠ []) :
    ¬ IsSymbol s.behind := by
  cases spans with
  | nil => exact absurd rfl hne
  | cons t rest => exact h.between s (.head _)

end PairsOff

/-- The segments of a code span. -/
def codeSegments (code : List Char) : List Segment :=
  if IsSymbol code then [.symbol code] else (marker code).map .char

/-- The segments of code spans and the texts behind them. -/
def spanSegments (spans : List Span) : List Segment :=
  spans.flatMap fun s => codeSegments s.code ++ s.behind.map .char

theorem spanSegments_cons (s : Span) (spans : List Span) : spanSegments (s :: spans) =
    codeSegments s.code ++ (s.behind.map .char ++ spanSegments spans) := by
  rw [spanSegments, List.flatMap_cons, List.append_assoc]
  rfl

/-- The closing backtick of a code span that is no marker does not open one. -/
theorem segments_tick_spanned (h : PairsOff front spans) (hfront : spans ≠ [] → ¬ IsSymbol front) :
    segments (tick :: spanned front spans) = .char tick :: segments (spanned front spans) := by
  cases spans with
  | nil =>
    have hline : spanned front [] = front := List.append_nil front
    rw [hline, segments_last h.start]
  | cons s rest =>
    rw [spanned_cons]
    exact segments_tick h.start (hfront (List.cons_ne_nil _ _)) _

/-- **The segments of a line of code spans.** -/
theorem segments_spanned (h : PairsOff front spans) :
    segments (spanned front spans) = front.map .char ++ spanSegments spans := by
  induction spans generalizing front with
  | nil =>
    have hline : spanned front [] = front := List.append_nil front
    rw [hline, segments_of_notMem h.start]
    simp [spanSegments]
  | cons s rest ih =>
    have hcode : tick ∉ s.code := h.code s (.head _)
    have hrest := ih h.tail
    rw [spanned_cons, segments_append h.start, spanSegments_cons, codeSegments]
    by_cases hs : IsSymbol s.code
    · rw [if_pos hs, segments_marker hcode hs, hrest]
      rfl
    · -- the closing backtick stays a character as well: what stands behind it is no symbol
      have hclosing := segments_tick_spanned h.tail h.not_isSymbol_behind
      rw [if_neg hs, segments_tick hcode hs, segments_append hcode, hclosing, hrest]
      simp [marker]

/-- The markers of a line of code spans are code spans. -/
theorem exists_of_mem_markers (h : PairsOff front spans) {x : List Char}
    (hx : x ∈ markers (spanned front spans)) : IsSymbol x ∧ ∃ s ∈ spans, s.code = x := by
  rw [markers_eq_symbols] at hx
  obtain ⟨segment, hsegment, hsymbol⟩ := List.mem_filterMap.1 hx
  cases segment with
  | char c => cases hsymbol
  | symbol y =>
    cases hsymbol
    refine ⟨isSymbol_of_mem_segments hsegment, ?_⟩
    rw [segments_spanned h] at hsegment
    have hchars : ∀ cs : List Char, Segment.symbol x ∉ cs.map .char := by simp
    have hspans := (List.mem_append.1 hsegment).resolve_left (hchars front)
    obtain ⟨s, hs, hmem⟩ := List.mem_flatMap.1 hspans
    have hcode := (List.mem_append.1 hmem).resolve_right (hchars s.behind)
    unfold codeSegments at hcode
    split at hcode
    · exact ⟨s, hs, Segment.symbol.inj (List.mem_singleton.1 hcode).symm⟩
    · exact absurd hcode (hchars _)

/-- A symbol has a point. -/
theorem dot_mem_of_isSymbol {x : List Char} (h : IsSymbol x) : '.' ∈ x := by
  obtain ⟨a, b, -, -, hx | ⟨c, -, hx⟩⟩ := isSymbol_iff_words.1 h
  · simp [hx]
  · simp [hx]

end Text

namespace Marker

open Text

variable {look : List Char → Reference} {front x : List Char} {spans : List Span}

/-- What follows a text between two code spans begins with a backtick or a marker. -/
theorem spanSegments_head {c : Char} {l : List Segment} (h : spanSegments spans = .char c :: l) :
    c = tick := by
  cases spans with
  | nil => cases h
  | cons s rest =>
    rw [spanSegments_cons, codeSegments] at h
    split at h
    · cases h
    · exact (Segment.char.inj (List.cons.inj h).1).symm

/-- **No symbol is exposed in a line of code spans**: the text behind a marker is no symbol, or
nothing follows it. -/
theorem not_exposed_spanned {earlier : List (List Char)} (hx : IsSymbol x)
    (h : PairsOff front spans) : ¬ Exposed look earlier x (spanSegments spans) := by
  induction spans generalizing front with
  | nil => exact not_exposed_nil
  | cons s rest ih =>
    have hrest : ¬ Exposed look earlier x (s.behind.map .char ++ spanSegments rest) := by
      rw [exposed_chars]
      exact ih h.tail
    rw [spanSegments_cons, codeSegments]
    by_cases hs : IsSymbol s.code
    · rw [if_pos hs, List.singleton_append, exposed_symbol, not_or]
      refine ⟨?_, hrest⟩
      -- the text up to the next backtick would have to be the symbol itself
      rintro ⟨after, hafter, -, -, hopen⟩
      have hxt : tick ∉ x := hx.notMem isWordChar_tick (by decide)
      obtain ⟨hbehind, hspans⟩ :=
        chars_append_inj h.tail.start hxt (fun _ _ => spanSegments_head) hopen hafter
      cases rest with
      | nil =>
        rw [← hspans] at hopen
        exact hopen
      | cons t rest => exact h.not_isSymbol_behind (List.cons_ne_nil _ _) (hbehind ▸ hx)
    · rw [if_neg hs, exposed_chars]
      exact hrest

/-- **No markers collide in a line of code spans.** -/
theorem not_collides_spanned (h : PairsOff front spans) :
    ¬ Collides look (spanned front spans) := by
  rintro ⟨earlier, s, later, hsymbols, -, hexposed⟩
  have hmem : s ∈ symbolsOf (spanned front spans) := by simp [hsymbols]
  have hs : IsSymbol s := isSymbol_of_mem_segments (mem_symbolsOf.1 hmem)
  rw [segments_spanned h, exposed_chars] at hexposed
  exact not_exposed_spanned hs h hexposed

/-- What a code span refers to; one that is no marker stands for itself. -/
def spanReference (look : List Char → Reference) (code : List Char) : Reference :=
  if IsSymbol code then look code else .stray (String.ofList code)

/-- **A line of code spans with each span shown on its own.** -/
def shownText (look : List Char → Reference) (front : List Char) (spans : List Span) : List Char :=
  front ++ spans.flatMap fun s => (spanReference look s.code).markdown.toList ++ s.behind

theorem flatMap_display_chars (cs : List Char) :
    (cs.map Segment.char).flatMap (display look) = cs := by
  induction cs with
  | nil => rfl
  | cons c cs ih =>
    rw [List.map_cons, List.flatMap_cons, ih]
    rfl

theorem flatMap_display_code (code : List Char) :
    (codeSegments code).flatMap (display look) = (spanReference look code).markdown.toList := by
  unfold codeSegments spanReference
  by_cases hs : IsSymbol code
  · rw [if_pos hs, if_pos hs, List.flatMap_singleton]
    rfl
  · rw [if_neg hs, if_neg hs, flatMap_display_chars]
    simp [Reference.markdown, Reference.link?, Reference.name, marker, tick]

/-- **A line of code spans is resolved span by span.** -/
theorem resolveMarkers_spanned (hl : Legible look) (h : PairsOff front spans) :
    resolveMarkers (fun s => (look s).markdown.toList) (spanned front spans) =
      shownText look front spans := by
  have hspans : (spanSegments spans).flatMap (display look) =
      spans.flatMap fun s => (spanReference look s.code).markdown.toList ++ s.behind := by
    rw [spanSegments, List.flatMap_assoc]
    refine List.flatMap_congr fun s _ => ?_
    rw [List.flatMap_append, flatMap_display_code, flatMap_display_chars]
  rw [(resolveMarkers_eq_iff hl _).2 (not_collides_spanned h), segments_spanned h,
    List.flatMap_append, flatMap_display_chars, hspans, shownText]

/-- What the first of some code spans puts in front of itself. -/
def opens (look : List Char → Reference) : List Span → List Char
  | [] => []
  | s :: _ => (spanReference look s.code).opening

/-- **The code spans of the line that comes out.** Links stand in the texts between them. -/
def shownSpans (look : List Char → Reference) : List Span → List Span
  | [] => []
  | s :: spans =>
    ⟨(spanReference look s.code).name.toList,
      (spanReference look s.code).closing ++ s.behind ++ opens look spans⟩ :: shownSpans look spans

theorem shownText_eq_spanned : shownText look front spans =
    spanned (front ++ opens look spans) (shownSpans look spans) := by
  induction spans generalizing front with
  | nil => simp [shownText, spanned, opens, shownSpans]
  | cons s rest ih =>
    have hfirst : shownText look front (s :: rest) =
        front ++ (spanReference look s.code).opening ++
          (marker (spanReference look s.code).name.toList ++
            shownText look ((spanReference look s.code).closing ++ s.behind) rest) := by
      simp [shownText, Reference.toList_markdown]
    rw [hfirst, ih]
    simp [spanned, shownSpans, opens, marker]

theorem exists_of_mem_shownSpans {t : Span} (h : t ∈ shownSpans look spans) :
    ∃ s ∈ spans, t.code = (spanReference look s.code).name.toList := by
  induction spans with
  | nil => cases h
  | cons s rest ih =>
    rcases List.mem_cons.1 h with rfl | h
    · exact ⟨s, .head _, rfl⟩
    · obtain ⟨s', hs', hcode⟩ := ih h
      exact ⟨s', .tail _ hs', hcode⟩

section Legible

variable (hl : Legible look)
include hl

/-- A code span is shown as itself, or without a point and a backtick. -/
theorem name_spanReference (code : List Char) :
    (spanReference look code).name.toList = code ∧ (IsSymbol code → (look code).isStray = true) ∨
      ∀ c ∈ (spanReference look code).name.toList, c ≠ tick ∧ c ≠ '.' := by
  unfold spanReference
  by_cases hs : IsSymbol code
  · rw [if_pos hs]
    by_cases hstray : (look code).isStray = true
    · exact Or.inl ⟨hl.stray code hstray, fun _ => hstray⟩
    · rw [Bool.not_eq_true] at hstray
      exact Or.inr (hl.name code hstray)
  · rw [if_neg hs]
    exact Or.inl ⟨by simp [Reference.name], fun h => absurd h hs⟩

theorem tick_notMem_closing_spanReference (code : List Char) :
    tick ∉ (spanReference look code).closing := by
  intro hmem
  unfold spanReference at hmem
  split at hmem
  · exact (hl.link code tick hmem).1 rfl
  · simp [Reference.closing, Reference.link?] at hmem

omit hl in
theorem tick_notMem_opens (spans : List Span) : tick ∉ opens look spans := by
  cases spans with
  | nil => simp [opens]
  | cons s rest =>
    show tick ∉ (spanReference look s.code).opening
    unfold Reference.opening
    split
    · decide
    · simp

omit hl in
/-- A link keeps the text between two code spans from being a symbol, and where there is none the
text is the old one. -/
theorem not_isSymbol_between {code behind : List Char} {rest : List Span}
    (h : ¬ IsSymbol behind) :
    ¬ IsSymbol ((spanReference look code).closing ++ behind ++ opens look rest) := by
  intro hs
  have hbracket : ∀ c, c = '[' ∨ c = ']' →
      c ∉ (spanReference look code).closing ++ behind ++ opens look rest := by
    rintro c (rfl | rfl)
    · exact hs.notMem (by rw [isWordChar_of_ascii] <;> decide) (by decide)
    · exact hs.notMem (by rw [isWordChar_of_ascii] <;> decide) (by decide)
  have hclosing : (spanReference look code).closing = [] := by
    by_contra hne
    refine hbracket ']' (.inr rfl) (List.mem_append_left _ (List.mem_append_left _ ?_))
    unfold Reference.closing at hne ⊢
    split at hne
    · exact .head _
    · exact absurd rfl hne
  have hopening : opens look rest = [] := by
    by_contra hne
    refine hbracket '[' (.inl rfl) (List.mem_append_right _ ?_)
    cases rest with
    | nil => exact absurd rfl hne
    | cons t more =>
      show '[' ∈ (spanReference look t.code).opening
      have hsome : ¬ (spanReference look t.code).opening = [] := hne
      unfold Reference.opening at hsome ⊢
      split at hsome
      · rename_i hlink
        rw [if_pos hlink]
        exact .head _
      · exact absurd rfl hsome
  rw [hclosing, hopening, List.nil_append, List.append_nil] at hs
  exact h hs

/-- **The line that comes out is one of code spans again.** -/
theorem pairsOff_shown (h : PairsOff front spans) :
    PairsOff (front ++ opens look spans) (shownSpans look spans) := by
  induction spans generalizing front with
  | nil => exact .nil (by simpa [opens] using h.start)
  | cons s rest ih =>
    have hrest := ih h.tail
    have hclosing := tick_notMem_closing_spanReference hl s.code
    refine .cons ?_ ?_ (fun hne => ?_) ⟨?_, hrest.code, hrest.behind, hrest.between⟩
    · simp [h.start, tick_notMem_opens]
    · rcases name_spanReference hl s.code with ⟨hsame, -⟩ | hname
      · rw [hsame]
        exact h.code s (.head _)
      · exact fun hmem => (hname tick hmem).1 rfl
    · have hspans : rest ≠ [] := by
        rintro rfl
        exact hne rfl
      exact not_isSymbol_between (h.not_isSymbol_behind hspans)
    · simp [hclosing, h.tail.start, tick_notMem_opens]

/-- **All markers of the line that comes out lead nowhere.** -/
theorem isStray_of_mem_shownText (h : PairsOff front spans)
    (hx : x ∈ markers (shownText look front spans)) : (look x).isStray = true := by
  rw [shownText_eq_spanned] at hx
  obtain ⟨hsymbol, t, ht, rfl⟩ := exists_of_mem_markers (pairsOff_shown hl h) hx
  obtain ⟨s, -, hcode⟩ := exists_of_mem_shownSpans ht
  rw [hcode] at hsymbol ⊢
  rcases name_spanReference hl s.code with ⟨hsame, hstray⟩ | hname
  · rw [hsame] at hsymbol ⊢
    exact hstray hsymbol
  · -- what else is shown has no point, and so is no symbol
    exact absurd rfl (hname '.' (dot_mem_of_isSymbol hsymbol)).2

end Legible

end Marker

open Text

namespace Registry

variable {r : Registry} {front : List Char} {spans : List Span}

/-- **Resolving a line of code spans again changes nothing.** In an interface with plain names, a
line whose backticks pair off is resolved span by span, and what comes out is resolved to itself. -/
theorem resolveLine_resolveLine (hr : r.Plain) (h : PairsOff front spans) :
    r.resolveLine (String.ofList (spanned front spans)) =
        String.ofList (Marker.shownText (fun s => r.lookUp (String.ofList s)) front spans) ∧
      r.resolveLine (r.resolveLine (String.ofList (spanned front spans))) =
        r.resolveLine (String.ofList (spanned front spans)) := by
  have hlegible := legible_lookUp hr
  have honce : r.resolveLine (String.ofList (spanned front spans)) =
      String.ofList (Marker.shownText (fun s => r.lookUp (String.ofList s)) front spans) := by
    rw [resolveLine, String.toList_ofList, Marker.resolveMarkers_spanned hlegible h]
  refine ⟨honce, ?_⟩
  rw [honce]
  refine resolveLine_of_stray fun x hx => ?_
  rw [String.toList_ofList] at hx
  exact isStray_lookUp_iff.1 (Marker.isStray_of_mem_shownText hlegible h hx)

/-- A line with an entry, a case, a symbol that leads nowhere and a span that is no marker. -/
theorem resolveLine_resolveLine_sample : sample.registry.Plain ∧
    sample.registry.resolveLine "`handle.y`, `enumeration.x.a`, `handle.z`: `a b`" =
      "[`TiY`](#handle-tiy), `TiX::A`, `handle.z`: `a b`" ∧
    sample.registry.resolveLine "[`TiY`](#handle-tiy), `TiX::A`, `handle.z`: `a b`" =
      "[`TiY`](#handle-tiy), `TiX::A`, `handle.z`: `a b`" := by
  have hpairs : PairsOff [] [⟨"handle.y".toList, ", ".toList⟩,
      ⟨"enumeration.x.a".toList, ", ".toList⟩, ⟨"handle.z".toList, ": ".toList⟩,
      ⟨"a b".toList, []⟩] := by
    constructor <;> decide
  obtain ⟨honce, htwice⟩ := resolveLine_resolveLine sample_plain hpairs
  have hshown : String.ofList (Marker.shownText
      (fun s => sample.registry.lookUp (String.ofList s)) [] [⟨"handle.y".toList, ", ".toList⟩,
        ⟨"enumeration.x.a".toList, ", ".toList⟩, ⟨"handle.z".toList, ": ".toList⟩,
        ⟨"a b".toList, []⟩]) = "[`TiY`](#handle-tiy), `TiX::A`, `handle.z`: `a b`" := by
    decide
  rw [hshown] at honce
  rw [honce] at htwice
  exact ⟨sample_plain, honce, htwice⟩

end Registry

end Bindery

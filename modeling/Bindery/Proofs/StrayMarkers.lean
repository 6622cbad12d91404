import Bindery.Proofs.WrittenNames

/-!
# Markers that lead nowhere

A marker whose symbol leads nowhere is reported and shown as it is. The symbols of a line are
collected first, each once; then each is looked up, and replaced everywhere by what it is shown as.

* `isSymbol_iff_words`: a symbol is two or three words with points between them.
* `MarkersOf`, `markersOf_iff`: **the markers of a line**, as a search from the left that goes on
  behind each of them finds them.
* `Registry.Resolves`, `isStray_lookUp_iff`: the symbols that lead somewhere, and all others.
* `Registry.LeadsNowhere`, `leadsNowhere_iff`: the reasons for which a symbol leads nowhere.
* `resolveLine_of_stray`: **a line whose markers all lead nowhere is shown as it is**.
* `stray_markers_reported`: **each symbol of a line that leads nowhere is reported once**, in the
  order of the line.
-/

namespace Bindery

namespace Text

theorem isWord_of_wordAt? {cs w rest : List Char} (h : wordAt? cs = some (w, rest)) :
    IsWord (String.ofList w) := by
  refine ⟨?_, by simpa using (wordAt?_spells h).2⟩
  unfold wordAt? at h
  split at h
  · cases h
  · rename_i hne
    cases h
    simpa using hne

theorem exists_of_pointWordAt? {cs w rest : List Char} (h : pointWordAt? cs = some (w, rest)) :
    ∃ word, IsWord word ∧ w = '.' :: word.toList := by
  unfold pointWordAt? at h
  split at h
  · obtain ⟨⟨word, after⟩, hw, hp⟩ := Option.map_eq_some_iff.1 h
    cases hp
    exact ⟨String.ofList word, isWord_of_wordAt? hw, by simp⟩
  · cases h

/-- A point and a word in front of another point, or at the end. -/
theorem pointWordAt?_word {word : String} (h : IsWord word) {rest : List Char}
    (hrest : ∀ c ∈ rest.head?, isWordChar c = false) :
    pointWordAt? ('.' :: word.toList ++ rest) = some ('.' :: word.toList, rest) := by
  simp [pointWordAt?, wordAt?_word h hrest]

/-- **A symbol is two or three words with points between them.** -/
theorem isSymbol_iff_words {u : List Char} : IsSymbol u ↔
    ∃ a b, IsWord a ∧ IsWord b ∧ (u = (a ++ "." ++ b).toList ∨
      ∃ c, IsWord c ∧ u = (a ++ "." ++ b ++ "." ++ c).toList) := by
  have hpoint : ∀ rest : List Char, ∀ c ∈ ('.' :: rest).head?, isWordChar c = false :=
    fun _ c hc => Option.some.inj hc ▸ isWordChar_point
  have hnil : ∀ c ∈ ([] : List Char).head?, isWordChar c = false := by simp
  constructor
  · intro h
    unfold IsSymbol symbolAt? at h
    rcases hfirst : wordAt? u with _ | ⟨first, afterFirst⟩
    · simp [hfirst] at h
    rcases hsecond : pointWordAt? afterFirst with _ | ⟨second, afterSecond⟩
    · simp [hfirst, hsecond] at h
    obtain ⟨b, hb, rfl⟩ := exists_of_pointWordAt? hsecond
    refine ⟨String.ofList first, b, isWord_of_wordAt? hfirst, hb, ?_⟩
    rcases hthird : pointWordAt? afterSecond with _ | ⟨third, afterThird⟩
    · left
      simp only [hfirst, hsecond, hthird, Option.bind_eq_bind, Option.bind_some, Option.getD_none,
        List.append_nil, Option.some.injEq, Prod.mk.injEq] at h
      simp [← h.1, String.toList_append]
    · right
      obtain ⟨c, hc, rfl⟩ := exists_of_pointWordAt? hthird
      simp only [hfirst, hsecond, hthird, Option.bind_eq_bind, Option.bind_some, Option.getD_some,
        Option.some.injEq, Prod.mk.injEq] at h
      exact ⟨c, hc, by simp [← h.1, String.toList_append]⟩
  · rintro ⟨a, b, ha, hb, rfl | ⟨c, hc, rfl⟩⟩
    · have hfirst : wordAt? (a.toList ++ '.' :: b.toList) = some (a.toList, '.' :: b.toList) :=
        wordAt?_word ha (hpoint _)
      have hsecond : pointWordAt? ('.' :: b.toList ++ []) = some ('.' :: b.toList, []) :=
        pointWordAt?_word hb hnil
      rw [List.append_nil] at hsecond
      have hthird : pointWordAt? [] = none := rfl
      simp [IsSymbol, symbolAt?, String.toList_append, hfirst, hsecond, hthird]
    · have hfirst : wordAt? (a.toList ++ '.' :: (b.toList ++ '.' :: c.toList)) =
          some (a.toList, '.' :: (b.toList ++ '.' :: c.toList)) :=
        wordAt?_word ha (hpoint _)
      have hsecond : pointWordAt? ('.' :: (b.toList ++ '.' :: c.toList)) =
          some ('.' :: b.toList, '.' :: c.toList) :=
        pointWordAt?_word hb (hpoint _)
      have hthird : pointWordAt? ('.' :: c.toList ++ []) = some ('.' :: c.toList, []) :=
        pointWordAt?_word hc hnil
      rw [List.append_nil] at hthird
      simp [IsSymbol, symbolAt?, String.toList_append, hfirst, hsecond, hthird]

/-- **The markers of a line**, by a search from the left: it goes on behind a marker, and behind a
character that no marker begins with. -/
inductive MarkersOf : List Char → List (List Char) → Prop
  | nil : MarkersOf [] []
  | marker {symbol rest : List Char} {symbols : List (List Char)} (hs : IsSymbol symbol)
    (h : MarkersOf rest symbols) : MarkersOf (marker symbol ++ rest) (symbol :: symbols)
  | char {c : Char} {cs : List Char} {symbols : List (List Char)}
    (hc : ∀ symbol rest, IsSymbol symbol → c :: cs ≠ Text.marker symbol ++ rest)
    (h : MarkersOf cs symbols) : MarkersOf (c :: cs) symbols

theorem markersAfter_append (x rest : List Char) :
    markersAfter x.length (x ++ rest) = markers rest := by
  induction x with
  | nil => rfl
  | cons c x ih => exact ih

theorem markers_marker {symbol : List Char} (hs : IsSymbol symbol) (rest : List Char) :
    markers (marker symbol ++ rest) = symbol :: markers rest := by
  have htick : tick ∉ symbol := hs.notMem isWordChar_tick (by decide)
  have hline : marker symbol ++ rest = tick :: (symbol ++ tick :: rest) := by simp [marker]
  have hrest : markersAfter (symbol.length + 1) (symbol ++ tick :: rest) = markers rest := by
    simpa using markersAfter_append (symbol ++ [tick]) rest
  rw [hline, markers, markersAfter, if_pos rfl, markerAt?_append htick, if_pos hs]
  exact congrArg _ hrest

theorem markersOf_markers (line : List Char) : MarkersOf line (markers line) := by
  suffices h : ∀ skip cs, MarkersOf (cs.drop skip) (markersAfter skip cs) from h 0 line
  intro skip cs
  fun_induction markersAfter skip cs with
  | case1 skip =>
    rw [List.drop_nil]
    exact .nil
  | case2 skip c cs ih => exact ih
  | case3 cs symbol hm ih =>
    -- what is passed over is the rest of the marker
    obtain ⟨rest, rfl⟩ := markerAt?_spells hm
    have hdrop : (symbol ++ tick :: rest).drop (symbol.length + 1) = rest := by
      simp [List.drop_append]
    rw [hdrop] at ih
    simpa [Text.marker] using MarkersOf.marker (isSymbol_of_markerAt? hm) ih
  | case4 cs hm ih =>
    refine .char (fun symbol rest hs heq => ?_) ih
    have htick : tick ∉ symbol := hs.notMem isWordChar_tick (by decide)
    obtain rfl : cs = symbol ++ tick :: rest := by simpa [Text.marker] using heq
    rw [markerAt?_append htick, if_pos hs] at hm
    cases hm
  | case5 c cs hc ih =>
    refine .char (fun symbol rest _ heq => hc ?_) ih
    exact (List.cons.inj heq).1

/-- **The search finds the markers**, and there is only one way in which it can. -/
theorem markersOf_iff {line : List Char} {symbols : List (List Char)} :
    MarkersOf line symbols ↔ symbols = markers line := by
  constructor
  · intro h
    induction h with
    | nil => rfl
    | marker hs h ih => rw [markers_marker hs, ih]
    | @char c cs symbols hc h ih =>
      rw [ih, markers, markers, markersAfter]
      by_cases htick : c = tick
      · subst htick
        rw [if_pos rfl]
        rcases hm : markerAt? cs with _ | symbol
        · rfl
        · obtain ⟨rest, rfl⟩ := markerAt?_spells hm
          exact absurd (by simp [Text.marker]) (hc symbol rest (isSymbol_of_markerAt? hm))
      · rw [if_neg htick]
  · rintro rfl
    exact markersOf_markers line

end Text

open Text

namespace Registry

variable {r : Registry}

/-- **A symbol that leads somewhere**: to an entry with an identifier, by its id, or to a member
that the entry shows, by the id and the name of the member. -/
inductive Resolves (r : Registry) : String → Prop
  | entry {tag name ident : String} {e : Entry} (ht : PointFree tag) (hn : PointFree name)
    (he : r.find? (tag ++ "." ++ name) = some e) (hi : e.declaredIdent = .ok ident) :
    Resolves r (tag ++ "." ++ name)
  | member {tag name member shown : String} {e : Entry} (ht : PointFree tag) (hn : PointFree name)
    (he : r.find? (tag ++ "." ++ name) = some e) (hm : e.memberIdent? member = some shown) :
    Resolves r (tag ++ "." ++ name ++ "." ++ member)

/-- The forms of a symbol. -/
theorem symbol_cases (symbol : String) : PointFree symbol ∨
    ∃ tag name, PointFree tag ∧ PointFree name ∧
      (symbol = tag ++ "." ++ name ∨ ∃ member, symbol = tag ++ "." ++ name ++ "." ++ member) := by
  have hjoin := joined_pieces '.' symbol.toList
  have hfree : ∀ p ∈ pieces '.' symbol.toList, '.' ∉ p := notMem_of_mem_pieces symbol.toList
  rcases hp : pieces '.' symbol.toList with _ | ⟨tag, _ | ⟨name, rest⟩⟩
  · exact absurd hp (pieces_ne_nil _ _)
  · left
    rw [hp] at hjoin hfree
    have hone : tag = symbol.toList := hjoin
    rw [PointFree, ← hone]
    exact hfree tag (.head _)
  · right
    rw [hp] at hjoin hfree
    refine ⟨String.ofList tag, String.ofList name, ?_, ?_, ?_⟩
    · simpa [PointFree] using hfree tag (.head _)
    · simpa [PointFree] using hfree name (.tail _ (.head _))
    · rcases rest with _ | ⟨m, ms⟩
      · left
        rw [← String.toList_inj, ← hjoin]
        simp [joined, String.toList_append]
      · right
        refine ⟨String.ofList (joined ['.'] (m :: ms)), ?_⟩
        rw [← String.toList_inj, ← hjoin]
        simp [joined_cons_cons, String.toList_append]

theorem Resolves.isStray_lookUp {symbol : String} (h : r.Resolves symbol) :
    (r.lookUp symbol).isStray = false := by
  cases h with
  | entry ht hn he hi =>
    obtain ⟨heading, hheading⟩ := heading_of_declaredIdent hi
    rw [lookUp_pair ht hn, he, Option.bind_some, reference?_none hi hheading]
    rfl
  | member ht hn he hm =>
    rw [lookUp_member ht hn, he, Option.bind_some, hm]
    rfl

/-- **A symbol is shown as it is exactly if it does not lead somewhere.** -/
theorem isStray_lookUp_iff {symbol : String} :
    (r.lookUp symbol).isStray = true ↔ ¬ r.Resolves symbol := by
  constructor
  · intro h hresolves
    rw [hresolves.isStray_lookUp] at h
    cases h
  · intro h
    obtain hfree | ⟨tag, name, ht, hn, rfl | ⟨member, rfl⟩⟩ := symbol_cases symbol
    · rw [r.straysApart.word symbol hfree]
      rfl
    · rw [lookUp_pair ht hn]
      rcases he : r.find? (tag ++ "." ++ name) with _ | e
      · rfl
      · rcases hi : e.declaredIdent with err | ident
        · simp [Entry.reference?, hi, Reference.isStray]
        · exact absurd (.entry ht hn he hi) h
    · rw [lookUp_member ht hn]
      rcases he : r.find? (tag ++ "." ++ name) with _ | e
      · rfl
      · rcases hm : e.memberIdent? member with _ | shown
        · simp [hm, Reference.isStray]
        · exact absurd (.member ht hn he hm) h

/-- **The reasons for which a symbol leads nowhere**: it has no point, there is no such entry, the
entry has no identifier, it has no such member, or the member is a case that cannot be spelled. -/
inductive LeadsNowhere (r : Registry) : String → Prop
  | word {symbol : String} (h : PointFree symbol) : LeadsNowhere r symbol
  | unknown {tag name : String} (ht : PointFree tag) (hn : PointFree name)
    (he : r.find? (tag ++ "." ++ name) = none) : LeadsNowhere r (tag ++ "." ++ name)
  | unknownMember {tag name member : String} (ht : PointFree tag) (hn : PointFree name)
    (he : r.find? (tag ++ "." ++ name) = none) :
    LeadsNowhere r (tag ++ "." ++ name ++ "." ++ member)
  | undeclared {tag name : String} {e : Entry} (ht : PointFree tag) (hn : PointFree name)
    (he : r.find? (tag ++ "." ++ name) = some e) (hk : e.kind = .builtin ∨ e.kind = .callback) :
    LeadsNowhere r (tag ++ "." ++ name)
  | noMember {tag name member : String} {e : Entry} (ht : PointFree tag) (hn : PointFree name)
    (he : r.find? (tag ++ "." ++ name) = some e) (hm : member ∉ e.memberNames.map Name.display) :
    LeadsNowhere r (tag ++ "." ++ name ++ "." ++ member)
  | unspelled {tag name member id : String} {full : Name} {cases : List Case} {c : Case}
    {err : BindingError} (ht : PointFree tag) (hn : PointFree name)
    (he : r.find? (tag ++ "." ++ name) = some (.declared id full (.enumeration cases)))
    (hc : findCase? cases member = some c) (hs : caseIdent id full c.name = .error err) :
    LeadsNowhere r (tag ++ "." ++ name ++ "." ++ member)

/-- Only built-in types and callbacks have no identifier. -/
theorem declaredIdent_error {e : Entry} {err : BindingError} (h : e.declaredIdent = .error err) :
    e.kind = .builtin ∨ e.kind = .callback := by
  cases e with
  | builtin id spelling => exact .inl rfl
  | declared id full shape =>
    by_cases hk : shape.kind = .callback
    · exact .inr hk
    · obtain ⟨ident, hi⟩ := identBy_ok hk (fun name => name) id full
      rw [Entry.declaredIdent, hi] at h
      cases h

/-- A member that is not shown is missing, or a case that cannot be spelled. -/
theorem memberIdent?_none {e : Entry} {member : String} (h : e.memberIdent? member = none) :
    member ∉ e.memberNames.map Name.display ∨ ∃ id full cases c err,
      e = .declared id full (.enumeration cases) ∧ findCase? cases member = some c ∧
        caseIdent id full c.name = .error err := by
  cases e with
  | builtin id spelling => exact .inl (by simp [Entry.memberNames])
  | declared id full shape =>
    cases shape with
    | enumeration cases =>
      rcases hc : findCase? cases member with _ | c
      · left
        have hnone := List.find?_eq_none.1 hc
        simpa [Entry.memberNames, mem_memberNames, Shape.cases, Shape.bits,
          Shape.fields] using hnone
      · rcases hs : caseIdent id full c.name with err | ident
        · exact .inr ⟨id, full, cases, c, err, rfl, hc, hs⟩
        · simp [Entry.memberIdent?, hc, hs] at h
    | bitField bits =>
      left
      have hnone := List.find?_eq_none.1 (Option.map_eq_none_iff.1 h)
      simpa [Entry.memberNames, mem_memberNames, Shape.cases, Shape.bits, Shape.fields] using hnone
    | _ =>
      left
      have hnone := List.find?_eq_none.1 h
      intro hmem
      obtain ⟨n, hn, rfl⟩ := List.mem_map.1 hmem
      obtain ⟨f, hf, rfl⟩ : ∃ f ∈ Shape.fields _, f.name = n := by
        simpa [Entry.memberNames, mem_memberNames, Shape.cases, Shape.bits] using hn
      exact hnone _ (List.mem_map_of_mem hf) (by simp)

/-- **A symbol leads nowhere for one of the reasons**, or it leads somewhere. -/
theorem leadsNowhere_iff {symbol : String} : r.LeadsNowhere symbol ↔ ¬ r.Resolves symbol := by
  rw [← isStray_lookUp_iff]
  constructor
  · intro h
    cases h with
    | word h =>
      rw [r.straysApart.word symbol h]
      rfl
    | unknown ht hn he =>
      rw [lookUp_pair ht hn, he]
      rfl
    | unknownMember ht hn he =>
      rw [lookUp_member ht hn, he]
      rfl
    | @undeclared tag name e ht hn he hk =>
      have hident : ∃ err, e.declaredIdent = .error err := by
        cases e with
        | builtin id spelling => exact ⟨_, rfl⟩
        | declared id full shape =>
          cases shape with
          | callback signature => exact ⟨_, rfl⟩
          | _ => simp [Entry.kind, Shape.kind] at hk
      obtain ⟨err, herr⟩ := hident
      rw [lookUp_pair ht hn, he, Option.bind_some]
      simp [Entry.reference?, herr, Reference.isStray]
    | noMember ht hn he hm =>
      rw [r.straysApart.foreign _ _ _ _ ht hn he hm]
      rfl
    | unspelled ht hn he hc hs =>
      rw [lookUp_member ht hn, he, Option.bind_some]
      simp [Entry.memberIdent?, hc, hs, Reference.isStray]
  · intro h
    have hnot := isStray_lookUp_iff.1 h
    obtain hfree | ⟨tag, name, ht, hn, rfl | ⟨member, rfl⟩⟩ := symbol_cases symbol
    · exact .word hfree
    · rcases he : r.find? (tag ++ "." ++ name) with _ | e
      · exact .unknown ht hn he
      · rcases hi : e.declaredIdent with err | ident
        · exact .undeclared ht hn he (declaredIdent_error hi)
        · exact absurd (.entry ht hn he hi) hnot
    · rcases he : r.find? (tag ++ "." ++ name) with _ | e
      · exact .unknownMember ht hn he
      · rcases hm : e.memberIdent? member with _ | shown
        · obtain hnone | ⟨id, full, cases, c, err, rfl, hc, hs⟩ := memberIdent?_none hm
          · exact .noMember ht hn he hnone
          · exact .unspelled ht hn he hc hs
        · exact absurd (.member ht hn he hm) hnot

/-- What an entry or a member is shown as is no stray symbol. -/
theorem isStray_of_reference? {e : Entry} {member : Option String} {shown : Reference}
    (h : e.reference? member = some shown) : shown.isStray = false := by
  cases member with
  | some member =>
    obtain ⟨ident, -, rfl⟩ := Option.map_eq_some_iff.1 h
    rfl
  | none =>
    simp only [Entry.reference?] at h
    split at h
    · cases h
      rfl
    · cases h

theorem lookUp_of_not_resolves {symbol : String} (h : ¬ r.Resolves symbol) :
    r.lookUp symbol = .stray symbol := by
  refine (r.lookUp_cases symbol).resolve_right ?_
  rintro ⟨-, e, -, member, hreference⟩
  rw [← isStray_lookUp_iff, isStray_of_reference? hreference] at h
  cases h

/-- **A line whose markers all lead nowhere is shown as it is**: each of them is replaced by itself,
wherever it stands. -/
theorem resolveLine_of_stray {line : String}
    (h : ∀ symbol ∈ markers line.toList, ¬ r.Resolves (String.ofList symbol)) :
    r.resolveLine line = line := by
  suffices hfold : ∀ (symbols : List (List Char)) (text : List Char),
      (∀ symbol ∈ symbols, ¬ r.Resolves (String.ofList symbol)) →
      symbols.foldl (fun text s => replaceAll (marker s)
        (r.lookUp (String.ofList s)).markdown.toList text) text = text by
    have hall : ∀ symbol ∈ symbolsOf line.toList, ¬ r.Resolves (String.ofList symbol) :=
      fun symbol hsymbol => h symbol (List.mem_eraseDups.1 hsymbol)
    rw [resolveLine, resolveMarkers, hfold _ _ hall, String.ofList_toList]
  intro symbols text hsymbols
  induction symbols generalizing text with
  | nil => rfl
  | cons symbol symbols ih =>
    obtain ⟨hfirst, hrest⟩ := List.forall_mem_cons.1 hsymbols
    have hshown : (r.lookUp (String.ofList symbol)).markdown.toList = marker symbol := by
      rw [lookUp_of_not_resolves hfirst]
      simp [Reference.markdown, Reference.link?, Reference.name, marker, tick,
        String.toList_append]
    rw [List.foldl_cons, hshown, replaceAll_self (by simp [marker]), ih text hrest]

/-- **The reports on the markers of a line**: those that do not lead somewhere, each once, in the
order in which they stand first in the line. -/
structure Reports (r : Registry) (symbols strays : List (List Char)) : Prop where
  nodup : strays.Nodup
  mem_iff : ∀ symbol, symbol ∈ strays ↔ symbol ∈ symbols ∧ ¬ r.Resolves (String.ofList symbol)
  order : strays.Pairwise fun a b => symbols.idxOf a < symbols.idxOf b

theorem exists_reports (r : Registry) (line : String) : ∃ strays,
    r.strayMarkers line = strays.map String.ofList ∧ r.Reports (markers line.toList) strays := by
  refine ⟨(symbolsOf line.toList).filter fun s => (r.lookUp (String.ofList s)).isStray,
    List.filter_map, (Marker.nodup_eraseDups _).filter _, fun symbol => ?_,
    (pairwise_idxOf_eraseDups _).filter _⟩
  rw [List.mem_filter, symbolsOf, List.mem_eraseDups, isStray_lookUp_iff]

end Registry

namespace Setting

variable {s : Setting}

/-- What a line of documentation amounts to; it cannot fail. -/
theorem events_docLine (sign line : String) :
    (s.docLine sign line).events = (s.registry.strayMarkers line).map .strayMarker := by
  have hreports : ∀ strays : List String,
      Script.collect Step.event? (strays.map fun m => .report (.strayMarker m)) =
        strays.map .strayMarker := by
    intro strays
    rw [Script.collect_map, ← List.filterMap_eq_map]
    rfl
  rw [Script.events, Script.sound_eq_self (remarks_docLine sign line).failures_eq_nil, docLine,
    Script.collect_append, hreports]
  exact List.append_nil _

theorem lines_docLine (sign line : String) :
    (s.docLine sign line).lines = [sign ++ s.registry.resolveLine line] := by
  have hnone : ∀ strays : List String,
      Script.collect Step.line? (strays.map fun m => .report (.strayMarker m)) = [] := by
    intro strays
    rw [Script.collect_map]
    exact List.filterMap_eq_nil_iff.2 fun _ _ => rfl
  rw [Script.lines_of_failures_nil (remarks_docLine sign line).failures_eq_nil, docLine,
    Script.written, Script.collect_append, hnone]
  rfl

end Setting

/-- **Markers that lead nowhere are reported and kept.** Writing a line of documentation reports
exactly the symbols of its markers that do not lead somewhere, each once and in the order in which
they stand first. If none leads somewhere, the line is written as it is. -/
theorem stray_markers_reported (s : Setting) (sign line : String) :
    ∃ symbols strays, MarkersOf line.toList symbols ∧ s.registry.Reports symbols strays ∧
      (s.docLine sign line).events = strays.map (.strayMarker <| String.ofList ·) ∧
      (s.docLine sign line).lines = [sign ++ s.registry.resolveLine line] ∧
      ((∀ symbol ∈ symbols, ¬ s.registry.Resolves (String.ofList symbol)) →
        s.registry.resolveLine line = line) := by
  obtain ⟨strays, hstrays, hreports⟩ := s.registry.exists_reports line
  refine ⟨markers line.toList, strays, markersOf_markers _, hreports, ?_,
    Setting.lines_docLine sign line, Registry.resolveLine_of_stray⟩
  rw [Setting.events_docLine, hstrays, List.map_map]
  rfl

/-- The setting of the only module of the sample. -/
def sampleSetting : Setting :=
  sample.settingOf .default sampleModule

/-- In the first line, markers share backticks with other texts, and two of them lead nowhere. In
the second line none leads somewhere: there is no such entry, a callback is not declared, and the
enumeration has no such case. -/
theorem stray_markers_reported_sample :
    (sampleSetting.docLine "/// " "`b.z``handle.y`b.z` `a.z` `enumeration.x.a` `b.z`").events =
        [.strayMarker "b.z", .strayMarker "a.z"] ∧
      (sampleSetting.docLine "/// " "`b.z`b.z` `callback.f``enumeration.x.b` `b.z`").lines =
        ["/// `b.z`b.z` `callback.f``enumeration.x.b` `b.z`"] := by
  constructor
  · rw [Setting.events_docLine]
    decide
  · obtain ⟨symbols, strays, hmarkers, -, -, hlines, hsame⟩ := stray_markers_reported sampleSetting
      "/// " "`b.z`b.z` `callback.f``enumeration.x.b` `b.z`"
    have hnone : ∀ symbol ∈ markers "`b.z`b.z` `callback.f``enumeration.x.b` `b.z`".toList,
        (sampleSetting.registry.lookUp (String.ofList symbol)).isStray = true := by
      decide
    rw [hlines, hsame fun symbol hsymbol => ?_]
    · rfl
    · rw [markersOf_iff.1 hmarkers] at hsymbol
      exact Registry.isStray_lookUp_iff.1 (hnone symbol hsymbol)

end Bindery

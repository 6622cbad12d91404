import Bindery.Proofs.CrossReference
import Bindery.Proofs.Marker.Resolution
import Bindery.Proofs.Parameters

/-!
# Members under the names that a document gives them

Names are put into one form when they are loaded: in lower case, with one underscore between words.
The texts that name a member are not. The count of a field, the key of a note and the symbol in a
marker are compared with the displayed name as they stand.

* `Canonical`, `canonical_iff`: the names that are displayed as they are written.
* `DraftShape.memberNames`, `mem_display_iff`: **the written name of a member is a displayed one
  exactly if it is canonical**.
* `plain_of_loaded`: **texts of letters, digits and underscores make plain names**.
* `mem_faults_iff`: counts.
* `Setting.NotesMember`, `notesMember_of_mem`, `declare_withNote`: notes.
* `isSymbol_iff`, `resolveLine_marked`: markers.
* `member_found_iff`: **a member is found under its written name exactly if that is canonical**;
  `members_not_found`: members that are not.
-/

namespace Bindery

open Text

/-- **A name that is displayed as it is written.** -/
def Canonical (m : String) : Prop :=
  (Name.new m).display = m

instance (m : String) : Decidable (Canonical m) :=
  inferInstanceAs (Decidable (_ = _))

/-- Displayed names are canonical. -/
theorem canonical_display {n : Name} (h : n.Bare) : Canonical n.display := by
  have hsame : Name.new n.display = n :=
    (Name.bare_new _).ext h (Name.ofText_display h)
  unfold Canonical
  rw [hsame]

/-- **Canonical names** have no capitals, and no underscores at an end or next to one another. -/
theorem canonical_iff {m : String} : Canonical m ↔
    m = "" ∨ (∀ c ∈ m.toList, c.toLower = c) ∧ [] ∉ pieces '_' m.toList := by
  have hdisplay : (Name.new m).display = String.ofList (joined ['_'] (Word.ofText m)) := rfl
  constructor
  · intro h
    have hjoined : m.toList = joined ['_'] (Word.ofText m) := by
      rw [Canonical, hdisplay] at h
      rw [← String.toList_ofList (l := joined ['_'] (Word.ofText m)), h]
    rcases hwords : Word.ofText m with _ | ⟨w, ws⟩
    · rw [hwords] at hjoined
      exact .inl (String.toList_eq_nil_iff.1 hjoined)
    · have hnormal : ∀ w ∈ Word.ofText m, w.Normal := fun w => normal_of_mem_ofText
      refine .inr ⟨fun c hc => ?_, ?_⟩
      · rw [hjoined] at hc
        rcases mem_joined hc with hc | ⟨w, hw, hc⟩
        · rw [List.mem_singleton.1 hc]
          rfl
        · exact (hnormal w hw).lower c hc
      · rw [hjoined, pieces_joined (hwords ▸ List.cons_ne_nil w ws)
          fun w hw => (hnormal w hw).whole]
        exact fun hnil => (hnormal _ hnil).ne_nil rfl
  · rintro (rfl | ⟨hlower, hpieces⟩)
    · decide
    · have hwords : Word.ofText m = pieces '_' m.toList := by
        unfold Word.ofText
        rw [List.filter_eq_self.2 fun p hp => by
          simpa using fun hnil : p = [] => hpieces (hnil ▸ hp)]
        refine (List.map_congr_left fun p hp => ?_).trans (List.map_id _)
        exact (List.map_congr_left fun c hc => hlower c (mem_of_mem_pieces hp hc)).trans
          (List.map_id _)
      rw [Canonical, hdisplay, hwords, joined_pieces, String.ofList_toList]

/-- The names of the members of a shape, as written. A parameter that stands for the result is
none. -/
def DraftShape.memberNames : DraftShape → List String
  | enumeration cases => cases.keys
  | bitField bits => bits.keys
  | record fields => fields.map DraftField.name
  | union variants => variants.map DraftField.name
  | function params _ => (properParams params).map DraftField.name
  | callback params => (properParams params).map DraftField.name
  | _ => []

section Shapes

variable {id m : String} {written : DraftShape} {shape : Shape}

/-- Members have the names that their texts spell. -/
theorem memberNames_of_toShape (h : written.toShape id = .ok shape) :
    shape.memberNames = written.memberNames.map Name.new := by
  cases written with
  | enumeration members =>
    obtain ⟨cases, hcases, rfl⟩ := map_eq_ok.1 h
    have hnames : members.map (fun p => Name.new p.1) = cases.map Case.name :=
      map_eq_of_forall₂ (forall₂_of_eachMember hcases) fun p c hc => by
        obtain ⟨n, -, rfl⟩ := Case.ofMember_eq_ok hc
        rfl
    simp [Shape.memberNames, Shape.cases, Shape.bits, Shape.fields, DraftShape.memberNames,
      Keyed.keys, ← hnames]
  | bitField members =>
    obtain ⟨bits, hbits, rfl⟩ := map_eq_ok.1 h
    have hnames : members.map (fun p => Name.new p.1) = bits.map Flag.name :=
      map_eq_of_forall₂ (forall₂_of_eachMember hbits) fun p b hb => by
        obtain ⟨n, -, rfl⟩ := Flag.ofMember_eq_ok hb
        rfl
    simp [Shape.memberNames, Shape.cases, Shape.bits, Shape.fields, DraftShape.memberNames,
      Keyed.keys, ← hnames]
  | definition value =>
    obtain ⟨text, -, rfl⟩ := map_eq_ok.1 h
    rfl
  | typeAlias | handle =>
    obtain rfl := Except.ok.inj h
    rfl
  | record fields | union fields =>
    obtain rfl := Except.ok.inj h
    simp [Shape.memberNames, Shape.cases, Shape.bits, Shape.fields, DraftShape.memberNames,
      DraftField.toField]
  | function params | callback params =>
    obtain rfl := Except.ok.inj h
    simp [Shape.memberNames, Shape.cases, Shape.bits, Shape.fields, DraftShape.memberNames,
      DraftField.toField, Signature.ofParams, properParams]

/-- The names that a declaration writes: its own and those of its members. -/
def DraftEntry.names : DraftEntry → List String
  | .builtin _ => []
  | .declared name _ written => name :: written.memberNames

/-- **Plain texts make plain names**, in an interface that is loaded. -/
theorem plain_of_loaded {table : BuiltinTable} {text : String} {api : Api}
    (h : Api.ofText table text = .ok api) (hlead : ∀ p ∈ api.lead, IsPlain p)
    (hnames : ∀ d, Draft.ofText text = .ok d →
      ∀ a ∈ d.declarations, ∀ name ∈ a.names, IsPlain name) : api.registry.Plain := by
  obtain ⟨d, hd, hmade, -⟩ := exists_made h
  intro e he
  cases e with
  | builtin id spelling => trivial
  | declared id full shape =>
    obtain ⟨a, ha, hmakes⟩ := hmade _ he shape.kind_ne_builtin
    have hwritten := hnames d hd a ha
    cases hmakes with
    | intro hshape =>
      obtain ⟨hname, hmembers⟩ := List.forall_mem_cons.1 hwritten
      refine ⟨Name.plain_entryName hlead hname _, Shape.plain_iff_memberNames.2 ?_⟩
      rw [memberNames_of_toShape hshape]
      exact List.forall_mem_map.2 fun member hm => Name.plain_new (hmembers member hm)

/-- **The written name of a member is a displayed one exactly if it is canonical.** -/
theorem mem_display_iff (h : written.toShape id = .ok shape) (hm : m ∈ written.memberNames) :
    m ∈ shape.memberNames.map Name.display ↔ Canonical m := by
  rw [memberNames_of_toShape h, List.map_map, List.mem_map]
  constructor
  · rintro ⟨m', -, rfl⟩
    exact canonical_display (Name.bare_new m')
  · intro hcanonical
    exact ⟨m, hm, hcanonical⟩

end Shapes

section Counts

variable {r : Registry} {id c : String} {f : Field} {fields : List Field}

/-- A reference that leads nowhere is no flaw of an entry. -/
theorem invalid_notMem_referenceFaults {flaw : Flaw} {reference : String} :
    .invalid flaw ∉ referenceFaults r id reference := by
  intro hmem
  unfold referenceFaults at hmem
  split at hmem
  · cases hmem
  · cases List.mem_singleton.1 hmem

/-- A count is reported exactly if no field is displayed under it. -/
theorem mem_fieldListFaults_iff (hf : f ∈ fields) (hc : f.count = some (.sibling c)) :
    .invalid (.strayCount c f.name.display id) ∈ fieldListFaults r id fields ↔
      c ∉ fields.map (·.name.display) := by
  unfold fieldListFaults
  rw [List.mem_flatMap]
  constructor
  · rintro ⟨g, -, hg⟩ hmem
    rcases List.mem_append.1 hg with hg | hg
    · exact invalid_notMem_referenceFaults hg
    · -- the field that is reported has this count, which would be a displayed name
      split at hg
      · split at hg
        · cases hg
        · rename_i hnot
          simp only [List.mem_singleton, LoadError.invalid.injEq, Flaw.strayCount.injEq] at hg
          exact hnot (hg.1 ▸ hmem)
      · cases hg
  · intro hnot
    refine ⟨f, hf, List.mem_append_right _ ?_⟩
    rw [hc]
    simp only [if_neg hnot, List.mem_singleton]

/-- **A count is reported exactly if no member is displayed under it.** -/
theorem mem_faults_iff {full : Name} {shape : Shape} (hf : f ∈ shape.fields)
    (hc : f.count = some (.sibling c)) :
    .invalid (.strayCount c f.name.display id) ∈ (Entry.declared id full shape).faults r ↔
      c ∉ shape.memberNames.map Name.display := by
  have hnames : shape.fields.map (·.name.display) = shape.memberNames.map Name.display := by
    cases shape with
    | enumeration | bitField | typeAlias | definition | handle => cases hf
    | _ => simp [Shape.memberNames, Shape.cases, Shape.bits]
  have hlist : .invalid (.strayCount c f.name.display id) ∈ fieldListFaults r id shape.fields ↔
      c ∉ shape.fields.map (·.name.display) := mem_fieldListFaults_iff hf hc
  rw [← hnames, ← hlist]
  cases shape with
  | enumeration | bitField | typeAlias | definition | handle => cases hf
  | record | union => exact Iff.rfl
  | function signature | callback signature =>
    simp only [Entry.faults, signatureFaults, List.mem_append]
    refine ⟨fun h => h.resolve_right fun hresult => ?_, .inl⟩
    split at hresult
    · exact invalid_notMem_referenceFaults hresult
    · cases hresult

end Counts

namespace Setting

variable {s : Setting} {id m key text : String} {full : Name} {shape : Shape}

/-- A setting with a further note on a member. -/
def withNote (s : Setting) (key text : String) : Setting :=
  let doc := s.doc.getD ⟨[], [], []⟩
  { s with doc := some { doc with members := Keyed.put doc.members key text } }

theorem memberDoc?_withNote (member : String) : (s.withNote key text).memberDoc? id member =
    if key = id ++ "." ++ member then some text else s.memberDoc? id member := by
  unfold withNote memberDoc?
  rcases s.doc with _ | doc <;> exact Keyed.get?_put _ _ _ _

theorem entryDoc_withNote : (s.withNote key text).entryDoc id = s.entryDoc id := by
  unfold withNote entryDoc
  rcases s.doc with _ | doc <;> rfl

/-- A note on none of the parameters leaves their list as it is. -/
theorem parameterScript_withNote {params : List Field}
    (h : ∀ p ∈ params, (s.withNote key text).memberDoc? id p.name.display =
      s.memberDoc? id p.name.display) :
    (s.withNote key text).parameterScript id params = s.parameterScript id params := by
  have hany : (params.any fun p => ((s.withNote key text).memberDoc? id p.name.display).isSome) =
      params.any fun p => (s.memberDoc? id p.name.display).isSome := by
    rw [Bool.eq_iff_iff, List.any_eq_true, List.any_eq_true]
    exact exists_congr fun p => and_congr_right fun hp => by rw [h p hp]
  have hlines : params.flatMap (fun p => (s.withNote key text).parameterLine id p.name.display) =
      params.flatMap fun p => s.parameterLine id p.name.display :=
    List.flatMap_congr fun p hp => by
      simp only [parameterLine, h p hp]
      rfl
  simp only [parameterScript, hany, hlines]
  rfl

/-- **A note under a key that no member is displayed under makes no difference.** -/
theorem declare_withNote (h : ∀ n ∈ shape.memberNames, key ≠ id ++ "." ++ n.display) :
    (s.withNote key text).declare (.declared id full shape) =
      s.declare (.declared id full shape) := by
  have hdoc : ∀ n ∈ shape.memberNames, (s.withNote key text).memberDoc? id n.display =
      s.memberDoc? id n.display := fun n hn => by
    rw [memberDoc?_withNote, if_neg (h n hn)]
  have hheading : (s.withNote key text).headingScript (.declared id full shape) =
      s.headingScript (.declared id full shape) := by
    simp only [headingScript, heading, entryDoc_withNote]
    rfl
  have hmember : ∀ n ∈ shape.memberNames, (s.withNote key text).memberScript id n.display =
      s.memberScript id n.display := fun n hn => by
    simp only [memberScript, memberLine, hdoc n hn]
    rfl
  have hparams : (s.withNote key text).parameterScript id shape.fields =
      s.parameterScript id shape.fields :=
    parameterScript_withNote fun p hp => hdoc _ (mem_memberNames.2 (.inr (.inr ⟨p, hp, rfl⟩)))
  -- each step is observed as itself
  have hsteps := flatMap_declared (s := s.withNote key text) (t := s) (g := fun step => [step])
    ⟨rfl, rfl⟩ rfl (fun _ _ => congrArg _ hheading) (fun n hn => congrArg _ (hmember n hn))
    (congrArg _ hparams)
  rwa [List.flatMap_singleton', List.flatMap_singleton'] at hsteps

/-- **A note on a member stands with it**: directly in front of its line, and that of a parameter as
an item of the list in front of the function. -/
structure NotesMember (s : Setting) (id : String) (full : Name) (shape : Shape) (m text : String) :
    Prop where
  line : shape.kind ≠ .function → ∃ members, shape.Writes s.registry id full members ∧
    ∃ w ∈ members, w.name = .new m ∧
      s.docLine "  /// " text ++ [.code w.line] <:+: s.declare (.declared id full shape)
  item : shape.kind = .function →
    s.docLine ("/// - `" ++ m ++ "`: ") text <:+: s.declare (.declared id full shape)

/-- The items on parameters stand in front of the function. -/
theorem parameterScript_infix {signature : Signature} {deviceCommand : Bool} :
    s.parameterScript id signature.params <:+:
      s.declare (.declared id full (.function signature deviceCommand)) := by
  refine List.IsInfix.trans ?_ (List.prefix_append _ [Step.code "\x7d"]).isInfix
  refine List.IsInfix.trans ?_ (List.prefix_append _ _).isInfix
  refine List.IsInfix.trans ?_ (List.prefix_append _ _).isInfix
  refine List.IsInfix.trans ?_ (List.prefix_append _ _).isInfix
  exact (List.suffix_append _ _).isInfix

/-- A note on a parameter is an item. -/
theorem item_infix {params : List Field} {p : Field} (hdoc : s.documents = true) (hp : p ∈ params)
    (htext : s.memberDoc? id p.name.display = some text) :
    s.docLine ("/// - `" ++ p.name.display ++ "`: ") text <:+: s.parameterScript id params := by
  have hone : s.parameterLine id p.name.display =
      s.docLine ("/// - `" ++ p.name.display ++ "`: ") text := by
    rw [parameterLine, htext]
  have hany : (s.documents && params.any fun p =>
      (s.memberDoc? id p.name.display).isSome) = true := by
    rw [hdoc, Bool.true_and, List.any_eq_true]
    exact ⟨p, hp, by rw [htext]; rfl⟩
  rw [parameterScript, if_pos hany, ← hone]
  have hitem : s.parameterLine id p.name.display <:+:
      params.flatMap fun p => s.parameterLine id p.name.display :=
    infix_flatMap hp fun p => s.parameterLine id p.name.display
  exact hitem.trans (List.suffix_append _ _).isInfix

/-- **A note under the displayed name of a member stands with the member.** -/
theorem notesMember_of_mem (hdoc : s.documents = true) (hk : shape.kind ≠ .callback)
    (hf : (s.declare (.declared id full shape)).failures = []) (hn : Name.new m ∈ shape.memberNames)
    (hm : Canonical m) (htext : s.memberDoc? id m = some text) :
    s.NotesMember id full shape m text where
  line hfunction := by
    obtain ⟨members, front, back, hwrites, hsteps⟩ := declare_members hk hfunction hf
    obtain ⟨w, hw, hname⟩ := List.mem_map.1 (hwrites.names.symm ▸ hn)
    have hdisplay : w.name.display = m := by
      rw [hname]
      exact hm
    have hone : s.memberSteps id w = s.docLine "  /// " text ++ [.code w.line] := by
      rw [memberSteps, memberScript, if_pos hdoc, memberLine, hdisplay, htext]
    refine ⟨members, hwrites, w, hw, hname, ?_⟩
    rw [hsteps, ← hone]
    exact (infix_flatMap hw _).trans ⟨front, back, rfl⟩
  item hfunction := by
    cases shape with
    | function signature deviceCommand =>
      obtain ⟨p, hp, hname⟩ : ∃ p ∈ signature.params, p.name = Name.new m := by
        simpa [mem_memberNames, Shape.cases, Shape.bits, Shape.fields] using hn
      have hdisplay : p.name.display = m := by
        rw [hname]
        exact hm
      have hitem := item_infix hdoc hp (hdisplay.symm ▸ htext)
      rw [hdisplay] at hitem
      exact hitem.trans parameterScript_infix
    | _ => cases hfunction

end Setting

/-- A word. -/
def IsWord (text : String) : Prop :=
  text.toList ≠ [] ∧ ∀ c ∈ text.toList, isWordChar c = true

section Words

variable {tag raw m : String}

/-- Plain texts that are not empty are words. -/
theorem IsPlain.isWord (h : IsPlain m) (hne : m.toList ≠ []) : IsWord m := by
  refine ⟨hne, fun c hc => ?_⟩
  rw [isWordChar_of_ascii (ascii_of_isNameChar (h c hc))]
  exact h c hc

theorem isWord_tag (kind : Kind) : IsWord kind.tag := by
  have hplain : IsPlain kind.tag := by
    cases kind <;> decide
  exact hplain.isWord (by cases kind <;> simp [Kind.tag])

theorem isWordChar_point : isWordChar '.' = false := by
  rw [isWordChar_of_ascii (by decide)]
  decide

/-- A word in front of a sign that belongs to no word is read as a whole. -/
theorem wordAt?_word (h : IsWord m) {rest : List Char}
    (hrest : ∀ c ∈ rest.head?, isWordChar c = false) :
    wordAt? (m.toList ++ rest) = some (m.toList, rest) := by
  have hnone : rest.takeWhile isWordChar = [] ∧ rest.dropWhile isWordChar = rest := by
    cases rest with
    | nil => exact ⟨rfl, rfl⟩
    | cons c rest => simp [hrest c rfl]
  rw [wordAt?, List.takeWhile_append_of_pos h.2, List.dropWhile_append_of_pos h.2, hnone.1, hnone.2,
    List.append_nil]
  split
  · exact absurd ‹_› h.1
  · rfl

/-- **An id with a member is a symbol exactly if the name in it is a word.** -/
theorem isSymbol_iff (ht : IsWord tag) (hm : IsWord m) (hraw : PointFree raw) :
    IsSymbol (tag ++ "." ++ raw ++ "." ++ m).toList ↔ IsWord raw := by
  have hsplit : (tag ++ "." ++ raw ++ "." ++ m).toList =
      tag.toList ++ '.' :: (raw.toList ++ '.' :: m.toList) := by
    simp [String.toList_append]
  have htag : wordAt? (tag.toList ++ '.' :: (raw.toList ++ '.' :: m.toList)) =
      some (tag.toList, '.' :: (raw.toList ++ '.' :: m.toList)) :=
    wordAt?_word ht fun c hc => Option.some.inj hc ▸ isWordChar_point
  rw [hsplit]
  constructor
  · intro hsymbol
    refine ⟨fun hnil => ?_, fun c hc => ?_⟩
    · -- two points in a row end the symbol
      have hpoint : wordAt? ('.' :: m.toList) = none := by
        rw [wordAt?, List.takeWhile_cons_of_neg (by rw [isWordChar_point]; decide)]
      rw [hnil, List.nil_append] at htag hsymbol
      simp [IsSymbol, symbolAt?, htag, pointWordAt?, hpoint] at hsymbol
    · refine (hsymbol.chars c (by simp [hc])).resolve_right ?_
      rintro rfl
      exact hraw hc
  · intro hword
    have hname : wordAt? (raw.toList ++ '.' :: m.toList) =
        some (raw.toList, '.' :: m.toList) :=
      wordAt?_word hword fun c hc => Option.some.inj hc ▸ isWordChar_point
    have hmember : wordAt? (m.toList ++ []) = some (m.toList, []) := wordAt?_word hm (by simp)
    rw [List.append_nil] at hmember
    simp [IsSymbol, symbolAt?, htag, hname, hmember, pointWordAt?]

end Words

section Lines

theorem filterMap_symbol?_chars (l : List Char) :
    (l.map Segment.char).filterMap Segment.symbol? = [] := by
  simp [List.filterMap_eq_nil_iff, Segment.symbol?]

variable {r : Registry} {front symbol back : String}

/-- A text between backticks in a line. -/
theorem toList_marked : (front ++ "`" ++ symbol ++ "`" ++ back).toList =
    front.toList ++ (tick :: (symbol.toList ++ tick :: back.toList)) := by
  simp [String.toList_append, tick]

variable (hf : tick ∉ front.toList) (hb : tick ∉ back.toList)
include hf hb

/-- A symbol between backticks is the only one of the line. -/
theorem symbolsOf_marked (hs : IsSymbol symbol.toList) :
    symbolsOf (front ++ "`" ++ symbol ++ "`" ++ back).toList = [symbol.toList] := by
  have htick : tick ∉ symbol.toList := hs.notMem isWordChar_tick (by decide)
  rw [toList_marked, symbolsOf, markers_eq_symbols, segments_append hf, segments_marker htick hs,
    segments_of_notMem hb, List.filterMap_append, filterMap_symbol?_chars, List.nil_append,
    List.filterMap_cons, filterMap_symbol?_chars]
  rfl

/-- Any other text between backticks is none. -/
theorem symbolsOf_unmarked (ht : tick ∉ symbol.toList) (hs : ¬ IsSymbol symbol.toList) :
    symbolsOf (front ++ "`" ++ symbol ++ "`" ++ back).toList = [] := by
  rw [toList_marked, symbolsOf, markers_eq_symbols, segments_append hf, segments_tick ht hs,
    segments_append ht, segments_last hb, segments_of_notMem hb]
  simp only [List.filterMap_append, List.filterMap_cons, filterMap_symbol?_chars,
    Segment.symbol?, List.append_nil]
  rfl

/-- **The only marker of a line is shown as what its symbol leads to.** -/
theorem resolveLine_marked (hs : IsSymbol symbol.toList) :
    r.resolveLine (front ++ "`" ++ symbol ++ "`" ++ back) =
      front ++ (r.lookUp symbol).markdown ++ back := by
  rw [Registry.resolveLine, resolveMarkers, symbolsOf_marked hf hb hs, toList_marked]
  have hmarker : tick :: (symbol.toList ++ tick :: back.toList) =
      marker symbol.toList ++ back.toList := by
    simp [marker]
  rw [List.foldl_cons, List.foldl_nil, hmarker, replaceAll_append hf, replaceAll_marker,
    replaceAll_of_notMem hb, String.ofList_toList]
  simp only [String.ofList_append, String.ofList_toList, String.append_assoc]

theorem strayMarkers_marked (hs : IsSymbol symbol.toList) :
    r.strayMarkers (front ++ "`" ++ symbol ++ "`" ++ back) =
      if (r.lookUp symbol).isStray then [symbol] else [] := by
  rw [Registry.strayMarkers, symbolsOf_marked hf hb hs, List.map_singleton, String.ofList_toList,
    List.filter_singleton, Bool.cond_eq_ite]

/-- **A line without symbols is shown as it is**, and nothing is reported. -/
theorem resolveLine_unmarked (ht : tick ∉ symbol.toList) (hs : ¬ IsSymbol symbol.toList) :
    r.resolveLine (front ++ "`" ++ symbol ++ "`" ++ back) = front ++ "`" ++ symbol ++ "`" ++ back ∧
      r.strayMarkers (front ++ "`" ++ symbol ++ "`" ++ back) = [] := by
  rw [Registry.resolveLine, Registry.strayMarkers, resolveMarkers, symbolsOf_unmarked hf hb ht hs,
    List.foldl_nil, String.ofList_toList]
  exact ⟨rfl, rfl⟩

end Lines

/-- **What the written name of a member leads to**, in an entry whose own name is given. A count, a
note and a symbol find the member exactly if the name is canonical. -/
structure Setting.FindsWritten (s : Setting) (id raw : String) (full : Name) (shape : Shape)
    (m : String) : Prop where
  count : ∀ f ∈ shape.fields, f.count = some (.sibling m) →
    (.invalid (.strayCount m f.name.display id) ∈
      (Entry.declared id full shape).faults s.registry ↔ ¬ Canonical m)
  noted : Canonical m → s.documents = true → shape.kind ≠ .callback →
    (s.declare (.declared id full shape)).failures = [] → ∀ text, s.memberDoc? id m = some text →
      s.NotesMember id full shape m text
  unnoted : ¬ Canonical m → ∀ text, (s.withNote (id ++ "." ++ m) text).declare
    (.declared id full shape) = s.declare (.declared id full shape)
  symbol : PointFree raw → ∀ shown, shape.rendering id full (.new m) = .ok shown →
    s.registry.lookUp (id ++ "." ++ m) =
      if Canonical m then .member shown else .stray (id ++ "." ++ m)
  marker : IsWord raw → IsWord m → ∀ shown, shape.rendering id full (.new m) = .ok shown →
    ∀ front back : String, tick ∉ front.toList → tick ∉ back.toList →
      s.registry.resolveLine (front ++ "`" ++ (id ++ "." ++ m) ++ "`" ++ back) =
          front ++ "`" ++ (if Canonical m then shown else id ++ "." ++ m) ++ "`" ++ back ∧
        s.registry.strayMarkers (front ++ "`" ++ (id ++ "." ++ m) ++ "`" ++ back) =
          if Canonical m then [] else [id ++ "." ++ m]
  unread : PointFree raw → ¬ IsWord raw → tick ∉ raw.toList → IsWord m →
    ∀ front back : String, tick ∉ front.toList → tick ∉ back.toList →
      s.registry.resolveLine (front ++ "`" ++ (id ++ "." ++ m) ++ "`" ++ back) =
          front ++ "`" ++ (id ++ "." ++ m) ++ "`" ++ back ∧
        s.registry.strayMarkers (front ++ "`" ++ (id ++ "." ++ m) ++ "`" ++ back) = []

section Found

variable {id raw m : String} {full : Name} {shape : Shape}

theorem IsWord.pointFree (h : IsWord raw) : PointFree raw := by
  intro hmem
  have hword := h.2 _ hmem
  rw [isWordChar_point] at hword
  cases hword

theorem IsWord.tick_notMem (h : IsWord m) : tick ∉ m.toList := by
  intro hmem
  have hword := h.2 _ hmem
  rw [isWordChar_tick] at hword
  cases hword

/-- **What the symbol of a member leads to.** -/
theorem lookUp_written {r : Registry} (hfound : r.find? id = some (.declared id full shape))
    (hid : id = shape.kind.idOf raw) (hraw : PointFree raw)
    (hcases : ∀ c ∈ shape.cases, c.name.Bare) (hbits : ∀ b ∈ shape.bits, b.name.Bare)
    (hm : .new m ∈ shape.memberNames)
    (hdisplay : m ∈ shape.memberNames.map Name.display ↔ Canonical m) {shown : String}
    (hshown : shape.rendering id full (.new m) = .ok shown) :
    r.lookUp (id ++ "." ++ m) =
      if Canonical m then .member shown else .stray (id ++ "." ++ m) := by
  split
  · rename_i hcanonical
    have hlook := lookUp_of_mem (s := ⟨r, none, .default⟩) hfound hid hraw hcases hbits hm
    rw [hshown, show (Name.new m).display = m from hcanonical] at hlook
    exact hlook
  · rename_i hcanonical
    subst hid
    rw [Kind.idOf] at hfound ⊢
    exact (r.straysApart.foreign _ raw _ m (pointFree_tag _) hraw hfound
      fun hmem => hcanonical (hdisplay.1 hmem))

/-- A symbol between backticks, and how it is shown. -/
theorem isSymbol_written (hid : id = shape.kind.idOf raw) (hraw : PointFree raw) (hm : IsWord m) :
    IsSymbol (id ++ "." ++ m).toList ↔ IsWord raw := by
  subst hid
  exact isSymbol_iff (isWord_tag _) hm hraw

/-- **A count, a note and a symbol find a member exactly if its written name is canonical.** -/
theorem findsWritten {s : Setting} (hfound : s.registry.find? id = some (.declared id full shape))
    (hid : id = shape.kind.idOf raw) (hcases : ∀ c ∈ shape.cases, c.name.Bare)
    (hbits : ∀ b ∈ shape.bits, b.name.Bare) (hm : .new m ∈ shape.memberNames)
    (hdisplay : m ∈ shape.memberNames.map Name.display ↔ Canonical m) :
    s.FindsWritten id raw full shape m where
  count f hf hc := (mem_faults_iff hf hc).trans (not_congr hdisplay)
  noted hcanonical hdoc hk hok text htext :=
    Setting.notesMember_of_mem hdoc hk hok hm hcanonical htext
  unnoted hcanonical text := by
    refine Setting.declare_withNote fun n hn hkey => hcanonical (hdisplay.1 ?_)
    rw [(String.append_right_inj _).1 hkey]
    exact List.mem_map_of_mem hn
  symbol hraw shown hshown := lookUp_written hfound hid hraw hcases hbits hm hdisplay hshown
  marker hraw hword shown hshown front back hf hb := by
    have hsymbol := (isSymbol_written hid hraw.pointFree hword).2 hraw
    rw [resolveLine_marked hf hb hsymbol, strayMarkers_marked hf hb hsymbol,
      lookUp_written hfound hid hraw.pointFree hcases hbits hm hdisplay hshown]
    split <;> exact ⟨by simp only [Reference.markdown, Reference.link?, Reference.name,
      String.append_assoc], rfl⟩
  unread hraw hnot htick hword front back hf hb := by
    refine resolveLine_unmarked hf hb ?_ fun hs => hnot ((isSymbol_written hid hraw hword).1 hs)
    have htag := (isWord_tag shape.kind).tick_notMem
    have hpoint : tick ≠ '.' := by decide
    subst hid
    simp [Kind.idOf, String.toList_append, htick, htag, hword.tick_notMem, hpoint]

end Found

variable {table : BuiltinTable} {api : Api} {d : Draft}

/-- A document with a fault in one of its entries is rejected. -/
theorem rejected_of_mem_faults (h : d.toApi table = .ok api) {e : Entry} {fault : LoadError}
    (he : e ∈ api.registry.entries) (hfault : fault ∈ e.faults api.registry) (loaded : Api) :
    Api.ofDraft table d ≠ .ok loaded := by
  intro hloaded
  have hsame : api = loaded := by
    obtain ⟨api', hapi', hrest⟩ := bind_eq_ok.1 hloaded
    obtain ⟨-, -, hpure⟩ := bind_eq_ok.1 hrest
    rw [← Except.ok.inj hpure]
    exact Except.ok.inj (h.symm.trans hapi')
  subst hsame
  rw [faults_eq_nil_iff.2 ((consistent_of_ofDraft hloaded).entries e he)] at hfault
  cases hfault

/-- **A member is found under its written name exactly if that is canonical.** In every document
whose declarations can be taken, and whatever the setting, that is so for each member written in it.
If the count of a field is such a name and it is not canonical, the document is rejected. -/
theorem member_found_iff (h : d.toApi table = .ok api) {name : String} {marked : Bool}
    {written : DraftShape} (ha : .declared name marked written ∈ d.declarations) :
    ∃ shape, api.registry.find? (written.kind.idOf name) = some (.declared
        (written.kind.idOf name) (entryName api.lead name marked) shape) ∧
      shape.memberNames = written.memberNames.map Name.new ∧ ∀ m ∈ written.memberNames,
        (∀ s : Setting, s.registry = api.registry → s.FindsWritten (written.kind.idOf name) name
          (entryName api.lead name marked) shape m) ∧
        (¬ Canonical m → ∀ f ∈ shape.fields, f.count = some (.sibling m) →
          ∀ loaded, Api.ofDraft table d ≠ .ok loaded) := by
  obtain ⟨shape, hshape, hfound⟩ := find?_of_toApi h ha
  obtain ⟨hcases, hbits⟩ := bare_of_toShape hshape
  have hnames := memberNames_of_toShape hshape
  refine ⟨shape, hfound, hnames, fun m hm => ⟨fun s hs => ?_, fun hnot f hf hc => ?_⟩⟩
  · refine findsWritten (hs ▸ hfound) ?_ hcases hbits ?_ (mem_display_iff hshape hm)
    · rw [kind_of_toShape hshape]
    · rw [hnames]
      exact List.mem_map_of_mem hm
  · refine rejected_of_mem_faults h (Registry.mem_of_find? hfound) ((mem_faults_iff hf hc).2 ?_)
    rwa [mem_display_iff hshape hm]

/-- A text with a structure, in which a field is the count of another one and is written with a
capital. -/
def countedText : String :=
  "[\"ti\",[[\"taichi/a.h\",false,[],[[\"handle\",\"h\"],"
    ++ "[\"structure\",\"s\",[[\"Len\",\"handle.h\"],"
    ++ "[\"data\",\"handle.h\",false,false,\"Len\"]]]]]]]"

/-- The fields in `countedText`. -/
def countedFields : List DraftField :=
  [⟨"Len", "handle.h", false, false, none⟩,
    ⟨"data", "handle.h", false, false, some (.sibling "Len")⟩]

/-- The document in `countedText`. -/
def countedDraft : Draft where
  lead := some "ti"
  modules := [⟨"taichi/a.h", false, [],
    [.declared "h" false .handle, .declared "s" false (.record countedFields)], none⟩]

/-- The structure in `countedText`. -/
def countedRecord : Entry :=
  .declared "structure.s" (.withPrefix "ti" "s") (.record (countedFields.map DraftField.toField))

/-- The interface in `countedText`, before it is validated. -/
def counted : Api where
  lead := some "ti"
  registry :=
    ⟨[.declared "handle.h" (.withPrefix "ti" "h") .handle, countedRecord], by decide⟩
  modules := [⟨"taichi/a.h", false, [], ["handle.h", "structure.s"], none⟩]

theorem draft_counted : Draft.ofText countedText = .ok countedDraft := by
  cbv

theorem toApi_counted : countedDraft.toApi .empty = .ok counted := by
  cbv

/-- A text with an enumeration, whose first case is written with a capital and has a note. -/
def notedText : String :=
  "[\"ti\",[[\"taichi/a.h\",false,[],[[\"enumeration\",\"e\",\x7b\"A\":0,\"b\":1\x7d]],"
    ++ "[[],\x7b\x7d,\x7b\"enumeration.e.A\":\"First.\"\x7d]]]]"

/-- The cases in `notedText`, as written. -/
def notedCases : DraftShape :=
  .enumeration [("A", .number (.integer 0)), ("b", .number (.integer 1))]

/-- The documentation in `notedText`. -/
def notedDoc : ModuleDoc :=
  ⟨[], [], [("enumeration.e.A", "First.")]⟩

/-- The document in `notedText`. -/
def notedDraft : Draft where
  lead := some "ti"
  modules := [⟨"taichi/a.h", false, [], [.declared "e" false notedCases], some notedDoc⟩]

/-- The shape of the enumeration in `notedText`. -/
def notedShape : Shape :=
  .enumeration [⟨.new "A", 0⟩, ⟨.new "b", 1⟩]

/-- The interface in `notedText`. -/
def noted : Api where
  lead := some "ti"
  registry := ⟨[.declared "enumeration.e" (.withPrefix "ti" "e") notedShape], by decide⟩
  modules := [⟨"taichi/a.h", false, [], ["enumeration.e"], some notedDoc⟩]

theorem draft_noted : Draft.ofText notedText = .ok notedDraft := by
  cbv

theorem toApi_noted : notedDraft.toApi .empty = .ok noted := by
  cbv

/-- The setting of the module in `notedText`. -/
def notedSetting : Setting :=
  ⟨noted.registry, some notedDoc, .default⟩

/-- In `countedText` the count does not find its field, so that the document is rejected. In
`notedText` the first case is not found, and the second one is. -/
theorem member_found_iff_noted : countedDraft.toApi .empty = .ok counted ∧
    (∀ loaded, Api.ofDraft .empty countedDraft ≠ .ok loaded) ∧
    notedDraft.toApi .empty = .ok noted ∧
    (∀ text, (notedSetting.withNote "enumeration.e.A" text).declare
      (.declared "enumeration.e" (.withPrefix "ti" "e") notedShape) =
        notedSetting.declare (.declared "enumeration.e" (.withPrefix "ti" "e") notedShape)) ∧
    noted.registry.lookUp "enumeration.e.A" = .stray "enumeration.e.A" ∧
    noted.registry.lookUp "enumeration.e.b" = .member "TiE::B" := by
  have hs : .declared "s" false (.record countedFields) ∈ countedDraft.declarations := by
    simp [countedDraft, Draft.declarations]
  have he : .declared "e" false notedCases ∈ notedDraft.declarations := by
    simp [notedDraft, Draft.declarations]
  obtain ⟨shape, hfound, -, hfields⟩ := member_found_iff toApi_counted hs
  obtain ⟨shape', hfound', -, hcases⟩ := member_found_iff toApi_noted he
  have hrecord : counted.registry.find? "structure.s" = some countedRecord := rfl
  have henumeration : noted.registry.find? "enumeration.e" =
      some (.declared "enumeration.e" (.withPrefix "ti" "e") notedShape) := rfl
  obtain ⟨-, -, rfl⟩ := Entry.declared.inj (Option.some.inj (hrecord.symm.trans hfound))
  obtain ⟨-, -, rfl⟩ := Entry.declared.inj (Option.some.inj (henumeration.symm.trans hfound'))
  have hcapital : ¬ Canonical "A" := by decide
  have hsmall : Canonical "b" := by decide
  have hfirst : Kind.enumeration.idOf "e" ++ "." ++ "A" = "enumeration.e.A" := by decide
  have hsecond : Kind.enumeration.idOf "e" ++ "." ++ "b" = "enumeration.e.b" := by decide
  have hfindsA := (hcases "A" (.head _)).1 notedSetting rfl
  have hfindsB := (hcases "b" (.tail _ (.head _))).1 notedSetting rfl
  refine ⟨toApi_counted, ?_, toApi_noted, fun text => ?_, ?_, ?_⟩
  · exact (hfields "Len" (.head _)).2 (by decide) _ (.tail _ (.head _)) rfl
  · exact hfirst ▸ hfindsA.unnoted hcapital text
  · have hlook := hfindsA.symbol (by decide) _ rfl
    rw [if_neg hcapital] at hlook
    exact hfirst ▸ hlook
  · have hlook := hfindsB.symbol (by decide) "TiE::B" rfl
    rw [if_pos hsmall] at hlook
    exact hsecond ▸ hlook

/-- **A member need not be found under its written name**: not by the count of another field, nor by
a note or a symbol, although it can be rendered. -/
theorem members_not_found :
    Api.ofText .empty countedText =
        .error (.invalid (.strayCount "Len" "data" "structure.s")) ∧
      Api.ofText .empty notedText = .ok noted ∧
      (notedSetting.documents = true ∧
        (notedSetting.declare
          (.declared "enumeration.e" (.withPrefix "ti" "e") notedShape)).failures = [] ∧
        notedSetting.memberDoc? "enumeration.e" "A" = some "First." ∧
        ¬ notedSetting.NotesMember "enumeration.e" (.withPrefix "ti" "e") notedShape "A" "First.") ∧
      notedShape.rendering "enumeration.e" (.withPrefix "ti" "e") (.new "A") = .ok "TiE::A" ∧
      noted.registry.lookUp "enumeration.e.A" ≠ .member "TiE::A" := by
  refine ⟨?_, ?_, ⟨by decide, by decide +kernel, by decide, fun hnotes => ?_⟩, rfl,
    by decide⟩
  · unfold Api.ofText
    rw [draft_counted]
    cbv
  · unfold Api.ofText
    rw [draft_noted]
    cbv
  · obtain ⟨members, -, w, -, -, hinfix⟩ := hnotes.line (by decide)
    have hcomment : .comment "  /// First." ∈ notedSetting.declare
        (.declared "enumeration.e" (.withPrefix "ti" "e") notedShape) :=
      hinfix.subset (List.mem_append_left _ (by decide +kernel))
    revert hcomment
    decide +kernel

end Bindery

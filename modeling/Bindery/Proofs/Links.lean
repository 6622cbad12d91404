import Bindery.Proofs.Anchors
import Bindery.Proofs.CrossReference
import Bindery.Proofs.WrittenNames

/-!
# Links and the headings they lead to

A reference to an entry is linked to its heading, wherever the entry is declared, and whatever else
has the same anchor. In the source it stands in, the link can lead to no heading, or to several.

* `Setting.notesOn`, `Setting.Comment`: the texts that a declaration resolves; `comment_of_declare`,
  `exists_note`: **its comments are its heading and these texts**, and all of them are there.
* `link?_lookUp`: a link is the anchor of the heading of the entry that the symbol names.
* `Api.DeclaredIn`, `Api.NoteIn`, `Api.CommentIn`: the same for the source of a module;
  `Api.LeadsTo`, `leadsTo_iff`: where a link in it leads.
* `links_valid_iff`: **when the links of a source lead to one heading of it**;
  `links_valid_iff_anchored`, `link_leads_astray`: three links, of which only one does.
-/

namespace Bindery

open Text

/-- The entries with a heading. -/
theorem Entry.exists_heading_iff {e : Entry} :
    (∃ heading, e.heading = .ok heading) ↔ e.kind ≠ .builtin ∧ e.kind ≠ .callback := by
  cases e with
  | builtin id spelling =>
    refine ⟨?_, fun h => absurd rfl h.1⟩
    rintro ⟨heading, h⟩
    cases h
  | declared id name shape =>
    by_cases hk : shape.kind = .callback
    · refine ⟨?_, fun h => absurd hk h.2⟩
      rintro ⟨heading, h⟩
      cases shape with
      | callback signature => cases h
      | _ => cases hk
    · obtain ⟨ident, hident⟩ := identBy_ok hk (fun name => name) id name
      exact ⟨fun _ => ⟨shape.kind_ne_builtin, hk⟩, fun _ => heading_of_declaredIdent hident⟩

namespace Setting

/-- The texts that the declaration of an entry resolves: those on the entry and on its members. -/
def notesOn (s : Setting) (e : Entry) : List String :=
  s.entryDoc e.id ++ e.memberNames.filterMap fun n => s.memberDoc? e.id n.display

/-- What a resolved text stands behind: the sign of a comment, or that of an item. -/
inductive SignOf (e : Entry) : String → Prop
  | entry : SignOf e "/// "
  | member : SignOf e "  /// "
  | item {n : Name} (h : n ∈ e.memberNames) : SignOf e ("/// - `" ++ n.display ++ "`: ")

/-- **The comments of a declaration**: its heading, the texts that it resolves, and what introduces
a list of parameters. -/
inductive Comment (s : Setting) (e : Entry) : String → Prop
  | heading {heading : String} (h : e.heading = .ok heading) : Comment s e ("/// " ++ heading)
  | note {sign text : String} (hsign : SignOf e sign) (h : text ∈ s.notesOn e) :
    Comment s e (sign ++ s.registry.resolveLine text)
  | blank : Comment s e "///"
  | parameters : Comment s e "/// Parameters:"

variable {s : Setting} {e : Entry} {line : String}

theorem comment_mem_docLine {sign text : String} :
    .comment line ∈ s.docLine sign text ↔ line = sign ++ s.registry.resolveLine text := by
  simp [docLine]

theorem comment_notMem_attempt {text : Except BindingError String} {f : String → String} :
    .comment line ∉ Script.attempt text f := by
  cases text <;> simp [Script.attempt]

theorem comment_notMem_exportScript : .comment line ∉ exportScript e := by
  unfold exportScript
  split <;> simp

theorem documents_iff : s.documents = true ↔ s.config.docMode = .apiReference := by
  simp [documents]

theorem mem_notesOn_of_member {n : Name} {text : String} (hn : n ∈ e.memberNames)
    (h : s.memberDoc? e.id n.display = some text) : text ∈ s.notesOn e :=
  List.mem_append_right _ (List.mem_filterMap.2 ⟨n, hn, h⟩)

theorem comment_of_headingScript (h : .comment line ∈ s.headingScript e) : s.Comment e line := by
  unfold headingScript Setting.heading at h
  split at h
  · split at h
    · rename_i heading hheading
      rcases List.mem_append.1 h with h | h
      · obtain rfl : line = "/// " ++ heading := by simpa using h
        exact .heading hheading
      · obtain ⟨text, htext, h⟩ := List.mem_flatMap.1 h
        rw [comment_mem_docLine.1 h]
        exact .note .entry (List.mem_append_left _ htext)
    · simp at h
  · cases h

theorem comment_of_memberScript {n : Name} (hn : n ∈ e.memberNames)
    (h : .comment line ∈ s.memberScript e.id n.display) : s.Comment e line := by
  unfold memberScript memberLine at h
  split at h
  · split at h
    · rename_i text htext
      rw [comment_mem_docLine.1 h]
      exact .note .member (mem_notesOn_of_member hn htext)
    · cases h
  · cases h

theorem comment_of_parameterScript {params : List Field} (hp : ∀ p ∈ params, p.name ∈ e.memberNames)
    (h : .comment line ∈ s.parameterScript e.id params) : s.Comment e line := by
  unfold parameterScript at h
  split at h
  · rcases List.mem_append.1 h with h | h
    · obtain rfl | rfl : line = "///" ∨ line = "/// Parameters:" := by simpa using h
      · exact .blank
      · exact .parameters
    · obtain ⟨p, hmem, h⟩ := List.mem_flatMap.1 h
      unfold parameterLine at h
      split at h
      · rename_i text htext
        rw [comment_mem_docLine.1 h]
        exact .note (.item (hp p hmem)) (mem_notesOn_of_member (hp p hmem) htext)
      · cases h
  · cases h

/-- **The comments of a declaration are its heading and the texts that it resolves.** -/
theorem comment_of_declare (hdoc : s.documents = true) (h : .comment line ∈ s.declare e) :
    s.Comment e line := by
  have hmark : .comment line ∉ s.markScript e := by
    simp [markScript, documents_iff.1 hdoc]
  cases e with
  | builtin id spelling => cases h
  | declared id name shape =>
    have hmember {n : Name} (hn : n ∈ shape.memberNames) :
        .comment line ∈ s.memberScript id n.display → s.Comment (.declared id name shape) line :=
      comment_of_memberScript (e := .declared id name shape) hn
    -- records and unions write their fields in one way
    have hfields {before : Script} {keyword ident : String}
        (hbefore : .comment line ∉ before)
        (h : .comment line ∈ before ++ s.recordScript (.declared id name shape) keyword ident
          shape.fields) : s.Comment (.declared id name shape) line := by
      have hparts : .comment line ∈ s.headingScript (.declared id name shape) ∨
          ∃ f ∈ shape.fields, .comment line ∈ s.memberScript id f.name.display := by
        simpa [recordScript, fieldScript, hbefore, hmark, comment_notMem_attempt, Entry.id] using h
      rcases hparts with h | ⟨f, hf, h⟩
      · exact comment_of_headingScript h
      · exact hmember (mem_memberNames.2 (.inr (.inr ⟨f, hf, rfl⟩))) h
    cases shape with
    | typeAlias target =>
      refine comment_of_headingScript ?_
      simp only [declare, aliasScript] at h
      split at h
      · simpa [hmark] using h
      · rename_i t _
        rcases List.mem_append.1 h with h | h
        · simpa [hmark] using h
        · cases t.isHandle <;>
            simp [comment_notMem_attempt, comment_notMem_exportScript] at h
    | definition value =>
      refine comment_of_headingScript ?_
      simpa [declare, definitionScript, hmark, comment_notMem_exportScript] using h
    | handle =>
      refine comment_of_headingScript ?_
      simpa [declare, handleScript, hmark] using h
    | enumeration cases =>
      have hparts : .comment line ∈ s.headingScript (.declared id name (.enumeration cases)) ∨
          ∃ c ∈ cases, .comment line ∈ s.caseScript id name c := by
        simpa [declare, enumerationScript, hmark, comment_notMem_exportScript, Entry.id] using h
      rcases hparts with h | ⟨c, hc, h⟩
      · exact comment_of_headingScript h
      · refine hmember (mem_memberNames.2 (.inl ⟨c, hc, rfl⟩)) ?_
        unfold caseScript at h
        split at h
        · simpa using h
        · simp at h
    | bitField bits =>
      have hparts : .comment line ∈ s.headingScript (.declared id name (.bitField bits)) ∨
          ∃ b ∈ bits, .comment line ∈ s.memberScript id b.name.display := by
        simpa [declare, bitFieldScript, flagScript, hmark, comment_notMem_exportScript,
          Entry.id] using h
      rcases hparts with h | ⟨b, hb, h⟩
      · exact comment_of_headingScript h
      · exact hmember (mem_memberNames.2 (.inr (.inl ⟨b, hb, rfl⟩))) h
    | record fields =>
      refine hfields ?_ h
      split
      · exact comment_notMem_exportScript
      · simp
    | union variants => exact hfields comment_notMem_exportScript h
    | function signature deviceCommand =>
      have hparts : .comment line ∈
            s.headingScript (.declared id name (.function signature deviceCommand)) ∨
          .comment line ∈ s.parameterScript id signature.params := by
        simpa [declare, functionScript, paramScript, hmark, comment_notMem_exportScript,
          comment_notMem_attempt, Entry.id] using h
      rcases hparts with h | h
      · exact comment_of_headingScript h
      · exact comment_of_parameterScript
          (e := .declared id name (.function signature deviceCommand))
          (fun p hp => mem_memberNames.2 (.inr (.inr ⟨p, hp, rfl⟩))) h
    | callback signature => cases h

/-- What is not declared on its own has no heading. -/
theorem exists_heading_of_mem {step : Step} (h : step ∈ s.declare e) :
    ∃ heading, e.heading = .ok heading := by
  have hdeclared : ¬ (e.kind = .builtin ∨ e.kind = .callback) := by
    intro hk
    rw [declare_eq_nil_iff.2 hk] at h
    cases h
  exact Entry.exists_heading_iff.2 (not_or.1 hdeclared)

/-- The heading of an entry stands in its declaration. -/
theorem heading_mem_declare {heading : String} (hdoc : s.documents = true)
    (h : e.heading = .ok heading) : .comment ("/// " ++ heading) ∈ s.declare e := by
  have hmem : .comment ("/// " ++ heading) ∈ s.headingScript e := by
    simp [headingScript, hdoc, Setting.heading, h]
  have hk := (Entry.exists_heading_iff.1 ⟨heading, h⟩).2
  cases e with
  | builtin id spelling => cases h
  | declared id name shape => exact mem_declare_of_mem_heading hk hmem

/-- **Each text on an entry or its members stands in the declaration**, resolved. -/
theorem exists_note {heading text : String} (hdoc : s.documents = true)
    (hf : (s.declare e).failures = []) (hheading : e.heading = .ok heading)
    (h : text ∈ s.notesOn e) :
    ∃ sign, SignOf e sign ∧ .comment (sign ++ s.registry.resolveLine text) ∈ s.declare e := by
  have hk := (Entry.exists_heading_iff.1 ⟨heading, hheading⟩).2
  cases e with
  | builtin id spelling => cases hheading
  | declared id name shape =>
    rcases List.mem_append.1 h with h | h
    · refine ⟨"/// ", .entry, mem_declare_of_mem_heading hk ?_⟩
      simp only [headingScript, hdoc, if_true, Setting.heading, hheading]
      exact List.mem_append_right _ (List.mem_flatMap.2 ⟨text, h, comment_mem_docLine.2 rfl⟩)
    obtain ⟨n, hn, htext⟩ := List.mem_filterMap.1 h
    -- parameters are items in front of their function, other members have lines of their own
    by_cases hfunction : shape.kind = .function
    · cases shape with
      | function signature deviceCommand =>
        obtain ⟨p, hp, rfl⟩ : ∃ p ∈ signature.params, p.name = n := by
          simpa [Entry.memberNames, mem_memberNames, Shape.cases, Shape.bits, Shape.fields] using hn
        refine ⟨_, .item hn, ?_⟩
        have hitem : s.docLine ("/// - `" ++ p.name.display ++ "`: ") text <:+:
            s.parameterScript id signature.params := item_infix hdoc hp htext
        exact parameterScript_infix.subset (hitem.subset (comment_mem_docLine.2 rfl))
      | _ => cases hfunction
    · obtain ⟨members, front, back, hwrites, hsteps⟩ := declare_members hk hfunction hf
      have hn' : n ∈ shape.memberNames := hn
      rw [← hwrites.names] at hn'
      obtain ⟨w, hw, rfl⟩ := List.mem_map.1 hn'
      have hline : .comment ("  /// " ++ s.registry.resolveLine text) ∈ s.memberSteps id w := by
        have hscript : s.memberScript id w.name.display = s.docLine "  /// " text := by
          rw [memberScript, if_pos hdoc, memberLine]
          rw [Entry.id] at htext
          rw [htext]
        rw [memberSteps, hscript]
        exact List.mem_append_left _ (comment_mem_docLine.2 rfl)
      refine ⟨_, .member, ?_⟩
      rw [hsteps]
      exact List.mem_append_left _ (List.mem_append_right _ (List.mem_flatMap.2 ⟨w, hw, hline⟩))

end Setting

/-- A symbol that names an entry is its id. -/
theorem id_of_symbolParts {symbol id : List Char} (h : symbolParts symbol = some (id, none)) :
    id = symbol := by
  unfold symbolParts at h
  split at h
  · rename_i tag name hpieces
    have hsymbol := joined_pieces '.' symbol
    rw [hpieces] at hsymbol
    obtain rfl : tag ++ '.' :: name = id := congrArg Prod.fst (Option.some.inj h)
    rw [← hsymbol]
    simp [joined]
  · cases h
  · cases h

/-- **A link is the anchor of the heading of the entry that the symbol names.** -/
theorem link?_lookUp {r : Registry} {symbol link : String}
    (h : (r.lookUp symbol).link? = some link) :
    ∃ e heading, r.find? symbol = some e ∧ e.heading = .ok heading ∧ anchor heading = link := by
  unfold Registry.lookUp at h
  rcases hparts : symbolParts symbol.toList with _ | ⟨id, member⟩
  · simp [hparts, Reference.link?] at h
  rcases hfind : r.find? (String.ofList id) with _ | e
  · simp [hparts, hfind, Reference.link?] at h
  rcases hshown : e.reference? (member.map String.ofList) with _ | shown
  · simp [hparts, hfind, hshown, Reference.link?] at h
  simp only [hparts, hfind, hshown, Option.bind_eq_bind, Option.bind_some, Option.getD_some] at h
  cases member with
  | some member =>
    obtain ⟨ident, -, rfl⟩ := Option.map_eq_some_iff.1 hshown
    cases h
  | none =>
    rw [id_of_symbolParts hparts, String.ofList_toList] at hfind
    simp only [Option.map_none, Entry.reference?] at hshown
    split at hshown
    · rename_i ident heading hident hheading
      obtain rfl := Option.some.inj hshown
      exact ⟨e, heading, hfind, hheading, Option.some.inj h⟩
    · cases hshown

namespace Api

variable {api : Api} {cfg : Config} {m : Module}

/-- An entry that a module declares. -/
def DeclaredIn (api : Api) (m : Module) (e : Entry) : Prop :=
  ∃ id ∈ m.declares, api.registry.find? id = some e

/-- **The texts that a source resolves**: those on the module, and those on what it declares under a
heading. -/
inductive NoteIn (api : Api) (cfg : Config) (m : Module) : String → Prop
  | module {doc : ModuleDoc} {text : String} (hdoc : m.doc = some doc) (h : text ∈ doc.lines) :
    NoteIn api cfg m text
  | entry {e : Entry} {heading text : String} (he : api.DeclaredIn m e)
    (hheading : e.heading = .ok heading) (h : text ∈ (api.settingOf cfg m).notesOn e) :
    NoteIn api cfg m text

/-- **The comments of a source**: the resolved texts on the module, and the comments of what it
declares. -/
inductive CommentIn (api : Api) (cfg : Config) (m : Module) : String → Prop
  | module {doc : ModuleDoc} {text : String} (hdoc : m.doc = some doc) (h : text ∈ doc.lines) :
    CommentIn api cfg m ("//! " ++ api.registry.resolveLine text)
  | entry {e : Entry} {heading line : String} (he : api.DeclaredIn m e)
    (hheading : e.heading = .ok heading) (h : (api.settingOf cfg m).Comment e line) :
    CommentIn api cfg m line

/-- **The entries that a link leads to** in the source of a module: those declared there under a
heading with this anchor. -/
def LeadsTo (api : Api) (m : Module) (link : String) (e : Entry) : Prop :=
  api.DeclaredIn m e ∧ ∃ heading, e.heading = .ok heading ∧ anchor heading = link

theorem mem_declarationScript {s : Setting} {id : String} {e : Entry} {line : String}
    (he : s.registry.find? id = some e) :
    .comment line ∈ declarationScript s id ↔ .comment line ∈ s.declare e := by
  rcases declarationScript_cases he with hscript | hscript
  · rw [hscript]
  · rw [hscript, List.mem_cons, or_iff_right (by simp)]

/-- A comment of a declaration stands in the script of the module. -/
theorem mem_moduleScript {e : Entry} {line : String} (he : api.DeclaredIn m e)
    (h : .comment line ∈ (api.settingOf cfg m).declare e) :
    .comment line ∈ api.moduleScript cfg m := by
  obtain ⟨id, hid, hfind⟩ := he
  rw [moduleScript_eq]
  exact List.mem_append_right _ (List.mem_flatMap.2 ⟨id, hid, (mem_declarationScript hfind).2 h⟩)

/-- A comment in the script of a module stands in its source. -/
theorem standsIn_of_mem {source line : String}
    (h : (api.generateModule cfg m).result = .ok (some source))
    (hline : .comment line ∈ api.moduleScript cfg m) : StandsIn [line] source := by
  obtain ⟨hf, hsource⟩ := source_eq_lines h
  refine ⟨_, hsource, List.singleton_sublist.2 (List.mem_append_left _ ?_)⟩
  rw [Script.lines_of_failures_nil hf]
  exact List.mem_filterMap.2 ⟨_, hline, rfl⟩

section Generated

variable {source : String} (h : (api.generateModule cfg m).result = .ok (some source))
  (hmode : cfg.docMode = .apiReference)
include h hmode

/-- **The comments of a source are its headings and the texts that it resolves.** -/
theorem commentIn_of_mem {line : String} (hline : .comment line ∈ api.moduleScript cfg m) :
    api.CommentIn cfg m line := by
  have hdoc : (api.settingOf cfg m).documents = true := Setting.documents_iff.2 hmode
  obtain ⟨hf, -⟩ := source_eq_lines h
  rw [moduleScript_eq] at hline
  rcases List.mem_append.1 hline with hline | hline
  · have hfront : .comment line ∈ (api.settingOf cfg m).moduleDoc := by
      simpa [Setting.front, hdoc] using hline
    unfold Setting.moduleDoc at hfront
    split at hfront
    · rename_i doc hmodule
      obtain ⟨text, htext, hfront⟩ := List.mem_flatMap.1 hfront
      rw [Setting.comment_mem_docLine.1 hfront]
      exact .module hmodule htext
    · cases hfront
  · obtain ⟨id, hid, hline⟩ := List.mem_flatMap.1 hline
    -- an id that leads nowhere would have failed
    have hid' := failures_block hf id hid
    rcases hfind : (api.settingOf cfg m).registry.find? id with _ | e
    · simp [declarationScript, Registry.resolve, hfind] at hid'
    have hdeclare := (mem_declarationScript hfind).1 hline
    obtain ⟨heading, hheading⟩ := Setting.exists_heading_of_mem hdeclare
    exact .entry ⟨id, hid, hfind⟩ hheading (Setting.comment_of_declare hdoc hdeclare)

/-- **Each of the texts stands in the source**, resolved. -/
theorem exists_standsIn_note {text : String} (ht : api.NoteIn cfg m text) :
    ∃ sign, StandsIn [sign ++ api.registry.resolveLine text] source := by
  have hdoc : (api.settingOf cfg m).documents = true := Setting.documents_iff.2 hmode
  cases ht with
  | @module doc text hmodule htext =>
    refine ⟨"//! ", standsIn_of_mem h ?_⟩
    have hfront : .comment ("//! " ++ api.registry.resolveLine text) ∈
        (api.settingOf cfg m).front := by
      have hdoc' : (api.settingOf cfg m).doc = some doc := hmodule
      rw [Setting.front, if_pos hdoc, Setting.moduleDoc, hdoc']
      exact List.mem_flatMap.2 ⟨text, htext, Setting.comment_mem_docLine.2 rfl⟩
    rw [moduleScript_eq]
    exact List.mem_append_left _ (List.mem_append_left _ (List.mem_append_left _ hfront))
  | entry he hheading htext =>
    obtain ⟨hf, -⟩ := source_eq_lines h
    obtain ⟨id, hid, hfind⟩ := he
    have hblock := failures_block hf id hid
    rw [failures_declarationScript hfind] at hblock
    obtain ⟨sign, -, hline⟩ := Setting.exists_note hdoc hblock hheading htext
    exact ⟨sign, standsIn_of_mem h (mem_moduleScript ⟨id, hid, hfind⟩ hline)⟩

/-- The heading of an entry stands in each source that declares it. -/
theorem standsIn_heading {e : Entry} {heading : String} (he : api.DeclaredIn m e)
    (hheading : e.heading = .ok heading) : StandsIn ["/// " ++ heading] source :=
  standsIn_of_mem h
    (mem_moduleScript he (Setting.heading_mem_declare (Setting.documents_iff.2 hmode) hheading))

end Generated

/-- **A link leads to the entries that are like the one it is made for.** -/
theorem leadsTo_iff {e e' : Entry} {heading : String} (h : e.heading = .ok heading) :
    api.LeadsTo m (anchor heading) e' ↔ api.DeclaredIn m e' ∧ e.Alike e' := by
  refine and_congr_right fun _ => ⟨?_, fun halike => ?_⟩
  · rintro ⟨heading', h', hanchor⟩
    exact (Entry.anchor_eq_iff h h').1 hanchor.symm
  · -- an entry of the same kind has a heading as well
    have hkind := Entry.exists_heading_iff.1 ⟨heading, h⟩
    rw [halike.kind] at hkind
    obtain ⟨heading', h'⟩ := Entry.exists_heading_iff.2 hkind
    exact ⟨heading', h', ((Entry.anchor_eq_iff h h').2 halike).symm⟩

end Api

/-- **When the links of a source lead to one heading of it.** In a source with documentation the
comments are the headings of what the module declares and the texts that are resolved there, and all
of these are there. A link in such a text is the anchor of the heading of the entry that its symbol
names, wherever this entry is declared. It leads to exactly one heading of the source if and only if
the module declares exactly one entry like this one; for an entry of the module, if no other entry
of the module is like it. Among plain names, entries are alike if they have the same kind, letters
and device mark. -/
theorem links_valid_iff {api : Api} {cfg : Config} {m : Module} {source : String}
    (h : (api.generateModule cfg m).result = .ok (some source))
    (hmode : cfg.docMode = .apiReference) :
    (∀ line, .comment line ∈ api.moduleScript cfg m → api.CommentIn cfg m line) ∧
    (∀ text, api.NoteIn cfg m text →
      ∃ sign, StandsIn [sign ++ api.registry.resolveLine text] source) ∧
    (∀ e heading, api.DeclaredIn m e → e.heading = .ok heading →
      StandsIn ["/// " ++ heading] source) ∧
    ∀ text, api.NoteIn cfg m text → ∀ symbol ∈ symbolsOf text.toList, ∀ link,
      (api.registry.lookUp (String.ofList symbol)).link? = some link →
        ∃ e heading, api.registry.find? (String.ofList symbol) = some e ∧
          e.heading = .ok heading ∧ anchor heading = link ∧
          ((∃! e', api.LeadsTo m link e') ↔ ∃! e', api.DeclaredIn m e' ∧ e.Alike e') ∧
          (api.DeclaredIn m e → ((∃! e', api.LeadsTo m link e') ↔
            ∀ e', api.DeclaredIn m e' → e.Alike e' → e' = e)) ∧
          (api.registry.Plain → ∀ e', api.DeclaredIn m e' → (e.Alike e' ↔
            e.kind = e'.kind ∧ e.letters = e'.letters ∧
              e.isDeviceCommand = e'.isDeviceCommand)) := by
  refine ⟨fun _ => Api.commentIn_of_mem h hmode,
    fun _ => Api.exists_standsIn_note h hmode, fun _ _ => Api.standsIn_heading h hmode,
    fun text _ symbol _ link hlink => ?_⟩
  obtain ⟨e, heading, hfind, hheading, rfl⟩ := link?_lookUp hlink
  have hvalid : (∃! e', api.LeadsTo m (anchor heading) e') ↔
      ∃! e', api.DeclaredIn m e' ∧ e.Alike e' :=
    existsUnique_congr fun e' => Api.leadsTo_iff hheading
  refine ⟨e, heading, hfind, hheading, rfl, hvalid, fun he => hvalid.trans ⟨?_, ?_⟩, ?_⟩
  · rintro ⟨target, -, hunique⟩ e' he' halike
    exact (hunique e' ⟨he', halike⟩).trans (hunique e ⟨he, .refl e⟩).symm
  · exact fun hsole => ⟨e, ⟨he, .refl e⟩, fun e' he' => hsole e' he'.1 he'.2⟩
  · rintro hplain e' ⟨id, -, hfind'⟩
    exact Entry.alike_iff_of_plain (hplain e (Registry.mem_of_find? hfind))
      (hplain e' (Registry.mem_of_find? hfind'))

/-- A text whose documentation refers to three handles. Two others of them differ in case only, and
one is declared in another module. -/
def anchoredText : String :=
  "[\"ti\",[[\"taichi/a.h\",false,[],"
    ++ "[[\"handle\",\"h\"],[\"handle\",\"a_b\"],[\"handle\",\"ab\"]],"
    ++ "[[\"See `handle.h`, `handle.ab` and `handle.z`.\"]]],"
    ++ "[\"taichi/b.h\",false,[],[[\"handle\",\"z\"]]]]]"

/-- The documentation in `anchoredText`. -/
def anchoredNote : String :=
  "See `handle.h`, `handle.ab` and `handle.z`."

/-- A handle in `anchoredText`. -/
def anchoredHandle (name : String) : Entry :=
  .declared (Kind.handle.idOf name) (.withPrefix "ti" name) .handle

/-- The module in `anchoredText` with the documentation. -/
def anchoredModule : Module :=
  ⟨"taichi/a.h", false, [], ["handle.h", "handle.a_b", "handle.ab"],
    some ⟨[anchoredNote], [], []⟩⟩

/-- The interface in `anchoredText`. -/
def anchored : Api where
  lead := some "ti"
  registry := ⟨["h", "a_b", "ab", "z"].map anchoredHandle, by decide⟩
  modules := [anchoredModule, ⟨"taichi/b.h", false, [], ["handle.z"], none⟩]

theorem ofText_anchored : Api.ofText .empty anchoredText = .ok anchored := by
  cbv

theorem generated_anchored : ∃ source,
    (anchored.generateModule .default anchoredModule).result = .ok (some source) :=
  ⟨_, rfl⟩

theorem noteIn_anchored : anchored.NoteIn .default anchoredModule anchoredNote :=
  .module rfl (.head _)

theorem symbolsOf_anchored : symbolsOf anchoredNote.toList =
    ["h", "ab", "z"].map fun name => (Kind.handle.idOf name).toList := by
  decide +kernel

theorem find?_anchored : ∀ name ∈ ["h", "a_b", "ab", "z"],
    anchored.registry.find? (Kind.handle.idOf name) = some (anchoredHandle name) := by
  decide

theorem declaredIn_anchored {e : Entry} : anchored.DeclaredIn anchoredModule e ↔
    e ∈ ["h", "a_b", "ab"].map anchoredHandle := by
  have hfound : ∀ name ∈ ["h", "a_b", "ab"],
      anchored.registry.find? (Kind.handle.idOf name) = some (anchoredHandle name) :=
    fun name hname => find?_anchored name (List.mem_append_left ["z"] hname)
  constructor
  · rintro ⟨id, hid, hfind⟩
    have hid' : id ∈ ["h", "a_b", "ab"].map Kind.handle.idOf := hid
    obtain ⟨name, hname, rfl⟩ := List.mem_map.1 hid'
    obtain rfl := Option.some.inj ((hfound name hname).symm.trans hfind)
    exact List.mem_map_of_mem hname
  · intro he
    obtain ⟨name, hname, rfl⟩ := List.mem_map.1 he
    have hid : Kind.handle.idOf name ∈ ["h", "a_b", "ab"].map Kind.handle.idOf :=
      List.mem_map_of_mem hname
    exact ⟨_, hid, hfound name hname⟩

/-- In the source of the first module in `anchoredText`, of three links the first leads to one
heading, the second to two, and the third to none. -/
theorem links_valid_iff_anchored : Api.ofText .empty anchoredText = .ok anchored ∧
    ∃ source, (anchored.generateModule .default anchoredModule).result = .ok (some source) ∧
      (∃! e, anchored.LeadsTo anchoredModule "#handle-tih" e) ∧
      (¬ ∃! e, anchored.LeadsTo anchoredModule "#handle-tiab" e) ∧
      ¬ ∃! e, anchored.LeadsTo anchoredModule "#handle-tiz" e := by
  obtain ⟨source, hsource⟩ := generated_anchored
  obtain ⟨-, -, -, hlinks⟩ := links_valid_iff hsource rfl
  have hplain : anchored.registry.Plain := by decide
  have hvalid (name link : String) (hname : name ∈ ["h", "ab", "z"])
      (hlink : (anchored.registry.lookUp (Kind.handle.idOf name)).link? = some link) :
      (∃! e, anchored.LeadsTo anchoredModule link e) ↔ ∃! e,
        anchored.DeclaredIn anchoredModule e ∧ (anchoredHandle name).letters = e.letters := by
    have hsymbol : (Kind.handle.idOf name).toList ∈ symbolsOf anchoredNote.toList := by
      rw [symbolsOf_anchored]
      exact List.mem_map.2 ⟨name, hname, rfl⟩
    rw [← String.ofList_toList (s := Kind.handle.idOf name)] at hlink
    obtain ⟨e, heading, hfind, -, -, hvalid, -, halike⟩ :=
      hlinks anchoredNote noteIn_anchored _ hsymbol link hlink
    have hnames : ["h", "ab", "z"] ⊆ ["h", "a_b", "ab", "z"] := by decide
    rw [String.ofList_toList, find?_anchored name (hnames hname)] at hfind
    obtain rfl := Option.some.inj hfind
    refine hvalid.trans (existsUnique_congr fun e => and_congr_right fun he => ?_)
    rw [halike hplain e he]
    -- all of them are handles
    obtain ⟨other, -, rfl⟩ := List.mem_map.1 (declaredIn_anchored.1 he)
    exact ⟨fun h => h.2.1, fun h => ⟨rfl, h, rfl⟩⟩
  refine ⟨ofText_anchored, source, hsource, ?_, fun hone => ?_, fun hone => ?_⟩
  · refine (hvalid "h" _ (by decide) (by decide +kernel)).2
      ⟨anchoredHandle "h", ⟨declaredIn_anchored.2 (by decide), rfl⟩, ?_⟩
    rintro e ⟨he, hletters⟩
    have hsole : ∀ e ∈ ["h", "a_b", "ab"].map anchoredHandle,
        (anchoredHandle "h").letters = e.letters → e = anchoredHandle "h" := by
      decide
    exact hsole e (declaredIn_anchored.1 he) hletters
  · obtain ⟨e, -, hunique⟩ := (hvalid "ab" _ (by decide) (by decide +kernel)).1 hone
    have hfirst := hunique (anchoredHandle "a_b") ⟨declaredIn_anchored.2 (by decide), by decide⟩
    have hsecond := hunique (anchoredHandle "ab") ⟨declaredIn_anchored.2 (by decide), rfl⟩
    exact absurd (hfirst.trans hsecond.symm) (by decide)
  · obtain ⟨e, ⟨he, hletters⟩, -⟩ := (hvalid "z" _ (by decide) (by decide +kernel)).1 hone
    have hnone : ∀ e ∈ ["h", "a_b", "ab"].map anchoredHandle,
        (anchoredHandle "z").letters ≠ e.letters := by
      decide
    exact hnone e (declaredIn_anchored.1 he) hletters

/-- **A link can lead astray**: to no heading of the source that it stands in. -/
theorem link_leads_astray : ¬ ∀ (table : BuiltinTable) (text : String) (api : Api),
    Api.ofText table text = .ok api → ∀ cfg : Config, cfg.docMode = .apiReference →
      ∀ m ∈ api.modules, ∀ source, (api.generateModule cfg m).result = .ok (some source) →
        ∀ note, api.NoteIn cfg m note → ∀ symbol ∈ symbolsOf note.toList, ∀ link,
          (api.registry.lookUp (String.ofList symbol)).link? = some link →
            ∃! e, api.LeadsTo m link e := by
  intro h
  obtain ⟨source, hsource⟩ := generated_anchored
  have hsymbol : "handle.z".toList ∈ symbolsOf anchoredNote.toList := by
    rw [symbolsOf_anchored]
    decide
  obtain ⟨e, ⟨he, heading, hheading, hanchor⟩, -⟩ :=
    h .empty anchoredText anchored ofText_anchored .default rfl anchoredModule (.head _) source
      hsource anchoredNote noteIn_anchored _ hsymbol "#handle-tiz" (by decide +kernel)
  have hnone : ∀ e ∈ ["h", "a_b", "ab"].map anchoredHandle,
      (e.heading.map anchor).toOption ≠ some "#handle-tiz" := by
    decide +kernel
  refine hnone e (declaredIn_anchored.1 he) ?_
  rw [hheading]
  exact congrArg some hanchor

end Bindery

import Bindery.Proofs.Annotation

/-!
# Documentation and the code around it

The code of a module does not depend on its documentation, and documentation stays in comments as
long as nothing that it puts there contains a line feed.

* `ModuleDoc.OneLine`: a documentation whose texts have no line feeds.
* `visible_docLine`, `visible_headingScript`, `visible_parameterScript`: what notes leave visible.
* `result_congr`: modules under two annotations fail alike, and their sources can be compared.
* `documentation_keeps_code`: **documentation changes neither the outcome nor the code**.
* `mode_keeps_code`: **nor does the mode of documentation**.
-/

namespace Bindery

open Text

/-- The texts of a documentation. -/
def ModuleDoc.texts (d : ModuleDoc) : List String :=
  d.lines ++ d.entries.flatMap Prod.snd ++ d.members.map Prod.snd

/-- A documentation whose texts have no line feeds. -/
def ModuleDoc.OneLine (d : ModuleDoc) : Prop :=
  ∀ text ∈ d.texts, Bindery.OneLine text

instance (d : ModuleDoc) : Decidable d.OneLine :=
  List.decidableBAll _ _

theorem heading_of_declaredIdent {e : Entry} {ident : String} (h : e.declaredIdent = .ok ident) :
    ∃ heading, e.heading = .ok heading :=
  ⟨_, congrArg (Except.map _) h⟩

namespace Setting

variable {s : Setting} {e : Entry}

/-- A setting whose documentation has no line feeds. -/
def DocOneLine (s : Setting) : Prop :=
  ∀ d ∈ s.doc, d.OneLine

theorem oneLine_of_mem_entryDoc (hd : s.DocOneLine) {id text : String}
    (h : text ∈ s.entryDoc id) : OneLine text := by
  unfold entryDoc at h
  rcases hdoc : s.doc with _ | d
  · simp [hdoc] at h
  rcases hget : Keyed.get? d.entries id with _ | texts
  · simp [hdoc, hget] at h
  · simp only [hdoc, hget, Option.getD_some] at h
    exact hd d hdoc text (List.mem_append_left _ (List.mem_append_right _
      (List.mem_flatMap.2 ⟨_, Keyed.mem_of_get? hget, h⟩)))

theorem oneLine_of_memberDoc? (hd : s.DocOneLine) {id member text : String}
    (h : s.memberDoc? id member = some text) : OneLine text := by
  obtain ⟨d, hdoc, hget⟩ := Option.bind_eq_some_iff.1 h
  exact hd d hdoc text (List.mem_append_right _
    (List.mem_map_of_mem (f := Prod.snd) (Keyed.mem_of_get? hget)))

theorem visible_comment {line : String} (h : OneLine line) (hc : isComment line.toList = true) :
    [Step.comment line].flatMap Step.visible = [] := by
  simp [Step.visible, codeLines_of_comment h hc]

theorem visible_markScript (h : OneLine e.id) : (s.markScript e).flatMap Step.visible = [] := by
  unfold markScript
  split
  · refine visible_comment (oneLine_append.2 ⟨by decide, h⟩) ?_
    rw [String.toList_append]
    exact isComment_append (by decide) _
  · rfl

variable (hr : s.registry.OneLineNames)
include hr

/-- **A line of documentation leaves nothing visible** if it is one line. -/
theorem visible_docLine {sign text : String} (hsign : isComment sign.toList = true)
    (hone : OneLine sign) (h : OneLine text) :
    (s.docLine sign text).flatMap Step.visible = [] := by
  unfold docLine
  rw [List.flatMap_append, List.append_eq_nil_iff]
  constructor
  · -- the symbols that lead nowhere are reported, which writes nothing
    refine List.flatMap_eq_nil_iff.2 fun step hstep => ?_
    obtain ⟨marker, -, rfl⟩ := List.mem_map.1 hstep
    rfl
  · refine visible_comment (oneLine_append.2 ⟨hone, Registry.oneLine_resolveLine hr h⟩) ?_
    rw [String.toList_append]
    exact isComment_append hsign _

variable (hd : s.DocOneLine)
include hd

theorem visible_front : s.front.flatMap Step.visible = [] := by
  unfold front moduleDoc
  split
  · split
    · rename_i d hdoc
      rw [List.flatMap_assoc, List.flatMap_eq_nil_iff]
      intro text htext
      exact visible_docLine hr (by decide) (by decide)
        (hd d hdoc text (List.mem_append_left _ (List.mem_append_left _ htext)))
    · rfl
  · rfl

/-- Only the heading itself can be visible in the documentation of an entry. -/
theorem visible_headingScript {heading : String} (h : e.heading = .ok heading) :
    (s.headingScript e).flatMap Step.visible =
      if s.documents then codeLines ("/// " ++ heading).toList else [] := by
  unfold headingScript Setting.heading
  split
  · rw [h]
    simp only [List.flatMap_append, List.flatMap_assoc]
    have hbody : (s.entryDoc e.id).flatMap
        (fun text => (s.docLine "/// " text).flatMap Step.visible) = [] :=
      List.flatMap_eq_nil_iff.2 fun text htext =>
        visible_docLine hr (by decide) (by decide) (oneLine_of_mem_entryDoc hd htext)
    rw [hbody]
    simp [Step.visible]
  · rfl

theorem visible_memberScript (id member : String) :
    (s.memberScript id member).flatMap Step.visible = [] := by
  unfold memberScript memberLine
  split
  · split
    · rename_i text htext
      exact visible_docLine hr (by decide) (by decide) (oneLine_of_memberDoc? hd htext)
    · rfl
  · rfl

/-- The list of parameters shows their names as well. -/
theorem visible_parameterScript (id : String) {params : List Field}
    (hp : ∀ p ∈ params, OneLine p.name.display) :
    (s.parameterScript id params).flatMap Step.visible = [] := by
  unfold parameterScript
  split
  · rw [List.flatMap_append, List.append_eq_nil_iff]
    constructor
    · decide
    · rw [List.flatMap_assoc, List.flatMap_eq_nil_iff]
      intro p hmem
      unfold parameterLine
      split
      · rename_i text htext
        refine visible_docLine hr ?_ ?_ (oneLine_of_memberDoc? hd htext)
        · rw [String.toList_append, String.toList_append, List.append_assoc]
          exact isComment_append (by decide) _
        · simp only [oneLine_append]
          exact ⟨⟨by decide, hp p hmem⟩, by decide⟩
      · rfl
  · rfl

end Setting

/-- The source that the script of a module amounts to. -/
def Script.source (s : Script) : String :=
  unlines (s.lines ++ Api.reexportLines s)

/-- **The code of a source**: what is visible of the steps, and the short names. -/
theorem Script.withoutComments_source {s : Script} (h : s.failures = []) :
    withoutComments s.source = String.ofList (joined ['\n']
      (s.flatMap Step.visible ++ (Api.reexportLines s).flatMap (codeLines ·.toList) ++ [[]])) := by
  unfold withoutComments Script.source lines
  rw [codeLines_unlines, sound_eq_self h, List.flatMap_append, flatMap_codeLines]

namespace Api

variable {api : Api} {cfg : Config} {m : Module} {a b : DocMode} {c d : Option ModuleDoc}

theorem failures_annotated : (api.annotated cfg m a c).failures =
    (api.annotated cfg m b d).failures := by
  rw [← Script.failures_bare, bare_annotated a b c d, Script.failures_bare]

theorem exports_annotated : (api.annotated cfg m a c).exports =
    (api.annotated cfg m b d).exports := by
  rw [← Script.exports_bare, bare_annotated a b c d, Script.exports_bare]

theorem code_annotated : (api.annotated cfg m a c).code = (api.annotated cfg m b d).code := by
  rw [← Script.code_bare, bare_annotated a b c d, Script.code_bare]

/-- Modules under two annotations fail alike, so that comparing their sources is comparing their
results. -/
theorem result_congr {γ : Type} {F : Option String → γ}
    (h : (api.annotated cfg m a c).failures = [] →
      F (some (api.annotated cfg m a c).source) = F (some (api.annotated cfg m b d).source)) :
    (api.generateModule { cfg with docMode := a } { m with doc := c }).result.map F =
      (api.generateModule { cfg with docMode := b } { m with doc := d }).result.map F := by
  -- neither the mode nor the documentation has a part in whether a module is passed over
  by_cases hskip : m.builtIn = true ∨ (foreignRequirement? cfg m).isSome = true
  · have hnone : ∀ mode doc, (api.generateModule { cfg with docMode := mode }
        { m with doc := doc }).result = .ok none :=
      fun _ _ => result_generateModule_skipped hskip
    rw [hnone, hnone]
  rw [not_or, Bool.not_eq_true, Option.not_isSome_iff_eq_none] at hskip
  have hresult : ∀ mode doc,
      (api.generateModule { cfg with docMode := mode } { m with doc := doc }).result =
        (api.annotated cfg m mode doc).result.map fun lines =>
          some (unlines (lines ++ reexportLines (api.annotated cfg m mode doc))) :=
    fun _ _ => result_generateModule hskip.1 hskip.2
  have hfail : (api.annotated cfg m a c).failures = (api.annotated cfg m b d).failures :=
    failures_annotated
  rw [hresult, hresult]
  rcases hs : (api.annotated cfg m a c).failures with _ | ⟨err, errs⟩
  · have ht := hfail.symm.trans hs
    have hsource := h hs
    unfold Script.source Script.lines at hsource
    rw [Script.sound_eq_self hs, Script.sound_eq_self ht] at hsource
    rw [Script.result_of_failures_nil hs, Script.result_of_failures_nil ht]
    exact congrArg Except.ok hsource
  · rw [Script.result_of_failures_cons hs, Script.result_of_failures_cons (hfail.symm.trans hs)]
    rfl

/-- Sources with the same visible lines have the same code. -/
theorem withoutComments_congr
    (hv : (api.annotated cfg m a c).flatMap Step.visible =
      (api.annotated cfg m b d).flatMap Step.visible) :
    (api.generateModule { cfg with docMode := a } { m with doc := c }).result.map
        (Option.map withoutComments) =
      (api.generateModule { cfg with docMode := b } { m with doc := d }).result.map
        (Option.map withoutComments) := by
  refine result_congr fun hs => ?_
  have ht : (api.annotated cfg m b d).failures = [] := failures_annotated.symm.trans hs
  have hexports : (api.annotated cfg m a c).exports = (api.annotated cfg m b d).exports :=
    exports_annotated
  rw [Option.map_some, Option.map_some, Script.withoutComments_source hs,
    Script.withoutComments_source ht, hv]
  unfold reexportLines
  rw [hexports]

section OneLine

variable (hr : api.registry.OneLineNames) {e : Entry} (he : e ∈ api.registry.entries)
include hr he

theorem oneLine_fields : ∀ p ∈ e.fields, OneLine p.name.display :=
  fun p hp => oneLine_display (hr e he p.name (name_mem_names_of_mem_fields hp))

variable (hc : ∀ doc ∈ c, doc.OneLine) (hd : ∀ doc ∈ d, doc.OneLine)
include hd

/-- Under two modes, a documentation leaves nothing visible. -/
theorem sameNotes_of_oneLine_ids (hid : OneLine e.id) :
    Setting.SameNotes Step.visible (api.setting cfg a d) (api.setting cfg b d) e where
  mark := by
    rw [Setting.visible_markScript hid, Setting.visible_markScript hid]
  heading ident h := by
    obtain ⟨heading, hh⟩ := heading_of_declaredIdent h
    have hcomment : codeLines ("/// " ++ heading).toList = [] := by
      refine codeLines_of_comment (oneLine_append.2 ⟨by decide, oneLine_heading (hr e he) hh⟩) ?_
      rw [String.toList_append]
      exact isComment_append (by decide) _
    rw [Setting.visible_headingScript (s := api.setting cfg a d) hr hd hh,
      Setting.visible_headingScript (s := api.setting cfg b d) hr hd hh, hcomment, ite_self,
      ite_self]
  member member := by
    rw [Setting.visible_memberScript (s := api.setting cfg a d) hr hd,
      Setting.visible_memberScript (s := api.setting cfg b d) hr hd]
  parameters := by
    have hparams := oneLine_fields hr he
    rw [Setting.visible_parameterScript (s := api.setting cfg a d) hr hd _ hparams,
      Setting.visible_parameterScript (s := api.setting cfg b d) hr hd _ hparams]

include hc

/-- Under one mode, two documentations leave the same visible. -/
theorem sameNotes_of_oneLine_docs :
    Setting.SameNotes Step.visible (api.setting cfg a c) (api.setting cfg a d) e where
  mark := rfl
  heading ident h := by
    obtain ⟨heading, hh⟩ := heading_of_declaredIdent h
    rw [Setting.visible_headingScript (s := api.setting cfg a c) hr hc hh,
      Setting.visible_headingScript (s := api.setting cfg a d) hr hd hh]
    rfl
  member member := by
    rw [Setting.visible_memberScript (s := api.setting cfg a c) hr hc,
      Setting.visible_memberScript (s := api.setting cfg a d) hr hd]
  parameters := by
    have hparams := oneLine_fields hr he
    rw [Setting.visible_parameterScript (s := api.setting cfg a c) hr hc _ hparams,
      Setting.visible_parameterScript (s := api.setting cfg a d) hr hd _ hparams]

end OneLine

/-- **Documentation does not change the code.** Whatever the documentation of a module, generating
it has the same kind of outcome, with the same error. If neither the documentation nor the names of
the interface contain line feeds, the source without its comments is the same as well. -/
theorem documentation_keeps_code (api : Api) (cfg : Config) (m : Module)
    (c d : Option ModuleDoc) :
    (api.generateModule cfg { m with doc := c }).result.map Option.isSome =
        (api.generateModule cfg { m with doc := d }).result.map Option.isSome ∧
      (api.registry.OneLineNames → (∀ doc ∈ c, doc.OneLine) → (∀ doc ∈ d, doc.OneLine) →
        (api.generateModule cfg { m with doc := c }).result.map (Option.map withoutComments) =
          (api.generateModule cfg { m with doc := d }).result.map
            (Option.map withoutComments)) := by
  refine ⟨result_congr (a := cfg.docMode) (b := cfg.docMode) fun _ => rfl, fun hr hc hd => ?_⟩
  refine withoutComments_congr (a := cfg.docMode) (b := cfg.docMode)
    (flatMap_annotated ?_ fun e he => sameNotes_of_oneLine_docs hr he hc hd)
  rw [Setting.visible_front (s := api.setting cfg _ c) hr hc,
    Setting.visible_front (s := api.setting cfg _ d) hr hd]

/-- Documentation of the sample, with references. -/
def sampleDoc : ModuleDoc where
  lines := ["About `handle.y`."]
  entries := [("enumeration.x", ["Has `enumeration.x.a`.", "Nothing else."])]
  members := [("structure.g.f", "Called with a `handle.y`.")]

/-- The sample with documentation has the code that it has without. -/
theorem documentation_keeps_code_sample : sample.registry.OneLineNames ∧ sampleDoc.OneLine ∧
    ∃ source, (sample.generateModule .default sampleModule).result = .ok (some source) ∧
      (sample.generateModule .default { sampleModule with doc := some sampleDoc }).result.map
        (Option.map withoutComments) = .ok (some (withoutComments source)) := by
  have hnames : sample.registry.OneLineNames := by decide
  have hdoc : sampleDoc.OneLine := by decide
  obtain ⟨source, hsource⟩ := sample_generated
  refine ⟨hnames, hdoc, source, hsource, ?_⟩
  have hkeeps := (documentation_keeps_code sample .default sampleModule (some sampleDoc) none).2
    hnames (by rintro doc ⟨⟩; exact hdoc) (by rintro doc ⟨⟩)
  exact hkeeps.trans (congrArg (Except.map (Option.map withoutComments)) hsource)

/-- **A line of documentation can add code.** What stands behind a line feed in it is no comment. -/
theorem documentation_adds_code : ¬ ∀ (api : Api) (cfg : Config) (m : Module)
    (c d : Option ModuleDoc),
    (api.generateModule cfg { m with doc := c }).result.map (Option.map withoutComments) =
      (api.generateModule cfg { m with doc := d }).result.map (Option.map withoutComments) := by
  intro hall
  have h := hall .empty .default ⟨"taichi/a.h", false, [], [], none⟩ none
    (some ⟨["Core.\npub const X: u32 = 1;"], [], []⟩)
  revert h
  decide +kernel

/-- **The mode of documentation does not change the code.** Under both modes, generating a module
has the same kind of outcome, with the same error; the lines of code are the same in the same order,
and so are the short names. If no id, name or documentation contains a line feed, the source without
its comments is the same as well. -/
theorem mode_keeps_code (api : Api) (cfg : Config) (m : Module) (a b : DocMode) :
    (api.generateModule { cfg with docMode := a } m).result.map Option.isSome =
        (api.generateModule { cfg with docMode := b } m).result.map Option.isSome ∧
      (api.moduleScript { cfg with docMode := a } m).code =
        (api.moduleScript { cfg with docMode := b } m).code ∧
      api.reexports { cfg with docMode := a } m = api.reexports { cfg with docMode := b } m ∧
      ((∀ e ∈ api.registry.entries, OneLine e.id) → api.registry.OneLineNames →
        (∀ doc ∈ m.doc, doc.OneLine) →
          (api.generateModule { cfg with docMode := a } m).result.map
              (Option.map withoutComments) =
            (api.generateModule { cfg with docMode := b } m).result.map
              (Option.map withoutComments)) := by
  refine ⟨result_congr (c := m.doc) (d := m.doc) fun _ => rfl,
    code_annotated (c := m.doc) (d := m.doc),
    congrArg Reexports.empty.registerAll (exports_annotated (c := m.doc) (d := m.doc)),
    fun hids hr hd => ?_⟩
  refine withoutComments_congr (c := m.doc) (d := m.doc)
    (flatMap_annotated ?_ fun e he => sameNotes_of_oneLine_ids hr he hd (hids e he))
  rw [Setting.visible_front (s := api.setting cfg a m.doc) hr hd,
    Setting.visible_front (s := api.setting cfg b m.doc) hr hd]

/-- The sample with documentation has the same code under both modes. -/
theorem mode_keeps_code_sample : (∀ e ∈ sample.registry.entries, OneLine e.id) ∧
    sample.registry.OneLineNames ∧ sampleDoc.OneLine ∧
      (sample.generateModule { Config.default with docMode := .entryId }
          { sampleModule with doc := some sampleDoc }).result.map (Option.map withoutComments) =
        (sample.generateModule .default
          { sampleModule with doc := some sampleDoc }).result.map (Option.map withoutComments) := by
  have hids : ∀ e ∈ sample.registry.entries, OneLine e.id := by decide
  have hnames : sample.registry.OneLineNames := by decide
  have hdoc : sampleDoc.OneLine := by decide
  obtain ⟨-, -, -, hkeeps⟩ := mode_keeps_code sample .default
    { sampleModule with doc := some sampleDoc } .entryId .apiReference
  exact ⟨hids, hnames, hdoc, hkeeps hids hnames (by rintro doc ⟨⟩; exact hdoc)⟩

end Api

end Bindery

import Bindery.Proofs.Comments
import Bindery.Proofs.Sections

/-!
# What annotations change

The documentation of a module and the mode of documentation only say which comments and reports
stand between the steps of a declaration.

* `Setting.Alike`, `Setting.SameNotes`: settings that write the same code; settings whose notes on
  an entry amount to the same for an observation of steps.
* `flatMap_declared`, `flatMap_declare`, `flatMap_annotated`: **with the same notes, everything
  amounts to the same**.
* `sameNotes_bare`, `bare_annotated`: notes are always the same for an observation that sees neither
  comments nor reports.
-/

namespace Bindery

open Text

namespace Setting

variable {s t : Setting} {e : Entry} {β : Type} {g : Step → List β}

/-- Settings that differ in their annotations only. -/
structure Alike (s t : Setting) : Prop where
  registry : s.registry = t.registry
  linkName : s.config.linkName = t.config.linkName

/-- **Two settings whose notes on an entry amount to the same** for an observation of steps. Only
entries with an identifier have a heading. -/
structure SameNotes (g : Step → List β) (s t : Setting) (e : Entry) : Prop where
  mark : (s.markScript e).flatMap g = (t.markScript e).flatMap g
  heading : ∀ ident, e.declaredIdent = .ok ident →
    (s.headingScript e).flatMap g = (t.headingScript e).flatMap g
  member : ∀ member, (s.memberScript e.id member).flatMap g = (t.memberScript e.id member).flatMap g
  parameters : (s.parameterScript e.id e.fields).flatMap g =
    (t.parameterScript e.id e.fields).flatMap g

/-- Scripts of the members of a list, one after the other. -/
theorem flatMap_members {α : Type} (l : List α) {f f' : α → Script}
    (h : ∀ a ∈ l, (f a).flatMap g = (f' a).flatMap g) :
    (l.flatMap f).flatMap g = (l.flatMap f').flatMap g := by
  rw [List.flatMap_assoc, List.flatMap_assoc]
  exact List.flatMap_congr h

section Declared

variable {id : String} {name : Name} {shape : Shape} (ha : Alike s t)
  (hmark : (s.markScript (.declared id name shape)).flatMap g =
    (t.markScript (.declared id name shape)).flatMap g)
  (hheading : ∀ ident, (Entry.declared id name shape).declaredIdent = .ok ident →
    (s.headingScript (.declared id name shape)).flatMap g =
      (t.headingScript (.declared id name shape)).flatMap g)
  (hmember : ∀ n ∈ shape.memberNames, (s.memberScript id n.display).flatMap g =
    (t.memberScript id n.display).flatMap g)
include ha hmark hheading hmember

theorem flatMap_recordScript {ident : String}
    (hi : (Entry.declared id name shape).declaredIdent = .ok ident) (keyword typeIdent : String) :
    (s.recordScript (.declared id name shape) keyword typeIdent shape.fields).flatMap g =
      (t.recordScript (.declared id name shape) keyword typeIdent shape.fields).flatMap g := by
  have hfields : (shape.fields.flatMap (s.fieldScript id)).flatMap g =
      (shape.fields.flatMap (t.fieldScript id)).flatMap g :=
    flatMap_members shape.fields fun f hf => by
      have hnote := hmember _ (mem_memberNames.2 (.inr (.inr ⟨f, hf, rfl⟩)))
      simp only [fieldScript, List.flatMap_append, hnote, ha.registry]
  simp only [recordScript, List.flatMap_append, hmark, hheading ident hi, Entry.id, hfields]

variable (hparams : (s.parameterScript id shape.fields).flatMap g =
  (t.parameterScript id shape.fields).flatMap g)
include hparams

/-- **With the same notes on an entry and its members, declarations amount to the same.** -/
theorem flatMap_declared : (s.declare (.declared id name shape)).flatMap g =
    (t.declare (.declared id name shape)).flatMap g := by
  cases shape with
  | typeAlias target =>
    simp only [declare, aliasScript, List.flatMap_append, hmark, hheading _ rfl, ha.registry]
  | definition value =>
    simp only [declare, definitionScript, List.flatMap_append, hmark, hheading _ rfl]
  | handle =>
    simp only [declare, handleScript, List.flatMap_append, hmark, hheading _ rfl]
  | enumeration cases =>
    have hcases : (cases.flatMap (s.caseScript id name)).flatMap g =
        (cases.flatMap (t.caseScript id name)).flatMap g :=
      flatMap_members cases fun c hc => by
        have hnote := hmember _ (mem_memberNames.2 (.inl ⟨c, hc, rfl⟩))
        unfold caseScript
        split <;> simp only [List.flatMap_append, hnote]
    simp only [declare, enumerationScript, List.flatMap_append, hmark, hheading _ rfl,
      Entry.id, hcases]
  | bitField bits =>
    have hbits : (bits.flatMap (s.flagScript id)).flatMap g =
        (bits.flatMap (t.flagScript id)).flatMap g :=
      flatMap_members bits fun b hb => by
        have hnote := hmember _ (mem_memberNames.2 (.inr (.inl ⟨b, hb, rfl⟩)))
        simp only [flagScript, List.flatMap_append, hnote]
    simp only [declare, bitFieldScript, List.flatMap_append, hmark, hheading _ rfl,
      Entry.id, hbits]
  | record fields =>
    have hrecord := flatMap_recordScript ha hmark hheading hmember rfl "struct" name.typeIdent
    rw [declare, declare, List.flatMap_append, List.flatMap_append]
    exact congrArg _ hrecord
  | union variants =>
    have hrecord := flatMap_recordScript ha hmark hheading hmember rfl "union" name.typeIdent
    rw [declare, declare, List.flatMap_append, List.flatMap_append]
    exact congrArg _ hrecord
  | function signature deviceCommand =>
    have hcode : (signature.params.flatMap s.paramScript).flatMap g =
        (signature.params.flatMap t.paramScript).flatMap g :=
      flatMap_members signature.params fun p _ => by
        simp only [paramScript, ha.registry]
    have hlist : (s.parameterScript id signature.params).flatMap g = _ := hparams
    simp only [declare, functionScript, List.flatMap_append, hmark, hheading _ rfl,
      Entry.id, hlist, hcode, ha.registry, ha.linkName]
    rfl
  | callback signature => rfl

end Declared

/-- **With the same notes, declarations amount to the same.** -/
theorem flatMap_declare (ha : Alike s t) (hn : SameNotes g s t e) :
    (s.declare e).flatMap g = (t.declare e).flatMap g := by
  cases e with
  | builtin id spelling => rfl
  | declared id name shape =>
    exact flatMap_declared ha hn.mark hn.heading (fun _ _ => hn.member _) hn.parameters

/-- Built-in types and callbacks alone have no declaration, whatever the setting. -/
theorem declare_eq_nil_iff : s.declare e = [] ↔ e.kind = .builtin ∨ e.kind = .callback := by
  cases e with
  | builtin id spelling => simp [declare, Entry.kind]
  | declared id name shape =>
    cases shape with
    | typeAlias target =>
      rcases hres : s.registry.resolve target with err | found
      · simp [declare, aliasScript, Entry.kind, Shape.kind, hres]
      · rcases htype : s.registry.typeName found with err | text <;>
          simp [declare, aliasScript, Entry.kind, Shape.kind, hres, htype, Script.attempt]
    | _ =>
      simp [declare, Entry.kind, Shape.kind, definitionScript, handleScript, enumerationScript,
        bitFieldScript, recordScript, functionScript]

/-- Notes are always the same for an observation that sees neither comments nor reports. -/
theorem sameNotes_bare (s t : Setting) (e : Entry) : SameNotes Step.bare s t e where
  mark := by
    rw [(remarks_markScript e).bare_eq_nil, (remarks_markScript e).bare_eq_nil]
  heading ident h := by
    have hremarks : ∀ s : Setting, (s.headingScript e).Remarks := by
      cases e with
      | builtin id spelling => cases h
      | declared id name shape =>
        refine fun s => remarks_headingScript fun hk => ?_
        cases shape with
        | callback signature => cases h
        | _ => simp [Shape.kind] at hk
    rw [(hremarks s).bare_eq_nil, (hremarks t).bare_eq_nil]
  member member := by
    rw [(remarks_memberScript e.id member).bare_eq_nil,
      (remarks_memberScript e.id member).bare_eq_nil]
  parameters := by
    rw [(remarks_parameterScript e.id e.fields).bare_eq_nil,
      (remarks_parameterScript e.id e.fields).bare_eq_nil]

end Setting

namespace Api

variable {api : Api} {cfg : Config} {m : Module} {β : Type} {g : Step → List β}

/-- The setting of the modules of an interface under a mode and a documentation. -/
def setting (api : Api) (cfg : Config) (mode : DocMode) (doc : Option ModuleDoc) : Setting :=
  ⟨api.registry, doc, { cfg with docMode := mode }⟩

/-- The script of a module under a mode and a documentation. -/
def annotated (api : Api) (cfg : Config) (m : Module) (mode : DocMode) (doc : Option ModuleDoc) :
    Script :=
  api.moduleScript { cfg with docMode := mode } { m with doc := doc }

theorem alike_setting (a b : DocMode) (c d : Option ModuleDoc) :
    (api.setting cfg a c).Alike (api.setting cfg b d) :=
  ⟨rfl, rfl⟩

theorem flatMap_declarationScript {s t : Setting} (ha : s.Alike t) {id : String}
    (hn : ∀ e ∈ s.registry.entries, Setting.SameNotes g s t e) :
    (declarationScript s id).flatMap g = (declarationScript t id).flatMap g := by
  unfold declarationScript Registry.resolve
  rw [← ha.registry]
  rcases hf : s.registry.find? id with _ | e
  · rfl
  have hdeclare := Setting.flatMap_declare ha (hn e (Registry.mem_of_find? hf))
  have hnil : s.declare e = [] ↔ t.declare e = [] := by
    rw [Setting.declare_eq_nil_iff, Setting.declare_eq_nil_iff]
  -- the blank line depends on whether there is a declaration, which the notes do not decide
  rcases hs : s.declare e with _ | ⟨step, steps⟩
  · simp [hs, hnil.1 hs]
  · rcases ht : t.declare e with _ | ⟨step', steps'⟩
    · rw [hnil.2 ht] at hs
      cases hs
    · rw [hs, ht] at hdeclare
      simp only [hs, ht]
      exact congrArg (g (.code "") ++ ·) hdeclare

/-- **With the same notes, modules amount to the same.** -/
theorem flatMap_annotated {a b : DocMode} {c d : Option ModuleDoc}
    (hfront : (api.setting cfg a c).front.flatMap g = (api.setting cfg b d).front.flatMap g)
    (hn : ∀ e ∈ api.registry.entries,
      Setting.SameNotes g (api.setting cfg a c) (api.setting cfg b d) e) :
    (api.annotated cfg m a c).flatMap g = (api.annotated cfg m b d).flatMap g := by
  have hparts : ∀ mode doc, api.annotated cfg m mode doc =
      (api.setting cfg mode doc).front ++ importsHead.map .code ++
        (api.importLines cfg m).map .code ++
          m.declares.flatMap (declarationScript (api.setting cfg mode doc)) :=
    fun _ _ => moduleScript_eq
  have hone : ∀ id, (declarationScript (api.setting cfg a c) id).flatMap g =
      (declarationScript (api.setting cfg b d) id).flatMap g :=
    fun _ => flatMap_declarationScript (alike_setting a b c d) hn
  have hdeclares := Setting.flatMap_members m.declares fun id _ => hone id
  rw [hparts, hparts]
  simp only [List.flatMap_append, hfront, hdeclares]

/-- **Annotations change comments and reports only.** -/
theorem bare_annotated (a b : DocMode) (c d : Option ModuleDoc) :
    (api.annotated cfg m a c).flatMap Step.bare = (api.annotated cfg m b d).flatMap Step.bare := by
  refine flatMap_annotated ?_ fun e _ => Setting.sameNotes_bare _ _ e
  rw [Setting.remarks_front.bare_eq_nil, Setting.remarks_front.bare_eq_nil]

end Api

end Bindery

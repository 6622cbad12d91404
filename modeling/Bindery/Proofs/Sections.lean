import Bindery.Proofs.ShortNames

/-!
# The sections of a source

A source consists of documentation, imports, a block for each declaration, and short names.

* `source_eq_sections`: **the sections of a source**.
* `keys_registerAll`: a short name keeps the place of its first registration.
* `Declares`: the lines of code that declare an identifier; `exists_declares`: a declaration with a
  short name has such a line.
* `reexports_follow_declarations`: **the short names stand in the order in which the declarations
  take them first**, and each leads to something that the same source declares.
-/

namespace Bindery

/-- A short name keeps the place of its first registration. -/
theorem Reexports.keys_registerAll (es : List Reexport) :
    Keyed.keys (empty.registerAll es).targets = (es.map Reexport.key).eraseDups := by
  induction es using List.reverseRecOn with
  | nil => rfl
  | append_singleton es e ih =>
    -- from the end: the last registration takes a new place only if no earlier one has its key
    have hlast : empty.registerAll (es ++ [e]) = (empty.registerAll es).register e :=
      List.foldl_concat register empty e es
    have hnew : [e.key].removeAll (es.map Reexport.key) =
        if e.key ∈ es.map Reexport.key then [] else [e.key] := by
      by_cases hk : e.key ∈ es.map Reexport.key <;>
        simp only [List.removeAll, List.filter_cons, List.elem_eq_mem, hk] <;> rfl
    rw [hlast, List.map_append, List.eraseDups_append, List.map_singleton, hnew]
    unfold register
    rw [Keyed.keys_put, ih]
    simp only [List.mem_eraseDups]
    by_cases hk : e.key ∈ es.map Reexport.key
    · simp only [if_pos hk, List.eraseDups_nil, List.append_nil]
    · rw [if_neg hk, if_neg hk]
      rfl

/-- **The lines of code that declare an identifier.** -/
inductive Declares (ident : String) : String → Prop
  | typeAlias (target : String) : Declares ident ("pub type " ++ ident ++ " = " ++ target ++ ";")
  | constant (value : String) :
    Declares ident ("pub const " ++ ident ++ ": u32 = " ++ value ++ ";")
  | enumeration : Declares ident ("pub enum " ++ ident ++ " \x7b")
  | flags : Declares ident ("pub struct " ++ ident ++ ": u32 \x7b")
  | record : Declares ident ("pub " ++ "struct" ++ " " ++ ident ++ " \x7b")
  | union : Declares ident ("pub " ++ "union" ++ " " ++ ident ++ " \x7b")
  | function : Declares ident ("pub fn " ++ ident ++ "(")

/-- The line of code that declares a handle. -/
def handleLine (ident : String) : String :=
  "pub struct " ++ ident ++ "(pub usize);"

/-- **A declaration declares the identifier of its entry.** -/
theorem exists_declares_or_handle {s : Setting} {e : Entry} {ident : String}
    (hf : (s.declare e).failures = []) (hi : e.declaredIdent = .ok ident) :
    ∃ line, Step.code line ∈ s.declare e ∧
      (Declares ident line ∨ e.isHandle = true ∧ line = handleLine ident) := by
  cases e with
  | builtin id spelling => cases hi
  | declared id name shape =>
    cases shape with
    | typeAlias target =>
      obtain rfl : name.typeIdent = ident := Except.ok.inj hi
      simp only [Setting.declare, Setting.aliasScript] at hf ⊢
      rcases hres : s.registry.resolve target with err | t
      · simp [hres] at hf
      rcases htype : s.registry.typeName t with err | text
      · simp [hres, htype, Script.attempt] at hf
      · exact ⟨_, by simp [htype, Script.attempt], .inl (.typeAlias text)⟩
    | definition value =>
      obtain rfl : name.constIdent = ident := Except.ok.inj hi
      exact ⟨_, by simp [Setting.declare, Setting.definitionScript], .inl (.constant value)⟩
    | handle =>
      obtain rfl : name.typeIdent = ident := Except.ok.inj hi
      exact ⟨handleLine name.typeIdent,
        by simp [Setting.declare, Setting.handleScript, handleLine], .inr ⟨rfl, rfl⟩⟩
    | enumeration cases =>
      obtain rfl : name.typeIdent = ident := Except.ok.inj hi
      exact ⟨_, by simp [Setting.declare, Setting.enumerationScript], .inl .enumeration⟩
    | bitField bits =>
      obtain rfl : name.flagsIdent = ident := Except.ok.inj hi
      exact ⟨_, by simp [Setting.declare, Setting.bitFieldScript], .inl .flags⟩
    | record fields =>
      obtain rfl : name.typeIdent = ident := Except.ok.inj hi
      exact ⟨_, by simp [Setting.declare, Setting.recordScript], .inl .record⟩
    | union variants =>
      obtain rfl : name.typeIdent = ident := Except.ok.inj hi
      exact ⟨_, by simp [Setting.declare, Setting.recordScript], .inl .union⟩
    | function signature deviceCommand =>
      obtain rfl : name.functionIdent = ident := Except.ok.inj hi
      exact ⟨_, by simp [Setting.declare, Setting.functionScript], .inl .function⟩
    | callback signature => cases hi

theorem not_shortens_of_isHandle {r : Registry} {e : Entry} (h : e.isHandle = true) :
    r.shortens e = false := by
  cases e with
  | builtin id spelling => cases h
  | declared id name shape =>
    cases shape with
    | handle => rfl
    | _ => cases h

/-- **A declaration with a short name declares the identifier** that the short name stands for. -/
theorem exists_declares {s : Setting} {e : Entry} {ident : String}
    (hf : (s.declare e).failures = []) (hs : s.registry.shortens e = true)
    (hi : e.declaredIdent = .ok ident) :
    ∃ line, Step.code line ∈ s.declare e ∧ Declares ident line := by
  obtain ⟨line, hmem, hdeclares | ⟨hhandle, -⟩⟩ := exists_declares_or_handle hf hi
  · exact ⟨line, hmem, hdeclares⟩
  · rw [not_shortens_of_isHandle hhandle] at hs
    cases hs

/-- The documentation at the front of a module. -/
def Setting.front (s : Setting) : Script :=
  if s.documents then s.moduleDoc else []

theorem Setting.remarks_front {s : Setting} : s.front.Remarks := by
  unfold front
  split
  · exact remarks_moduleDoc
  · exact Script.remarks_nil

namespace Api

variable {api : Api} {cfg : Config} {m : Module}

/-- The setting of a module. -/
def settingOf (api : Api) (cfg : Config) (m : Module) : Setting :=
  ⟨api.registry, m.doc, cfg⟩

/-- The lines of a declaration of a module, with the blank line in front of them. -/
def block (api : Api) (cfg : Config) (m : Module) (id : String) : List String :=
  (declarationScript (api.settingOf cfg m) id).lines

theorem moduleScript_eq : api.moduleScript cfg m =
    (api.settingOf cfg m).front ++ importsHead.map .code ++ (api.importLines cfg m).map .code ++
      m.declares.flatMap (declarationScript (api.settingOf cfg m)) :=
  rfl

theorem failures_block (h : (api.moduleScript cfg m).failures = []) :
    ∀ id ∈ m.declares, (declarationScript (api.settingOf cfg m) id).failures = [] := by
  rw [moduleScript_eq, Script.failures, Script.collect_append, List.append_eq_nil_iff,
    Script.collect_flatMap_eq_nil_iff] at h
  exact h.2

/-- The code of a declaration stands in its block. -/
theorem mem_block {id line : String} {e : Entry} (he : api.registry.find? id = some e)
    (hf : ((api.settingOf cfg m).declare e).failures = [])
    (h : Step.code line ∈ (api.settingOf cfg m).declare e) : line ∈ api.block cfg m id := by
  have he' : (api.settingOf cfg m).registry.find? id = some e := he
  have hblock := failures_declarationScript he'
  rw [hf] at hblock
  unfold block
  rw [Script.lines_of_failures_nil hblock]
  refine List.mem_filterMap.2 ⟨.code line, ?_, rfl⟩
  rcases declarationScript_cases he' with hscript | hscript
  · exact hscript ▸ h
  · exact hscript ▸ List.mem_cons_of_mem _ h

/-- **The sections of a source**: documentation, imports, declarations and short names. -/
theorem source_eq_sections {source : String}
    (h : (api.generateModule cfg m).result = .ok (some source)) :
    (api.moduleScript cfg m).failures = [] ∧
      source = unlines ((api.settingOf cfg m).front.lines ++ importsHead ++
        api.importLines cfg m ++ m.declares.flatMap (api.block cfg m) ++
          "" :: (api.reexports cfg m).lines) := by
  obtain ⟨hf, hsource⟩ := source_eq_lines h
  refine ⟨hf, ?_⟩
  have hcode : ∀ ls : List String, Script.written (ls.map .code) = ls := fun ls =>
    (Script.collect_map _ ls _).trans List.filterMap_some
  have hblocks : Script.written (m.declares.flatMap (declarationScript (api.settingOf cfg m))) =
      m.declares.flatMap (api.block cfg m) := by
    rw [Script.written, Script.collect_flatMap]
    exact List.flatMap_congr fun id hid =>
      (Script.lines_of_failures_nil (failures_block hf id hid)).symm
  have hlines : (api.moduleScript cfg m).lines = (api.settingOf cfg m).front.lines ++
      importsHead ++ api.importLines cfg m ++ m.declares.flatMap (api.block cfg m) := by
    rw [Script.lines_of_failures_nil hf, moduleScript_eq,
      Script.lines_of_failures_nil Setting.remarks_front.failures_eq_nil]
    simp only [Script.collect_append, hcode, hblocks]
  rw [hsource, hlines]

/-- **Short names follow the declarations.** The source of a module ends with the blocks of its
declarations and lines that list short names. These are different and stand in the order in which
the declarations of the module take them first. Each stands for the identifier of the last
declaration that takes it, and a line of the block of that declaration declares this identifier. -/
theorem reexports_follow_declarations {source : String}
    (h : (api.generateModule cfg m).result = .ok (some source)) :
    (∃ front, source = unlines (front ++ m.declares.flatMap (api.block cfg m) ++
        "" :: (api.reexports cfg m).lines)) ∧
      (api.reexports cfg m).ListedBy (api.reexports cfg m).lines ∧
      ((api.reexports cfg m).toList.map Reexport.key).Nodup ∧
      (api.reexports cfg m).toList.map Reexport.key =
        ((m.declares.filterMap api.registry.reexport?).map Reexport.key).eraseDups ∧
      ∀ f ∈ (api.reexports cfg m).toList, ∃ pre id post e, m.declares = pre ++ id :: post ∧
        api.registry.find? id = some e ∧ api.registry.shortens e = true ∧
        e.shortIdent = .ok f.key ∧ e.declaredIdent = .ok f.target ∧
        (∀ later ∈ post, ∀ g, api.registry.reexport? later = some g → g.key ≠ f.key) ∧
        ∃ line ∈ api.block cfg m id, Declares f.target line := by
  obtain ⟨hf, hsource⟩ := source_eq_sections h
  have hkeys := (api.reexports cfg m).map_key_toList
  refine ⟨⟨_, hsource⟩, (api.reexports cfg m).listedBy_lines, ?_, ?_, fun f hmem => ?_⟩
  · rw [hkeys]
    exact (api.reexports cfg m).distinct
  · rw [hkeys, reexports, Reexports.keys_registerAll, exports_moduleScript hf]
  · -- the declaration that registered it last is one of the module, so that its block declares it
    obtain ⟨pre, id, post, hm, hid, hlast⟩ :=
      Reexports.lastOf_filterMap.1 ((mem_reexports_iff hf f).1 hmem)
    obtain ⟨e, he, hs, hk, ht⟩ := reexport?_eq_some_iff.1 hid
    have hblock := failures_block hf id (by simp [hm])
    rw [failures_declarationScript he] at hblock
    obtain ⟨line, hline, hdeclares⟩ := exists_declares hblock hs ht
    exact ⟨pre, id, post, e, hm, he, hs, hk, ht, hlast, line, mem_block he hblock hline, hdeclares⟩

/-- In the sample, the constant takes the only short name first, and its target is declared. -/
theorem reexports_follow_declarations_sample :
    ∃ source, (sample.generateModule .default sampleModule).result = .ok (some source) ∧
      (sample.reexports .default sampleModule).toList.map Reexport.key = ["X"] ∧
      ∀ f ∈ (sample.reexports .default sampleModule).toList, ∃ id ∈ sampleModule.declares,
        ∃ line ∈ sample.block .default sampleModule id, Declares f.target line := by
  obtain ⟨source, hsource⟩ := sample_generated
  obtain ⟨-, -, -, hkeys, hdeclared⟩ := reexports_follow_declarations hsource
  refine ⟨source, hsource, hkeys.trans (by decide), fun f hf => ?_⟩
  obtain ⟨pre, id, post, e, hm, -, -, -, -, -, line, hline, hdeclares⟩ := hdeclared f hf
  exact ⟨id, by simp [hm], line, hline, hdeclares⟩

end Api

end Bindery

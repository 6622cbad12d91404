import Bindery.Proofs.Sections

/-!
# Which imports lead to a source

A module imports what it requires without asking whether there is a source for it: a path can lead
to no module of the interface, or to one that is passed over.

* `generateAll_eq_ok`, `mem_stems_iff`: the sources of a run are those of the modules that it
  writes.
* `mem_importLines_iff`: the imports of a module are those of the paths that it requires, paths of
  built-in modules apart.
* `imports_lead_to_sources`: **an import leads to a source exactly if a module that the run writes
  has its name**, so that it does if the path leads to a module that needs no foreign one.
* `linked`, `import_leads_nowhere`: three modules, and an import of one that has no source.
-/

namespace Bindery

namespace Outcome

variable {α β : Type}

/-- A result behind another one is there exactly if both are. -/
theorem result_andThen_eq_ok {o : Outcome α} {f : α → Outcome β} {b : β} :
    (o.andThen f).result = .ok b ↔ ∃ a, o.result = .ok a ∧ (f a).result = .ok b := by
  unfold andThen
  rcases o.result with err | a
  · simp
  · simp

end Outcome

namespace Api

variable {api : Api} {cfg : Config} {m : Module} {g : GeneratedModule}

/-- Only modules that a run writes can have sources. -/
theorem generates_of_source {source : String}
    (h : (api.generateModule cfg m).result = .ok (some source)) :
    m.builtIn = false ∧ ∀ path ∈ m.requires, cfg.Owns path := by
  have hnone : ¬ (m.builtIn = true ∨ (foreignRequirement? cfg m).isSome = true) := by
    intro hskip
    rw [result_generateModule_skipped hskip] at h
    cases h
  rw [not_or, Bool.not_eq_true, Option.not_isSome_iff_eq_none] at hnone
  exact ⟨hnone.1, foreignRequirement?_eq_none_iff.1 hnone.2⟩

/-- What a run makes of one module is its source. -/
theorem generateOne_eq_some_iff : (api.generateOne cfg m).result = .ok (some g) ↔
    cfg.Generates m ∧ m.name = g.module ∧ cfg.stem? m.name = some g.stem ∧
      (api.generateModule cfg m).result = .ok (some g.source) := by
  obtain ⟨path, stem, source⟩ := g
  constructor
  · intro h
    unfold generateOne at h
    split at h
    · cases h
    split at h
    · cases h
    rename_i found hstem
    rcases hres : (api.generateModule cfg m).result with err | made
    · simp [hres, Except.map] at h
    obtain ⟨rfl, rfl, rfl⟩ : m.name = path ∧ found = stem ∧ made = some source := by
      simpa [hres, Except.map, and_left_comm, and_assoc, eq_comm] using h
    obtain ⟨hb, hown⟩ := generates_of_source hres
    exact ⟨⟨hb, owns_iff.2 ⟨_, hstem⟩, hown⟩, rfl, hstem, rfl⟩
  · rintro ⟨hg, rfl, hstem, hsource⟩
    simp [generateOne, hg.notBuiltIn, hstem, hsource, Except.map]

/-- A run that succeeds has a source for each module that it writes. -/
theorem exists_generateOne {made : Option GeneratedModule} (hg : cfg.Generates m)
    (h : (api.generateOne cfg m).result = .ok made) : ∃ g, made = some g := by
  obtain ⟨stem, hstem⟩ := owns_iff.1 hg.own
  have hresult : (api.generateModule cfg m).result = _ :=
    result_generateModule hg.notBuiltIn (foreignRequirement?_eq_none_iff.2 hg.requires)
  simp only [generateOne, hg.notBuiltIn, Bool.false_eq_true, if_false, hstem,
    Outcome.result_after, Outcome.result_map, hresult] at h
  rcases hs : (api.moduleScript cfg m).result with err | ls
  · simp [hs, Except.map] at h
  · exact ⟨_, by simpa [hs, Except.map] using h.symm⟩

/-- **The sources of a run** are what it makes of the modules, each of which succeeds. -/
theorem generateAll_eq_ok {ms : List Module} {generated : List GeneratedModule}
    (h : (api.generateAll cfg ms).result = .ok generated) :
    (∀ m ∈ ms, ∃ made, (api.generateOne cfg m).result = .ok made) ∧
      ∀ g, g ∈ generated ↔ ∃ m ∈ ms, (api.generateOne cfg m).result = .ok (some g) := by
  induction ms generalizing generated with
  | nil =>
    obtain rfl : [] = generated := Except.ok.inj h
    simp
  | cons m ms ih =>
    -- a run that succeeds makes something of the first module, and succeeds on the others
    obtain ⟨made, hone, hmore⟩ := Outcome.result_andThen_eq_ok.1 h
    rw [Outcome.result_map] at hmore
    rcases hall : (api.generateAll cfg ms).result with err | more
    · simp [hall, Except.map] at hmore
    obtain rfl : made.toList ++ more = generated := by
      simpa [hall, Except.map] using hmore
    obtain ⟨hok, hmem⟩ := ih hall
    refine ⟨List.forall_mem_cons.2 ⟨⟨made, hone⟩, hok⟩, fun g => ?_⟩
    rw [List.mem_append, Option.mem_toList, hmem, List.exists_mem_cons_iff, hone, Except.ok.injEq]

/-- **The names of the sources** are those of the modules that the run writes. -/
theorem mem_stems_iff {generated : List GeneratedModule}
    (h : (api.generate cfg).result = .ok generated) (stem : String) :
    stem ∈ generated.map (·.stem) ↔
      ∃ n ∈ api.modules, cfg.Generates n ∧ cfg.stem? n.name = some stem := by
  obtain ⟨hok, hmem⟩ := generateAll_eq_ok h
  rw [List.mem_map]
  constructor
  · rintro ⟨g, hg, rfl⟩
    obtain ⟨n, hn, hone⟩ := (hmem g).1 hg
    obtain ⟨hgen, -, hstem, -⟩ := generateOne_eq_some_iff.1 hone
    exact ⟨n, hn, hgen, hstem⟩
  · rintro ⟨n, hn, hgen, hstem⟩
    -- the run has come past this module, and what it made of it is a source
    obtain ⟨made, hone⟩ := hok n hn
    obtain ⟨g, rfl⟩ := exists_generateOne hgen hone
    obtain ⟨-, -, hstem', -⟩ := generateOne_eq_some_iff.1 hone
    rw [hstem] at hstem'
    exact ⟨g, (hmem g).2 ⟨n, hn, hone⟩, (Option.some.inj hstem').symm⟩

/-- A text with three modules: the first imports both others, and the last needs a foreign one. -/
def linkedText : String :=
  "[\"ti\",[[\"taichi/a.h\",false,[\"taichi/b.h\",\"taichi/c.h\"]],[\"taichi/b.h\"],"
    ++ "[\"taichi/c.h\",false,[\"stdint.h\"]]]]"

/-- The first module in `linkedText`. -/
def linkedModule : Module :=
  ⟨"taichi/a.h", false, ["taichi/b.h", "taichi/c.h"], [], none⟩

/-- The interface in `linkedText`. -/
def linked : Api where
  lead := some "ti"
  registry := .empty
  modules := [linkedModule, ⟨"taichi/b.h", false, [], [], none⟩,
    ⟨"taichi/c.h", false, ["stdint.h"], [], none⟩]

theorem ofText_linked : Api.ofText .empty linkedText = .ok linked := by
  cbv

theorem linked_generated : ∃ generated, (linked.generate .default).result = .ok generated ∧
    ∃ g ∈ generated, (linked.generateOne .default linkedModule).result = .ok (some g) := by
  have hunfolds : linked.registry.Unfolds := Registry.unfolds_of_rank (fun _ => 0) (by decide)
  have hdeclared : ∀ m ∈ linked.modules, ∀ id ∈ m.declares, linked.registry.Declarable id := by
    simp [linked, linkedModule]
  have hrun : Decides (linked.generate .default).result _ :=
    generateAll_decides (closed_of_ofText ofText_linked) hunfolds
      (consistent_of_ofText ofText_linked).declared
  obtain ⟨generated, h⟩ := hrun.ok_iff.2 fun m hm _ => hdeclared m hm
  obtain ⟨hok, hmem⟩ := generateAll_eq_ok h
  obtain ⟨made, hone⟩ := hok linkedModule (.head _)
  obtain ⟨g, rfl⟩ := exists_generateOne ⟨rfl, by decide, by decide⟩ hone
  exact ⟨generated, h, g, (hmem g).2 ⟨_, .head _, hone⟩, hone⟩

/-- The import of a source by its name. -/
def importOf (stem : String) : String :=
  "use crate::" ++ stem ++ "::*;"

theorem mem_importLines_iff {line : String} : line ∈ api.importLines cfg m ↔
    ∃ path ∈ m.requires, api.isBuiltIn path = false ∧
      ∃ stem, cfg.stem? path = some stem ∧ importOf stem = line := by
  simp [importLines, importOf, and_assoc]

/-- A module that a path leads to is written if it needs no foreign one. -/
theorem generates_of_module? {path : String} {n : Module} (hb : api.isBuiltIn path = false)
    (hown : cfg.Owns path) (hn : api.module? path = some n)
    (hreq : ∀ p ∈ n.requires, cfg.Owns p) : n ∈ api.modules ∧ n.name = path ∧ cfg.Generates n := by
  have hname : n.name = path := by simpa using List.find?_some hn
  refine ⟨List.mem_of_find?_eq_some hn, hname, ?_, hname ▸ hown, hreq⟩
  simpa [isBuiltIn, hn] using hb

/-- **Where imports lead.** In a run that succeeds, each source is that of a module of the
interface, with an import for each path that the module requires, paths that lead to built-in
modules apart, and no other. An import leads to a source of the run exactly if a module that the run
writes has its name, be it under another path. It does if its own path leads to a module of the
interface that requires only the interface's own. -/
theorem imports_lead_to_sources {generated : List GeneratedModule}
    (h : (api.generate cfg).result = .ok generated) :
    ∀ g ∈ generated, ∃ m ∈ api.modules, cfg.Generates m ∧ m.name = g.module ∧
      g.source = unlines ((api.settingOf cfg m).front.lines ++ importsHead ++
        api.importLines cfg m ++ m.declares.flatMap (api.block cfg m) ++
          "" :: (api.reexports cfg m).lines) ∧
      (∀ line, line ∈ api.importLines cfg m ↔ ∃ path ∈ m.requires, api.isBuiltIn path = false ∧
        ∃ stem, cfg.stem? path = some stem ∧ importOf stem = line) ∧
      ∀ line ∈ api.importLines cfg m, ∃ path ∈ m.requires, ∃ stem, cfg.stem? path = some stem ∧
        line = importOf stem ∧ api.isBuiltIn path = false ∧
        (stem ∈ generated.map (·.stem) ↔
          ∃ n ∈ api.modules, cfg.Generates n ∧ cfg.stem? n.name = some stem) ∧
        ∀ n, api.module? path = some n → (∀ p ∈ n.requires, cfg.Owns p) →
          stem ∈ generated.map (·.stem) := by
  intro g hg
  obtain ⟨m, hm, hone⟩ := ((generateAll_eq_ok h).2 g).1 hg
  obtain ⟨hgen, hname, -, hsource⟩ := generateOne_eq_some_iff.1 hone
  refine ⟨m, hm, hgen, hname, (source_eq_sections hsource).2, fun line => mem_importLines_iff,
    fun line hline => ?_⟩
  obtain ⟨path, hpath, hb, stem, hstem, rfl⟩ := mem_importLines_iff.1 hline
  refine ⟨path, hpath, stem, hstem, rfl, hb, mem_stems_iff h stem, fun n hn hreq => ?_⟩
  obtain ⟨hmem, rfl, hwritten⟩ := generates_of_module? hb (hgen.requires path hpath) hn hreq
  exact (mem_stems_iff h stem).2 ⟨n, hmem, hwritten, hstem⟩

/-- In the sample of three modules, the import of the module that needs no foreign one leads to a
source. -/
theorem imports_lead_to_sources_linked :
    ∃ generated, (linked.generate .default).result = .ok generated ∧ ∃ g ∈ generated,
      g.module = "taichi/a.h" ∧ importOf "b" ∈ linked.importLines .default linkedModule ∧
        "b" ∈ generated.map (·.stem) := by
  obtain ⟨generated, h, g, hg, hone⟩ := linked_generated
  have hpath : g.module = "taichi/a.h" := (generateOne_eq_some_iff.1 hone).2.1.symm
  obtain ⟨m, hm, -, hname, -, -, hlines⟩ := imports_lead_to_sources h g hg
  have hline : importOf "b" ∈ linked.importLines .default linkedModule := by
    decide
  obtain rfl : m = linkedModule := by
    have honly : ∀ n ∈ linked.modules, n.name = "taichi/a.h" → n = linkedModule := by
      decide
    exact honly m hm (hname.trans hpath)
  obtain ⟨path, hrequired, stem, hstem, hlead, -, -, hexists⟩ := hlines _ hline
  obtain rfl | rfl : path = "taichi/b.h" ∨ path = "taichi/c.h" := by
    simpa [linkedModule] using hrequired
  · obtain rfl : "b" = stem := Option.some.inj hstem
    exact ⟨generated, h, g, hg, hpath, hline, hexists _ rfl (by decide)⟩
  · -- the import of the other module is a different one
    obtain rfl : "c" = stem := Option.some.inj hstem
    exact absurd hlead (by decide)

/-- **An import can lead nowhere**: the module that needs a foreign one has no source. -/
theorem import_leads_nowhere : ¬ ∀ (table : BuiltinTable) (text : String) (api : Api),
    Api.ofText table text = .ok api → ∀ cfg generated, (api.generate cfg).result = .ok generated →
      ∀ g ∈ generated, ∀ front imports rest,
        g.source = unlines (front ++ importsHead ++ imports ++ "" :: rest) → "" ∉ imports →
          ∀ stem, importOf stem ∈ imports → stem ∈ generated.map (·.stem) := by
  intro hall
  obtain ⟨generated, h, g, hg, hone⟩ := linked_generated
  obtain ⟨-, -, -, hsource⟩ := generateOne_eq_some_iff.1 hone
  have hsections := (source_eq_sections hsource).2
  have hnone : linkedModule.declares.flatMap (linked.block .default linkedModule) = [] := rfl
  rw [hnone, List.append_nil] at hsections
  have hc : "c" ∈ generated.map (·.stem) :=
    hall _ _ _ ofText_linked .default generated h g hg _ _ _ hsections (by decide) "c" (by decide)
  obtain ⟨n, hn, hgen, hstem⟩ := (mem_stems_iff h "c").1 hc
  have honly : ∀ n ∈ linked.modules, Config.default.stem? n.name = some "c" →
      n.requires = ["stdint.h"] := by
    decide
  have hforeign : Config.default.Owns "stdint.h" :=
    hgen.requires _ (by simp [honly n hn hstem])
  revert hforeign
  decide

end Api

end Bindery

import Bindery.Proofs.Inventory
import Bindery.Proofs.Selection

/-!
# Code in a source

The code of a declaration stands in the source of every module that declares it, its lines in order
and with nothing but documentation between them.

* `StandsIn`: lines of code that stand in a source.
* `Api.Emits`, `emits_of_declares`: **the code of each declaration of a module stands in its
  source**.
* `find?_of_toApi`, `find?_of_declared`: a declaration leads to the entry that it makes.
* `Api.Writes`: the modules of a document with their sources; `forall₂_writes`: **the sources of a
  run are those of modules of the document**, one by one.
* `emits_of_writes`: **so the code of each declaration of a document stands in the source of its
  module**.
-/

namespace Bindery

/-- **Lines that stand in a source** in their order, perhaps with others between them. -/
def StandsIn (lines : List String) (source : String) : Prop :=
  ∃ all, source = unlines all ∧ lines.Sublist all

/-- The lines of a script that does not fail are its code with comments between. -/
theorem Script.code_sublist_lines {s : Script} (h : s.failures = []) : s.code.Sublist s.lines := by
  rw [lines_of_failures_nil h]
  induction s with
  | nil => exact .slnil
  | cons step s ih =>
    cases step with
    | code l => exact (ih h).cons_cons l
    | comment l => exact (ih h).cons l
    | register e | report e => exact ih h
    | fail e => cases h

namespace Api

variable {api : Api} {cfg : Config} {m : Module}

theorem code_sublist_block {id : String} {e : Entry} (he : api.registry.find? id = some e)
    (hf : ((api.settingOf cfg m).declare e).failures = []) :
    ((api.settingOf cfg m).declare e).code.Sublist (api.block cfg m id) := by
  have he' : (api.settingOf cfg m).registry.find? id = some e := he
  have hblock := failures_declarationScript he'
  rw [hf] at hblock
  refine List.Sublist.trans ?_ (Script.code_sublist_lines hblock)
  rcases declarationScript_cases he' with hscript | hscript
  · rw [hscript]
  · -- the blank line in front
    rw [hscript]
    exact List.sublist_cons_self _ _

/-- **An entry that is declared in a source of a module.** -/
structure Emits (api : Api) (cfg : Config) (m : Module) (source : String) (e : Entry) : Prop where
  mem : e ∈ api.registry.entries
  sound : ((api.settingOf cfg m).declare e).failures = []
  code : StandsIn ((api.settingOf cfg m).declare e).code source

/-- **The code of each declaration of a module stands in its source.** -/
theorem emits_of_declares {source id : String} {e : Entry}
    (h : (api.generateModule cfg m).result = .ok (some source)) (hid : id ∈ m.declares)
    (he : api.registry.find? id = some e) : api.Emits cfg m source e := by
  obtain ⟨hscript, hsource⟩ := source_eq_sections h
  have hf := failures_block hscript id hid
  rw [failures_declarationScript he] at hf
  refine ⟨Registry.mem_of_find? he, hf, _, hsource, (code_sublist_block he hf).trans ?_⟩
  have hblocks : (api.block cfg m id).Sublist (m.declares.flatMap (api.block cfg m)) :=
    List.sublist_flatten_of_mem (List.mem_map_of_mem hid)
  exact (hblocks.trans (List.sublist_append_right _ _)).trans (List.sublist_append_left _ _)

end Api

variable {table : BuiltinTable} {text : String} {api : Api} {d : Draft} {cfg : Config}

/-- A declaration leads to the entry that it makes. -/
theorem find?_of_toApi (h : d.toApi table = .ok api) {name : String} {marked : Bool}
    {written : DraftShape} (ha : .declared name marked written ∈ d.declarations) :
    ∃ shape, written.toShape (written.kind.idOf name) = .ok shape ∧
      api.registry.find? (written.kind.idOf name) =
        some (.declared (written.kind.idOf name) (entryName api.lead name marked) shape) := by
  obtain ⟨-, -, r, -, htakes⟩ := takes_toApi h
  obtain ⟨made, hentries, hmade⟩ := htakes.made
  obtain ⟨e, he, hmakes⟩ := exists_of_forall₂_left hmade (List.mem_filter.2 ⟨ha, rfl⟩)
  have hmem : e ∈ api.registry.entries := hentries ▸ List.mem_append_right _ he
  cases hmakes with
  | @intro _ _ _ shape hshape => exact ⟨shape, hshape, find?_of_mem hmem⟩

/-- A declaration of a loaded document leads to the entry that it makes. -/
theorem find?_of_declared (h : Api.ofText table text = .ok api) (hd : Draft.ofText text = .ok d)
    {name : String} {marked : Bool} {written : DraftShape}
    (ha : .declared name marked written ∈ d.declarations) :
    ∃ shape, written.toShape (written.kind.idOf name) = .ok shape ∧
      api.registry.find? (written.kind.idOf name) =
        some (.declared (written.kind.idOf name) (entryName api.lead name marked) shape) := by
  obtain ⟨d', hd', hapi⟩ := toApi_of_ofText h
  obtain rfl : d = d' := Except.ok.inj (hd.symm.trans hd')
  exact find?_of_toApi hapi ha

/-- **A source of a module of a document.** -/
structure Api.Writes (api : Api) (cfg : Config) (d : Draft) (dm : DraftModule) (source : String) :
    Prop where
  mem : dm ∈ d.modules
  result : (api.generateModule cfg dm.toModule).result = .ok (some source)

/-- **The sources of a run are those of modules of the document**, one by one: of the modules that
the run writes. -/
theorem forall₂_writes (h : Api.ofText table text = .ok api) (hd : Draft.ofText text = .ok d)
    {generated : List GeneratedModule} (hgen : (api.generate cfg).result = .ok generated) :
    List.Forall₂ (fun dm g => dm.name = g.module ∧ api.Writes cfg d dm g.source)
      (d.modules.filter fun dm => cfg.Generates dm.toModule) generated := by
  obtain ⟨d', hd', hapi⟩ := toApi_of_ofText h
  obtain rfl : d = d' := Except.ok.inj (hd.symm.trans hd')
  obtain ⟨-, hmodules, -⟩ := takes_toApi hapi
  obtain ⟨hok, rfl⟩ := Api.generateAll_eq_ok_iff.1 hgen
  have hsources := Api.sources_are_selected hok
  -- the selection among the modules of the interface is one among those of the document
  rw [hmodules, List.filter_map, List.forall₂_map_left_iff] at hsources
  have hmem := (List.forall₂_and_left _ _).2 ⟨fun dm hdm => List.mem_of_mem_filter hdm, hsources⟩
  rw [hmodules]
  exact hmem.imp fun dm g ⟨hdm, hsource⟩ => ⟨hsource.module.symm, hdm, hsource.source⟩

/-- **The code of each declaration of a document stands in the source of its module.** -/
theorem emits_of_writes (h : Api.ofText table text = .ok api) (hd : Draft.ofText text = .ok d)
    {dm : DraftModule} {source : String} (hw : api.Writes cfg d dm source) {name : String}
    {marked : Bool} {written : DraftShape} (ha : .declared name marked written ∈ dm.entries) :
    ∃ shape, written.toShape (written.kind.idOf name) = .ok shape ∧
      api.Emits cfg dm.toModule source
        (.declared (written.kind.idOf name) (entryName api.lead name marked) shape) := by
  have hmem : .declared name marked written ∈ d.declarations :=
    List.mem_flatMap.2 ⟨dm, hw.mem, ha⟩
  obtain ⟨shape, hshape, hfound⟩ := find?_of_declared h hd hmem
  have hid : written.kind.idOf name ∈ dm.toModule.declares :=
    List.mem_map_of_mem ha
  exact ⟨shape, hshape, Api.emits_of_declares hw.result hid hfound⟩

end Bindery

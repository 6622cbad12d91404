import Bindery.Command
import Bindery.Proofs.FailedDeclaration
import Bindery.Proofs.Output

/-!
# Runs that fail before they write

Everything that can fail, other than writing itself, comes before the first operation on files: the
description is read, parsed, loaded and validated as a whole, and all modules are generated.

* `ofText_error_iff`, `generateAll_error_iff`: when a text is refused, and when modules are:
  **whichever of them fails, also behind others that were generated**.
* `RunFails`: what can fail before a run writes.
* `steps_error_iff`, `generateFile_of_fails`: a command asks for no operation exactly if something
  of this fails.
* `failed_run_leaves_disk`: **what fails leaves the file system as it was**.
-/

namespace Bindery

theorem ofDraft_error_iff {table : BuiltinTable} {d : Draft} :
    (∃ e, Api.ofDraft table d = .error e) ↔
      (∃ e, d.toApi table = .error e) ∨ ∃ api, d.toApi table = .ok api ∧ ¬ api.Consistent := by
  unfold Api.ofDraft
  rcases d.toApi table with e | api
  · simp [bind, Except.bind]
  have hvalid : api.validate = .ok () ↔ api.Consistent :=
    validateIn_ok_iff_consistent (List.Perm.refl _)
  rcases hv : api.validate with e | ⟨⟩
  · have hfaulty : ¬ api.Consistent := fun hc => by simp [hvalid.2 hc] at hv
    simp [bind, Except.bind, hv, hfaulty]
  · simp [bind, Except.bind, pure, Except.pure, hv, hvalid.1 hv]

/-- **When a text is refused**: it is no description, its declarations cannot be taken, or they do
not go together. -/
theorem ofText_error_iff {table : BuiltinTable} {text : String} :
    (∃ e, Api.ofText table text = .error e) ↔ (∃ fault, Draft.ofText text = .error fault) ∨
      ∃ d, Draft.ofText text = .ok d ∧
        ((∃ e, d.toApi table = .error e) ∨ ∃ api, d.toApi table = .ok api ∧ ¬ api.Consistent) := by
  unfold Api.ofText
  rcases Draft.ofText text with fault | d
  · simp
  · simp only [ofDraft_error_iff, reduceCtorEq, exists_false, Except.ok.injEq, false_or,
      exists_eq_left']

/-- A result behind another one fails exactly if one of the two does. -/
theorem Outcome.result_andThen_error_iff {α β : Type} {o : Outcome α} {f : α → Outcome β} :
    (∃ err, (o.andThen f).result = .error err) ↔ (∃ err, o.result = .error err) ∨
      ∃ a, o.result = .ok a ∧ ∃ err, (f a).result = .error err := by
  unfold andThen
  rcases o.result with err | a
  · simp
  · simp

namespace Api

variable {api : Api} {cfg : Config} {m : Module}

/-- What a run makes of one module fails exactly if the module is one that it writes and one of its
declarations fails. -/
theorem generateOne_error_iff : (∃ err, (api.generateOne cfg m).result = .error err) ↔
    cfg.Generates m ∧
      ∃ id ∈ m.declares, (declarationScript (api.settingOf cfg m) id).failures ≠ [] := by
  by_cases hown : cfg.Owns m.name
  · obtain ⟨stem, hstem⟩ := owns_iff.1 hown
    have hmodule : (∃ err, (api.generateOne cfg m).result = .error err) ↔
        ∃ err, (api.generateModule cfg m).result = .error err := by
      rcases hb : m.builtIn with _ | _
      · rcases hres : (api.generateModule cfg m).result with err | made
        · simp [generateOne, hb, hstem, hres, Except.map]
        · simp [generateOne, hb, hstem, hres, Except.map]
      · simp [generateOne, generateModule, hb, Outcome.ok]
    rw [hmodule, generateModule_error_iff, ← and_assoc]
    exact and_congr_left fun _ => ⟨fun h => ⟨h.1, hown, h.2⟩, fun h => ⟨h.1, h.3⟩⟩
  · -- a module outside the interface is passed over
    have hstem : cfg.stem? m.name = none := by
      rw [owns_iff, not_exists] at hown
      exact Option.eq_none_iff_forall_ne_some.2 hown
    refine iff_of_false ?_ fun h => hown h.1.own
    unfold generateOne
    rcases m.builtIn with _ | _
    · simp [hstem]
    · simp

/-- **A run over modules fails exactly if one of them does**, wherever it stands: the modules before
it that were generated do not matter. -/
theorem generateAll_error_iff {ms : List Module} :
    (∃ err, (api.generateAll cfg ms).result = .error err) ↔ ∃ m ∈ ms, cfg.Generates m ∧
      ∃ id ∈ m.declares, (declarationScript (api.settingOf cfg m) id).failures ≠ [] := by
  induction ms with
  | nil => simp [generateAll]
  | cons m ms ih =>
    rw [generateAll, Outcome.result_andThen_error_iff, generateOne_error_iff,
      List.exists_mem_cons_iff, ← ih]
    -- behind a module that was generated, the run fails as it would on the others alone
    have hmore (made : Option GeneratedModule) :
        (∃ err, ((api.generateAll cfg ms).map fun more => made.toList ++ more).result =
          .error err) ↔ ∃ err, (api.generateAll cfg ms).result = .error err := by
      rcases h : (api.generateAll cfg ms).result with err | more
      · simp [h, Except.map]
      · simp [h, Except.map]
    simp only [hmore]
    constructor
    · rintro (hone | ⟨made, -, hrest⟩)
      · exact .inl hone
      · exact .inr hrest
    · rintro (hone | hrest)
      · exact .inl hone
      · rcases hres : (api.generateOne cfg m).result with err | made
        · exact .inl (generateOne_error_iff.1 ⟨err, hres⟩)
        · exact .inr ⟨made, rfl, hrest⟩

/-- In a consistent interface, the script of a declared id fails exactly if its entry does. -/
theorem failures_declarationScript_ne_nil_iff (hc : api.Consistent) (hm : m ∈ api.modules)
    {id : String} (hid : id ∈ m.declares) :
    (declarationScript (api.settingOf cfg m) id).failures ≠ [] ↔
      ∃ e, api.registry.find? id = some e ∧
        ∃ err, ((api.settingOf cfg m).declare e).failure? = some err := by
  obtain ⟨e, he, -⟩ := Registry.find?_of_contains (hc.declared m hm id hid)
  rw [failures_declarationScript he]
  simp only [he, Option.some.injEq, exists_eq_left', Script.failure?_eq_head?]
  rcases ((api.settingOf cfg m).declare e).failures with _ | ⟨err, errs⟩
  · simp
  · simp

end Api

/-- **What can fail before a run writes**: reading the description, parsing it, taking its
declarations, validating them, and generating any declaration of any module that the run writes. -/
inductive RunFails (table : BuiltinTable) (cfg : Config) (input : String) (disk : Disk) : Prop
  | reading {fault : FileFault} (h : disk.readText input = .error fault)
  | parsing {text : String} {fault : Json.Fault} (h : disk.readText input = .ok text)
      (hdraft : Draft.ofText text = .error fault)
  | loading {text : String} {d : Draft} {e : LoadError} (h : disk.readText input = .ok text)
      (hdraft : Draft.ofText text = .ok d) (hload : d.toApi table = .error e)
  | validating {text : String} {d : Draft} {api : Api} (h : disk.readText input = .ok text)
      (hdraft : Draft.ofText text = .ok d) (hload : d.toApi table = .ok api)
      (hfaulty : ¬ api.Consistent)
  | generating {text : String} {api : Api} {m : Module} {id : String} {e : Entry}
      {err : BindingError} (h : disk.readText input = .ok text)
      (hload : Api.ofText table text = .ok api) (hm : m ∈ api.modules) (hg : cfg.Generates m)
      (hid : id ∈ m.declares) (he : api.registry.find? id = some e)
      (herr : ((api.settingOf cfg m).declare e).failure? = some err)

variable {table : BuiltinTable} {cfg : Config} {input : String} {disk : Disk}

/-- **A run has modules to write exactly if nothing of this fails.** -/
theorem runFails_iff : RunFails table cfg input disk ↔
    (∃ e, disk.loadApi table input = .error e) ∨
      ∃ api, disk.loadApi table input = .ok api ∧
        ∃ err, (api.generate cfg).result = .error err := by
  unfold Disk.loadApi
  constructor
  · rintro (h | ⟨h, hdraft⟩ | ⟨h, hdraft, hload⟩ | ⟨h, hdraft, hload, hfaulty⟩ |
      ⟨h, hload, hm, hg, hid, he, herr⟩)
    · exact .inl ⟨_, by rw [h]⟩
    · rw [h]
      exact .inl (ofText_error_iff.2 (.inl ⟨_, hdraft⟩))
    · rw [h]
      exact .inl (ofText_error_iff.2 (.inr ⟨_, hdraft, .inl ⟨_, hload⟩⟩))
    · rw [h]
      exact .inl (ofText_error_iff.2 (.inr ⟨_, hdraft, .inr ⟨_, hload, hfaulty⟩⟩))
    · rw [h]
      refine .inr ⟨_, hload, Api.generateAll_error_iff.2 ⟨_, hm, hg, _, hid, ?_⟩⟩
      exact (Api.failures_declarationScript_ne_nil_iff (consistent_of_ofText hload) hm hid).2
        ⟨_, he, _, herr⟩
  · rcases h : disk.readText input with fault | text
    · exact fun _ => .reading h
    rintro (hload | ⟨api, hload, hgen⟩)
    · obtain ⟨fault, hdraft⟩ | ⟨d, hdraft, ⟨e, hload⟩ | ⟨api, hload, hfaulty⟩⟩ :=
        ofText_error_iff.1 hload
      · exact .parsing h hdraft
      · exact .loading h hdraft hload
      · exact .validating h hdraft hload hfaulty
    · obtain ⟨m, hm, hg, id, hid, hfail⟩ := Api.generateAll_error_iff.1 hgen
      obtain ⟨e, he, err, herr⟩ :=
        (Api.failures_declarationScript_ne_nil_iff (consistent_of_ofText hload) hm hid).1 hfail
      exact .generating h hload hm hg hid he herr

/-- **A command asks for no operation on files exactly if something of this fails.** -/
theorem steps_error_iff {c : Command} :
    (∃ f, c.steps (disk.readText c.input) = .error f) ↔
      RunFails .default c.config c.input disk := by
  rw [runFails_iff]
  unfold Command.steps Disk.loadApi
  rcases disk.readText c.input with fault | text
  · simp
  rcases hload : Api.ofText .default text with e | api
  · simp [hload]
  rcases hgen : (api.generate c.config).result with err | modules
  · simp [hload, hgen]
  · simp [hload, hgen]

/-- A run that has no modules to write leaves the file system alone. -/
theorem generateFile_of_fails (h : RunFails table cfg input disk) (dir : String) :
    ∃ e events, generateFile table cfg input dir disk = ⟨.error e, disk, events⟩ := by
  unfold generateFile
  obtain ⟨e, hload⟩ | ⟨api, hload, err, hgen⟩ := runFails_iff.1 h
  · rw [hload]
    exact ⟨_, _, rfl⟩
  · refine ⟨.binding err, (api.generate cfg).events, ?_⟩
    simp only [hload, Api.writeTo, hgen]

/-- **What fails before writing leaves the file system as it was.** If reading, parsing, loading or
validating the description fails, or generating any declaration of any module, then the command asks
for no operation on files: it ends with the failure, and the file system is the one before. The same
holds of a run into any directory. -/
theorem failed_run_leaves_disk {c : Command} (h : RunFails .default c.config c.input disk) :
    (∃ f, c.steps (disk.readText c.input) = .error f ∧ c.run disk = ⟨1, f.text, disk⟩) ∧
      ∀ dir, ∃ e events,
        generateFile .default c.config c.input dir disk = ⟨.error e, disk, events⟩ := by
  obtain ⟨f, hf⟩ := steps_error_iff.2 h
  refine ⟨⟨f, hf, ?_⟩, generateFile_of_fails h⟩
  unfold Command.run
  rw [hf]

/-- A text with two modules, of which the second has a case that begins with a digit. -/
def lateText : String :=
  "[\"ti\",[[\"taichi/a.h\"],[\"taichi/b.h\",false,[],[[\"enumeration\",\"e\",\x7b\"1d\":0\x7d]]]]]"

/-- The first module in `lateText`. -/
def earlyModule : Module :=
  ⟨"taichi/a.h", false, [], [], none⟩

/-- The second module in `lateText`. -/
def lateModule : Module :=
  ⟨"taichi/b.h", false, [], ["enumeration.e"], none⟩

/-- The interface in `lateText`. -/
def late : Api where
  lead := some "ti"
  registry := ⟨BuiltinTable.default.entries ++ [digitEnumeration], by decide⟩
  modules := [earlyModule, lateModule]

theorem ofText_late : Api.ofText .default lateText = .ok late := by
  cbv

/-- A file system with `lateText` in a file. -/
def lateDisk : Disk :=
  workplace.put ["w", "api.json"] (.file (.text lateText))

/-- The second module of `lateText` fails when the first one has been generated, and nothing is
written of either. -/
theorem failed_run_leaves_disk_late :
    (∃ g, (late.generateOne .default earlyModule).result = .ok (some g)) ∧
      RunFails .default (Command.ofArgs ["api.json", "out"]).config "api.json" lateDisk ∧
      lateDisk.node? ["w", "out"] = none ∧
      ∃ f : Failure, (Command.ofArgs ["api.json", "out"]).run lateDisk = ⟨1, f.text, lateDisk⟩ := by
  have hfailure : ((late.settingOf (Command.ofArgs ["api.json", "out"]).config lateModule).declare
      digitEnumeration).failure? = some (.unsupportedCase "enumeration.e" "1d") := by
    decide +kernel
  have hfound : late.registry.find? "enumeration.e" = some digitEnumeration := by
    decide +kernel
  have hfails : RunFails .default (Command.ofArgs ["api.json", "out"]).config "api.json" lateDisk :=
    .generating (by decide +kernel) ofText_late (.tail _ (.head _)) ⟨rfl, by decide, by decide⟩
      (.head _) hfound hfailure
  obtain ⟨⟨f, -, hrun⟩, -⟩ := failed_run_leaves_disk (c := .ofArgs ["api.json", "out"]) hfails
  refine ⟨⟨_, rfl⟩, hfails, rfl, f, hrun⟩

end Bindery

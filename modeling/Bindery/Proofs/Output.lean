import Bindery.Files.Write
import Bindery.Proofs.Frame
import Bindery.Proofs.Imports

/-!
# What a run leaves on disk

A run writes its outputs one after the other: the source of each module, and the root module last
if there is one. Nothing asks whether two of them have one name; the later one then replaces the
earlier.

* `Path.IsFileName`: a name that stands for a file in a directory and for nothing else.
* `outputPath`: the path of an output by its name; `outputPath_inj`, `eq_of_samePlace`: **names
  without slashes lead to places of their own**.
* `outputs`, `performAll_writeSteps`: the outputs of a run in order; `readText_output`: each path
  holds what was written last to its place.
* `Faithful`: no path is written twice, each source is there, and the root module declares each
  source once.
* `faithful_iff_lastAt`, `faithful_iff_nodup`: when a run is faithful, in general and for names
  without slashes.
* `writeTo_faithful_iff`: **a run is faithful exactly if its sources have different names**, the
  root module counted.
-/

namespace Bindery

namespace Path

/-- **A name that stands for a file in a directory**: not for the directory itself, the one above,
or a longer way. -/
structure IsFileName (name : String) : Prop where
  notEmpty : name ≠ ""
  notPoint : name ≠ "."
  notUp : name ≠ ".."
  noSlash : '/' ∉ name.toList

theorem isAbsolute_of_notMem {name : String} (h : '/' ∉ name.toList) :
    isAbsolute name = false := by
  unfold isAbsolute
  rcases hname : name.toList with _ | ⟨c, cs⟩
  · rfl
  · rw [hname, List.mem_cons, not_or] at h
    have hc : (c == '/') = false := beq_eq_false_iff_ne.2 (Ne.symm h.1)
    simp [hc]

variable {dir name : String}

/-- A path that starts at the root is not below a directory. -/
theorem join_of_isAbsolute (h : isAbsolute name = true) : join dir name = name := by
  simp [join, h]

/-- **The three ways of joining a path to a directory**, none of which looks at its slashes. -/
theorem join_cases (dir : String) (h : isAbsolute name = false) :
    dir = "" ∧ join dir name = name ∨
      ∃ front, (dir.toList = front ∨ dir.toList = front ++ ['/']) ∧ dir ≠ "" ∧
        (join dir name).toList = front ++ '/' :: name.toList := by
  unfold join
  rw [h, Bool.false_or]
  by_cases hempty : dir = ""
  · exact .inl ⟨hempty, by simp [hempty]⟩
  rw [if_neg (by simp [hempty])]
  refine .inr ?_
  split
  · rename_i hslash
    obtain ⟨front, hfront⟩ := List.getLast?_eq_some_iff.1 (beq_iff_eq.1 hslash)
    exact ⟨front, .inr hfront, hempty, by simp [hfront]⟩
  · exact ⟨dir.toList, .inl rfl, hempty, by simp⟩

/-- Different paths below a directory are different paths. -/
theorem join_inj {other : String} (h : isAbsolute name = false) (h' : isAbsolute other = false) :
    join dir name = join dir other ↔ name = other := by
  refine ⟨fun heq => ?_, fun heq => heq ▸ rfl⟩
  unfold join at heq
  rw [h, h', Bool.false_or] at heq
  split at heq
  · exact heq
  split at heq
  · exact (String.append_right_inj dir).1 heq
  · exact (String.append_right_inj (dir ++ "/")).1 heq

end Path

/-- The path of an output in a directory. -/
def outputPath (dir stem : String) : String :=
  Path.join dir (stem ++ ".rs")

theorem dropPoints_concat (names : List String) (name : String) :
    ∃ front, Path.dropPoints (names ++ [name]) = front ++ [name] := by
  induction names with
  | nil => exact ⟨[], rfl⟩
  | cons first rest ih =>
    obtain ⟨front, hfront⟩ := ih
    rw [List.cons_append, Disk.dropPoints_cons first (by simp), hfront]
    split
    · exact ⟨front, rfl⟩
    · exact ⟨first :: front, rfl⟩

theorem isFileName_output {stem : String} :
    Path.IsFileName (stem ++ ".rs") ↔ '/' ∉ stem.toList := by
  refine ⟨fun h hslash => h.noSlash (by simp [hslash]), fun h => ?_⟩
  have hlong : 3 ≤ (stem ++ ".rs").length := by
    rw [String.length_append]
    exact Nat.le_add_left 3 _
  refine ⟨?_, ?_, ?_, by simp [h]⟩
  · exact fun heq => absurd (heq ▸ hlong) (by decide)
  · exact fun heq => absurd (heq ▸ hlong) (by decide)
  · exact fun heq => absurd (heq ▸ hlong) (by decide)

/-- A path that ends with a name behind a slash ends with that piece. -/
theorem pieces_join {name : String} (h : '/' ∉ name.toList) (dir : String) :
    ∃ front, Text.pieces '/' (Path.join dir name).toList = front ++ [name.toList] := by
  obtain ⟨-, hjoin⟩ | ⟨front, -, -, hjoin⟩ := Path.join_cases dir (Path.isAbsolute_of_notMem h)
  · exact ⟨[], by rw [hjoin, Text.pieces_of_notMem h, List.nil_append]⟩
  · exact ⟨Text.pieces '/' front, by rw [hjoin, Text.pieces_append, Text.pieces_of_notMem h]⟩

/-- The way to an output ends with its name. -/
theorem names_outputPath {stem : String} (h : '/' ∉ stem.toList) (dir : String) :
    ∃ front, Path.names (outputPath dir stem) = front ++ [stem ++ ".rs"] := by
  have hname : '/' ∉ (stem ++ ".rs").toList := by
    simp [h]
  obtain ⟨ps, hps⟩ := pieces_join hname dir
  unfold Path.names outputPath
  rw [hps, List.filter_append, List.map_append]
  have hlast : ([(stem ++ ".rs").toList].filter (· ≠ [])).map String.ofList = [stem ++ ".rs"] := by
    simp [String.ofList_toList]
  rw [hlast]
  exact dropPoints_concat _ _

/-- The place of an output has its name. -/
theorem last_of_locate {d : Disk} {dir stem : String} {l : Location} (h : '/' ∉ stem.toList)
    (hl : d.locate (outputPath dir stem) = .ok l) : ∃ k, l = k ++ [stem ++ ".rs"] := by
  have hname : Path.IsFileName (stem ++ ".rs") := isFileName_output.2 h
  obtain ⟨front, hnames⟩ := names_outputPath h dir
  obtain ⟨-, -, hfollow⟩ := Disk.locate_eq_ok.1 hl
  rw [hnames] at hfollow
  exact Disk.follow_last hname.notPoint hname.notUp hfollow

theorem eq_of_concat {front front' : List String} {a b : String}
    (h : front ++ [a ++ ".rs"] = front' ++ [b ++ ".rs"]) : a = b := by
  have hname : a ++ ".rs" = b ++ ".rs" := List.singleton_inj.1 (List.append_inj' h rfl).2
  exact (String.append_left_inj ".rs").1 hname

variable {dir a b : String} (ha : '/' ∉ a.toList) (hb : '/' ∉ b.toList)
include ha hb

/-- Names without slashes have paths of their own. -/
theorem outputPath_inj : outputPath dir a = outputPath dir b ↔ a = b := by
  have hrelative {stem : String} (h : '/' ∉ stem.toList) :
      Path.isAbsolute (stem ++ ".rs") = false :=
    Path.isAbsolute_of_notMem (isFileName_output.2 h).noSlash
  unfold outputPath
  rw [Path.join_inj (hrelative ha) (hrelative hb), String.append_left_inj]

/-- **Names without slashes lead to places of their own.** -/
theorem eq_of_samePlace {d : Disk} (h : d.SamePlace (outputPath dir a) (outputPath dir b)) :
    a = b := by
  obtain ⟨l, hl, hl'⟩ := h
  obtain ⟨k, hk⟩ := last_of_locate ha hl
  obtain ⟨k', hk'⟩ := last_of_locate hb hl'
  rw [hk] at hk'
  exact eq_of_concat hk'

omit ha hb

/-- The line of the root module that declares a source. -/
def GeneratedModule.declaration (m : GeneratedModule) : String :=
  "pub mod " ++ m.stem ++ ";"

/-- The names of the outputs of a run. -/
def outputStems (cfg : Config) (modules : List GeneratedModule) : List String :=
  modules.map (·.stem) ++ if cfg.crateRoot then ["lib"] else []

/-- **The outputs of a run**, path and text, in the order in which they are written. -/
def outputs (cfg : Config) (dir : String) (modules : List GeneratedModule) :
    List (String × String) :=
  modules.map (fun m => (Path.join dir m.fileName, m.source)) ++
    if cfg.crateRoot then [(Path.join dir crateRootFile, crateRoot modules)] else []

variable {cfg : Config} {modules : List GeneratedModule}

theorem crateRoot_eq (modules : List GeneratedModule) :
    crateRoot modules = unlines (modules.map GeneratedModule.declaration) := rfl

theorem mem_outputs {m : GeneratedModule} (hm : m ∈ modules) :
    (Path.join dir m.fileName, m.source) ∈ outputs cfg dir modules :=
  List.mem_append_left _ (List.mem_map.2 ⟨m, hm, rfl⟩)

/-- The root module comes last. -/
theorem outputs_of_crateRoot (h : cfg.crateRoot = true) : outputs cfg dir modules =
    modules.map (fun m => (Path.join dir m.fileName, m.source)) ++
      [(Path.join dir crateRootFile, crateRoot modules)] := by
  unfold outputs
  rw [if_pos h]

theorem map_fst_outputs (cfg : Config) (dir : String) (modules : List GeneratedModule) :
    (outputs cfg dir modules).map Prod.fst = (outputStems cfg modules).map (outputPath dir) := by
  unfold outputs outputStems
  rw [List.map_append, List.map_append, List.map_map, List.map_map]
  cases cfg.crateRoot with
  | false => rfl
  | true => rfl

theorem writeSteps_eq (cfg : Config) (dir : String) (modules : List GeneratedModule) :
    writeSteps cfg dir modules =
      .makeDirs dir :: (outputs cfg dir modules).map Disk.writeStep := by
  unfold writeSteps outputs
  rw [List.map_append, List.map_map, List.append_assoc, List.singleton_append]
  cases cfg.crateRoot with
  | false => rfl
  | true => rfl

/-- **A run that leaves what it should**: no path is written twice, each source stands in its file,
and the root module, if there is one, declares each source once. -/
structure Faithful (cfg : Config) (dir : String) (modules : List GeneratedModule)
    (written : List String) (after : Disk) : Prop where
  distinct : written.Nodup
  sources : ∀ m ∈ modules, after.readText (Path.join dir m.fileName) = .ok m.source
  root : cfg.crateRoot = true →
    after.readText (Path.join dir crateRootFile) =
        .ok (unlines (modules.map GeneratedModule.declaration)) ∧
      ∀ m ∈ modules, (modules.map GeneratedModule.declaration).count m.declaration = 1

/-- The names of outputs differ exactly if the names of sources do and none is that of the root
module. -/
theorem nodup_outputStems_iff : (outputStems cfg modules).Nodup ↔
    (modules.map (·.stem)).Nodup ∧ (cfg.crateRoot = true → "lib" ∉ modules.map (·.stem)) := by
  unfold outputStems
  rcases cfg.crateRoot with _ | _
  · simp
  · rw [if_pos rfl, List.nodup_append_comm, List.singleton_append, List.nodup_cons, and_comm]
    simp

theorem slash_notMem_outputStems (hslash : ∀ m ∈ modules, '/' ∉ m.stem.toList) :
    ∀ stem ∈ outputStems cfg modules, '/' ∉ stem.toList := by
  intro stem hstem
  rcases List.mem_append.1 hstem with hstem | hstem
  · obtain ⟨m, hm, rfl⟩ := List.mem_map.1 hstem
    exact hslash m hm
  · split at hstem
    · rw [List.mem_singleton.1 hstem]
      decide
    · cases hstem

theorem exists_stem_of_mem_outputs {o : String × String} (ho : o ∈ outputs cfg dir modules) :
    ∃ stem ∈ outputStems cfg modules, outputPath dir stem = o.1 := by
  have hpath : o.1 ∈ (outputStems cfg modules).map (outputPath dir) := by
    rw [← map_fst_outputs]
    exact List.mem_map_of_mem ho
  exact List.mem_map.1 hpath

/-- Outputs at one place have one path. -/
theorem fst_eq_of_samePlace {d : Disk} {o o' : String × String}
    (hslash : ∀ m ∈ modules, '/' ∉ m.stem.toList) (ho : o ∈ outputs cfg dir modules)
    (ho' : o' ∈ outputs cfg dir modules) (h : d.SamePlace o.1 o'.1) : o.1 = o'.1 := by
  have hstems : ∀ stem ∈ outputStems cfg modules, '/' ∉ stem.toList :=
    slash_notMem_outputStems hslash
  obtain ⟨stem, hstem, hpath⟩ := exists_stem_of_mem_outputs ho
  obtain ⟨stem', hstem', hpath'⟩ := exists_stem_of_mem_outputs ho'
  rw [← hpath, ← hpath'] at h ⊢
  rw [eq_of_samePlace (hstems stem hstem) (hstems stem' hstem') h]

variable {disk after : Disk} {written : List String}

/-- Writing is making the directory and then writing the outputs. -/
theorem performAll_writeSteps :
    disk.performAll (writeSteps cfg dir modules) = (none, after) ↔
      ∃ made, disk.makeDirs dir = (none, made) ∧
        made.performAll ((outputs cfg dir modules).map Disk.writeStep) = (none, after) := by
  rw [writeSteps_eq, Disk.performAll, Disk.perform]
  rcases disk.makeDirs dir with ⟨_ | fault, made⟩
  · simp
  · simp

theorem written_writeSteps (cfg : Config) (dir : String) (modules : List GeneratedModule) :
    (writeSteps cfg dir modules).filterMap FileStep.written? =
      (outputs cfg dir modules).map Prod.fst := by
  rw [writeSteps_eq]
  exact List.filterMap_map.trans (congrFun List.filterMap_eq_map _)

/-- What a run that succeeds has done. -/
theorem performed_of_writeTo {api : Api} (h : (api.writeTo cfg dir disk).result = .ok written) :
    ∃ modules, (api.generate cfg).result = .ok modules ∧
      disk.performAll (writeSteps cfg dir modules) = (none, (api.writeTo cfg dir disk).disk) ∧
      written = (outputs cfg dir modules).map Prod.fst := by
  unfold Api.writeTo at h ⊢
  rcases hgen : (api.generate cfg).result with err | modules
  · simp [hgen] at h
  rcases hrun : disk.performAll (writeSteps cfg dir modules) with ⟨_ | fault, after⟩
  · refine ⟨modules, rfl, by simp [hgen, hrun], ?_⟩
    simpa [hgen, hrun, written_writeSteps, eq_comm] using h
  · simp [hgen, hrun] at h

/-- No output is a directory by its path. -/
theorem endsInSlash_outputPath (dir stem : String) :
    Path.endsInSlash (outputPath dir stem) = false := by
  have hend : ∃ front, (outputPath dir stem).toList = front ++ ['.', 'r', 's'] := by
    unfold outputPath Path.join
    split
    · exact ⟨stem.toList, by simp⟩
    · split
      · exact ⟨dir.toList ++ stem.toList, by simp⟩
      · exact ⟨dir.toList ++ '/' :: stem.toList, by simp⟩
  obtain ⟨front, hfront⟩ := hend
  unfold Path.endsInSlash
  rw [hfront]
  simp

section Run

variable (hg : disk.Grounded)
  (h : disk.performAll (writeSteps cfg dir modules) = (none, after))
include hg h

/-- **Each path of an output holds what was written last to its place.** -/
theorem readText_output {o : String × String} (stem : String)
    (hlast : after.LastAt (outputPath dir stem) (outputs cfg dir modules) o) :
    after.readText (outputPath dir stem) = .ok o.2 := by
  obtain ⟨made, hmake, hrun⟩ := performAll_writeSteps.1 h
  exact Disk.performAll_lastAt (Disk.grounded_makeDirs hg hmake) hrun hlast
    (endsInSlash_outputPath dir stem)

/-- Each output has a place. -/
theorem samePlace_output {o : String × String} (ho : o ∈ outputs cfg dir modules) :
    after.SamePlace o.1 o.1 := by
  obtain ⟨made, hmake, hrun⟩ := performAll_writeSteps.1 h
  obtain ⟨l, hl⟩ :=
    Disk.exists_locate_of_performAll (Disk.grounded_makeDirs hg hmake) hrun o ho
  exact ⟨l, hl, hl⟩

/-- The root module is written last, and stays. -/
theorem readText_crateRoot (hroot : cfg.crateRoot = true) :
    after.readText (Path.join dir crateRootFile) = .ok (crateRoot modules) := by
  have hlist : outputs cfg dir modules = _ := outputs_of_crateRoot hroot
  have hmem : (Path.join dir crateRootFile, crateRoot modules) ∈ outputs cfg dir modules := by
    rw [hlist]
    exact List.mem_append_right _ (List.mem_singleton.2 rfl)
  have hlast : after.LastAt (outputPath dir "lib") (outputs cfg dir modules)
      (Path.join dir crateRootFile, crateRoot modules) :=
    ⟨_, [], hlist, samePlace_output hg h hmem, by simp⟩
  exact readText_output hg h "lib" hlast

/-- **When a run is faithful**: no path is written twice, and the last output at the place of each
source is that source. -/
theorem faithful_iff_lastAt :
    Faithful cfg dir modules ((outputs cfg dir modules).map Prod.fst) after ↔
      ((outputs cfg dir modules).map Prod.fst).Nodup ∧
        ∀ m ∈ modules, ∀ o, after.LastAt (Path.join dir m.fileName) (outputs cfg dir modules) o →
          o.2 = m.source := by
  constructor
  · intro hf
    refine ⟨hf.distinct, fun m hm o hlast => ?_⟩
    have hheld := readText_output hg h m.stem hlast
    exact Except.ok.inj (hheld.symm.trans (hf.sources m hm))
  · rintro ⟨hdistinct, hlast⟩
    have hstems : (modules.map (·.stem)).Nodup := by
      have hall := hdistinct
      rw [map_fst_outputs] at hall
      exact (List.nodup_append.1 hall.of_map).1
    have hlines : (modules.map GeneratedModule.declaration).Nodup := by
      have hinj : Function.Injective fun stem : String => "pub mod " ++ stem ++ ";" :=
        fun a b heq =>
          (String.append_right_inj "pub mod ").1 ((String.append_left_inj ";").1 heq)
      have hmapped := hstems.map hinj
      rwa [List.map_map] at hmapped
    refine ⟨hdistinct, fun m hm => ?_, fun hroot => ⟨?_, fun m hm => ?_⟩⟩
    · have hmem : (Path.join dir m.fileName, m.source) ∈ outputs cfg dir modules :=
        mem_outputs hm
      obtain ⟨o, ho⟩ := Disk.exists_lastAt ⟨_, hmem, samePlace_output hg h hmem⟩
      rw [← hlast m hm o ho]
      exact readText_output hg h m.stem ho
    · rw [← crateRoot_eq]
      exact readText_crateRoot hg h hroot
    · exact List.count_eq_one_of_mem hlines (List.mem_map_of_mem hm)

/-- **Where no name has a slash, a run is faithful exactly if the names differ.** -/
theorem faithful_iff_nodup (hslash : ∀ m ∈ modules, '/' ∉ m.stem.toList) :
    Faithful cfg dir modules ((outputs cfg dir modules).map Prod.fst) after ↔
      (outputStems cfg modules).Nodup := by
  rw [faithful_iff_lastAt hg h, map_fst_outputs]
  constructor
  · rintro ⟨hdistinct, -⟩
    exact hdistinct.of_map
  · intro hnodup
    have hstems : ∀ stem ∈ outputStems cfg modules, '/' ∉ stem.toList :=
      slash_notMem_outputStems hslash
    have hdistinct : ((outputStems cfg modules).map (outputPath dir)).Nodup :=
      hnodup.map_on fun a ha b hb => (outputPath_inj (hstems a ha) (hstems b hb)).1
    refine ⟨hdistinct, fun m hm o hlast => ?_⟩
    obtain ⟨before, later, hlist, hplace, -⟩ := hlast
    have ho : o ∈ outputs cfg dir modules := by
      rw [hlist]
      exact List.mem_append_right _ (.head _)
    have hsource : (Path.join dir m.fileName, m.source) ∈ outputs cfg dir modules :=
      mem_outputs hm
    -- what goes to the place of a source has its path, and so is that source
    have hpath : o.1 = Path.join dir m.fileName := fst_eq_of_samePlace hslash ho hsource hplace
    rw [← map_fst_outputs] at hdistinct
    rw [List.inj_on_of_nodup_map hdistinct ho hsource hpath]

end Run

/-- **What a run leaves on disk.** A run that succeeds writes the source of each module, in order,
and the root module last if there is one. Each path holds what was written last to its place. So the
run is faithful exactly if no path is written twice and each source is the last output at its place;
where no name has a slash, exactly if the names of the sources differ and none is that of the root
module. -/
theorem writeTo_faithful_iff {api : Api} (hg : disk.Grounded)
    (h : (api.writeTo cfg dir disk).result = .ok written) :
    ∃ modules, (api.generate cfg).result = .ok modules ∧
      written = (outputs cfg dir modules).map Prod.fst ∧
      (∀ stem o, (api.writeTo cfg dir disk).disk.LastAt (outputPath dir stem)
          (outputs cfg dir modules) o →
        (api.writeTo cfg dir disk).disk.readText (outputPath dir stem) = .ok o.2) ∧
      (Faithful cfg dir modules written (api.writeTo cfg dir disk).disk ↔
        written.Nodup ∧ ∀ m ∈ modules, ∀ o,
          (api.writeTo cfg dir disk).disk.LastAt (Path.join dir m.fileName)
            (outputs cfg dir modules) o → o.2 = m.source) ∧
      ((∀ m ∈ modules, '/' ∉ m.stem.toList) →
        (Faithful cfg dir modules written (api.writeTo cfg dir disk).disk ↔
          (modules.map (·.stem)).Nodup ∧
            (cfg.crateRoot = true → "lib" ∉ modules.map (·.stem)))) := by
  obtain ⟨modules, hgen, hrun, rfl⟩ := performed_of_writeTo h
  refine ⟨modules, hgen, rfl, fun stem o => readText_output hg hrun stem,
    faithful_iff_lastAt hg hrun, fun hslash => ?_⟩
  rw [faithful_iff_nodup hg hrun hslash, nodup_outputStems_iff]

/-- The settings with a root module. -/
def rooted : Config :=
  { Config.default with crateRoot := true }

/-- A file system with one directory. -/
def workplace : Disk :=
  .empty ["w"]

theorem grounded_workplace : workplace.Grounded :=
  ⟨[], by decide⟩

/-- The run on the sample of three modules is faithful. -/
theorem writeTo_faithful_iff_linked : ∃ modules written,
    (Api.linked.writeTo rooted "out" workplace).result = .ok written ∧
      (Api.linked.generate rooted).result = .ok modules ∧
      Faithful rooted "out" modules written (Api.linked.writeTo rooted "out" workplace).disk := by
  have hwritten : (Api.linked.writeTo rooted "out" workplace).result =
      .ok ["out/a.rs", "out/b.rs", "out/lib.rs"] := by
    decide +kernel
  obtain ⟨modules, hgen, -, -, -, hiff⟩ := writeTo_faithful_iff grounded_workplace hwritten
  have hstems : modules.map (·.stem) = ["a", "b"] := by
    have hall : (Api.linked.generate rooted).result.map (List.map (·.stem)) = .ok ["a", "b"] := by
      decide +kernel
    rw [hgen] at hall
    exact Except.ok.inj hall
  have hslash : ∀ m ∈ modules, '/' ∉ m.stem.toList := by
    have hall : ∀ stem ∈ ["a", "b"], '/' ∉ stem.toList := by
      decide
    exact fun m hm => hall _ (hstems ▸ List.mem_map_of_mem hm)
  refine ⟨modules, _, hwritten, hgen, (hiff hslash).2 ?_⟩
  rw [hstems]
  exact ⟨by decide, fun _ => by decide⟩

/-- A text with two modules, of which one has no extension. -/
def twiceText : String :=
  "[\"ti\",[[\"taichi/a.h\"],[\"taichi/a\"]]]"

/-- The interface in `twiceText`. -/
def twice : Api where
  lead := some "ti"
  registry := .empty
  modules := [⟨"taichi/a.h", false, [], [], none⟩, ⟨"taichi/a", false, [], [], none⟩]

theorem ofText_twice : Api.ofText .empty twiceText = .ok twice := by
  cbv

/-- **A run can write one file twice.** -/
theorem run_replaces_output : ¬ ∀ (table : BuiltinTable) (text : String) (api : Api),
    Api.ofText table text = .ok api → ∀ (cfg : Config) (dir : String) (disk : Disk),
      disk.Grounded → ∀ written modules, (api.writeTo cfg dir disk).result = .ok written →
        (api.generate cfg).result = .ok modules →
          Faithful cfg dir modules written (api.writeTo cfg dir disk).disk := by
  intro hall
  have hwritten : (twice.writeTo rooted "out" workplace).result =
      .ok ["out/a.rs", "out/a.rs", "out/lib.rs"] := by
    decide +kernel
  obtain ⟨modules, hgen, -, -⟩ := performed_of_writeTo hwritten
  have hfaithful :=
    hall _ _ _ ofText_twice rooted "out" workplace grounded_workplace _ _ hwritten hgen
  exact absurd hfaithful.distinct (by decide)

end Bindery

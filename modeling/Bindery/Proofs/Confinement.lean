import Bindery.Proofs.Output

/-!
# Where outputs go

The file of a source is named after what is left of the path of its module, and that is joined to
the output directory as it is. A slash in it leads elsewhere: to a directory below, to the one
above, or away from the root.

* `parts_join`, `follow_join`: a path below a directory goes **through that directory**.
* `Disk.OutputAt`: where an output goes; `place_of_plain`: directly into the directory, if its name
  has no slash.
* `writeTo_confined`: **what a run changes, and when it stays in its directory**;
  `output_leaves_directory`: one that does not.
-/

namespace Bindery

namespace Path

/-- The names in a text between slashes, single points included. -/
def parts (cs : List Char) : List String :=
  ((Text.pieces '/' cs).filter (· ≠ [])).map String.ofList

theorem names_eq (path : String) : names path = dropPoints (parts path.toList) := rfl

theorem parts_append (cs ds : List Char) : parts (cs ++ '/' :: ds) = parts cs ++ parts ds := by
  unfold parts
  rw [Text.pieces_append, List.filter_append, List.map_append]

/-- A text with something between its slashes has a name. -/
theorem parts_ne_nil {cs : List Char} {c : Char} (hc : c ∈ cs) (hslash : c ≠ '/') :
    parts cs ≠ [] := by
  rw [← Text.joined_pieces '/' cs] at hc
  obtain ⟨p, hp, hcp⟩ := (Text.mem_joined hc).resolve_left (by simpa using hslash)
  have hmem : p ∈ (Text.pieces '/' cs).filter (· ≠ []) :=
    List.mem_filter.2 ⟨hp, by simpa using List.ne_nil_of_mem hcp⟩
  unfold parts
  rw [Ne, List.map_eq_nil_iff]
  exact List.ne_nil_of_mem hmem

theorem names_of_isFileName {name : String} (h : IsFileName name) : names name = [name] := by
  have hne : name.toList ≠ [] := fun hnil => h.notEmpty (String.toList_eq_nil_iff.1 hnil)
  rw [names_eq, parts, Text.pieces_of_notMem h.noSlash]
  simp [hne, dropPoints]

variable {dir name : String}

/-- **The names of a path below a directory** are those of the directory and then its own. -/
theorem parts_join (dir : String) (h : isAbsolute name = false) :
    parts (join dir name).toList = parts dir.toList ++ parts name.toList := by
  obtain ⟨rfl, hjoin⟩ | ⟨front, hfront, -, hjoin⟩ := join_cases dir h
  · rw [hjoin]
    rfl
  · rw [hjoin, parts_append]
    rcases hfront with hfront | hfront
    · rw [hfront]
    · have hslash : parts (front ++ ['/']) = parts front ++ parts [] := parts_append front []
      rw [hfront, hslash]
      simp [parts, Text.pieces]

theorem isAbsolute_join (dir : String) (h : isAbsolute name = false) :
    isAbsolute (join dir name) = isAbsolute dir := by
  obtain ⟨rfl, hjoin⟩ | ⟨front, hfront, hdir, hjoin⟩ := join_cases dir h
  · rw [hjoin, h]
    rfl
  · unfold isAbsolute
    rw [hjoin]
    rcases front with _ | ⟨c, cs⟩
    · rcases hfront with hfront | hfront
      · exact absurd (String.toList_eq_nil_iff.1 hfront) hdir
      · simp [hfront]
    · rcases hfront with hfront | hfront
      · simp [hfront]
      · simp [hfront]

end Path

namespace Disk

variable {d : Disk} {dir name stem : String} {l : Location}

/-- **The directory that a path leads to.** -/
structure DirAt (d : Disk) (dir : String) (k : Location) : Prop where
  isDir : d.IsDir k
  way : d.follow (d.start dir) (Path.names dir) = .ok k

/-- **A path below a directory goes through that directory.** -/
theorem follow_join (hg : d.Grounded) (h : Path.isAbsolute name = false)
    (hname : Path.parts name.toList ≠ []) :
    d.follow (d.start (Path.join dir name)) (Path.names (Path.join dir name)) = .ok l ↔
      ∃ k, d.DirAt dir k ∧ d.follow k (Path.names name) = .ok l := by
  have hstart : d.start (Path.join dir name) = d.start dir := by
    unfold start
    rw [Path.isAbsolute_join dir h]
  rw [hstart, Path.names_eq, follow_dropPoints, Path.parts_join dir h,
    follow_append (isDir_start hg dir) hname]
  refine exists_congr fun k => ?_
  -- single points can be left out of each part as well
  rw [← follow_dropPoints d (d.start dir), ← Path.names_eq, ← follow_dropPoints d k,
    ← Path.names_eq, ← and_assoc]
  exact and_congr_left fun _ => ⟨fun ⟨hk, hway⟩ => ⟨hk, hway⟩, fun hk => ⟨hk.isDir, hk.way⟩⟩

/-- **Where an output goes**: where the names in it lead from the output directory, or from the root
if it begins with a slash. -/
inductive OutputAt (d : Disk) (dir stem : String) (l : Location) : Prop
  | below {k : Location} (h : Path.isAbsolute (stem ++ ".rs") = false) (hk : d.DirAt dir k)
      (hl : d.follow k (Path.names (stem ++ ".rs")) = .ok l)
  | fromRoot (h : Path.isAbsolute (stem ++ ".rs") = true)
      (hl : d.follow [] (Path.names (stem ++ ".rs")) = .ok l)

theorem parts_output (stem : String) : Path.parts (stem ++ ".rs").toList ≠ [] :=
  Path.parts_ne_nil (c := 's') (by simp) (by decide)

/-- Where the path of an output leads, the output goes. -/
theorem outputAt_of_locate (hg : d.Grounded) (h : d.locate (outputPath dir stem) = .ok l) :
    d.OutputAt dir stem l := by
  obtain ⟨-, -, hway⟩ := locate_eq_ok.1 h
  unfold outputPath at hway
  rcases habs : Path.isAbsolute (stem ++ ".rs") with _ | _
  · obtain ⟨k, hk, hl⟩ := (follow_join hg habs (parts_output stem)).1 hway
    exact .below habs hk hl
  · rw [Path.join_of_isAbsolute habs] at hway
    refine .fromRoot habs ?_
    simpa [start, habs] using hway

end Disk

/-- **An output without a slash in its name goes directly into the output directory.** -/
theorem place_of_plain {d : Disk} {dir stem : String} {l : Location} (h : '/' ∉ stem.toList)
    (hl : d.OutputAt dir stem l) : ∃ k, d.DirAt dir k ∧ l = k ++ [stem ++ ".rs"] := by
  have hname : Path.IsFileName (stem ++ ".rs") := isFileName_output.2 h
  rcases hl with ⟨-, hk, hl⟩ | ⟨habs, -⟩
  · rw [Path.names_of_isFileName hname, Disk.follow_name hname.notPoint hname.notUp] at hl
    exact ⟨_, hk, hl.2.symm⟩
  · rw [Path.isAbsolute_of_notMem hname.noSlash] at habs
    cases habs

/-- A path of an output that does not start at the root is the directory joined with the name of a
file exactly if the output has no slash in its name. -/
theorem exists_fileName_iff {dir stem : String} (h : Path.isAbsolute (stem ++ ".rs") = false) :
    (∃ name, Path.IsFileName name ∧ outputPath dir stem = Path.join dir name) ↔
      '/' ∉ stem.toList := by
  rw [← isFileName_output]
  constructor
  · rintro ⟨name, hname, hpath⟩
    rwa [(Path.join_inj h (Path.isAbsolute_of_notMem hname.noSlash)).1 hpath]
  · exact fun hname => ⟨_, hname, rfl⟩

variable {api : Api} {cfg : Config} {dir : String} {disk : Disk} {modules : List GeneratedModule}

/-- The names of outputs are what is left of the paths of the modules that the run writes, and that
of the root module. -/
theorem mem_outputStems_iff (hgen : (api.generate cfg).result = .ok modules) {stem : String} :
    stem ∈ outputStems cfg modules ↔
      (∃ m ∈ api.modules, cfg.Generates m ∧ cfg.stem? m.name = some stem) ∨
        cfg.crateRoot = true ∧ stem = "lib" := by
  unfold outputStems
  rw [List.mem_append, Api.mem_stems_iff hgen]
  rcases cfg.crateRoot with _ | _
  · simp
  · simp

/-- **What a run does to the file system**, wherever it ends: it makes the output directory, and
then changes files at the places of its outputs only. -/
theorem changesOnly_writeTo (dir : String) (hg : disk.Grounded)
    (hgen : (api.generate cfg).result = .ok modules) :
    Disk.SameDirs (disk.makeDirs dir).2 (api.writeTo cfg dir disk).disk ∧
      ∀ l, (api.writeTo cfg dir disk).disk.file? l ≠ disk.file? l →
        ∃ stem ∈ outputStems cfg modules, (api.writeTo cfg dir disk).disk.OutputAt dir stem l := by
  have hdisk : (api.writeTo cfg dir disk).disk =
      (disk.performAll (writeSteps cfg dir modules)).2 := by
    unfold Api.writeTo
    simp only [hgen]
    rcases disk.performAll (writeSteps cfg dir modules) with ⟨_ | fault, after⟩
    · rfl
    · rfl
  rw [hdisk, writeSteps_eq, Disk.performAll, Disk.perform]
  have hsame (l : Location) : (disk.makeDirs dir).2.file? l = disk.file? l :=
    Disk.file?_makeDirs hg dir l
  rcases hmake : disk.makeDirs dir with ⟨_ | fault, made⟩
  · rw [hmake] at hsame
    have hmade : made.Grounded := Disk.grounded_makeDirs hg hmake
    have hrun : Disk.ChangesOnly (fun l => ∃ o ∈ outputs cfg dir modules, made.locate o.1 = .ok l)
        made _ := Disk.changesOnly_performAll hmade
    refine ⟨hrun.dirs, fun l hl => ?_⟩
    rw [← hsame l] at hl
    obtain ⟨o, ho, hplace⟩ := hrun.files l hl
    obtain ⟨stem, hstem, hpath⟩ := exists_stem_of_mem_outputs ho
    refine ⟨stem, hstem, Disk.outputAt_of_locate (hrun.dirs.grounded hmade) ?_⟩
    rw [hpath]
    exact (Disk.locate_congr hrun.dirs).2 hplace
  · -- the directory could not be made, and nothing is written
    rw [hmake] at hsame
    exact ⟨.refl made, fun l hl => absurd (hsame l) hl⟩

/-- **Where the outputs of a run go.** Each output is named after what is left of the path of a
module that the run writes, or it is the root module. A path that the run writes is its directory
joined with a plain name of a file exactly if the output has no slash in its name; one that begins
with a slash is its own path, whatever the directory. Wherever the run ends, the only directories
made are those that making the output directory makes, and each file that changes is where the names
in an output lead: from the output directory, or from the root. Without a slash, that is directly in
the output directory. -/
theorem writeTo_confined (dir : String) (hg : disk.Grounded)
    (hgen : (api.generate cfg).result = .ok modules) :
    (∀ written, (api.writeTo cfg dir disk).result = .ok written →
        written = (outputStems cfg modules).map (outputPath dir)) ∧
      (∀ stem, stem ∈ outputStems cfg modules ↔
        (∃ m ∈ api.modules, cfg.Generates m ∧ cfg.stem? m.name = some stem) ∨
          cfg.crateRoot = true ∧ stem = "lib") ∧
      (∀ stem, if Path.isAbsolute (stem ++ ".rs") then outputPath dir stem = stem ++ ".rs"
        else (∃ name, Path.IsFileName name ∧ outputPath dir stem = Path.join dir name) ↔
          '/' ∉ stem.toList) ∧
      Disk.SameDirs (disk.makeDirs dir).2 (api.writeTo cfg dir disk).disk ∧
      ∀ l, (api.writeTo cfg dir disk).disk.file? l ≠ disk.file? l →
        ∃ stem ∈ outputStems cfg modules, (api.writeTo cfg dir disk).disk.OutputAt dir stem l ∧
          ('/' ∉ stem.toList →
            ∃ k, (api.writeTo cfg dir disk).disk.DirAt dir k ∧ l = k ++ [stem ++ ".rs"]) := by
  obtain ⟨hdirs, hfiles⟩ := changesOnly_writeTo dir hg hgen
  refine ⟨fun written h => ?_, fun stem => mem_outputStems_iff hgen, fun stem => ?_, hdirs,
    fun l hl => ?_⟩
  · obtain ⟨modules', hgen', -, rfl⟩ := performed_of_writeTo h
    obtain rfl : modules = modules' := Except.ok.inj (hgen.symm.trans hgen')
    exact map_fst_outputs cfg dir modules
  · split
    · exact Path.join_of_isAbsolute ‹_›
    · exact exists_fileName_iff (Bool.eq_false_iff.2 ‹_›)
  · obtain ⟨stem, hstem, hat⟩ := hfiles l hl
    exact ⟨stem, hstem, hat, fun hslash => place_of_plain hslash hat⟩

/-- The run on the sample of three modules stays in its directory. -/
theorem writeTo_confined_linked : ∃ modules, (Api.linked.generate rooted).result = .ok modules ∧
    ∀ l, (Api.linked.writeTo rooted "out" workplace).disk.file? l ≠ workplace.file? l →
      ∃ stem ∈ ["a", "b", "lib"], l = ["w", "out", stem ++ ".rs"] := by
  have hall : (Api.linked.generate rooted).result.map (outputStems rooted) =
      .ok ["a", "b", "lib"] := by
    decide +kernel
  rcases hgen : (Api.linked.generate rooted).result with err | modules
  · rw [hgen] at hall
    cases hall
  rw [hgen] at hall
  have hstems : outputStems rooted modules = ["a", "b", "lib"] := Except.ok.inj hall
  obtain ⟨-, -, -, -, hfiles⟩ := writeTo_confined "out" grounded_workplace hgen
  refine ⟨modules, rfl, fun l hl => ?_⟩
  obtain ⟨stem, hstem, -, hplain⟩ := hfiles l hl
  rw [hstems] at hstem
  have hslash : ∀ s ∈ ["a", "b", "lib"], '/' ∉ s.toList := by
    decide
  obtain ⟨k, hk, rfl⟩ := hplain (hslash stem hstem)
  have hway : (Api.linked.writeTo rooted "out" workplace).disk.follow
      ((Api.linked.writeTo rooted "out" workplace).disk.start "out") (Path.names "out") =
        .ok ["w", "out"] := by
    decide +kernel
  obtain rfl : ["w", "out"] = k := Except.ok.inj (hway.symm.trans hk.way)
  exact ⟨stem, hstem, rfl⟩

/-- A text with one module, whose path goes up. -/
def upText : String :=
  "[\"ti\",[[\"taichi/../a.h\"]]]"

/-- The interface in `upText`. -/
def up : Api where
  lead := some "ti"
  registry := .empty
  modules := [⟨"taichi/../a.h", false, [], [], none⟩]

theorem ofText_up : Api.ofText .empty upText = .ok up := by
  cbv

/-- **A run can write outside its directory.** -/
theorem output_leaves_directory : ¬ ∀ (table : BuiltinTable) (text : String) (api : Api),
    Api.ofText table text = .ok api → ∀ (cfg : Config) (dir : String) (disk : Disk),
      disk.Grounded → ∀ written, (api.writeTo cfg dir disk).result = .ok written →
        (∀ path ∈ written, ∃ name, Path.IsFileName name ∧ path = Path.join dir name) ∧
          ∀ l, (api.writeTo cfg dir disk).disk.file? l ≠ disk.file? l →
            ∃ k, (api.writeTo cfg dir disk).disk.DirAt dir k ∧ ∃ name, l = k ++ [name] := by
  intro hall
  have hwritten : (up.writeTo .default "out" workplace).result = .ok ["out/../a.rs"] := by
    decide +kernel
  obtain ⟨-, hplaces⟩ := hall _ _ _ ofText_up .default "out" workplace grounded_workplace _ hwritten
  have hchanged : (up.writeTo .default "out" workplace).disk.file? ["w", "a.rs"] ≠
      workplace.file? ["w", "a.rs"] := by
    decide +kernel
  obtain ⟨k, hk, name, hplace⟩ := hplaces _ hchanged
  have hway : (up.writeTo .default "out" workplace).disk.follow
      ((up.writeTo .default "out" workplace).disk.start "out") (Path.names "out") =
        .ok ["w", "out"] := by
    decide +kernel
  obtain rfl : ["w", "out"] = k := Except.ok.inj (hway.symm.trans hk.way)
  simp at hplace

end Bindery

import Bindery.Proofs.Places

/-!
# What operations on files leave alone

Making directories changes no file, and writing a file changes that file only.

* `Disk.file?`: what the file at a place holds.
* `Disk.ChangesOnly`: file systems with the same directories that differ in some files only.
* `file?_makeDirs`, `changesOnly_performAll`: **making directories changes no file, and a run of
  writes only those at the places of its paths**, whether or not it comes to its end.
* `follow_append`: a way in two parts goes through a directory.
-/

namespace Bindery.Disk

variable {d d' : Disk} {k l : Location}

/-- What the file at a place holds, if there is one. -/
def file? (d : Disk) (l : Location) : Option Contents :=
  match d.node? l with
  | some (.file c) => some c
  | _ => none

theorem file?_of_isDir (h : d.IsDir l) : d.file? l = none := by
  obtain ⟨es, hes⟩ := h
  simp [file?, hes]

/-- Nothing stands below what is no directory. -/
theorem file?_below {name : String} {rest : Location} (h : ¬ d.IsDir l) :
    d.file? (l ++ name :: rest) = none := by
  rcases hn : d.node? (l ++ name :: rest) with _ | n
  · simp [file?, hn]
  · exact absurd (isDir_of_node?_cons hn) h

/-- A place is another one, above it, below it, or beside it. -/
theorem place_cases (k l : Location) : k = l ∨ (∃ name rest, l = k ++ name :: rest) ∨
    (∃ name rest, k = l ++ name :: rest) ∨ ¬ k <+: l ∧ ¬ l <+: k := by
  by_cases hkl : k <+: l
  · obtain ⟨back, rfl⟩ := hkl
    rcases back with _ | ⟨name, rest⟩
    · simp
    · exact .inr (.inl ⟨name, rest, rfl⟩)
  by_cases hlk : l <+: k
  · obtain ⟨back, rfl⟩ := hlk
    rcases back with _ | ⟨name, rest⟩
    · simp
    · exact .inr (.inr (.inl ⟨name, rest, rfl⟩))
  · exact .inr (.inr (.inr ⟨hkl, hlk⟩))

theorem isDir_above {name : String} {rest : Location}
    (h : d.IsDir (k ++ name :: rest).dropLast) : d.IsDir k := by
  rw [List.dropLast_append_of_ne_nil (List.cons_ne_nil _ _)] at h
  exact h.of_append

theorem file?_put_beside {n : Node} (hkl : ¬ k <+: l) (hlk : ¬ l <+: k) :
    (d.put l n).file? k = d.file? k := by
  unfold file? node? put
  rw [Node.at?_put_of_diverges _ _ hkl hlk]

/-- **A file that is put where one can stand leaves all other files alone.** -/
theorem file?_put_file (h : d.Slot l) (c : Contents) (hk : k ≠ l) :
    (d.put l (.file c)).file? k = d.file? k := by
  rcases place_cases k l with rfl | ⟨name, rest, rfl⟩ | ⟨name, rest, rfl⟩ | ⟨hkl, hlk⟩
  · exact absurd rfl hk
  · have hdir : d.IsDir k := isDir_above h.parent
    rw [file?_of_isDir hdir, file?_of_isDir ((isDir_put_file h c).2 hdir)]
  · rw [file?_below h.free, file?_below fun hdir => h.free ((isDir_put_file h c).1 hdir)]
  · exact file?_put_beside hkl hlk

/-- A directory that is put where nothing stands changes no file. -/
theorem file?_put_empty (hparent : d.IsDir l.dropLast) (hnone : d.node? l = none) :
    (d.put l .empty).file? k = d.file? k := by
  have hfree : ¬ d.IsDir l := by
    rintro ⟨es, hes⟩
    rw [hnone] at hes
    cases hes
  rcases place_cases k l with rfl | ⟨name, rest, rfl⟩ | ⟨name, rest, rfl⟩ | ⟨hkl, hlk⟩
  · have hempty : (d.put k .empty).IsDir k := ⟨_, Node.at?_put _ _ _⟩
    rw [file?_of_isDir hempty, file?, hnone]
  · have hdir : d.IsDir k := isDir_above hparent
    rw [file?_of_isDir hdir, file?_of_isDir (hdir.put_empty hnone)]
  · rw [file?_below hfree]
    simp [file?, node?, put, Node.at?_append, Node.at?_put, Node.at?_empty_cons]
  · exact file?_put_beside hkl hlk

/-- **Making directories changes no file.** -/
theorem file?_makeMissing (made : Bool) (names : List String) (hl : d.IsDir l) :
    (d.makeMissing made l names).2.file? k = d.file? k := by
  fun_induction Disk.makeMissing d made l names with
  | case1 | case4 | case6 | case7 | case8 | case9 => rfl
  | case2 _ _ _ _ ih => exact ih hl
  | case3 _ _ _ _ ih => exact ih hl.dropLast
  | case5 _ _ _ _ _ _ _ _ es _ hdir ih => exact ih ⟨es, hdir⟩
  | case10 d _ l name _ _ _ next _ _ hnone ih =>
    have hparent : d.IsDir next.dropLast := by
      rwa [List.dropLast_concat]
    rw [ih ⟨_, Node.at?_put _ _ _⟩, file?_put_empty hparent hnone]

theorem isDir_start (hg : d.Grounded) (path : String) : d.IsDir (d.start path) := by
  unfold start
  split
  · exact IsDir.of_append (k := []) hg
  · exact hg

theorem file?_makeDirs (hg : d.Grounded) (path : String) (k : Location) :
    (d.makeDirs path).2.file? k = d.file? k := by
  unfold makeDirs
  split
  · rfl
  · exact file?_makeMissing false _ (isDir_start hg path)

/-- **File systems that differ in files at some places only.** -/
structure ChangesOnly (P : Location → Prop) (d d' : Disk) : Prop where
  dirs : SameDirs d d'
  files : ∀ l, d'.file? l ≠ d.file? l → P l

theorem ChangesOnly.refl (P : Location → Prop) (d : Disk) : ChangesOnly P d d :=
  ⟨.refl d, fun _ h => absurd rfl h⟩

theorem ChangesOnly.trans {P : Location → Prop} {d'' : Disk} (h : ChangesOnly P d d')
    (h' : ChangesOnly P d' d'') : ChangesOnly P d d'' := by
  refine ⟨h.dirs.trans h'.dirs, fun l hl => ?_⟩
  by_cases hsame : d'.file? l = d.file? l
  · exact h'.files l (hsame ▸ hl)
  · exact h.files l hsame

theorem ChangesOnly.mono {P Q : Location → Prop} (h : ChangesOnly P d d') (hpq : ∀ l, P l → Q l) :
    ChangesOnly Q d d' :=
  ⟨h.dirs, fun l hl => hpq l (h.files l hl)⟩

/-- A write changes the file at the place of its path only. -/
theorem changesOnly_writeText {path text : String} (hg : d.Grounded)
    (hw : d.writeText path text = .ok d') : ChangesOnly (fun l => d.locate path = .ok l) d d' := by
  have hsame := sameDirs_writeText hg hw
  obtain ⟨l, hl, hfree, -, rfl⟩ := writeText_eq_ok.1 hw
  refine ⟨hsame, fun k hk => ?_⟩
  obtain rfl : k = l := by
    by_contra hkl
    exact hk (file?_put_file (slot_of_locate hg hl hfree) _ hkl)
  exact hl

/-- **A run of writes changes the files at the places of its paths only**, wherever it ends. -/
theorem changesOnly_performAll {os : List (String × String)} (hg : d.Grounded) :
    ChangesOnly (fun l => ∃ o ∈ os, d.locate o.1 = .ok l) d
      (d.performAll (os.map writeStep)).2 := by
  induction os generalizing d with
  | nil => exact .refl _ d
  | cons o os ih =>
    rw [List.map_cons, performAll, writeStep, perform]
    rcases hw : d.writeText o.1 o.2 with fault | d₁
    · exact .refl _ d
    · have hone := changesOnly_writeText hg hw
      refine (hone.mono fun l hl => ⟨o, .head _, hl⟩).trans ?_
      refine (ih (hone.dirs.grounded hg)).mono ?_
      rintro l ⟨o', ho', hl⟩
      exact ⟨o', .tail _ ho', (locate_congr hone.dirs).1 hl⟩

variable {front back : List String} {r : Location}

/-- **A way in two parts goes through a directory**, that at which its first part ends. -/
theorem follow_append (hl : d.IsDir l) (hback : back ≠ []) :
    d.follow l (front ++ back) = .ok r ↔
      ∃ k, d.IsDir k ∧ d.follow l front = .ok k ∧ d.follow k back = .ok r := by
  induction front generalizing l with
  | nil =>
    simp only [List.nil_append, follow_nil]
    exact ⟨fun h => ⟨l, hl, rfl, h⟩, fun ⟨_, _, hk, h⟩ => hk ▸ h⟩
  | cons name rest ih =>
    rw [List.cons_append]
    rcases name_cases name with rfl | rfl | ⟨hp, hu⟩
    · rw [follow_point, follow_point]
      exact ih hl
    · rw [follow_up, follow_up]
      exact ih hl.dropLast
    rw [follow_name hp hu, if_neg (by simp [hback])]
    simp only [follow_name hp hu]
    by_cases hrest : rest = []
    · -- the first part ends here, at what has to be a directory for the second
      subst hrest
      simp only [List.nil_append, if_true]
      exact ⟨fun ⟨hlen, hdir, h⟩ => ⟨_, hdir, ⟨hlen, rfl⟩, h⟩,
        fun ⟨_, hdir, ⟨hlen, hk⟩, h⟩ => hk ▸ ⟨hlen, hk ▸ hdir, hk ▸ h⟩⟩
    · simp only [if_neg hrest]
      constructor
      · rintro ⟨hlen, hdir, h⟩
        obtain ⟨k, hk, hfront, hlast⟩ := (ih hdir).1 h
        exact ⟨k, hk, ⟨hlen, hdir, hfront⟩, hlast⟩
      · rintro ⟨k, hk, ⟨hlen, hdir, hfront⟩, hlast⟩
        exact ⟨hlen, hdir, (ih hdir).2 ⟨k, hk, hfront, hlast⟩⟩

theorem dropPoints_cons (name : String) {rest : List String} (h : rest ≠ []) :
    Path.dropPoints (name :: rest) =
      if name = "." then Path.dropPoints rest else name :: Path.dropPoints rest := by
  obtain ⟨other, more, rfl⟩ := List.exists_cons_of_ne_nil h
  rfl

theorem dropPoints_eq_nil_iff {names : List String} : Path.dropPoints names = [] ↔ names = [] := by
  induction names with
  | nil => simp [Path.dropPoints]
  | cons name rest ih =>
    by_cases hrest : rest = []
    · simp [hrest, Path.dropPoints]
    · rw [dropPoints_cons name hrest]
      split
      · simp [ih, hrest]
      · simp

/-- Single points make no difference to a way. -/
theorem follow_dropPoints (d : Disk) (l : Location) (names : List String) :
    d.follow l (Path.dropPoints names) = .ok r ↔ d.follow l names = .ok r := by
  induction names generalizing l with
  | nil => rfl
  | cons name rest ih =>
    by_cases hrest : rest = []
    · rw [hrest]
      rfl
    rw [dropPoints_cons name hrest]
    rcases name_cases name with rfl | rfl | ⟨hp, hu⟩
    · rw [if_pos rfl, follow_point]
      exact ih l
    · rw [if_neg (by decide), follow_up, follow_up]
      exact ih l.dropLast
    · rw [if_neg hp, follow_name hp hu, follow_name hp hu, ih]
      simp [dropPoints_eq_nil_iff]

end Bindery.Disk

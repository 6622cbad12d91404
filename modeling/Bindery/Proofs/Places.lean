import Mathlib.Data.List.Basic
import Bindery.Files.Disk

/-!
# Places of a file system

A path leads to a place by way of directories. Writing a file makes and removes no directory, so
that all other paths lead where they led before.

* `Disk.IsDir`, `Disk.Grounded`: the directories of a file system, and one in which the directory at
  which paths start exists.
* `Disk.Slot`: a place where a file can stand; `isDir_put_file`: **a file put there leaves all
  directories alone**.
* `follow_name`, `follow_parent`, `follow_last`: following the names of a path.
* `Disk.SameDirs`: file systems with the same directories; `locate_congr`: paths lead to the same
  places in them.
* `sameDirs_writeText`, `readText_writeText`, `readText_writeText_other`: what writing a file does.
* `Disk.LastAt`, `performAll_lastAt`: **after a run, a file holds what was written last to its
  place**.
-/

namespace Bindery

namespace Node

theorem at?_append (n : Node) (k l : Location) : n.at? (k ++ l) = (n.at? k).bind (·.at? l) := by
  induction k generalizing n with
  | nil => rfl
  | cons name rest ih => simp [at?, ih, Option.bind_assoc]

/-- Nothing stands below a file. -/
theorem at?_file_cons (c : Contents) (name : String) (rest : Location) :
    (file c).at? (name :: rest) = none := rfl

/-- There are directories on the way to something that was put. -/
theorem at?_put_append (n new : Node) (k : Location) (name : String) (rest : Location) :
    ∃ es, (n.put (k ++ name :: rest) new).at? k = some (.directory es) := by
  induction k generalizing n with
  | nil => exact ⟨_, rfl⟩
  | cons other more ih =>
    obtain ⟨es, hes⟩ := ih ((Keyed.get? n.entries other).getD empty)
    exact ⟨es, by simp [put, at?, entries_directory, Keyed.get?_put, hes]⟩

end Node

namespace Disk

variable {d d' : Disk} {k l : Location}

/-- Whether a directory stands at a place. -/
def IsDir (d : Disk) (l : Location) : Prop :=
  ∃ es, d.node? l = some (.directory es)

/-- **A file system in which the directory at which relative paths start exists.** -/
def Grounded (d : Disk) : Prop :=
  d.IsDir d.home

/-- What has something below it is a directory. -/
theorem isDir_of_node?_cons {name : String} {rest : Location} {n : Node}
    (h : d.node? (l ++ name :: rest) = some n) : d.IsDir l := by
  unfold node? at h
  rw [Node.at?_append] at h
  obtain ⟨m, hm, hn⟩ := Option.bind_eq_some_iff.1 h
  cases m with
  | file c =>
    rw [Node.at?_file_cons] at hn
    cases hn
  | directory es => exact ⟨es, hm⟩

/-- The way to a directory consists of directories. -/
theorem IsDir.of_append (h : d.IsDir (k ++ l)) : d.IsDir k := by
  obtain ⟨es, hes⟩ := h
  cases l with
  | nil => exact ⟨es, by rwa [List.append_nil] at hes⟩
  | cons name rest => exact isDir_of_node?_cons hes

theorem IsDir.dropLast (h : d.IsDir l) : d.IsDir l.dropLast := by
  obtain ⟨back, hback⟩ := List.dropLast_prefix l
  rw [← hback] at h
  exact h.of_append

/-- **A place where a file can stand**: below a directory, and no directory itself. -/
structure Slot (d : Disk) (l : Location) : Prop where
  parent : d.IsDir l.dropLast
  free : ¬ d.IsDir l

/-- **A file that is put where one can stand leaves all directories alone.** -/
theorem isDir_put_file (h : d.Slot l) (c : Contents) : (d.put l (.file c)).IsDir k ↔ d.IsDir k := by
  by_cases hkl : k <+: l
  · obtain ⟨back, rfl⟩ := hkl
    rcases back with _ | ⟨name, rest⟩
    · -- the place itself: a file stands there now, and no directory did
      rw [List.append_nil] at h ⊢
      refine iff_of_false ?_ h.free
      rintro ⟨es, hes⟩
      unfold node? put at hes
      rw [Node.at?_put] at hes
      cases hes
    · refine iff_of_true (Node.at?_put_append _ _ _ _ _) ?_
      have hparent := h.parent
      rw [List.dropLast_append_of_ne_nil (List.cons_ne_nil _ _)] at hparent
      exact hparent.of_append
  by_cases hlk : l <+: k
  · obtain ⟨back, rfl⟩ := hlk
    rcases back with _ | ⟨name, rest⟩
    · exact absurd (by simp) hkl
    · refine iff_of_false ?_ fun hk => h.free hk.of_append
      rintro ⟨es, hes⟩
      unfold node? put at hes
      rw [Node.at?_append, Node.at?_put, Option.bind_some, Node.at?_file_cons] at hes
      cases hes
  · unfold IsDir node? put
    rw [Node.at?_put_of_diverges _ _ hkl hlk]

/-- A directory that is put where nothing stands leaves the others alone. -/
theorem IsDir.put_empty (hk : d.IsDir k) (hl : d.node? l = none) : (d.put l .empty).IsDir k := by
  by_cases hkl : k <+: l
  · obtain ⟨back, rfl⟩ := hkl
    rcases back with _ | ⟨name, rest⟩
    · obtain ⟨es, hes⟩ := hk
      rw [List.append_nil, hes] at hl
      cases hl
    · exact Node.at?_put_append _ _ _ _ _
  by_cases hlk : l <+: k
  · obtain ⟨back, rfl⟩ := hlk
    obtain ⟨es, hes⟩ := hk.of_append
    rw [hes] at hl
    cases hl
  · unfold IsDir node? put
    rw [Node.at?_put_of_diverges _ _ hkl hlk]
    exact hk

variable {name : String} {rest : List String} {r : Location}

theorem follow_nil : d.follow l [] = .ok r ↔ l = r := by
  simp [follow]

theorem follow_point : d.follow l ("." :: rest) = d.follow l rest := rfl

theorem follow_up : d.follow l (".." :: rest) = d.follow l.dropLast rest := rfl

/-- A name leads below the directory; behind it there must be a directory if the way goes on. -/
theorem follow_name (h : name ≠ ".") (h' : name ≠ "..") :
    d.follow l (name :: rest) = .ok r ↔ name.utf8ByteSize ≤ Path.maxNameBytes ∧
      if rest = [] then l ++ [name] = r
      else d.IsDir (l ++ [name]) ∧ d.follow (l ++ [name]) rest = .ok r := by
  rw [← Nat.not_lt]
  by_cases hlong : Path.maxNameBytes < name.utf8ByteSize
  · simp [follow, hlong]
  by_cases hrest : rest = []
  · simp [follow, hlong, hrest]
  rcases hnode : d.node? (l ++ [name]) with _ | ⟨c⟩ | ⟨es⟩
  · simp [follow, hlong, hrest, IsDir, hnode]
  · simp [follow, hlong, hrest, IsDir, hnode]
  · simp [follow, hlong, hrest, IsDir, hnode]

/-- Names are of three kinds: the directory itself, the one above, and what is below. -/
theorem name_cases (name : String) : name = "." ∨ name = ".." ∨ name ≠ "." ∧ name ≠ ".." := by
  by_cases h : name = "."
  · exact .inl h
  by_cases h' : name = ".."
  · exact .inr (.inl h')
  · exact .inr (.inr ⟨h, h'⟩)

/-- **A way from a directory ends at a directory or below one.** -/
theorem follow_parent {names : List String} (hl : d.IsDir l) (h : d.follow l names = .ok r) :
    d.IsDir r ∨ d.IsDir r.dropLast := by
  induction names generalizing l with
  | nil => exact .inl (follow_nil.1 h ▸ hl)
  | cons name rest ih =>
    rcases name_cases name with rfl | rfl | ⟨hp, hu⟩
    · rw [follow_point] at h
      exact ih hl h
    · rw [follow_up] at h
      exact ih hl.dropLast h
    obtain ⟨-, h⟩ := (follow_name hp hu).1 h
    split at h
    · refine .inr ?_
      rwa [← h, List.dropLast_concat]
    · exact ih h.1 h.2

/-- A way that ends with a name ends at a place of that name. -/
theorem follow_last {names : List String} (hp : name ≠ ".") (hu : name ≠ "..")
    (h : d.follow l (names ++ [name]) = .ok r) : ∃ k, r = k ++ [name] := by
  induction names generalizing l with
  | nil =>
    obtain ⟨-, h⟩ := (follow_name hp hu).1 h
    exact ⟨l, h.symm⟩
  | cons other rest ih =>
    rw [List.cons_append] at h
    rcases name_cases other with rfl | rfl | ⟨hp', hu'⟩
    · rw [follow_point] at h
      exact ih h
    · rw [follow_up] at h
      exact ih h
    obtain ⟨-, h⟩ := (follow_name hp' hu').1 h
    rw [if_neg (by simp)] at h
    exact ih h.2

/-- **File systems with the same directories.** -/
structure SameDirs (d d' : Disk) : Prop where
  home : d'.home = d.home
  dirs : ∀ l, d'.IsDir l ↔ d.IsDir l

theorem SameDirs.refl (d : Disk) : SameDirs d d :=
  ⟨rfl, fun _ => Iff.rfl⟩

theorem SameDirs.trans {d'' : Disk} (h : SameDirs d d') (h' : SameDirs d' d'') : SameDirs d d'' :=
  ⟨h'.home.trans h.home, fun l => (h'.dirs l).trans (h.dirs l)⟩

theorem SameDirs.grounded (h : SameDirs d d') (hg : d.Grounded) : d'.Grounded := by
  unfold Grounded
  rw [h.home, h.dirs]
  exact hg

/-- Following names asks for directories only. -/
theorem follow_congr (h : SameDirs d d') {names : List String} :
    d'.follow l names = .ok r ↔ d.follow l names = .ok r := by
  induction names generalizing l with
  | nil => rw [follow_nil, follow_nil]
  | cons name rest ih =>
    rcases name_cases name with rfl | rfl | ⟨hp, hu⟩
    · rw [follow_point, follow_point]
      exact ih
    · rw [follow_up, follow_up]
      exact ih
    rw [follow_name hp hu, follow_name hp hu, h.dirs, ih]

variable {path other text : String}

theorem locate_eq_ok : d.locate path = .ok l ↔
    refusal? path = none ∧ path ≠ "" ∧ d.follow (d.start path) (Path.names path) = .ok l := by
  unfold locate
  rcases refusal? path with _ | fault
  · by_cases hp : path = "" <;> simp [hp]
  · simp

/-- **Paths lead to the same places in file systems with the same directories.** -/
theorem locate_congr (h : SameDirs d d') : d'.locate path = .ok l ↔ d.locate path = .ok l := by
  have hstart : d'.start path = d.start path := by
    unfold start
    rw [h.home]
  rw [locate_eq_ok, locate_eq_ok, hstart, follow_congr h]

/-- A place that a path leads to, and that is no directory, is one for a file. -/
theorem slot_of_locate (hg : d.Grounded) (h : d.locate path = .ok l) (hfree : ¬ d.IsDir l) :
    d.Slot l := by
  obtain ⟨-, -, h⟩ := locate_eq_ok.1 h
  have hstart : d.IsDir (d.start path) := by
    unfold start
    split
    · exact IsDir.of_append (k := []) hg
    · exact hg
  exact ⟨(follow_parent hstart h).resolve_left hfree, hfree⟩

/-- **Two paths that lead to one place.** -/
def SamePlace (d : Disk) (path other : String) : Prop :=
  ∃ l, d.locate path = .ok l ∧ d.locate other = .ok l

theorem SamePlace.trans {third : String} (h : d.SamePlace path other)
    (h' : d.SamePlace other third) : d.SamePlace path third := by
  obtain ⟨l, hl, hother⟩ := h
  obtain ⟨k, hother', hk⟩ := h'
  obtain rfl : l = k := Except.ok.inj (hother.symm.trans hother')
  exact ⟨l, hl, hk⟩

theorem samePlace_congr (h : SameDirs d d') : d'.SamePlace path other ↔ d.SamePlace path other := by
  unfold SamePlace
  simp only [locate_congr h]

theorem readText_eq_ok : d.readText path = .ok text ↔
    ∃ l, d.locate path = .ok l ∧ d.node? l = some (.file (.text text)) ∧
      Path.endsInSlash path = false := by
  unfold readText
  rcases hl : d.locate path with fault | l
  · simp [bind, Except.bind]
  rcases hn : d.node? l with _ | ⟨c⟩ | ⟨es⟩
  · simp [bind, Except.bind, hn]
  · rcases hs : Path.endsInSlash path with _ | _
    · cases c <;> simp [bind, Except.bind, hn]
    · simp [bind, Except.bind, hn]
  · simp [bind, Except.bind, hn]

/-- What is read at a place does not depend on the path that leads there. -/
theorem readText_of_samePlace (h : d.SamePlace path other) (hr : d.readText path = .ok text)
    (hslash : Path.endsInSlash other = false) : d.readText other = .ok text := by
  obtain ⟨l, hl, hl'⟩ := h
  obtain ⟨k, hk, hnode, -⟩ := readText_eq_ok.1 hr
  obtain rfl : l = k := Except.ok.inj (hl.symm.trans hk)
  exact readText_eq_ok.2 ⟨l, hl', hnode, hslash⟩

theorem writeText_eq_ok : d.writeText path text = .ok d' ↔
    ∃ l, d.locate path = .ok l ∧ ¬ d.IsDir l ∧ Path.endsInSlash path = false ∧
      d.put l (.file (.text text)) = d' := by
  unfold writeText
  rcases hl : d.locate path with fault | l
  · simp [bind, Except.bind]
  rcases hn : d.node? l with _ | ⟨c⟩ | ⟨es⟩
  · rcases hs : Path.endsInSlash path with _ | _ <;> simp [bind, Except.bind, hn, IsDir]
  · rcases hs : Path.endsInSlash path with _ | _ <;> simp [bind, Except.bind, hn, IsDir]
  · simp [bind, Except.bind, hn, IsDir]

variable (hg : d.Grounded) (hw : d.writeText path text = .ok d')
include hg hw

/-- **Writing a file makes and removes no directory.** -/
theorem sameDirs_writeText : SameDirs d d' := by
  obtain ⟨l, hl, hfree, -, rfl⟩ := writeText_eq_ok.1 hw
  exact ⟨rfl, fun k => isDir_put_file (slot_of_locate hg hl hfree) _⟩

/-- A file holds what was written to it. -/
theorem readText_writeText : d'.readText path = .ok text := by
  have hsame := sameDirs_writeText hg hw
  obtain ⟨l, hl, -, hslash, rfl⟩ := writeText_eq_ok.1 hw
  exact readText_eq_ok.2 ⟨l, (locate_congr hsame).2 hl, Node.at?_put _ _ _, hslash⟩

/-- **A file that is written leaves those at other places alone.** -/
theorem readText_writeText_other {held : String} (hr : d.readText other = .ok held)
    (hne : ¬ d.SamePlace path other) : d'.readText other = .ok held := by
  have hsame := sameDirs_writeText hg hw
  obtain ⟨l, hl, hfree, -, rfl⟩ := writeText_eq_ok.1 hw
  obtain ⟨k, hk, hnode, hslash⟩ := readText_eq_ok.1 hr
  refine readText_eq_ok.2 ⟨k, (locate_congr hsame).2 hk, ?_, hslash⟩
  have hfile : ¬ d.IsDir k := by
    rintro ⟨es, hes⟩
    rw [hnode] at hes
    cases hes
  have hkl : k ≠ l := by
    rintro rfl
    exact hne ⟨k, hl, hk⟩
  -- a place below another one has a directory above it, and here stand two files
  have hway : ∀ {a b : Location}, d.Slot b → ¬ d.IsDir a → a ≠ b → ¬ a <+: b := by
    rintro a b hb ha hab ⟨back, rfl⟩
    have hback : back ≠ [] := by
      rintro rfl
      exact hab (List.append_nil a).symm
    have hparent := hb.parent
    rw [List.dropLast_append_of_ne_nil hback] at hparent
    exact ha hparent.of_append
  have hput : (d.put l (.file (.text text))).node? k = d.node? k :=
    Node.at?_put_of_diverges _ _ (hway (slot_of_locate hg hl hfree) hfile hkl)
      (hway (slot_of_locate hg hk hfile) hfree hkl.symm)
  rw [hput, hnode]

omit hg hw

/-- Making directories removes none. -/
theorem makeMissing_keeps (d : Disk) (made : Bool) (l : Location) (names : List String) :
    (d.makeMissing made l names).2.home = d.home ∧
      ∀ k, d.IsDir k → (d.makeMissing made l names).2.IsDir k := by
  fun_induction Disk.makeMissing d made l names with
  | case1 | case4 | case6 | case7 | case8 | case9 => exact ⟨rfl, fun k hk => hk⟩
  | case2 _ _ _ _ ih | case3 _ _ _ _ ih => exact ih
  | case5 _ _ _ _ _ _ _ _ _ _ _ ih => exact ih
  | case10 d _ l name _ _ _ next rest _ hnone ih =>
    exact ⟨ih.1, fun k hk => ih.2 k (hk.put_empty hnone)⟩

theorem grounded_makeDirs {fault : Option FileFault} (hg : d.Grounded)
    (h : d.makeDirs path = (fault, d')) : d'.Grounded := by
  unfold makeDirs at h
  split at h
  · obtain ⟨-, rfl⟩ := Prod.mk.inj h
    exact hg
  · have hkeeps := makeMissing_keeps d false (d.start path) (Path.names path)
    rw [h] at hkeeps
    unfold Grounded
    rw [hkeeps.1]
    exact hkeeps.2 _ hg

/-- A path and the text that is written to it, as an operation. -/
def writeStep (o : String × String) : FileStep :=
  .write o.1 o.2

theorem performAll_writeStep_cons {o : String × String} {os : List (String × String)} :
    d.performAll ((o :: os).map writeStep) = (none, d') ↔
      ∃ d₁, d.writeText o.1 o.2 = .ok d₁ ∧ d₁.performAll (os.map writeStep) = (none, d') := by
  rw [List.map_cons, performAll, writeStep, perform]
  rcases d.writeText o.1 o.2 with fault | d₁
  · simp
  · simp

/-- A run of writes makes and removes no directory. -/
theorem sameDirs_performAll {os : List (String × String)} (hg : d.Grounded)
    (h : d.performAll (os.map writeStep) = (none, d')) : SameDirs d d' := by
  induction os generalizing d with
  | nil =>
    obtain ⟨-, rfl⟩ := Prod.mk.inj h
    exact .refl d
  | cons o os ih =>
    obtain ⟨d₁, hw, hrest⟩ := performAll_writeStep_cons.1 h
    have hsame := sameDirs_writeText hg hw
    exact hsame.trans (ih (hsame.grounded hg) hrest)

/-- A run leaves a file alone that it writes nothing to. -/
theorem readText_performAll_other {os : List (String × String)} {held : String} (hg : d.Grounded)
    (h : d.performAll (os.map writeStep) = (none, d')) (hr : d.readText path = .ok held)
    (hother : ∀ o ∈ os, ¬ d.SamePlace o.1 path) : d'.readText path = .ok held := by
  induction os generalizing d with
  | nil =>
    obtain ⟨-, rfl⟩ := Prod.mk.inj h
    exact hr
  | cons o os ih =>
    obtain ⟨ho, hos⟩ := List.forall_mem_cons.1 hother
    obtain ⟨d₁, hw, hrest⟩ := performAll_writeStep_cons.1 h
    have hsame := sameDirs_writeText hg hw
    refine ih (hsame.grounded hg) hrest (readText_writeText_other hg hw hr ho) fun o ho' => ?_
    rw [samePlace_congr hsame]
    exact hos o ho'

/-- All paths of a run that succeeds lead to a place. -/
theorem exists_locate_of_performAll {os : List (String × String)} (hg : d.Grounded)
    (h : d.performAll (os.map writeStep) = (none, d')) :
    ∀ o ∈ os, ∃ l, d'.locate o.1 = .ok l := by
  induction os generalizing d with
  | nil => simp
  | cons o os ih =>
    have hsame := sameDirs_performAll hg h
    obtain ⟨d₁, hw, hrest⟩ := performAll_writeStep_cons.1 h
    obtain ⟨l, hl, -⟩ := writeText_eq_ok.1 hw
    refine List.forall_mem_cons.2 ⟨⟨l, (locate_congr hsame).2 hl⟩, ?_⟩
    exact ih ((sameDirs_writeText hg hw).grounded hg) hrest

/-- A file that no later one replaces holds what was written to it. -/
theorem readText_performAll {before later : List (String × String)} {o : String × String}
    (hg : d.Grounded) (h : d.performAll ((before ++ o :: later).map writeStep) = (none, d'))
    (hlater : ∀ o' ∈ later, ¬ d'.SamePlace o'.1 o.1) : d'.readText o.1 = .ok o.2 := by
  induction before generalizing d with
  | nil =>
    obtain ⟨d₁, hw, hrest⟩ := performAll_writeStep_cons.1 h
    have hg₁ := (sameDirs_writeText hg hw).grounded hg
    refine readText_performAll_other hg₁ hrest (readText_writeText hg hw) fun o' ho' => ?_
    rw [← samePlace_congr (sameDirs_performAll hg₁ hrest)]
    exact hlater o' ho'
  | cons first before ih =>
    obtain ⟨d₁, hw, hrest⟩ := performAll_writeStep_cons.1 h
    exact ih ((sameDirs_writeText hg hw).grounded hg) hrest

/-- **The last of several writes that goes to the place of a path.** -/
def LastAt (d : Disk) (path : String) (os : List (String × String)) (o : String × String) : Prop :=
  ∃ before later, os = before ++ o :: later ∧ d.SamePlace o.1 path ∧
    ∀ o' ∈ later, ¬ d.SamePlace o'.1 path

/-- If a write goes to a place, one of them is the last that does. -/
theorem exists_lastAt {os : List (String × String)} (h : ∃ o ∈ os, d.SamePlace o.1 path) :
    ∃ o, d.LastAt path os o := by
  induction os with
  | nil =>
    obtain ⟨o, ho, -⟩ := h
    cases ho
  | cons first os ih =>
    by_cases hlater : ∃ o ∈ os, d.SamePlace o.1 path
    · obtain ⟨o, before, later, rfl, hplace, hrest⟩ := ih hlater
      exact ⟨o, first :: before, later, rfl, hplace, hrest⟩
    · obtain ⟨o, ho, hplace⟩ := h
      have hnone : ∀ o' ∈ os, ¬ d.SamePlace o'.1 path := fun o' ho' hs => hlater ⟨o', ho', hs⟩
      rcases List.mem_cons.1 ho with rfl | ho
      · exact ⟨o, [], os, rfl, hplace, hnone⟩
      · exact absurd hplace (hnone o ho)

/-- **A file holds what was written last to its place.** -/
theorem performAll_lastAt {os : List (String × String)} {o : String × String} (hg : d.Grounded)
    (h : d.performAll (os.map writeStep) = (none, d')) (hlast : d'.LastAt path os o)
    (hslash : Path.endsInSlash path = false) : d'.readText path = .ok o.2 := by
  obtain ⟨before, later, rfl, hplace, hlater⟩ := hlast
  have hheld : d'.readText o.1 = .ok o.2 :=
    readText_performAll hg h fun o' ho' hsame => hlater o' ho' (hsame.trans hplace)
  exact readText_of_samePlace hplace hheld hslash

end Disk

end Bindery

import Bindery.Proofs.Comments
import Bindery.Proofs.Sections

/-!
# What registrations leave

Short names are registered one after the other, and some of them several times. A table of short
names answers all questions by the list of those that are left.

* `Reexports.last?`, `Reexports.remaining`: the last registration of a short name, and what is left
  of all.
* `toList_registerAll`: **registrations leave the last of each short name**, in the order of the
  first.
* `Reexports.Shows`: a table and the list that it answers by; `shows_toList`: **each table answers
  by its own list**.
* `registrations_shown`: what a table shows after registrations.
-/

namespace Bindery

/-- Texts on one line each are the lines of what is written with them. -/
theorem pieces_unlines_of_oneLine {ls : List String} (h : ∀ l ∈ ls, OneLine l) :
    Text.pieces '\n' (unlines ls).toList = ls.map String.toList ++ [[]] := by
  have hlines : ls.flatMap (Text.pieces '\n' ·.toList) = ls.flatMap fun l => [l.toList] :=
    List.flatMap_congr fun l hl => Text.pieces_of_notMem (h l hl)
  rw [pieces_unlines, hlines, List.map_eq_flatMap]

theorem unlines_append (ls ms : List String) : unlines (ls ++ ms) = unlines ls ++ unlines ms := by
  rw [← String.toList_inj]
  simp [unlines, String.toList_join]

namespace Reexports

/-- The last registration of a short name. -/
def last? (es : List Reexport) (key : String) : Option Reexport :=
  es.reverse.find? (·.key == key)

/-- **What registrations leave**: of each short name the last one, ordered by the first ones. -/
def remaining (es : List Reexport) : List Reexport :=
  (es.map Reexport.key).eraseDups.filterMap (last? es)

variable {es : List Reexport} {key : String} {f : Reexport}

theorem last?_eq_some_iff : last? es key = some f ↔ f.key = key ∧ LastOf es f := by
  rw [last?, List.find?_eq_some_iff_append, beq_iff_eq]
  refine and_congr_right fun hkey => ?_
  constructor
  · rintro ⟨later, earlier, hes, hlater⟩
    refine ⟨earlier.reverse, later.reverse, ?_, fun g hg => ?_⟩
    · rw [← List.reverse_reverse es, hes]
      simp
    · simpa [hkey] using hlater g (List.mem_reverse.1 hg)
  · rintro ⟨earlier, later, rfl, hlater⟩
    refine ⟨later.reverse, earlier.reverse, by simp, fun g hg => ?_⟩
    simpa [hkey] using hlater g (List.mem_reverse.1 hg)

/-- **Registrations leave the last of each short name**, in the order of the first. -/
theorem toList_registerAll (es : List Reexport) :
    (empty.registerAll es).toList = remaining es := by
  have hlast : ∀ f ∈ (empty.registerAll es).toList, last? es f.key = some f := fun f hf =>
    last?_eq_some_iff.2 ⟨rfl, (mem_registerAll_iff es f).1 hf⟩
  calc (empty.registerAll es).toList
      = (empty.registerAll es).toList.filterMap fun f => last? es f.key := by
        rw [List.filterMap_congr hlast, List.filterMap_some]
    _ = ((empty.registerAll es).toList.map Reexport.key).filterMap (last? es) := by
        rw [List.filterMap_map]
        rfl
    _ = remaining es := by
        rw [map_key_toList, keys_registerAll, remaining]

theorem map_key_remaining (es : List Reexport) :
    (remaining es).map Reexport.key = (es.map Reexport.key).eraseDups := by
  rw [← toList_registerAll, map_key_toList, keys_registerAll]

theorem mem_remaining_iff : f ∈ remaining es ↔ LastOf es f := by
  rw [← toList_registerAll, mem_registerAll_iff]

/-- **A table that answers by a list of short names**: in order, for a short name, for a target, for
their number, and as the text of a module. Between the first and the last line of this text each
short name has its line, which is one unless a name breaks it. -/
structure Shows (t : Reexports) (l : List Reexport) : Prop where
  toList : t.toList = l
  get? : ∀ key target, t.get? key = some target ↔ ⟨key, target⟩ ∈ l
  containsKey : ∀ key, t.containsKey key = true ↔ ∃ f ∈ l, f.key = key
  containsTarget : ∀ target, t.containsTarget target = true ↔ ∃ f ∈ l, f.target = target
  size : t.size = l.length
  isEmpty : t.isEmpty = true ↔ l = []
  text : unlines t.lines =
    "pub mod aliases \x7b\n" ++ unlines (l.map Reexport.line) ++ "\x7d\n"
  lines : (∀ f ∈ l, OneLine f.key ∧ OneLine f.target) →
    Text.pieces '\n' (unlines t.lines).toList =
      (["pub mod aliases \x7b"] ++ l.map Reexport.line ++ ["\x7d", ""]).map String.toList

theorem oneLine_line (hkey : OneLine f.key) (htarget : OneLine f.target) : OneLine f.line := by
  unfold Reexport.line
  simp only [oneLine_append]
  refine ⟨⟨⟨⟨?_, htarget⟩, ?_⟩, hkey⟩, ?_⟩ <;> decide

/-- **A table answers by its own list.** -/
theorem shows_toList (t : Reexports) : t.Shows t.toList := by
  have hget : ∀ key target, t.get? key = some target ↔ ⟨key, target⟩ ∈ t.toList := fun key target =>
    (t.mem_toList_iff ⟨key, target⟩).symm
  refine ⟨rfl, hget, fun key => ?_, fun target => ?_, ?_, ?_, ?_, fun hone => ?_⟩
  · rw [containsKey, Option.isSome_iff_exists]
    constructor
    · rintro ⟨target, hfound⟩
      exact ⟨_, (hget key target).1 hfound, rfl⟩
    · rintro ⟨f, hf, rfl⟩
      exact ⟨f.target, (hget f.key f.target).2 hf⟩
  · simp [containsTarget, toList]
  · rw [size, toList, List.length_map]
  · simp [isEmpty, size, toList]
  · rw [lines, unlines_append, unlines_append]
    rfl
  · have hlines : ∀ l ∈ t.lines, OneLine l := by
      intro l hl
      simp only [lines, List.mem_append, List.mem_singleton, List.mem_map] at hl
      obtain (rfl | ⟨f, hf, rfl⟩) | rfl := hl
      · decide
      · exact oneLine_line (hone f hf).1 (hone f hf).2
      · decide
    rw [pieces_unlines_of_oneLine hlines, lines]
    simp

/-- **What registrations leave.** However often short names are registered, and in whatever order,
the table answers by one list. All short names that were registered are in it, each once, in the
order of their first registrations and with the target of the last one. -/
theorem registrations_shown (es : List Reexport) :
    (empty.registerAll es).Shows (remaining es) ∧
      (∀ key, key ∈ (remaining es).map Reexport.key ↔ key ∈ es.map Reexport.key) ∧
      ((remaining es).map Reexport.key).Nodup ∧
      ((remaining es).map Reexport.key).Pairwise (fun key later =>
        (es.map Reexport.key).idxOf key < (es.map Reexport.key).idxOf later) ∧
      ∀ f, f ∈ remaining es ↔ LastOf es f := by
  refine ⟨toList_registerAll es ▸ shows_toList _, fun key => ?_, ?_, ?_, fun f => mem_remaining_iff⟩
  · rw [map_key_remaining, List.mem_eraseDups]
  · rw [← toList_registerAll, map_key_toList]
    exact (empty.registerAll es).distinct
  · rw [map_key_remaining]
    exact pairwise_idxOf_eraseDups _

/-- A name that is registered again keeps its place, and its first target is gone. -/
theorem registrations_shown_again :
    let es := [⟨"Bool", "TiBool"⟩, ⟨"FALSE", "TI_FALSE"⟩, ⟨"Bool", "TiBool2"⟩]
    (empty.registerAll es).toList = [⟨"Bool", "TiBool2"⟩, ⟨"FALSE", "TI_FALSE"⟩] ∧
      (empty.registerAll es).containsTarget "TiBool" ≠ true ∧
      unlines (empty.registerAll es).lines = "pub mod aliases \x7b\n" ++
        "pub use super::TiBool2 as Bool;\n" ++ "pub use super::TI_FALSE as FALSE;\n" ++
        "\x7d\n" := by
  intro es
  have hleft : remaining es = [⟨"Bool", "TiBool2"⟩, ⟨"FALSE", "TI_FALSE"⟩] := by decide
  obtain ⟨hshows, -⟩ := registrations_shown es
  rw [hleft] at hshows
  refine ⟨hshows.toList, fun hold => ?_, hshows.text⟩
  obtain ⟨f, hf, htarget⟩ := (hshows.containsTarget "TiBool").1 hold
  revert htarget
  revert f
  decide

end Reexports

end Bindery

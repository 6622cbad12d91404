import Bindery.Proofs.OneLine
import Bindery.Proofs.ShortNames

/-!
# Sources without their comments

A line is a comment if its first characters, spaces apart, are two slashes. A comment that contains
a line feed is several lines, of which only the first has to be a comment.

* `Text.codeLines`, `withoutComments`: the lines of a text that are no comments.
* `pieces_unlines`, `codeLines_unlines`: **a source is looked at step by step**, comments and code
  alike.
* `Step.bare`: a step, unless it is a comment or a report; `collect_bare`, `exports_bare`: the other
  steps decide on failure, short names and code.
* `Step.visible`, `flatMap_codeLines`: the lines of a step, and of a script, that are no comments.
-/

namespace Bindery

namespace Text

/-- Whether the first characters of a line, spaces apart, are those of a comment. -/
def isComment (line : List Char) : Bool :=
  ['/', '/'].isPrefixOf (line.dropWhile (· == ' '))

/-- **The lines of a text that are no comments.** -/
def codeLines (cs : List Char) : List (List Char) :=
  (pieces '\n' cs).filter (!isComment ·)

theorem isComment_append {sign : List Char} (h : isComment sign = true) (rest : List Char) :
    isComment (sign ++ rest) = true := by
  unfold isComment at h ⊢
  rw [List.isPrefixOf_iff_prefix] at h ⊢
  obtain ⟨behind, hsign⟩ := h
  have hne : (sign.dropWhile (· == ' ')).isEmpty = false := by
    rw [← hsign]
    rfl
  -- the slashes stand in the sign, so that dropping spaces ends before the rest
  rw [List.dropWhile_append, if_neg (by simp [hne])]
  exact ⟨behind ++ rest, by rw [← List.append_assoc, hsign]⟩

/-- A comment on one line leaves nothing. -/
theorem codeLines_of_comment {cs : List Char} (h : '\n' ∉ cs) (hc : isComment cs = true) :
    codeLines cs = [] := by
  simp [codeLines, pieces_of_notMem h, hc]

end Text

open Text

/-- **A text without its comments.** -/
def withoutComments (text : String) : String :=
  String.ofList (joined ['\n'] (codeLines text.toList))

/-- **The lines of a text that is written line by line** are those that each of them makes; the last
is the empty one behind the last line feed. -/
theorem pieces_unlines (ls : List String) :
    pieces '\n' (unlines ls).toList = ls.flatMap (pieces '\n' ·.toList) ++ [[]] := by
  unfold unlines
  rw [String.toList_join]
  induction ls with
  | nil => rfl
  | cons l ls ih =>
    have hline : (l ++ "\n").toList = l.toList ++ ['\n'] := String.toList_append
    rw [List.map_cons, List.flatMap_cons, hline, List.append_assoc, List.singleton_append,
      pieces_append, ih, List.flatMap_cons, List.append_assoc]

theorem codeLines_unlines (ls : List String) :
    codeLines (unlines ls).toList = ls.flatMap (codeLines ·.toList) ++ [[]] := by
  unfold codeLines
  rw [pieces_unlines, List.filter_append, List.filter_flatMap]
  rfl

namespace Step

/-- A step, unless it is a comment or a report. -/
def bare : Step → List Step
  | comment _ => []
  | report _ => []
  | step => [step]

/-- The lines of a step that are no comments. -/
def visible : Step → List (List Char)
  | code l => codeLines l.toList
  | comment l => codeLines l.toList
  | _ => []

/-- The code that a step writes. -/
@[simp] def code? : Step → Option String
  | code l => some l
  | _ => none

end Step

namespace Script

/-- The lines of code of a script, in order. -/
abbrev code (s : Script) : List String :=
  s.collect Step.code?

/-- Comments and reports are no code. -/
theorem Remarks.code_eq_nil {s : Script} (h : s.Remarks) : s.code = [] :=
  h.collect_eq_nil (fun _ => rfl) fun _ => rfl

/-- What comments and reports do not have is that of the other steps. -/
theorem collect_bare {α : Type} {part? : Step → Option α} (hc : ∀ l, part? (.comment l) = none)
    (hr : ∀ e, part? (.report e) = none) (s : Script) :
    collect part? (s.flatMap Step.bare) = s.collect part? := by
  induction s with
  | nil => rfl
  | cons step s ih =>
    rw [List.flatMap_cons, collect_append, ih]
    cases step with
    | comment l => simp [Step.bare, hc]
    | report e => simp [Step.bare, hr]
    | code l | register e | fail e => simp [Step.bare]

theorem failures_bare (s : Script) : failures (s.flatMap Step.bare) = s.failures :=
  collect_bare (fun _ => rfl) (fun _ => rfl) s

theorem code_bare (s : Script) : code (s.flatMap Step.bare) = s.code :=
  collect_bare (fun _ => rfl) (fun _ => rfl) s

/-- Comments and reports neither end a script nor register anything. -/
theorem exports_bare (s : Script) : exports (s.flatMap Step.bare) = s.exports := by
  induction s with
  | nil => rfl
  | cons step s ih =>
    unfold exports sound at ih ⊢
    cases step with
    | comment l | report e => exact ih
    | code l => exact ih
    | register e => exact congrArg (e :: ·) ih
    | fail e => rfl

theorem Remarks.bare_eq_nil {s : Script} (h : s.Remarks) : s.flatMap Step.bare = [] := by
  refine List.flatMap_eq_nil_iff.2 fun step hstep => ?_
  obtain ⟨line, rfl⟩ | ⟨e, rfl⟩ := h step hstep
  · rfl
  · rfl

/-- What is visible of the lines of a script is what is visible of its steps. -/
theorem flatMap_codeLines (s : Script) :
    s.written.flatMap (codeLines ·.toList) = s.flatMap Step.visible := by
  induction s with
  | nil => rfl
  | cons step s ih =>
    rw [List.flatMap_cons, ← ih]
    cases step with
    | code l | comment l => rfl
    | register e | report e | fail e => rfl

end Script

end Bindery

import Mathlib.Data.List.TakeWhile
import Bindery.Binding.Script

/-!
# Failing and succeeding scripts

A script fails with the first of its failures; everything before it still counts.

* `Script.collect`: what the steps of a script have of one kind, with one equation for each way to
  build a script; `Script.failures`, `Script.written`: failures and lines.
* `Script.Remarks`: a script of comments and reports, which cannot fail.
* `Script.failure?_eq_head?`, `Script.sound_eq_self`: the failure of a script is the first of them,
  and without any the whole script is sound.
* `Decides`, `Script.Decides`: **success exactly under a condition**, and otherwise only for the
  kind of an entry or the spelling of a case.
-/

namespace Bindery

namespace Script

section Collect

variable {α β : Type} (part? : Step → Option α)

@[simp] theorem collect_nil : collect part? [] = [] := rfl

@[simp] theorem collect_cons (step : Step) (s : Script) :
    collect part? (step :: s) = (part? step).toList ++ collect part? s := by
  unfold collect
  rcases h : part? step with _ | a
  · exact List.filterMap_cons_none h
  · exact List.filterMap_cons_some h

@[simp] theorem collect_append (s t : Script) :
    collect part? (s ++ t) = collect part? s ++ collect part? t :=
  List.filterMap_append

@[simp] theorem collect_flatMap (l : List β) (f : β → Script) :
    collect part? (l.flatMap f) = l.flatMap fun b => collect part? (f b) :=
  List.filterMap_flatMap

@[simp] theorem collect_map (l : List β) (f : β → Step) :
    collect part? (l.map f) = l.filterMap fun b => part? (f b) :=
  List.filterMap_map

theorem collect_map_code (h : ∀ line, part? (.code line) = none) (ls : List String) :
    collect part? (ls.map .code) = [] := by
  rw [collect_map, List.filterMap_eq_nil_iff]
  exact fun line _ => h line

/-- Scripts one after the other have nothing of a kind if none of them has. -/
theorem collect_flatMap_eq_nil_iff {l : List β} {f : β → Script} :
    collect part? (l.flatMap f) = [] ↔ ∀ b ∈ l, collect part? (f b) = [] := by
  rw [collect_flatMap, List.flatMap_eq_nil_iff]

/-- An attempt is a line of code or a failure. -/
theorem collect_attempt (hc : ∀ line, part? (.code line) = none)
    (hf : ∀ err, part? (.fail err) = none) (text : Except BindingError String)
    (line : String → String) : collect part? (attempt text line) = [] := by
  cases text with
  | ok t => simp [attempt, hc]
  | error err => simp [attempt, hf]

end Collect

/-- All failures of a script. -/
abbrev failures (s : Script) : List BindingError :=
  s.collect Step.error?

/-- The lines of all steps of a script. -/
abbrev written (s : Script) : List String :=
  s.collect Step.line?

/-- **A script of comments and reports.** -/
def Remarks (s : Script) : Prop :=
  ∀ step ∈ s, (∃ line, step = .comment line) ∨ ∃ e, step = .report e

theorem remarks_nil : Remarks [] := by
  simp [Remarks]

theorem remarks_comment (line : String) : Remarks [.comment line] := by
  simp [Remarks]

theorem Remarks.append {s t : Script} (hs : s.Remarks) (ht : t.Remarks) : Remarks (s ++ t) :=
  fun step h => (List.mem_append.1 h).elim (hs step) (ht step)

theorem Remarks.flatMap {α : Type} {l : List α} {f : α → Script} (h : ∀ a ∈ l, (f a).Remarks) :
    Remarks (l.flatMap f) := by
  intro step hstep
  obtain ⟨a, ha, hstep⟩ := List.mem_flatMap.1 hstep
  exact h a ha step hstep

/-- Comments and reports have nothing of a kind that neither has. -/
theorem Remarks.collect_eq_nil {α : Type} {part? : Step → Option α} {s : Script} (h : s.Remarks)
    (hc : ∀ line, part? (.comment line) = none) (hr : ∀ e, part? (.report e) = none) :
    s.collect part? = [] := by
  refine List.filterMap_eq_nil_iff.2 fun step hstep => ?_
  obtain ⟨line, rfl⟩ | ⟨e, rfl⟩ := h step hstep
  · exact hc line
  · exact hr e

/-- Comments and reports do not fail. -/
theorem Remarks.failures_eq_nil {s : Script} (h : s.Remarks) : s.failures = [] :=
  h.collect_eq_nil (fun _ => rfl) fun _ => rfl

/-- A script fails with its first failure. -/
theorem failure?_eq_head? (s : Script) : s.failure? = s.failures.head? := by
  unfold failure? failures collect
  rw [List.head?_filterMap]

/-- A script without failures is run to its end. -/
theorem sound_eq_self {s : Script} (h : s.failures = []) : s.sound = s := by
  unfold sound
  rw [List.takeWhile_eq_self_iff]
  intro step hstep
  rw [Option.isNone_iff_eq_none]
  exact List.filterMap_eq_nil_iff.1 h step hstep

theorem lines_of_failures_nil {s : Script} (h : s.failures = []) : s.lines = s.written := by
  unfold lines
  rw [sound_eq_self h]

theorem result_of_failures_nil {s : Script} (h : s.failures = []) :
    s.result = .ok s.written := by
  unfold result lines
  rw [failure?_eq_head?, h, sound_eq_self h]
  rfl

theorem result_of_failures_cons {s : Script} {err : BindingError} {errs : List BindingError}
    (h : s.failures = err :: errs) : s.result = .error err := by
  unfold result
  rw [failure?_eq_head?, h]
  rfl

theorem result_eq_error_iff {s : Script} {err : BindingError} :
    s.result = .error err ↔ s.failures.head? = some err := by
  rcases hf : s.failures with _ | ⟨first, more⟩
  · rw [result_of_failures_nil hf]
    exact ⟨fun h => (by cases h), fun h => (by cases h)⟩
  · rw [result_of_failures_cons hf, List.head?_cons, Except.error.injEq, Option.some.injEq]

theorem failures_nil_of_result {s : Script} {ls : List String} (h : s.result = .ok ls) :
    s.failures = [] := by
  rcases hf : s.failures with _ | ⟨err, errs⟩
  · rfl
  · rw [result_of_failures_cons hf] at h
    cases h

end Script

/-- The failures that a consistent interface leaves open: an entry that is no type, and a case that
begins with a digit. -/
def BindingError.Structural : BindingError → Prop
  | .notAType _ _ => True
  | .unsupportedCase _ _ => True
  | _ => False

/-- **Success exactly under the condition `P`**; a failure is a structural one. -/
inductive Decides {α : Type} : Except BindingError α → Prop → Prop
  | ok {a : α} {P : Prop} (h : P) : Decides (.ok a) P
  | error {err : BindingError} {P : Prop} (hs : err.Structural) (h : ¬ P) : Decides (.error err) P

namespace Decides

variable {α β : Type} {x : Except BindingError α} {P Q : Prop}

theorem congr (h : Decides x P) (hpq : P ↔ Q) : Decides x Q := by
  cases h with
  | ok hp => exact .ok (hpq.1 hp)
  | error hs hp => exact .error hs fun hq => hp (hpq.2 hq)

theorem ok_iff (h : Decides x P) : (∃ a, x = .ok a) ↔ P := by
  cases h with
  | ok hp => exact ⟨fun _ => hp, fun _ => ⟨_, rfl⟩⟩
  | error hs hp => exact ⟨fun ⟨_, ha⟩ => (by cases ha), fun hq => absurd hq hp⟩

theorem structural (h : Decides x P) {err : BindingError} (he : x = .error err) :
    err.Structural := by
  cases h with
  | ok hp => cases he
  | error hs hp =>
    cases he
    exact hs

theorem map {f : α → β} (h : Decides x P) : Decides (x.map f) P := by
  cases h with
  | ok hp => exact .ok hp
  | error hs hp => exact .error hs hp

theorem bind {f : α → Except BindingError β} (h : Decides x P)
    (hf : ∀ a, Decides (f a) Q) : Decides (x >>= f) (P ∧ Q) := by
  cases h with
  | @ok a _ hp => exact (hf a).congr ⟨fun hq => ⟨hp, hq⟩, fun hq => hq.2⟩
  | error hs hp => exact .error hs fun hq => hp hq.1

end Decides

namespace Script

/-- **A script that fails exactly unless `P` holds**; all its failures are structural. -/
def Decides (s : Script) (P : Prop) : Prop :=
  (s.failures = [] ↔ P) ∧ ∀ err ∈ s.failures, err.Structural

theorem Decides.congr {s : Script} {P Q : Prop} (h : s.Decides P) (hpq : P ↔ Q) : s.Decides Q :=
  ⟨h.1.trans hpq, h.2⟩

/-- A script without failures. -/
theorem decides_true {s : Script} (h : s.failures = []) : s.Decides True :=
  ⟨by simp [h], by simp [h]⟩

theorem Decides.append {s t : Script} {P Q : Prop} (hs : s.Decides P) (ht : t.Decides Q) :
    (s ++ t).Decides (P ∧ Q) := by
  unfold Decides at *
  simp only [collect_append]
  refine ⟨?_, fun err herr => ?_⟩
  · rw [List.append_eq_nil_iff, hs.1, ht.1]
  · rcases List.mem_append.1 herr with herr | herr
    · exact hs.2 err herr
    · exact ht.2 err herr

theorem decides_flatMap {α : Type} {l : List α} {f : α → Script} {P : α → Prop}
    (h : ∀ a ∈ l, (f a).Decides (P a)) : Script.Decides (l.flatMap f) (∀ a ∈ l, P a) := by
  unfold Decides
  simp only [collect_flatMap]
  refine ⟨?_, fun err herr => ?_⟩
  · rw [List.flatMap_eq_nil_iff]
    exact forall₂_congr fun a ha => (h a ha).1
  · obtain ⟨a, ha, herr⟩ := List.mem_flatMap.1 herr
    exact (h a ha).2 err herr

theorem decides_attempt {text : Except BindingError String} {line : String → String} {P : Prop}
    (h : Bindery.Decides text P) : (attempt text line).Decides P := by
  cases h with
  | ok hp => exact (decides_true rfl).congr ⟨fun _ => hp, fun _ => trivial⟩
  | @error err _ hs hp =>
    refine ⟨⟨fun hn => (by cases hn), fun hq => absurd hq hp⟩, fun e he => ?_⟩
    obtain rfl : e = err := by simpa [attempt] using he
    exact hs

theorem decides_result {s : Script} {P : Prop} (h : s.Decides P) : Bindery.Decides s.result P := by
  rcases hf : s.failures with _ | ⟨err, errs⟩
  · rw [result_of_failures_nil hf]
    exact .ok (h.1.1 hf)
  · rw [result_of_failures_cons hf]
    refine .error (h.2 err (by simp [hf])) fun hp => ?_
    have := h.1.2 hp
    simp [hf] at this

end Script

end Bindery

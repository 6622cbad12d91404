import Bindery.Proofs.Initials
import Bindery.Proofs.MemberIdents

/-!
# Cases that begin with a digit

Only some enumerations have a letter to put in front of a digit. The declaration of any other
enumeration fails as soon as a case begins with a digit.

* `Case.Digital`: the cases that begin with a digit.
* `failures_enumeration`: **all failures of an enumeration**, one for each such case.
* `startsWithDigit_caseIdent`: no case is written with a digit in front.
* `declare_enumeration_outcome`: **when an enumeration cannot be declared, and for which case**.
-/

namespace Bindery

/-- **A case whose name begins with a digit.** -/
def Case.Digital (c : Case) : Prop :=
  startsWithDigit c.name.snake = true

instance (c : Case) : Decidable c.Digital :=
  inferInstanceAs (Decidable (_ = true))

variable {id : String} {name : Name}

/-- With a letter in front of it, a text begins as identifiers do. -/
theorem startsIdent_digitLetter {letter : String} (h : Policy.digitLetter? name = some letter)
    (rest : String) : StartsIdent (letter ++ rest) := by
  have hall : ∀ p ∈ Policy.digitLetters, StartsIdent p.2 := by
    decide
  obtain ⟨p, hp, rfl⟩ := Option.map_eq_some_iff.1 h
  exact (hall p (List.mem_of_find?_eq_some hp)).append rest

/-- A case that begins with a digit has a letter in front of it, and no other case needs one. -/
theorem startsWithDigit_caseIdent {case : Name} {ident : String} (h : case.Made)
    (hident : caseIdent id name case = .ok ident) : startsWithDigit ident = false := by
  unfold caseIdent at hident
  split at hident
  · -- the case is written only if there is a letter to put in front
    rcases hletter : Policy.digitLetter? name with _ | letter
    · rw [hletter] at hident
      cases hident
    · rw [hletter] at hident
      obtain rfl := Except.ok.inj hident
      exact (startsIdent_digitLetter hletter _).2
  · rename_i hdigit
    obtain rfl := Except.ok.inj hident
    rw [startsWithDigit_camel h, ← startsWithDigit_screaming]
    exact Bool.eq_false_iff.2 hdigit

namespace Setting

variable {s : Setting}

theorem failures_caseScript (c : Case) : (s.caseScript id name c).failures =
    if c.Digital ∧ ¬ Policy.RewritesDigits name then [.unsupportedCase id c.name.display]
    else [] := by
  unfold caseScript caseIdent Case.Digital
  rw [startsWithDigit_screaming]
  by_cases hdigit : startsWithDigit c.name.snake = true
  · rw [if_pos hdigit]
    rcases hletter : Policy.digitLetter? name with _ | letter
    · have hnot : ¬ Policy.RewritesDigits name := by
        intro hrewrites
        obtain ⟨letter, hsome⟩ := digitLetter?_isSome_iff.2 hrewrites
        rw [hletter] at hsome
        cases hsome
      rw [if_pos ⟨hdigit, hnot⟩]
      rfl
    · have hrewrites : Policy.RewritesDigits name := digitLetter?_isSome_iff.1 ⟨letter, hletter⟩
      rw [if_neg fun h => h.2 hrewrites]
      simp
  · rw [if_neg hdigit, if_neg fun h => hdigit h.1]
    simp

/-- The failures of cases one after the other. -/
theorem failures_cases (cases : List Case) :
    Script.failures (cases.flatMap (s.caseScript id name)) =
      if Policy.RewritesDigits name then []
      else (cases.filter (·.Digital)).map fun c => .unsupportedCase id c.name.display := by
  simp only [Script.collect_flatMap, failures_caseScript]
  by_cases hrewrites : Policy.RewritesDigits name
  · rw [if_pos hrewrites, List.flatMap_eq_nil_iff]
    intro c _
    rw [if_neg fun h => h.2 hrewrites]
  · rw [if_neg hrewrites]
    induction cases with
    | nil => rfl
    | cons c cases ih =>
      rw [List.flatMap_cons, ih]
      by_cases hdigital : c.Digital
      · rw [if_pos ⟨hdigital, hrewrites⟩, List.filter_cons_of_pos (by simpa using hdigital)]
        rfl
      · rw [if_neg fun h => hdigital h.1, List.filter_cons_of_neg (by simpa using hdigital)]
        rfl

/-- **All failures of an enumeration**: the cases that begin with a digit, unless there is a letter
to put in front of it. -/
theorem failures_enumeration (cases : List Case) :
    (s.declare (.declared id name (.enumeration cases))).failures =
      if Policy.RewritesDigits name then []
      else (cases.filter (·.Digital)).map fun c => .unsupportedCase id c.name.display := by
  have hkind : (Shape.enumeration cases).kind ≠ .callback := by simp [Shape.kind]
  rw [← failures_cases (s := s)]
  simp only [declare, enumerationScript, Script.collect_append, failures_markScript,
    failures_headingScript hkind, failures_exportScript hkind, List.nil_append]
  exact List.append_nil _

/-- **The error of an enumeration** is that of its first case that begins with a digit. -/
theorem result_enumeration_eq_error_iff {cases : List Case} {err : BindingError} :
    (s.declare (.declared id name (.enumeration cases))).result = .error err ↔
      ¬ Policy.RewritesDigits name ∧ ∃ pre c post, cases = pre ++ c :: post ∧
        (∀ b ∈ pre, ¬ b.Digital) ∧ c.Digital ∧ err = .unsupportedCase id c.name.display := by
  rw [Script.result_eq_error_iff, failures_enumeration]
  by_cases hrewrites : Policy.RewritesDigits name
  · rw [if_pos hrewrites]
    exact ⟨fun h => (by cases h), fun h => absurd hrewrites h.1⟩
  · rw [if_neg hrewrites, List.head?_map, List.head?_filter, Option.map_eq_some_iff]
    constructor
    · rintro ⟨c, hfind, rfl⟩
      obtain ⟨hdigital, pre, post, hcases, hpre⟩ := List.find?_eq_some_iff_append.1 hfind
      refine ⟨hrewrites, pre, c, post, hcases, fun b hb => ?_, of_decide_eq_true hdigital, rfl⟩
      simpa using hpre b hb
    · rintro ⟨-, pre, c, post, hcases, hpre, hdigital, rfl⟩
      refine ⟨c, List.find?_eq_some_iff_append.2 ⟨decide_eq_true hdigital, pre, post, hcases,
        fun b hb => ?_⟩, rfl⟩
      simpa using hpre b hb

end Setting

/-- **When an enumeration cannot be declared, and for which case.** The declaration of an
enumeration fails exactly if a case begins with a digit and the displayed name of the enumeration
has no letter to put in front of it. The error names the enumeration and the first such case.
Otherwise there is a line for every case, in order, and no identifier in them begins with a digit.
Neither the case of letters nor underscores in front count in what a name begins with. -/
theorem declare_enumeration_outcome (s : Setting) (id : String) (name : Name) {cases : List Case}
    (hmade : ∀ c ∈ cases, c.name.Made) :
    ((∃ err, (s.declare (.declared id name (.enumeration cases))).result = .error err) ↔
        (∃ c ∈ cases, c.Digital) ∧ ¬ Policy.RewritesDigits name) ∧
      (∀ err, (s.declare (.declared id name (.enumeration cases))).result = .error err →
        ∃ pre c post, cases = pre ++ c :: post ∧ (∀ b ∈ pre, ¬ b.Digital) ∧ c.Digital ∧
          err = .unsupportedCase id c.name.display) ∧
      (∀ ls, (s.declare (.declared id name (.enumeration cases))).result = .ok ls →
        ∃ idents, List.Forall₂ (fun c ident => caseIdent id name c.name = .ok ident) cases idents ∧
          (s.declare (.declared id name (.enumeration cases))).code =
            ["#[repr(" ++ Policy.enumRepr name ++ ")]", plainTraits,
              "pub enum " ++ name.typeIdent ++ " \x7b"] ++
            List.zipWith Case.line cases idents ++ ["\x7d"] ∧
          ∀ ident ∈ idents, startsWithDigit ident = false) ∧
      ∀ c ∈ cases, ∀ text, c.name = .new text → (c.Digital ↔
        ∃ d, (text.toList.dropWhile (· == '_')).head? = some d ∧ d.isDigit = true) := by
  refine ⟨⟨?_, ?_⟩, ?_, ?_, ?_⟩
  · rintro ⟨err, herr⟩
    obtain ⟨hrewrites, pre, c, post, rfl, -, hdigital, -⟩ :=
      Setting.result_enumeration_eq_error_iff.1 herr
    exact ⟨⟨c, List.mem_append_right _ (.head _), hdigital⟩, hrewrites⟩
  · rintro ⟨⟨c, hc, hdigital⟩, hrewrites⟩
    obtain ⟨first, hfirst⟩ : ∃ first, cases.find? (·.Digital) = some first :=
      Option.isSome_iff_exists.1 (List.find?_isSome.2 ⟨c, hc, decide_eq_true hdigital⟩)
    have hhead : (s.declare (.declared id name (.enumeration cases))).failures.head? =
        some (.unsupportedCase id first.name.display) := by
      rw [Setting.failures_enumeration, if_neg hrewrites, List.head?_map, List.head?_filter, hfirst]
      rfl
    exact ⟨_, Script.result_eq_error_iff.2 hhead⟩
  · intro err herr
    exact (Setting.result_enumeration_eq_error_iff.1 herr).2
  · intro ls hls
    obtain ⟨idents, hidents, hcode⟩ := Setting.code_enumeration (Script.failures_nil_of_result hls)
    refine ⟨idents, hidents, hcode, fun ident hident => ?_⟩
    obtain ⟨c, hc, hwritten⟩ := exists_of_forall₂_left hidents.flip hident
    exact startsWithDigit_caseIdent (hmade c hc) hwritten
  · intro c _ text htext
    rw [Case.Digital, htext]
    exact startsWithDigit_new_iff

/-- Three cases, the second of which begins with a digit behind an underscore. -/
def dimensionCases : List Case :=
  [⟨.new "Flat", 0⟩, ⟨.new "_2D", 1⟩, ⟨.new "depth_3", 2⟩]

/-- A setting without documentation. -/
def dimensionSetting : Setting :=
  ⟨sample.registry, none, .default⟩

/-- Only one of two enumerations with these cases can be declared. -/
theorem declare_enumeration_outcome_dimensions :
    (∀ c ∈ dimensionCases, c.name.Made) ∧
      (dimensionSetting.declare (.declared "enumeration.texture_kind"
        (.withPrefix "ti" "texture_kind") (.enumeration dimensionCases))).result =
          .error (.unsupportedCase "enumeration.texture_kind" "2d") ∧
      ∃ ls idents, (dimensionSetting.declare (.declared "enumeration.Image_Dimension"
          (.withPrefix "ti" "Image_Dimension") (.enumeration dimensionCases))).result = .ok ls ∧
        List.Forall₂ (fun (c : Case) ident => caseIdent "enumeration.Image_Dimension"
          (.withPrefix "ti" "Image_Dimension") c.name = .ok ident) dimensionCases idents ∧
        ∀ ident ∈ idents, startsWithDigit ident = false := by
  have hmade : ∀ c ∈ dimensionCases, c.name.Made := by
    intro c hc
    simp only [dimensionCases, List.mem_cons, List.not_mem_nil, or_false] at hc
    rcases hc with rfl | rfl | rfl
    · exact .new _
    · exact .new _
    · exact .new _
  obtain ⟨hfails, hfirst, -, -⟩ := declare_enumeration_outcome dimensionSetting
    "enumeration.texture_kind" (.withPrefix "ti" "texture_kind") hmade
  obtain ⟨hfails', -, hwritten, -⟩ := declare_enumeration_outcome dimensionSetting
    "enumeration.Image_Dimension" (.withPrefix "ti" "Image_Dimension") hmade
  refine ⟨hmade, ?_, ?_⟩
  · obtain ⟨err, herr⟩ := hfails.2 ⟨⟨⟨.new "_2D", 1⟩, .tail _ (.head _), by decide⟩, by decide⟩
    obtain ⟨pre, c, post, hcases, -, hdigital, rfl⟩ := hfirst err herr
    have hc : c ∈ dimensionCases := hcases ▸ List.mem_append_right _ (.head _)
    -- the only case that begins with a digit
    have honly : ∀ b ∈ dimensionCases, b.Digital → b.name.display = "2d" := by
      decide
    rw [herr, honly c hc hdigital]
  · rcases hresult : (dimensionSetting.declare (.declared "enumeration.Image_Dimension"
      (.withPrefix "ti" "Image_Dimension") (.enumeration dimensionCases))).result with err | ls
    · exact absurd (by decide) (hfails'.1 ⟨err, hresult⟩).2
    · obtain ⟨idents, hidents, -, hstart⟩ := hwritten ls hresult
      exact ⟨ls, idents, rfl, hidents, hstart⟩

end Bindery

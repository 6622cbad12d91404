import Bindery.Proofs.CamelCase
import Bindery.Proofs.Comments
import Bindery.Proofs.Declaration
import Bindery.Proofs.Inventory

/-!
# The identifiers of members

The cases of an enumeration and the bits of a bit field are constants of one scope. Bits keep their
underscores, so that different names have different identifiers. Cases lose theirs, and what is
different as a name may not be as an identifier.

* `caseWords`: the words that a case is spelled with.
* `caseIdent_eq_iff`, `bitIdent_eq_iff`: **when two members have one identifier**.
* `bare_of_loaded`: the names of members in a loaded interface.
* `code_enumeration`, `code_bitField`: the lines of code of a declaration, members in order.
* `memberIdents_nodup_iff`: **the identifiers of cases differ exactly if their fused words do, those
  of bits exactly if their names do**; `nodup_fused_of_letters`: for cases without digits and other
  signs that is so.
-/

namespace Bindery

/-- The words that a case is spelled with: those of its name, behind the letter that its enumeration
puts in front of a digit. -/
def caseWords (enumeration case : Name) : List Word :=
  if startsWithDigit case.screaming then
    Word.ofText ((Policy.digitLetter? enumeration).getD "") ++ case.words
  else case.words

/-- A letter in front of digits is a word of its own. -/
theorem title_digitLetter {enumeration : Name} {letter : String}
    (h : Policy.digitLetter? enumeration = some letter) :
    (Word.ofText letter).flatMap Word.title = letter.toList := by
  have hall : ∀ p ∈ Policy.digitLetters, (Word.ofText p.2).flatMap Word.title = p.2.toList := by
    decide
  obtain ⟨p, hp, rfl⟩ := Option.map_eq_some_iff.1 h
  exact hall p (List.mem_of_find?_eq_some hp)

/-- An identifier of a case is spelled with the words of the case. -/
theorem toList_caseIdent {id ident : String} {enumeration case : Name}
    (h : caseIdent id enumeration case = .ok ident) :
    ident.toList = (caseWords enumeration case).flatMap Word.title := by
  unfold caseIdent at h
  unfold caseWords
  split at h
  · rename_i hdigit
    rw [if_pos hdigit]
    rcases hletter : Policy.digitLetter? enumeration with _ | letter
    · rw [hletter] at h
      cases h
    · rw [hletter] at h
      obtain rfl := Except.ok.inj h
      rw [Option.getD_some, List.flatMap_append, title_digitLetter hletter, String.toList_append,
        Name.camel, String.toList_ofList]
  · rename_i hdigit
    obtain rfl := Except.ok.inj h
    rw [if_neg hdigit, Name.camel, String.toList_ofList]

theorem normal_caseWords {enumeration case : Name} (h : case.Bare) :
    ∀ w ∈ caseWords enumeration case, w.Normal := by
  intro w hw
  unfold caseWords at hw
  split at hw
  · rcases List.mem_append.1 hw with hw | hw
    · exact normal_of_mem_ofText hw
    · exact h.words w hw
  · exact h.words w hw

/-- **Two cases have one identifier exactly if their fused words are the same.** -/
theorem caseIdent_eq_iff {id x y : String} {enumeration a b : Name} (ha : a.Bare) (hb : b.Bare)
    (hx : caseIdent id enumeration a = .ok x) (hy : caseIdent id enumeration b = .ok y) :
    x = y ↔ Word.fused false (caseWords enumeration a) =
      Word.fused false (caseWords enumeration b) := by
  rw [← String.toList_inj, toList_caseIdent hx, toList_caseIdent hy]
  exact flatMap_title_eq_iff (normal_caseWords ha) (normal_caseWords hb)

/-- **Two bits have one identifier exactly if they are displayed the same.** -/
theorem bitIdent_eq_iff {a b : Name} (ha : a.Bare) (hb : b.Bare) :
    a.bitIdent = b.bitIdent ↔ a.display = b.display := by
  have hread : ∀ {n : Name}, n.Bare →
      Word.ofText n.bitIdent = n.words ++ Word.ofText Policy.bitWord := by
    intro n hn
    refine Name.ofText_screaming fun w hw => ?_
    rcases List.mem_append.1 hw with hw | hw
    · exact hn.words w hw
    · exact normal_of_mem_ofText hw
  rw [ha.display_inj hb]
  refine ⟨fun h => ha.ext hb ?_, fun h => h ▸ rfl⟩
  have hwords := congrArg Word.ofText h
  rw [hread ha, hread hb] at hwords
  exact List.append_cancel_right hwords

theorem forall_of_eachMember {α : Type} {P : α → Prop}
    {f : String → Json.Value → Except LoadError α}
    (hf : ∀ name value a, f name value = .ok a → P a) {members : Keyed Json.Value} {as : List α}
    (h : eachMember f members = .ok as) : ∀ a ∈ as, P a := by
  induction members generalizing as with
  | nil =>
    obtain rfl := Except.ok.inj h
    simp
  | cons p rest ih =>
    obtain ⟨a, ha, h⟩ := bind_eq_ok.1 h
    obtain ⟨more, hmore, h⟩ := bind_eq_ok.1 h
    obtain rfl := Except.ok.inj h
    exact List.forall_mem_cons.2 ⟨hf _ _ a ha, ih hmore⟩

/-- **A case is made of a name and an integer.** -/
theorem Case.ofMember_eq_ok {id name : String} {value : Json.Value} {c : Case}
    (h : Case.ofMember id name value = .ok c) :
    ∃ n, value = .number (.integer n) ∧ c = ⟨.new name, n⟩ := by
  unfold Case.ofMember at h
  split at h
  · split at h
    · exact ⟨_, rfl, (Except.ok.inj h).symm⟩
    · cases h
  · cases h

/-- **A bit is made of a name and an index.** -/
theorem Flag.ofMember_eq_ok {id name : String} {value : Json.Value} {b : Flag}
    (h : Flag.ofMember id name value = .ok b) :
    ∃ n : Nat, value = .number (.integer n) ∧ b = ⟨.new name, n⟩ := by
  unfold Flag.ofMember at h
  split at h
  · split at h
    · rename_i n hn
      exact ⟨n.toNat, by rw [Int.toNat_of_nonneg hn.1], (Except.ok.inj h).symm⟩
    · cases h
  · cases h

theorem Case.bare_of_ofMember {id name : String} {value : Json.Value} {c : Case}
    (h : Case.ofMember id name value = .ok c) : c.name.Bare := by
  obtain ⟨n, -, rfl⟩ := ofMember_eq_ok h
  exact Name.bare_new name

theorem Flag.bare_of_ofMember {id name : String} {value : Json.Value} {b : Flag}
    (h : Flag.ofMember id name value = .ok b) : b.name.Bare := by
  obtain ⟨n, -, rfl⟩ := ofMember_eq_ok h
  exact Name.bare_new name

/-- A member is named as its text says. -/
theorem bare_of_toShape {id : String} {written : DraftShape} {shape : Shape}
    (h : written.toShape id = .ok shape) :
    (∀ c ∈ shape.cases, c.name.Bare) ∧ ∀ b ∈ shape.bits, b.name.Bare := by
  cases written with
  | enumeration cases =>
    obtain ⟨read, hcases, rfl⟩ := map_eq_ok.1 h
    exact ⟨forall_of_eachMember (fun _ _ _ => Case.bare_of_ofMember) hcases, by simp [Shape.bits]⟩
  | bitField bits =>
    obtain ⟨read, hbits, rfl⟩ := map_eq_ok.1 h
    exact ⟨by simp [Shape.cases], forall_of_eachMember (fun _ _ _ => Flag.bare_of_ofMember) hbits⟩
  | definition value =>
    obtain ⟨text, -, rfl⟩ := map_eq_ok.1 h
    simp [Shape.cases, Shape.bits]
  | _ =>
    obtain rfl := Except.ok.inj h
    simp [Shape.cases, Shape.bits]

variable {table : BuiltinTable} {text : String} {api : Api} {id : String} {name : Name}

/-- The members of a loaded entry are named by texts, without a prefix. -/
theorem bare_of_loaded {shape : Shape} (h : Api.ofText table text = .ok api)
    (he : .declared id name shape ∈ api.registry.entries) :
    (∀ c ∈ shape.cases, c.name.Bare) ∧ ∀ b ∈ shape.bits, b.name.Bare := by
  obtain ⟨d, -, hmade, -⟩ := exists_made h
  obtain ⟨a, -, hmakes⟩ := hmade _ he shape.kind_ne_builtin
  cases hmakes with
  | intro hshape => exact bare_of_toShape hshape

/-- The line of a case under an identifier. -/
def Case.line (c : Case) (ident : String) : String :=
  "  " ++ ident ++ " = " ++ toString c.value ++ ","

/-- The line of a bit under an identifier. -/
def Flag.line (b : Flag) (ident : String) : String :=
  "  const " ++ ident ++ " = 1 << " ++ toString b.index ++ ";"

namespace Setting

variable {s : Setting}

theorem code_exportScript (e : Entry) : (exportScript e).code = [] :=
  collect_exportScript (fun _ => rfl) (fun _ => rfl) e

theorem code_memberScript (id member : String) : (s.memberScript id member).code = [] :=
  (remarks_memberScript id member).code_eq_nil

/-- Cases that are all written have a line each. -/
theorem code_cases {cases : List Case}
    (h : Script.failures (cases.flatMap (s.caseScript id name)) = []) :
    ∃ idents, List.Forall₂ (fun c ident => caseIdent id name c.name = .ok ident) cases idents ∧
      Script.code (cases.flatMap (s.caseScript id name)) = List.zipWith Case.line cases idents := by
  induction cases with
  | nil => exact ⟨[], .nil, rfl⟩
  | cons c cases ih =>
    simp only [List.flatMap_cons, Script.collect_append, List.append_eq_nil_iff] at h
    obtain ⟨idents, hidents, hcode⟩ := ih h.2
    rcases hc : caseIdent id name c.name with err | ident
    · simp [caseScript, hc] at h
    · refine ⟨ident :: idents, .cons hc hidents, ?_⟩
      have hone : Script.code (s.caseScript id name c) = [c.line ident] := by
        simp only [caseScript, hc, Script.collect_append, code_memberScript]
        rfl
      simp only [List.flatMap_cons, Script.collect_append, hone, hcode]
      rfl

theorem code_flags (bits : List Flag) :
    Script.code (bits.flatMap (s.flagScript id)) =
      bits.map fun b => b.line b.name.bitIdent := by
  induction bits with
  | nil => rfl
  | cons b bits ih =>
    simp only [List.flatMap_cons, Script.collect_append, ih, flagScript, code_memberScript]
    rfl

/-- **The code of an enumeration.** -/
theorem code_enumeration {cases : List Case}
    (h : (s.declare (.declared id name (.enumeration cases))).failures = []) :
    ∃ idents, List.Forall₂ (fun c ident => caseIdent id name c.name = .ok ident) cases idents ∧
      (s.declare (.declared id name (.enumeration cases))).code =
        ["#[repr(" ++ Policy.enumRepr name ++ ")]", plainTraits,
          "pub enum " ++ name.typeIdent ++ " \x7b"] ++
        List.zipWith Case.line cases idents ++ ["\x7d"] := by
  simp only [declare, enumerationScript, Script.collect_append, List.append_eq_nil_iff] at h
  obtain ⟨idents, hidents, hcode⟩ := code_cases h.1.2
  refine ⟨idents, hidents, ?_⟩
  have hheading : (s.headingScript (.declared id name (.enumeration cases))).code = [] :=
    (remarks_headingScript (by simp [Shape.kind])).code_eq_nil
  simp only [declare, enumerationScript, Script.collect_append, hheading, code_exportScript,
    (remarks_markScript _).code_eq_nil, hcode]
  rfl

/-- **The code of a bit field.** -/
theorem code_bitField {bits : List Flag} :
    (s.declare (.declared id name (.bitField bits))).code =
      ["bitflags! \x7b", transparentLayout, "#[derive(Clone, Copy, Debug, PartialEq, Eq, Hash)]",
        "pub struct " ++ name.flagsIdent ++ ": u32 \x7b"] ++
      bits.map (fun b => b.line b.name.bitIdent) ++ ["\x7d", "\x7d"] := by
  have hheading : (s.headingScript (.declared id name (.bitField bits))).code = [] :=
    (remarks_headingScript (by simp [Shape.kind])).code_eq_nil
  simp only [declare, bitFieldScript, Script.collect_append, hheading, code_exportScript,
    (remarks_markScript _).code_eq_nil, code_flags]
  rfl

end Setting

section Keys

variable {α β γ : Type} {R : α → β → Prop} {k : α → γ} {as : List α} {bs : List β}

theorem mem_iff_of_forall₂ (h : List.Forall₂ R as bs) {a : α} {b : β}
    (hk : ∀ a' ∈ as, ∀ b', R a' b' → (b = b' ↔ k a = k a')) : b ∈ bs ↔ k a ∈ as.map k := by
  induction h with
  | nil => simp
  | @cons a' b' as bs hab hrest ih =>
    rw [List.map_cons, List.mem_cons, List.mem_cons, hk a' (.head _) b' hab,
      ih fun a' ha' => hk a' (.tail _ ha')]

/-- Results are different exactly if keys are that tell the results apart. -/
theorem nodup_iff_of_forall₂ (h : List.Forall₂ R as bs)
    (hk : ∀ a ∈ as, ∀ a' ∈ as, ∀ b b', R a b → R a' b' → (b = b' ↔ k a = k a')) :
    bs.Nodup ↔ (as.map k).Nodup := by
  induction h with
  | nil => simp
  | @cons a b as bs hab hrest ih =>
    have hmem : b ∈ bs ↔ k a ∈ as.map k :=
      mem_iff_of_forall₂ hrest fun a' ha' b' => hk a (.head _) a' (.tail _ ha') b b' hab
    rw [List.map_cons, List.nodup_cons, List.nodup_cons, hmem,
      ih fun a ha a' ha' => hk a (.tail _ ha) a' (.tail _ ha')]

end Keys

/-- **The identifiers of cases differ exactly if their fused words do, and those of bits exactly if
their displayed names do.** Both are written in the order of the members, one line each. -/
theorem memberIdents_nodup_iff (h : Api.ofText table text = .ok api) (s : Setting) {shape : Shape}
    (he : .declared id name shape ∈ api.registry.entries)
    (hok : (s.declare (.declared id name shape)).failures = []) :
    (∀ cases, shape = .enumeration cases →
      ∃ idents, List.Forall₂ (fun c ident => caseIdent id name c.name = .ok ident) cases idents ∧
        (s.declare (.declared id name shape)).code =
          ["#[repr(" ++ Policy.enumRepr name ++ ")]", plainTraits,
            "pub enum " ++ name.typeIdent ++ " \x7b"] ++
          List.zipWith Case.line cases idents ++ ["\x7d"] ∧
        (idents.Nodup ↔ (cases.map fun c => Word.fused false (caseWords name c.name)).Nodup)) ∧
    ∀ bits, shape = .bitField bits →
      (s.declare (.declared id name shape)).code =
          ["bitflags! \x7b", transparentLayout,
            "#[derive(Clone, Copy, Debug, PartialEq, Eq, Hash)]",
            "pub struct " ++ name.flagsIdent ++ ": u32 \x7b"] ++
          bits.map (fun b => b.line b.name.bitIdent) ++ ["\x7d", "\x7d"] ∧
        ((bits.map fun b => b.name.bitIdent).Nodup ↔ (bits.map (·.name.display)).Nodup) := by
  obtain ⟨hcases, hbits⟩ := bare_of_loaded h he
  constructor
  · rintro cases rfl
    obtain ⟨idents, hidents, hcode⟩ := Setting.code_enumeration hok
    refine ⟨idents, hidents, hcode, nodup_iff_of_forall₂ hidents ?_⟩
    intro c hc c' hc' x y hx hy
    exact caseIdent_eq_iff (hcases c hc) (hcases c' hc') hx hy
  · rintro bits rfl
    have hidents : List.Forall₂ (fun (b : Flag) ident => b.name.bitIdent = ident) bits
        (bits.map fun b => b.name.bitIdent) :=
      List.forall₂_map_right_iff.2 (List.forall₂_same.2 fun _ _ => rfl)
    refine ⟨Setting.code_bitField, nodup_iff_of_forall₂ hidents ?_⟩
    rintro b hb b' hb' x y rfl rfl
    exact bitIdent_eq_iff (hbits b hb) (hbits b' hb')

theorem not_isDigit_of_isAlpha {c : Char} (h : c.isAlpha = true) : c.isDigit = false := by
  refine Bool.eq_false_iff.2 fun hd => ?_
  unfold Char.isAlpha Char.isUpper Char.isLower at h
  unfold Char.isDigit at hd
  simp only [Bool.or_eq_true, Bool.and_eq_true, decide_eq_true_eq, UInt32.le_iff_toNat_le] at h hd
  have : 'A'.val.toNat = 65 := rfl
  have : 'a'.val.toNat = 97 := rfl
  have : '9'.val.toNat = 57 := rfl
  omega

/-- A name that is spelled with letters does not begin with a digit. -/
theorem not_startsWithDigit_of_letters {name : Name}
    (h : name.Within fun x => x.isAlpha = true) : startsWithDigit name.screaming = false := by
  rw [startsWithDigit_screaming]
  unfold startsWithDigit
  rcases hsnake : name.snake.toList with _ | ⟨x, xs⟩
  · rfl
  have hx : x ∈ Text.joined ['_'] name.words := by
    rw [← Name.toList_snake, hsnake]
    exact .head _
  rcases Text.mem_joined hx with hx | ⟨w, hw, hx⟩
  · rw [List.mem_singleton.1 hx]
    rfl
  · exact not_isDigit_of_isAlpha (h w hw x hx)

/-- A case that is spelled with letters keeps its underscores when fused. -/
theorem fused_caseWords_of_letters {enumeration case : Name} (hb : case.Bare)
    (h : case.Within fun x => x.isAlpha = true) :
    Word.fused false (caseWords enumeration case) = case.display.toList := by
  have hfused : Word.fused false case.words = Text.joined ['_'] case.words :=
    fused_of_letters (fun w hw => (hb.words w hw).ne_nil) h
  unfold caseWords Name.display
  rw [not_startsWithDigit_of_letters h, if_neg Bool.false_ne_true, hfused, hb.lead, List.drop_zero,
    String.toList_ofList]

/-- **Cases that are spelled with letters have different identifiers.** -/
theorem nodup_fused_of_letters {cases : List Case} (h : Api.ofText table text = .ok api)
    (he : .declared id name (.enumeration cases) ∈ api.registry.entries)
    (hletters : ∀ c ∈ cases, c.name.Within fun x => x.isAlpha = true) :
    (cases.map fun c => Word.fused false (caseWords name c.name)).Nodup := by
  have hdisplay : (cases.map (·.name.display)).Nodup :=
    ((consistent_of_ofText h).entries _ he : Shape.Consistent _ _).cases
  have hbare : ∀ c ∈ cases, c.name.Bare := (bare_of_loaded h he).1
  have hkey : ∀ c ∈ cases, Word.fused false (caseWords name c.name) = c.name.display.toList :=
    fun c hc => fused_caseWords_of_letters (hbare c hc) (hletters c hc)
  have hlists := hdisplay.map fun _ _ h => String.toList_injective h
  rw [List.map_map] at hlists
  rwa [List.map_congr_left hkey]

/-- A text with an enumeration whose cases differ by an underscore behind a digit, and a bit field
whose bits differ by case. -/
def crowdedText : String :=
  "[\"ti\",[[\"taichi/a.h\",false,[],[[\"enumeration\",\"e\",\x7b\"a1b\":0,\"a1_b\":1\x7d],"
    ++ "[\"bit_field\",\"b\",\x7b\"a\":0,\"A\":1\x7d]]]]]"

/-- The cases in `crowdedText`. -/
def crowdedCases : List Case := [⟨.new "a1b", 0⟩, ⟨.new "a1_b", 1⟩]

/-- The bits in `crowdedText`. -/
def crowdedBits : List Flag := [⟨.new "a", 0⟩, ⟨.new "A", 1⟩]

/-- The interface in `crowdedText`. -/
def crowded : Api where
  lead := some "ti"
  registry :=
    ⟨[.declared "enumeration.e" (.withPrefix "ti" "e") (.enumeration crowdedCases),
      .declared "bit_field.b" (.withPrefix "ti" "b") (.bitField crowdedBits)], by decide⟩
  modules := [⟨"taichi/a.h", false, [], ["enumeration.e", "bit_field.b"], none⟩]

theorem ofText_crowded : Api.ofText .empty crowdedText = .ok crowded := by
  cbv

/-- In `crowdedText` two cases share an identifier, and so do two bits. -/
theorem memberIdents_nodup_iff_crowded : Api.ofText .empty crowdedText = .ok crowded ∧
    (∃ idents : List String, idents.length = 2 ∧ ¬ idents.Nodup ∧
      ((⟨crowded.registry, none, .default⟩ : Setting).declare
        (.declared "enumeration.e" (.withPrefix "ti" "e") (.enumeration crowdedCases))).code =
          ["#[repr(u32)]", plainTraits, "pub enum TiE \x7b"] ++
            List.zipWith Case.line crowdedCases idents ++ ["\x7d"]) ∧
    ¬ (crowdedBits.map fun b => b.name.bitIdent).Nodup := by
  have henum : .declared "enumeration.e" (.withPrefix "ti" "e") (.enumeration crowdedCases) ∈
      crowded.registry.entries := .head _
  have hfield : .declared "bit_field.b" (.withPrefix "ti" "b") (.bitField crowdedBits) ∈
      crowded.registry.entries := .tail _ (.head _)
  refine ⟨ofText_crowded, ?_, ?_⟩
  · obtain ⟨idents, hidents, hcode, hnodup⟩ :=
      (memberIdents_nodup_iff ofText_crowded ⟨crowded.registry, none, .default⟩ henum
        (by decide +kernel)).1 _ rfl
    exact ⟨idents, hidents.length_eq.symm, hnodup.not.2 (by decide +kernel), hcode⟩
  · obtain ⟨-, hnodup⟩ :=
      (memberIdents_nodup_iff ofText_crowded ⟨crowded.registry, none, .default⟩ hfield
        (by decide +kernel)).2 _ rfl
    exact hnodup.not.2 (by decide +kernel)

/-- **Members of one entry can share an identifier.** -/
theorem members_share_identifier :
    (¬ ∀ (table : BuiltinTable) (text : String) (api : Api), Api.ofText table text = .ok api →
      ∀ (s : Setting) (id : String) (name : Name) (bits : List Flag),
        .declared id name (.bitField bits) ∈ api.registry.entries →
        (s.declare (.declared id name (.bitField bits))).failures = [] →
        (bits.map fun b => b.name.bitIdent).Nodup) ∧
    ¬ ∀ (table : BuiltinTable) (text : String) (api : Api), Api.ofText table text = .ok api →
      ∀ (s : Setting) (id : String) (name : Name) (cases : List Case) (idents : List String),
        .declared id name (.enumeration cases) ∈ api.registry.entries →
        (s.declare (.declared id name (.enumeration cases))).failures = [] →
        List.Forall₂ (fun c ident => caseIdent id name c.name = .ok ident) cases idents →
        idents.Nodup := by
  constructor
  · intro hall
    have h := hall _ _ _ ofText_crowded ⟨crowded.registry, none, .default⟩ _ _ _
      (.tail _ (.head _)) (by decide +kernel)
    revert h
    decide +kernel
  · intro hall
    have h := hall _ _ _ ofText_crowded ⟨crowded.registry, none, .default⟩ _ _ _ ["A1B", "A1B"]
      (.head _) (by decide +kernel) (.cons (by decide +kernel) (.cons (by decide +kernel) .nil))
    simp at h

end Bindery

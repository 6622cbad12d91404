import Bindery.Proofs.Lines
import Bindery.Proofs.MemberIdents
import Bindery.Proofs.Numerals

/-!
# Numbers and the types of their places

A source writes numbers in three places that have a type: constants and flags are `u32`, and the
cases of an enumeration have the integer type that the enumeration is represented by. Only the
indices of flags are checked; the other numbers are written as the document gives them.

* `IntType`, `IntType.Reads`, `IntType.Discriminants`: integer types, the texts that are literals of
  them, and those that can be the values of one enumeration.
* `DraftShape.NumbersFit`: declarations with numbers that fit.
* `code_definition`, `definition_fits_iff`, `enumeration_fits_iff`, `bitField_fits`: one
  declaration.
* `numbers_fit_iff`: **constants and cases fit their types exactly if the numbers of the document
  do, and flags always fit**.
-/

namespace Bindery

/-- An integer type of the generated code. -/
structure IntType where
  name : String
  low : Int
  high : Int

namespace IntType

/-- Unsigned integers of 32 bits. -/
def u32 : IntType := ⟨"u32", 0, 0xFFFFFFFF⟩

/-- Signed integers of 32 bits. -/
def i32 : IntType := ⟨"i32", -0x80000000, 0x7FFFFFFF⟩

/-- An integer that a type holds. -/
def Holds (t : IntType) (n : Int) : Prop :=
  t.low ≤ n ∧ n ≤ t.high

instance (t : IntType) (n : Int) : Decidable (t.Holds n) :=
  inferInstanceAs (Decidable (_ ∧ _))

/-- **A literal of a type**: the decimal text of an integer that the type holds. -/
def Reads (t : IntType) (text : String) : Prop :=
  ∃ n : Int, text = toString n ∧ t.Holds n

/-- **The values of an enumeration of a type**: different literals of the type. -/
structure Discriminants (t : IntType) (texts : List String) : Prop where
  distinct : texts.Nodup
  fit : ∀ text ∈ texts, t.Reads text

variable {t : IntType}

theorem reads_text_iff {v : Json.Number} : t.Reads v.text ↔ ∃ n, v = .integer n ∧ t.Holds n := by
  unfold Reads
  simp only [Json.Number.text_eq_toString_iff]

theorem reads_toString_iff {n : Int} : t.Reads (toString n) ↔ t.Holds n := by
  have h : t.Reads (Json.Number.integer n).text ↔ _ := reads_text_iff
  exact h.trans (by simp)

theorem discriminants_iff {values : List Int} :
    t.Discriminants (values.map toString) ↔ values.Nodup ∧ ∀ n ∈ values, t.Holds n := by
  have hinj : Function.Injective (toString : Int → String) := fun _ _ => toString_int_inj.1
  constructor
  · intro h
    exact ⟨(List.nodup_map_iff hinj).1 h.distinct,
      fun n hn => reads_toString_iff.1 (h.fit _ (List.mem_map_of_mem hn))⟩
  · rintro ⟨hdistinct, hfit⟩
    refine ⟨(List.nodup_map_iff hinj).2 hdistinct, fun text htext => ?_⟩
    obtain ⟨n, hn, rfl⟩ := List.mem_map.1 htext
    exact reads_toString_iff.2 (hfit n hn)

end IntType

/-- The type of the cases of an enumeration. -/
def reprType (enumeration : Name) : IntType :=
  if enumeration.display ∈ Policy.signedEnums then .i32 else .u32

theorem enumRepr_eq (enumeration : Name) :
    Policy.enumRepr enumeration = (reprType enumeration).name := by
  unfold Policy.enumRepr reprType
  split <;> rfl

/-- **A declaration with numbers that fit**: an integer of 32 bits without a sign for a constant,
and different integers of its type for an enumeration. Bits are checked when they are loaded. -/
def DraftShape.NumbersFit (full : Name) : DraftShape → Prop
  | definition (.number v) => ∃ n, v = .integer n ∧ IntType.u32.Holds n
  | enumeration members => (members.map Prod.snd).Nodup ∧
      ∀ p ∈ members, ∃ n, p.2 = .number (.integer n) ∧ (reprType full).Holds n
  | _ => True

theorem forall₂_of_eachMember {α : Type} {f : String → Json.Value → Except LoadError α}
    {members : Keyed Json.Value} {as : List α} (h : eachMember f members = .ok as) :
    List.Forall₂ (fun p a => f p.1 p.2 = .ok a) members as := by
  induction members generalizing as with
  | nil =>
    obtain rfl := Except.ok.inj h
    exact .nil
  | cons p rest ih =>
    obtain ⟨a, ha, h⟩ := bind_eq_ok.1 h
    obtain ⟨more, hmore, h⟩ := bind_eq_ok.1 h
    obtain rfl := Except.ok.inj h
    exact .cons ha (ih hmore)

theorem map_eq_of_forall₂ {α β γ : Type} {R : α → β → Prop} {f : α → γ} {g : β → γ} {as : List α}
    {bs : List β} (h : List.Forall₂ R as bs) (hR : ∀ a b, R a b → f a = g b) :
    as.map f = bs.map g := by
  induction h with
  | nil => rfl
  | cons hab _ ih => rw [List.map_cons, List.map_cons, hR _ _ hab, ih]

theorem Case.value_of_ofMember {id name : String} {value : Json.Value} {c : Case}
    (h : Case.ofMember id name value = .ok c) : value = .number (.integer c.value) := by
  obtain ⟨n, rfl, rfl⟩ := ofMember_eq_ok h
  rfl

theorem Flag.value_of_ofMember {id name : String} {value : Json.Value} {b : Flag}
    (h : Flag.ofMember id name value = .ok b) : value = .number (.integer b.index) := by
  obtain ⟨n, rfl, rfl⟩ := ofMember_eq_ok h
  rfl

/-- Cases are given by the values of the members that they are made of. -/
theorem values_of_cases {id : String} {members : Keyed Json.Value} {cases : List Case}
    (h : eachMember (Case.ofMember id) members = .ok cases) :
    members.map Prod.snd = cases.map fun c => .number (.integer c.value) :=
  map_eq_of_forall₂ (forall₂_of_eachMember h) fun _ _ => Case.value_of_ofMember

theorem values_of_flags {id : String} {members : Keyed Json.Value} {bits : List Flag}
    (h : eachMember (Flag.ofMember id) members = .ok bits) :
    members.map Prod.snd = bits.map fun b => .number (.integer b.index) :=
  map_eq_of_forall₂ (forall₂_of_eachMember h) fun _ _ => Flag.value_of_ofMember

theorem integer_injective : Function.Injective fun n : Int => Json.Value.number (.integer n) := by
  intro m n hmn
  simpa using hmn

/-- The values of the cases fit exactly if those of the members do. -/
theorem numbersFit_enumeration_iff {members : Keyed Json.Value} {cases : List Case} {full : Name}
    (h : members.map Prod.snd = cases.map fun c => .number (.integer c.value)) :
    (DraftShape.enumeration members).NumbersFit full ↔
      (cases.map Case.value).Nodup ∧ ∀ n ∈ cases.map Case.value, (reprType full).Holds n := by
  have hvalues : members.map Prod.snd = (cases.map Case.value).map fun n => .number (.integer n) :=
    h.trans (by rw [List.map_map]; rfl)
  refine and_congr ?_ ?_
  · rw [hvalues, List.nodup_map_iff integer_injective]
  · -- a member with a value that fits is one with a number that fits
    have hmembers : (∀ p ∈ members, ∃ n, p.2 = .number (.integer n) ∧ (reprType full).Holds n) ↔
        ∀ v ∈ members.map Prod.snd, ∃ n, v = .number (.integer n) ∧ (reprType full).Holds n := by
      rw [List.forall_mem_map]
    rw [hmembers, hvalues, List.forall_mem_map]
    simp

variable {table : BuiltinTable} {text : String} {api : Api} {cfg : Config} {m : Module}
  {source id : String} {full : Name} {shape : Shape}

/-- **The code of a constant.** -/
theorem Setting.code_definition {s : Setting} {value : String} :
    (s.declare (.declared id full (.definition value))).code =
      ["pub const " ++ full.constIdent ++ ": u32 = " ++ value ++ ";"] := by
  have hheading : (s.headingScript (.declared id full (.definition value))).code = [] :=
    (remarks_headingScript (by simp [Shape.kind])).code_eq_nil
  simp only [declare, definitionScript, Script.collect_append, hheading, code_exportScript,
    (remarks_markScript _).code_eq_nil]
  rfl

/-- A constant that a number is given for is a literal of its type exactly if the number fits. -/
theorem definition_fits_iff {v : Json.Number}
    (hshape : (DraftShape.definition (.number v)).toShape id = .ok shape)
    (h : api.Emits cfg m source (.declared id full shape)) :
    StandsIn ["pub const " ++ full.constIdent ++ ": u32 = " ++ v.text ++ ";"] source ∧
      (IntType.u32.Reads v.text ↔ (DraftShape.definition (.number v)).NumbersFit full) := by
  obtain rfl : .definition v.text = shape := Except.ok.inj hshape
  have hcode := h.code
  rw [Setting.code_definition] at hcode
  exact ⟨hcode, IntType.reads_text_iff⟩

/-- The cases of an enumeration have values of its type exactly if its members do. -/
theorem enumeration_fits_iff {members : Keyed Json.Value}
    (hshape : (DraftShape.enumeration members).toShape id = .ok shape)
    (h : api.Emits cfg m source (.declared id full shape)) :
    ∃ (cases : List Case) (idents : List String),
      members.map Prod.snd = cases.map (fun c => .number (.integer c.value)) ∧
      idents.length = cases.length ∧
      StandsIn (["#[repr(" ++ (reprType full).name ++ ")]", plainTraits,
        "pub enum " ++ full.typeIdent ++ " \x7b"] ++ List.zipWith Case.line cases idents ++
          ["\x7d"]) source ∧
      ((reprType full).Discriminants (cases.map fun c => toString c.value) ↔
        (DraftShape.enumeration members).NumbersFit full) := by
  obtain ⟨cases, hcases, rfl⟩ := map_eq_ok.1 hshape
  have hvalues := values_of_cases hcases
  obtain ⟨idents, hidents, hcode⟩ := Setting.code_enumeration h.sound
  have hstands := h.code
  rw [hcode, enumRepr_eq] at hstands
  refine ⟨cases, idents, hvalues, hidents.length_eq.symm, hstands, ?_⟩
  rw [numbersFit_enumeration_iff hvalues, ← IntType.discriminants_iff, List.map_map]
  rfl

/-- **Flags fit**: the index of a bit is checked. -/
theorem bitField_fits {members : Keyed Json.Value} (hc : api.Consistent)
    (hshape : (DraftShape.bitField members).toShape id = .ok shape)
    (h : api.Emits cfg m source (.declared id full shape)) :
    ∃ bits : List Flag, members.map Prod.snd = bits.map (fun b => .number (.integer b.index)) ∧
      StandsIn (["bitflags! \x7b", transparentLayout,
        "#[derive(Clone, Copy, Debug, PartialEq, Eq, Hash)]",
        "pub struct " ++ full.flagsIdent ++ ": u32 \x7b"] ++
          bits.map (fun b => b.line b.name.bitIdent) ++ ["\x7d", "\x7d"]) source ∧
      ∀ b ∈ bits, IntType.u32.Holds (2 ^ b.index) := by
  obtain ⟨bits, hbits, rfl⟩ := map_eq_ok.1 hshape
  have hstands := h.code
  rw [Setting.code_bitField] at hstands
  refine ⟨bits, values_of_flags hbits, hstands, fun b hb => ?_⟩
  have hshape : Shape.Consistent api.registry (.bitField bits) := hc.entries _ h.mem
  have hindex : b.index ≤ 31 := hshape.fits b hb
  have hpow : (2 : Int) ^ b.index ≤ 2 ^ 31 := pow_le_pow_right₀ (by decide) hindex
  exact ⟨by positivity, hpow.trans (by decide)⟩

/-- **Which numbers fit the types of their places.** The sources of a run belong, one by one, to the
modules of the document that the run writes. Each declaration of such a module with numbers writes
them into its source. A constant that is given by a number is a literal of its type, and the cases
of an enumeration have different literals of theirs, exactly if the numbers in the document fit.
Flags fit always. -/
theorem numbers_fit_iff (h : Api.ofText table text = .ok api) {generated : List GeneratedModule}
    (hgen : (api.generate cfg).result = .ok generated) :
    ∃ d, Draft.ofText text = .ok d ∧ List.Forall₂ (fun dm g => dm.name = g.module ∧
      ∀ name marked written, .declared name marked written ∈ dm.entries →
        ∀ full, full = entryName api.lead name marked →
        (∀ v, written = .definition (.number v) →
          StandsIn ["pub const " ++ full.constIdent ++ ": u32 = " ++ v.text ++ ";"] g.source ∧
            (IntType.u32.Reads v.text ↔ written.NumbersFit full)) ∧
        (∀ members, written = .enumeration members → ∃ (cases : List Case) (idents : List String),
          members.map Prod.snd = cases.map (fun c => .number (.integer c.value)) ∧
          idents.length = cases.length ∧
          StandsIn (["#[repr(" ++ (reprType full).name ++ ")]", plainTraits,
            "pub enum " ++ full.typeIdent ++ " \x7b"] ++ List.zipWith Case.line cases idents ++
              ["\x7d"]) g.source ∧
          ((reprType full).Discriminants (cases.map fun c => toString c.value) ↔
            written.NumbersFit full)) ∧
        ∀ members, written = .bitField members → ∃ bits : List Flag,
          members.map Prod.snd = bits.map (fun b => .number (.integer b.index)) ∧
          StandsIn (["bitflags! \x7b", transparentLayout,
            "#[derive(Clone, Copy, Debug, PartialEq, Eq, Hash)]",
            "pub struct " ++ full.flagsIdent ++ ": u32 \x7b"] ++
              bits.map (fun b => b.line b.name.bitIdent) ++ ["\x7d", "\x7d"]) g.source ∧
          ∀ b ∈ bits, IntType.u32.Holds (2 ^ b.index))
      (d.modules.filter fun dm => cfg.Generates dm.toModule) generated := by
  obtain ⟨d, hd, -⟩ := toApi_of_ofText h
  refine ⟨d, hd, (forall₂_writes h hd hgen).imp fun dm g ⟨hname, hw⟩ => ⟨hname, ?_⟩⟩
  intro name marked written ha full hfull
  subst hfull
  obtain ⟨shape, hshape, hemits⟩ := emits_of_writes h hd hw ha
  refine ⟨?_, ?_, ?_⟩
  · rintro v rfl
    exact definition_fits_iff hshape hemits
  · rintro members rfl
    exact enumeration_fits_iff hshape hemits
  · rintro members rfl
    exact bitField_fits (consistent_of_ofText h) hshape hemits

/-- A text with a negative constant, an enumeration with one value for two cases, and a flag. -/
def misfitText : String :=
  "[\"ti\",[[\"taichi/a.h\",false,[],[[\"definition\",\"x\",-1],"
    ++ "[\"enumeration\",\"e\",\x7b\"a\":0,\"b\":0\x7d],[\"bit_field\",\"b\",\x7b\"top\":31\x7d]]]]]"

/-- The module in `misfitText`. -/
def misfitModule : Module :=
  ⟨"taichi/a.h", false, [], ["definition.x", "enumeration.e", "bit_field.b"], none⟩

/-- The interface in `misfitText`. -/
def misfit : Api where
  lead := some "ti"
  registry :=
    ⟨[.declared "definition.x" (.withPrefix "ti" "x") (.definition "-1"),
      .declared "enumeration.e" (.withPrefix "ti" "e")
        (.enumeration [⟨.new "a", 0⟩, ⟨.new "b", 0⟩]),
      .declared "bit_field.b" (.withPrefix "ti" "b") (.bitField [⟨.new "top", 31⟩])], by decide⟩
  modules := [misfitModule]

/-- The enumeration in `misfitText`. -/
def misfitEnumeration : DraftShape :=
  .enumeration [("a", .number (.integer 0)), ("b", .number (.integer 0))]

/-- The document in `misfitText`. -/
def misfitDraft : Draft where
  lead := some "ti"
  modules := [⟨"taichi/a.h", false, [],
    [.declared "x" false (.definition (.number (.integer (-1)))),
      .declared "e" false misfitEnumeration,
      .declared "b" false (.bitField [("top", .number (.integer 31))])], none⟩]

theorem draft_misfit : Draft.ofText misfitText = .ok misfitDraft := by
  cbv

theorem ofText_misfit : Api.ofText .empty misfitText = .ok misfit := by
  unfold Api.ofText
  rw [draft_misfit]
  cbv

theorem misfit_generated : ∃ g, (misfit.generate .default).result = .ok [g] ∧
    g.module = "taichi/a.h" := by
  have hrun : (misfit.generate .default).result.map (·.map (·.module)) = .ok ["taichi/a.h"] := by
    decide +kernel
  rcases hresult : (misfit.generate .default).result with err | generated
  · simp [hresult, Except.map] at hrun
  · simp only [hresult, Except.map, Except.ok.injEq] at hrun
    obtain ⟨g, rfl, hg⟩ := List.map_eq_singleton_iff.1 hrun
    exact ⟨g, rfl, hg⟩

theorem not_reads_negative : ¬ IntType.u32.Reads "-1" := by
  have h : ¬ IntType.u32.Reads (toString (-1 : Int)) := by
    rw [IntType.reads_toString_iff]
    decide
  exact h

/-- In `misfitText` the constant is written into its type without being a literal of it, the cases
of the enumeration have one value, and the flag fits. -/
theorem numbers_fit_iff_misfit : Api.ofText .empty misfitText = .ok misfit ∧
    ∃ g, (misfit.generate .default).result = .ok [g] ∧
      StandsIn ["pub const TI_X: u32 = -1;"] g.source ∧
      ¬ (DraftShape.definition (.number (.integer (-1)))).NumbersFit (.withPrefix "ti" "x") ∧
      (∃ cases : List Case, cases.map Case.value = [0, 0] ∧
        ¬ IntType.u32.Discriminants (cases.map fun c => toString c.value)) ∧
      IntType.u32.Holds (2 ^ 31) := by
  obtain ⟨g, hgen, hmodule⟩ := misfit_generated
  obtain ⟨d, hd, hall⟩ := numbers_fit_iff ofText_misfit hgen
  obtain rfl : misfitDraft = d := Except.ok.inj (draft_misfit.symm.trans hd)
  have hwritten : misfitDraft.modules.filter (fun dm => Config.default.Generates dm.toModule) =
      misfitDraft.modules := by
    rw [List.filter_eq_self]
    decide
  rw [hwritten] at hall
  obtain ⟨⟨-, hone⟩, -⟩ := List.forall₂_cons.1 hall
  obtain ⟨hline, hfits⟩ := (hone "x" false _ (.head _) _ rfl).1 _ rfl
  obtain ⟨cases, idents, hvalues, -, -, hdistinct⟩ :=
    (hone "e" false _ (.tail _ (.head _)) _ rfl).2.1 _ rfl
  obtain ⟨bits, hbits, -, hflags⟩ :=
    (hone "b" false _ (.tail _ (.tail _ (.head _))) _ rfl).2.2 _ rfl
  have hcases : cases.map Case.value = [0, 0] := by
    refine integer_injective.list_map ?_
    rw [List.map_map]
    exact hvalues.symm
  refine ⟨ofText_misfit, g, hgen, hline, fun h => not_reads_negative (hfits.2 h),
    ⟨cases, hcases, ?_⟩, ?_⟩
  · intro h
    exact absurd (hdistinct.1 h).1 (by simp)
  · obtain ⟨b, rfl, hb⟩ := List.map_eq_singleton_iff.1 hbits.symm
    have hindex : b.index = 31 := by
      have := integer_injective hb
      omega
    exact hindex ▸ hflags b (.head _)

/-- **Numbers can fail to fit**: a constant that is no literal of its type, and two cases with one
value. -/
theorem numbers_can_misfit :
    (¬ ∀ (table : BuiltinTable) (text : String) (api : Api), Api.ofText table text = .ok api →
      ∀ cfg generated, (api.generate cfg).result = .ok generated → ∀ d, Draft.ofText text = .ok d →
        ∀ g ∈ generated, ∀ dm ∈ d.modules, dm.name = g.module → ∀ name marked v,
          .declared name marked (.definition (.number v)) ∈ dm.entries →
            IntType.u32.Reads v.text) ∧
    ¬ ∀ (table : BuiltinTable) (text : String) (api : Api), Api.ofText table text = .ok api →
      ∀ cfg generated, (api.generate cfg).result = .ok generated → ∀ g ∈ generated,
        ∀ m ∈ api.modules, m.name = g.module → ∀ id ∈ m.declares, ∀ name cases,
          api.registry.find? id = some (.declared id name (.enumeration cases)) →
            (reprType name).Discriminants (cases.map fun c => toString c.value) := by
  obtain ⟨g, hgen, hmodule⟩ := misfit_generated
  constructor
  · intro hall
    exact not_reads_negative (hall _ _ _ ofText_misfit .default _ hgen _ draft_misfit g (.head _) _
      (.head _) hmodule.symm "x" false (.integer (-1)) (.head _))
  · intro hall
    have h := hall _ _ _ ofText_misfit .default _ hgen g (.head _) misfitModule (.head _)
      hmodule.symm "enumeration.e" (by decide) _ _ rfl
    exact absurd h.distinct (by decide)

end Bindery

import Bindery.Proofs.Inlined
import Bindery.Proofs.Layout
import Bindery.Proofs.Scanned

/-!
# Integers of a document in its sources

An integer literal can be the value of a constant or of a case, the index of a bit, or the length of
an array. Where it is read as an integer, this integer is written out again. A case, an index or a
length that is read otherwise is rejected; a constant is not, and gets the text of a double.

* `definition_of_tree`, `enumeration_of_tree`, `bitField_of_tree`, `fields_of_tree`,
  `count_of_tree`: what is read from a tree with a number in it.
* `standsIn_case`, `standsIn_flag`: the lines with these numbers.
* `Api.Carries`: what sources keep of an integer literal in a declaration.
* `integers_carried`: **cases, indices and lengths keep their integers, and a constant does exactly
  if its literal is exact**; `constant_loses_integer`: one that does not.
-/

namespace Bindery

open Json

namespace Draft

variable {depth : Nat} {t : Tree} {a : DraftEntry}

/-- A declaration with the tag of a kind that is declared under a name. -/
theorem exists_of_tag {kind : Kind} (h : decodeEntry depth t = .ok a)
    (htag : tag? t = some kind.tag) (hk : kind ≠ .builtin) :
    ∃ r name marked written, a = .declared name marked written ∧ shapeOf r kind = .ok written ∧
      ∀ {α : Type} {key : String} {get : EntryParts → Option α} {d : Decoder α}, key ≠ tagName →
        (variant kind).Slot key get d → get .blank = none →
          Option.Rel (fun sub v => d (depth + 1) sub = .ok v) (member? kind key t) (get r) := by
  obtain ⟨kind', r, htag', hentry, hslots⟩ := exists_of_decodeEntry h
  obtain rfl : kind = kind' := Kind.tag_injective (Option.some.inj (htag.symm.trans htag'))
  obtain ⟨name, -, hentry⟩ := bind_eq_ok.1 hentry
  rw [if_neg hk] at hentry
  obtain ⟨written, hwritten, hentry⟩ := bind_eq_ok.1 hentry
  obtain rfl := Except.ok.inj hentry
  exact ⟨r, name, _, written, rfl, hwritten, hslots⟩

theorem read_number {n : Except Break Number} {v : Value}
    (h : Tree.read depth (.number n) = .ok v) : ∃ x, n = .ok x ∧ v = .number x := by
  cases n with
  | ok x => exact ⟨x, rfl, (Except.ok.inj h).symm⟩
  | error b => cases h

theorem exists_of_rel {α β : Type} {R : α → β → Prop} {a : α} {o : Option β}
    (h : Option.Rel R (some a) o) : ∃ b, o = some b ∧ R a b := by
  cases h with
  | some hab => exact ⟨_, rfl, hab⟩

/-- A constant whose value is a number. -/
theorem definition_of_tree {n : Except Break Number} (h : decodeEntry depth t = .ok a)
    (htag : tag? t = some Kind.definition.tag)
    (hvalue : member? .definition "value" t = some (.number n)) :
    ∃ name marked v, n = .ok v ∧ a = .declared name marked (.definition (.number v)) := by
  obtain ⟨r, name, marked, written, rfl, hshape, hslots⟩ := exists_of_tag h htag (by decide)
  have hrel := hslots (by decide) value_slot rfl
  rw [hvalue] at hrel
  obtain ⟨v, hr, hread⟩ := exists_of_rel hrel
  obtain ⟨x, rfl, rfl⟩ := read_number hread
  obtain ⟨value, hneed, rfl⟩ := map_eq_ok.1 hshape
  rw [hr] at hneed
  obtain rfl := Except.ok.inj hneed
  exact ⟨name, marked, x, rfl, rfl⟩

/-- A declaration with an object in which the last value for a key is a number. -/
theorem keyed_of_tree {kind : Kind} {member key : String} {get : EntryParts → Option (Keyed Value)}
    {cs : Tree} {n : Except Break Number} (h : decodeEntry depth t = .ok a)
    (htag : tag? t = some kind.tag) (hk : kind ≠ .builtin) (hne : member ≠ tagName)
    (hslot : (variant kind).Slot member get (.keyed Tree.read)) (hblank : get .blank = none)
    (hmember : member? kind member t = some cs) (hkey : cs.value? key = some (.number n)) :
    ∃ r name marked written members v, a = .declared name marked written ∧
      shapeOf r kind = .ok written ∧ get r = some members ∧ n = .ok v ∧
      members.get? key = some (.number v) := by
  obtain ⟨r, name, marked, written, rfl, hshape, hslots⟩ := exists_of_tag h htag hk
  have hrel := hslots hne hslot hblank
  rw [hmember] at hrel
  obtain ⟨members, hr, hread⟩ := exists_of_rel hrel
  have hrel := rel_of_keyed hread key
  rw [hkey] at hrel
  obtain ⟨v, hget, hread⟩ := exists_of_rel hrel
  obtain ⟨x, rfl, rfl⟩ := read_number hread
  exact ⟨r, name, marked, written, members, x, rfl, hshape, hr, rfl, hget⟩

/-- An enumeration with a case whose value is a number. -/
theorem enumeration_of_tree {cs : Tree} {key : String} {n : Except Break Number}
    (h : decodeEntry depth t = .ok a) (htag : tag? t = some Kind.enumeration.tag)
    (hcases : member? .enumeration "cases" t = some cs) (hkey : cs.value? key = some (.number n)) :
    ∃ name marked members v, n = .ok v ∧ a = .declared name marked (.enumeration members) ∧
      members.get? key = some (.number v) := by
  obtain ⟨r, name, marked, written, members, v, rfl, hshape, hr, rfl, hget⟩ :=
    keyed_of_tree h htag (by decide) (by decide) cases_slot rfl hcases hkey
  obtain ⟨cases, hneed, rfl⟩ := map_eq_ok.1 hshape
  rw [hr] at hneed
  obtain rfl := Except.ok.inj hneed
  exact ⟨name, marked, members, v, rfl, rfl, hget⟩

/-- A bit field with a bit whose index is a number. -/
theorem bitField_of_tree {bs : Tree} {key : String} {n : Except Break Number}
    (h : decodeEntry depth t = .ok a) (htag : tag? t = some Kind.bitField.tag)
    (hbits : member? .bitField "bits" t = some bs) (hkey : bs.value? key = some (.number n)) :
    ∃ name marked members v, n = .ok v ∧ a = .declared name marked (.bitField members) ∧
      members.get? key = some (.number v) := by
  obtain ⟨r, name, marked, written, members, v, rfl, hshape, hr, rfl, hget⟩ :=
    keyed_of_tree h htag (by decide) (by decide) bits_slot rfl hbits hkey
  obtain ⟨bits, hneed, rfl⟩ := map_eq_ok.1 hshape
  rw [hr] at hneed
  obtain rfl := Except.ok.inj hneed
  exact ⟨name, marked, members, v, rfl, rfl, hget⟩

/-- The fields of a declaration. -/
def fieldTrees (kind : Kind) (t : Tree) : List Tree :=
  match fieldsName? kind with
  | some name => (member? kind name t).elim [] Tree.items
  | none => []

end Draft

/-- The fields and parameters of a shape, as written. -/
def DraftShape.fields : DraftShape → List DraftField
  | record fields => fields
  | union variants => variants
  | function params _ => params
  | callback params => params
  | _ => []

namespace Draft

variable {depth : Nat} {t : Tree} {a : DraftEntry}

/-- A declaration with fields. -/
theorem fields_of_tree {kind : Kind} {key : String} (h : decodeEntry depth t = .ok a)
    (htag : tag? t = some kind.tag) (hkey : fieldsName? kind = some key) :
    ∃ name marked written, a = .declared name marked written ∧ written.kind = kind ∧
      List.Forall₂ (fun t f => decodeField (depth + 2) t = .ok f) (fieldTrees kind t)
        written.fields := by
  have hk : kind ≠ .builtin := by
    rintro rfl
    cases hkey
  obtain ⟨r, name, marked, written, rfl, hshape, hslots⟩ := exists_of_tag h htag hk
  have hne : key ≠ tagName := by
    cases kind <;> simp [fieldsName?] at hkey <;> subst hkey <;> decide
  have hrel := hslots hne (fields_slot hkey) rfl
  have hfields := forall₂_of_rel hrel
  have htrees : fieldTrees kind t = (member? kind key t).elim [] Tree.items := by
    simp only [fieldTrees, hkey]
  refine ⟨name, marked, written, rfl, ?_⟩
  rw [htrees]
  cases kind with
  | record | union | function | callback =>
    obtain rfl := Except.ok.inj hshape
    exact ⟨rfl, hfields⟩
  | _ => cases hkey

/-- A count that is read from a number is its integer. -/
theorem decodeCount_number {n : Except Break Number} {c : Count}
    (h : decodeCount depth (.number n) = .ok c) :
    ∃ k : Nat, n = .ok (.integer k) ∧ c = .fixed k := by
  obtain ⟨v, hv, h⟩ := bind_eq_ok.1 h
  obtain ⟨x, rfl, rfl⟩ := read_number hv
  cases x with
  | integer m =>
    dsimp only at h
    split at h
    · rename_i hm
      obtain rfl := Except.ok.inj h
      exact ⟨m.toNat, by rw [Int.toNat_of_nonneg hm.1], rfl⟩
    · cases h
  | float x => cases h

/-- A field whose count is a number. -/
theorem count_of_tree {f : DraftField} {n : Except Break Number} (h : decodeField depth t = .ok f)
    (hcount : fieldRecord.member? "count" t = some (.number n)) :
    ∃ k : Nat, n = .ok (.integer k) ∧ f.count = some (.fixed k) := by
  obtain ⟨r, hread, h⟩ := bind_eq_ok.1 h
  obtain ⟨name, -, h⟩ := bind_eq_ok.1 h
  obtain ⟨typeId, -, h⟩ := bind_eq_ok.1 h
  obtain rfl := Except.ok.inj h
  have hrel := count_slot.rel_of_read rfl hread
  rw [hcount] at hrel
  obtain ⟨c, hr, hread⟩ := exists_of_rel hrel
  obtain ⟨c, hdecode, rfl⟩ := map_eq_ok.1 hread
  obtain ⟨k, rfl, rfl⟩ := decodeCount_number hdecode
  exact ⟨k, rfl, by rw [hr]; rfl⟩

end Draft

/-- A line of some lines that stand in a source stands there. -/
theorem StandsIn.line {lines : List String} {line source : String} (h : StandsIn lines source)
    (hline : line ∈ lines) : StandsIn [line] source := by
  obtain ⟨all, hsource, hsub⟩ := h
  exact ⟨all, hsource, (List.singleton_sublist.2 hline).trans hsub⟩

section Declarations

variable {api : Api} {cfg : Config} {m : Module} {source id key : String} {full : Name}
  {shape : Shape} {v : Number} {members : Keyed Value}

theorem forall₂_imp_of_mem {α β : Type} {R S : α → β → Prop} {as : List α} {bs : List β}
    (h : List.Forall₂ R as bs) (hRS : ∀ a b, b ∈ bs → R a b → S a b) : List.Forall₂ S as bs := by
  have hmem := (List.forall₂_and_left bs as).2 ⟨fun b hb => hb, h.flip⟩
  exact hmem.flip.imp fun a b hab => hRS a b hab.1 hab.2

theorem mem_zipWith_of_forall₂ {α β γ : Type} {R : α → β → Prop} {as : List α} {bs : List β}
    (h : List.Forall₂ R as bs) (f : α → β → γ) {a : α} (ha : a ∈ as) :
    ∃ b, R a b ∧ f a b ∈ List.zipWith f as bs := by
  induction h with
  | nil => cases ha
  | cons hab _ ih =>
    rcases List.mem_cons.1 ha with rfl | ha
    · exact ⟨_, hab, .head _⟩
    · obtain ⟨b, hR, hmem⟩ := ih ha
      exact ⟨b, hR, .tail _ hmem⟩

/-- The line of a case that is given by a number. -/
theorem standsIn_case (hget : members.get? key = some (.number v))
    (hshape : (DraftShape.enumeration members).toShape id = .ok shape)
    (h : api.Emits cfg m source (.declared id full shape)) :
    ∃ n ident, v = .integer n ∧ caseIdent id full (.new key) = .ok ident ∧
      StandsIn ["  " ++ ident ++ " = " ++ toString n ++ ","] source := by
  obtain ⟨cases, hcases, rfl⟩ := map_eq_ok.1 hshape
  obtain ⟨c, hc, hmade⟩ :=
    exists_of_forall₂_left (forall₂_of_eachMember hcases) (Keyed.mem_of_get? hget)
  obtain ⟨n, hv, rfl⟩ := Case.ofMember_eq_ok hmade
  obtain ⟨idents, hidents, hcode⟩ := Setting.code_enumeration h.sound
  obtain ⟨ident, hident, hline⟩ := mem_zipWith_of_forall₂ hidents Case.line hc
  have hstands := h.code
  rw [hcode] at hstands
  exact ⟨n, ident, Value.number.inj hv, hident,
    hstands.line (List.mem_append_left _ (List.mem_append_right _ hline))⟩

/-- The line of a bit that is given by a number. -/
theorem standsIn_flag (hget : members.get? key = some (.number v))
    (hshape : (DraftShape.bitField members).toShape id = .ok shape)
    (h : api.Emits cfg m source (.declared id full shape)) :
    ∃ n : Int, v = .integer n ∧ StandsIn
      ["  const " ++ (Name.new key).bitIdent ++ " = 1 << " ++ toString n ++ ";"] source := by
  obtain ⟨bits, hbits, rfl⟩ := map_eq_ok.1 hshape
  obtain ⟨b, hb, hmade⟩ :=
    exists_of_forall₂_left (forall₂_of_eachMember hbits) (Keyed.mem_of_get? hget)
  obtain ⟨n, hv, rfl⟩ := Flag.ofMember_eq_ok hmade
  have hstands := h.code
  rw [Setting.code_bitField] at hstands
  have hline := List.mem_map_of_mem (f := fun b : Flag => b.line b.name.bitIdent) hb
  exact ⟨n, Value.number.inj hv,
    hstands.line (List.mem_append_left _ (List.mem_append_right _ hline))⟩

end Declarations

/-- A field that its declaration keeps. A parameter that stands for the result is none. -/
def DraftField.Kept (kind : Kind) (f : DraftField) : Prop :=
  kind = .function ∨ kind = .callback → f.name ≠ resultName

theorem DraftField.Kept.mem_fields {written : DraftShape} {shape : Shape} {id : String}
    {f : DraftField} (hshape : written.toShape id = .ok shape) (hf : f ∈ written.fields)
    (hkept : f.Kept written.kind) : f.toField ∈ shape.fields := by
  -- a signature has the parameters without the result
  have hparams : ∀ {params : List DraftField}, f ∈ params → f.name ≠ resultName →
      f.toField ∈ (Signature.ofParams params).params := fun hmem hne =>
    List.mem_map_of_mem (List.mem_filter.2 ⟨hmem, decide_eq_true hne⟩)
  cases written with
  | record | union =>
    obtain rfl := Except.ok.inj hshape
    exact List.mem_map_of_mem hf
  | function =>
    obtain rfl := Except.ok.inj hshape
    exact hparams hf (hkept (.inl rfl))
  | callback =>
    obtain rfl := Except.ok.inj hshape
    exact hparams hf (hkept (.inr rfl))
  | _ => cases hf

namespace Api

variable {table : BuiltinTable} {text : String} {api : Api} {d : Draft} {dm : DraftModule}
  {depth : Nat} {t : Tree} {a : DraftEntry} {l : Literal}

/-- **A length that is kept**: the count of a field, which stands in each source of the document
with a declaration that shows the field as an array. -/
structure KeepsLength (api : Api) (d : Draft) (f : DraftField) (n : Nat) : Prop where
  count : f.count = some (.fixed n)
  written : f.toField.isPointer = false → ∀ cfg dm source, api.Writes cfg d dm source →
    ∀ id ∈ dm.toModule.declares, ∀ e, api.registry.find? id = some e →
      e.Shows api.registry f.toField → ∃ type, Occurs (f.toField.arrayText type n) source

/-- **What sources keep of an integer literal** where it stands in a declaration: as the value of a
constant, as the value of a case, as the index of a bit, or as the length of a field. -/
structure Carries (api : Api) (d : Draft) (dm : DraftModule) (l : Literal) (t : Tree)
    (a : DraftEntry) : Prop where
  constant : Draft.tag? t = some Kind.definition.tag →
    Draft.member? .definition "value" t = some (.number l.value) →
    ∃ name marked v, a = .declared name marked (.definition (.number v)) ∧ l.value = .ok v ∧
      (v.text = toString l.integer ↔ l.Exact) ∧
      ∀ cfg source, api.Writes cfg d dm source →
        StandsIn ["pub const " ++ (entryName api.lead name marked).constIdent ++ ": u32 = " ++
          v.text ++ ";"] source
  case : Draft.tag? t = some Kind.enumeration.tag → ∀ cases key,
    Draft.member? .enumeration "cases" t = some cases → cases.value? key = some (.number l.value) →
    ∃ name marked members, a = .declared name marked (.enumeration members) ∧
      ∀ cfg source, api.Writes cfg d dm source → ∃ ident,
        caseIdent (Kind.enumeration.idOf name) (entryName api.lead name marked) (.new key) =
          .ok ident ∧
        StandsIn ["  " ++ ident ++ " = " ++ toString l.integer ++ ","] source
  bit : Draft.tag? t = some Kind.bitField.tag → ∀ bits key,
    Draft.member? .bitField "bits" t = some bits → bits.value? key = some (.number l.value) →
    ∃ name marked members, a = .declared name marked (.bitField members) ∧
      ∀ cfg source, api.Writes cfg d dm source →
        StandsIn ["  const " ++ (Name.new key).bitIdent ++ " = 1 << " ++ toString l.integer ++ ";"]
          source
  length : ∀ kind key, Draft.tag? t = some kind.tag → Draft.fieldsName? kind = some key →
    ∃ name marked written shape, a = .declared name marked written ∧ shape.kind = kind ∧
      api.registry.find? (kind.idOf name) =
        some (.declared (kind.idOf name) (entryName api.lead name marked) shape) ∧
      List.Forall₂ (fun ft f => (f.Kept kind → f.toField ∈ shape.fields) ∧
          (Draft.fieldRecord.member? "count" ft = some (.number l.value) →
            ∃ n : Nat, (n : Int) = l.integer ∧ api.KeepsLength d f n))
        (Draft.fieldTrees kind t) written.fields

theorem keepsLength {f : DraftField} {n : Nat} (hcount : f.count = some (.fixed n)) :
    api.KeepsLength d f n where
  count := hcount
  written hplain _ _ _ hw _ hid _ he hshows :=
    occurs_of_shows (emits_of_declares hw.result hid he) hshows ⟨hcount, hplain⟩

/-- **Integer literals of one declaration.** -/
theorem carries (h : Api.ofText table text = .ok api) (hd : Draft.ofText text = .ok d)
    (hl : l.Integral) (hdm : dm ∈ d.modules) (ha : a ∈ dm.entries)
    (hread : Draft.decodeEntry depth t = .ok a) : api.Carries d dm l t a where
  constant htag hvalue := by
    obtain ⟨name, marked, v, hv, rfl⟩ := Draft.definition_of_tree hread htag hvalue
    refine ⟨name, marked, v, rfl, hv, Literal.text_eq_iff hl hv, fun cfg source hw => ?_⟩
    obtain ⟨shape, hshape, hemits⟩ := emits_of_writes h hd hw ha
    exact (definition_fits_iff hshape hemits).1
  case htag cases key hcases hkey := by
    obtain ⟨name, marked, members, v, hv, rfl, hget⟩ :=
      Draft.enumeration_of_tree hread htag hcases hkey
    refine ⟨name, marked, members, rfl, fun cfg source hw => ?_⟩
    obtain ⟨shape, hshape, hemits⟩ := emits_of_writes h hd hw ha
    obtain ⟨n, ident, rfl, hident, hline⟩ := standsIn_case hget hshape hemits
    -- the case was read from an integer, which is that of the literal
    obtain rfl := Literal.integer_eq hl hv
    exact ⟨ident, hident, hline⟩
  bit htag bits key hbits hkey := by
    obtain ⟨name, marked, members, v, hv, rfl, hget⟩ := Draft.bitField_of_tree hread htag hbits hkey
    refine ⟨name, marked, members, rfl, fun cfg source hw => ?_⟩
    obtain ⟨shape, hshape, hemits⟩ := emits_of_writes h hd hw ha
    obtain ⟨n, rfl, hline⟩ := standsIn_flag hget hshape hemits
    obtain rfl := Literal.integer_eq hl hv
    exact hline
  length kind key htag hkey := by
    obtain ⟨name, marked, written, rfl, rfl, hfields⟩ := Draft.fields_of_tree hread htag hkey
    obtain ⟨shape, hshape, hfound⟩ := find?_of_declared h hd (List.mem_flatMap.2 ⟨dm, hdm, ha⟩)
    refine ⟨name, marked, written, shape, rfl, kind_of_toShape hshape, hfound, ?_⟩
    refine forall₂_imp_of_mem hfields fun ft f hf hft => ?_
    refine ⟨fun hkept => hkept.mem_fields hshape hf, fun hcount => ?_⟩
    obtain ⟨n, hn, hlength⟩ := Draft.count_of_tree hft hcount
    exact ⟨n, Literal.integer_eq hl hn, keepsLength hlength⟩

end Api

/-- **Integers of a document in its sources.** The numbers in the tree of a text are those of the
literals that stand in the text. Where an integer literal stands in the tree of a document that can
be loaded, it is written as its integer: as the value of a case, as the index of a bit and as the
length of an array, in each source with the declaration. As a constant it is so exactly if its
integer has 64 bits and it is not minus zero; otherwise the source has the text of the double that
was read. -/
theorem integers_carried {table : BuiltinTable} {text : String} {api : Api}
    (h : Api.ofText table text = .ok api) : ∃ d, Draft.ofText text = .ok d ∧
      (∀ n, Tree.Inside (.number n) (readText text).tree →
        ∃ l : Literal, l.In text.toList ∧ n = l.value) ∧
      ∀ l : Literal, l.Integral → List.Forall₂
        (fun mt dm => List.Forall₂ (api.Carries d dm l) (Draft.declarationTrees mt) dm.entries)
        (Draft.moduleTrees (readText text).tree) d.modules := by
  obtain ⟨d, hd, -⟩ := toApi_of_ofText h
  refine ⟨d, hd, fun n => exists_literal_of_inside, fun l hl => ?_⟩
  refine forall₂_imp_of_mem (Draft.forall₂_of_ofText hd) fun mt dm hdm hread => ?_
  refine forall₂_imp_of_mem (Draft.forall₂_of_decodeModule hread) fun t a ha hentry => ?_
  exact Api.carries h hd hl hdm ha hentry

/-- A text with an integer literal in each place. -/
def smallText : String :=
  "[\"ti\",[[\"taichi/a.h\",false,[],[[\"definition\",\"x\",7],"
    ++ "[\"enumeration\",\"e\",\x7b\"a\":-1\x7d],[\"bit_field\",\"b\",\x7b\"top\":31\x7d],"
    ++ "[\"structure\",\"s\",[[\"v\",\"bit_field.b\",false,false,4]]]]]]]"

/-- An integer literal, by its sign and digits. -/
def Json.Literal.ofDigits (negative : Bool) (digits : List Char) : Literal :=
  ⟨negative, digits, none, none⟩

theorem Json.Literal.integral_ofDigits (negative : Bool) (digits : List Char) :
    (Literal.ofDigits negative digits).Integral :=
  ⟨rfl, rfl⟩

/-- The declarations in `smallText`. -/
def smallTrees : List Json.Tree :=
  [.array [.string (.ok "definition"), .string (.ok "x"),
      .number (Literal.ofDigits false ['7']).value] none,
    .array [.string (.ok "enumeration"), .string (.ok "e"),
      .object [(.ok "a", .number (Literal.ofDigits true ['1']).value)] none] none,
    .array [.string (.ok "bit_field"), .string (.ok "b"),
      .object [(.ok "top", .number (Literal.ofDigits false ['3', '1']).value)] none] none,
    .array [.string (.ok "structure"), .string (.ok "s"),
      .array [.array [.string (.ok "v"), .string (.ok "bit_field.b"), .boolean false,
        .boolean false, .number (Literal.ofDigits false ['4']).value] none] none] none]

theorem readText_small : readText smallText = ⟨.array [.string (.ok "ti"),
    .array [.array [.string (.ok "taichi/a.h"), .boolean false, .array [] none,
      .array smallTrees none] none] none] none, true⟩ := by
  cbv

/-- The declarations that are read from `smallTrees`. -/
def smallEntries : List DraftEntry :=
  [.declared "x" false (.definition (.number (.integer 7))),
    .declared "e" false (.enumeration [("a", .number (.integer (-1)))]),
    .declared "b" false (.bitField [("top", .number (.integer 31))]),
    .declared "s" false (.record [⟨"v", "bit_field.b", false, false, some (.fixed 4)⟩])]

/-- The module of the document in `smallText`. -/
def smallDraftModule : DraftModule :=
  ⟨"taichi/a.h", false, [], smallEntries, none⟩

theorem draft_small : Draft.ofText smallText = .ok ⟨some "ti", [smallDraftModule]⟩ := by
  unfold Draft.ofText decode
  rw [readText_small]
  cbv

/-- The module in `smallText`. -/
def smallModule : Module :=
  ⟨"taichi/a.h", false, [], ["definition.x", "enumeration.e", "bit_field.b", "structure.s"], none⟩

/-- The interface in `smallText`. -/
def smallApi : Api where
  lead := some "ti"
  registry :=
    ⟨[.declared "definition.x" (.withPrefix "ti" "x") (.definition "7"),
      .declared "enumeration.e" (.withPrefix "ti" "e") (.enumeration [⟨.new "a", -1⟩]),
      .declared "bit_field.b" (.withPrefix "ti" "b") (.bitField [⟨.new "top", 31⟩]),
      .declared "structure.s" (.withPrefix "ti" "s")
        (.record [⟨.new "v", "bit_field.b", false, false, some (.fixed 4)⟩])], by decide⟩
  modules := [smallModule]

theorem ofText_small : Api.ofText .empty smallText = .ok smallApi := by
  unfold Api.ofText
  rw [draft_small]
  cbv

theorem writes_small : ∃ source, smallApi.Writes .default ⟨some "ti", [smallDraftModule]⟩
    smallDraftModule source := by
  have hrun : (smallApi.generateModule .default smallModule).result.map Option.isSome =
      .ok true := by
    decide +kernel
  obtain ⟨source?, hresult, hsome⟩ := map_eq_ok.1 hrun
  obtain ⟨source, rfl⟩ := Option.isSome_iff_exists.1 hsome
  exact ⟨source, .head _, hresult⟩

/-- In `smallText` every integer is written as it stands there. -/
theorem integers_carried_small : Api.ofText .empty smallText = .ok smallApi ∧
    ∃ source, (smallApi.generateModule .default smallModule).result = .ok (some source) ∧
      StandsIn ["pub const TI_X: u32 = 7;"] source ∧ StandsIn ["  A = -1,"] source ∧
      StandsIn ["  const TOP_BIT = 1 << 31;"] source ∧
      ∃ type, Occurs ("v" ++ ": [" ++ type ++ "; " ++ "4" ++ "]") source := by
  obtain ⟨d, hd, -, hall⟩ := integers_carried ofText_small
  obtain rfl := Except.ok.inj (draft_small.symm.trans hd)
  rw [readText_small] at hall
  obtain ⟨source, hw⟩ := writes_small
  have hcarries : ∀ l : Literal, l.Integral → List.Forall₂
      (smallApi.Carries ⟨some "ti", [smallDraftModule]⟩ smallDraftModule l) smallTrees
      smallEntries := fun l hl => (List.forall₂_cons.1 (hall l hl)).1
  refine ⟨ofText_small, source, hw.result, ?_, ?_, ?_, ?_⟩
  · have hl := hcarries _ (Literal.integral_ofDigits false ['7'])
    obtain ⟨name, marked, v, ha, -, -, hline⟩ := (List.forall₂_cons.1 hl).1.constant rfl rfl
    cases ha
    exact hline _ _ hw
  · have hl := hcarries _ (Literal.integral_ofDigits true ['1'])
    obtain ⟨name, marked, members, ha, hline⟩ :=
      (List.forall₂_cons.1 (List.forall₂_cons.1 hl).2).1.case rfl _ "a" rfl rfl
    cases ha
    obtain ⟨ident, hident, hline⟩ := hline _ _ hw
    have hname : caseIdent (Kind.enumeration.idOf "e") (entryName smallApi.lead "e" false)
        (.new "a") = .ok "A" := by
      cbv
    obtain rfl := Except.ok.inj (hname.symm.trans hident)
    exact hline
  · have hl := hcarries _ (Literal.integral_ofDigits false ['3', '1'])
    obtain ⟨name, marked, members, ha, hline⟩ :=
      (List.forall₂_cons.1 (List.forall₂_cons.1 (List.forall₂_cons.1 hl).2).2).1.bit rfl _ "top" rfl
        rfl
    exact hline _ _ hw
  · have hl := hcarries _ (Literal.integral_ofDigits false ['4'])
    obtain ⟨name, marked, written, shape, ha, hkind, hfound, hfields⟩ := (List.forall₂_cons.1
      (List.forall₂_cons.1 (List.forall₂_cons.1 (List.forall₂_cons.1 hl).2).2).2).1.length .record
        "fields" rfl rfl
    cases ha
    obtain ⟨hfield, hcount⟩ := (List.forall₂_cons.1 hfields).1
    obtain ⟨n, hn, hkeeps⟩ := hcount rfl
    obtain rfl : n = 4 := Int.ofNat.inj hn
    have hdeclared : shape.kind ≠ .callback := by
      rw [hkind]
      decide
    have hmem := hfield (by simp [DraftField.Kept])
    obtain ⟨type, hocc⟩ := hkeeps.written rfl _ _ _ hw _ (by decide) _ hfound
      ⟨hdeclared, .inl hmem⟩
    have hname : Policy.fieldName (Name.new "v").display = "v" := by
      cbv
    rw [Field.arrayText, DraftField.toField, hname] at hocc
    exact ⟨type, hocc⟩

/-- A text with a constant that has more than 64 bits. -/
def wideText : String :=
  "[\"ti\",[[\"taichi/a.h\",false,[],[[\"definition\",\"x\",18446744073709551616]]]]]"

/-- The integer in `wideText`, two to the power 64. -/
def wideLiteral : Literal :=
  .ofDigits false "18446744073709551616".toList

/-- The module in `wideText`. -/
def wideModule : Module :=
  ⟨"taichi/a.h", false, [], ["definition.x"], none⟩

/-- The interface in `wideText`. -/
def wideApi : Api where
  lead := some "ti"
  registry :=
    ⟨[.declared "definition.x" (.withPrefix "ti" "x") (.definition "1.8446744073709552e+19")],
      by decide⟩
  modules := [wideModule]

-- the double is too large for `cbv`: what follows is compared in the kernel, part by part
theorem ofText_wide : Api.ofText .empty wideText = .ok wideApi := by
  have hparts : (Api.ofText .empty wideText).map
      (fun api => (api.lead, api.registry.entries, api.modules)) =
        .ok (wideApi.lead, wideApi.registry.entries, wideApi.modules) := by
    decide +kernel
  obtain ⟨⟨lead, ⟨entries, hentries⟩, modules⟩, hapi, hparts⟩ := map_eq_ok.1 hparts
  obtain ⟨rfl, rfl, rfl⟩ : lead = _ ∧ entries = _ ∧ modules = _ := by simpa using hparts
  exact hapi

/-- Whether a tree is a given number. -/
def Json.Tree.isNumber (n : Except Break Number) : Tree → Bool
  | .number m => decide (m = n)
  | _ => false

theorem Json.Tree.isNumber_iff {n : Except Break Number} {t : Tree} :
    t.isNumber n = true ↔ t = .number n := by
  cases t <;> simp [isNumber]

theorem place_wide : ∃ mt ∈ Draft.moduleTrees (readText wideText).tree,
    ∃ t ∈ Draft.declarationTrees mt, Draft.tag? t = some Kind.definition.tag ∧
      Draft.member? .definition "value" t = some (.number wideLiteral.value) := by
  have hplace : ((Draft.moduleTrees (readText wideText).tree).any fun mt =>
      (Draft.declarationTrees mt).any fun t =>
        decide (Draft.tag? t = some Kind.definition.tag) &&
          (Draft.member? .definition "value" t).any (·.isNumber wideLiteral.value)) = true := by
    decide +kernel
  simp only [List.any_eq_true, Bool.and_eq_true, decide_eq_true_eq, Option.any_eq_true,
    Tree.isNumber_iff] at hplace
  obtain ⟨mt, hmt, t, ht, htag, value, hvalue, rfl⟩ := hplace
  exact ⟨mt, hmt, t, ht, htag, hvalue⟩

theorem source_wide : ∃ source,
    (wideApi.generateModule .default wideModule).result = .ok (some source) ∧
      ¬ Occurs (toString wideLiteral.integer) source := by
  have hrun : (wideApi.generateModule .default wideModule).result.map
      (·.map fun source => decide (Occurs (toString wideLiteral.integer) source)) =
        .ok (some false) := by
    decide +kernel
  obtain ⟨source?, hresult, hfound⟩ := map_eq_ok.1 hrun
  obtain ⟨source, rfl, hnot⟩ := Option.map_eq_some_iff.1 hfound
  exact ⟨source, hresult, of_decide_eq_false hnot⟩

/-- **A constant need not keep its integer**: two to the power 64 is written as a double. -/
theorem constant_loses_integer :
    ¬ ∀ (table : BuiltinTable) (text : String) (api : Api), Api.ofText table text = .ok api →
      ∀ d, Draft.ofText text = .ok d → ∀ l : Literal, l.Integral →
        List.Forall₂ (fun mt dm => List.Forall₂
          (fun t _ => Draft.tag? t = some Kind.definition.tag →
            Draft.member? .definition "value" t = some (.number l.value) →
              ∀ cfg source, api.Writes cfg d dm source → Occurs (toString l.integer) source)
          (Draft.declarationTrees mt) dm.entries)
          (Draft.moduleTrees (readText text).tree) d.modules := by
  intro hall
  obtain ⟨d, hd, hapi⟩ := toApi_of_ofText ofText_wide
  obtain ⟨-, hmodules, -⟩ := takes_toApi hapi
  obtain ⟨mt, hmt, t, ht, htag, hvalue⟩ := place_wide
  obtain ⟨source, hsource, hnot⟩ := source_wide
  have hintegral := Literal.integral_ofDigits false "18446744073709551616".toList
  obtain ⟨dm, hdm, hentries⟩ :=
    exists_of_forall₂_left (hall _ _ _ ofText_wide d hd wideLiteral hintegral) hmt
  obtain ⟨a, ha, hkept⟩ := exists_of_forall₂_left hentries ht
  have hmodule : dm.toModule ∈ wideApi.modules := hmodules ▸ List.mem_map_of_mem hdm
  have hsource' : (wideApi.generateModule .default dm.toModule).result = .ok (some source) := by
    rw [List.mem_singleton.1 hmodule]
    exact hsource
  exact hnot (hkept htag hvalue _ _ ⟨hdm, hsource'⟩)

end Bindery

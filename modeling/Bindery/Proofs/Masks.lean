import Bindery.Proofs.MemberValues

/-!
# Masks of flags

A bit field is written as constants that shift a one, and its sets are the unions of such constants.
Two flags with one index would be one flag, and an index of 32 would shift the one out of the
number. Loading refuses both.

* `Flag.mask`, `Flag.union`: the constant of a flag, and the number that stands for a set of flags.
* `Flag.Fits`: lists of flags with different indices within 32 bits.
* `getLsbD_union`: the bits of a union are the indices of its flags.
* `mem_iff_union_and_mask`: so **a union tells which flags are in its set**.
* `Flag.SpelledIn`: a flag that a member of a document spells.
* `loaded_masks`: **the flags of a loaded bit field have masks without a common bit**.
-/

namespace Bindery

namespace Flag

/-- The constant of a flag: a one, shifted within 32 bits. -/
def mask (b : Flag) : BitVec 32 :=
  1#32 <<< b.index

/-- The number that stands for a set of flags. -/
def union (s : Finset Flag) : BitVec 32 :=
  s.fold (· ||| ·) 0#32 mask

variable {b c : Flag}

theorem mask_eq (b : Flag) : b.mask = BitVec.twoPow 32 b.index :=
  (BitVec.twoPow_eq 32 b.index).symm

/-- The constant of a flag that fits is the power of two that the shift is meant to be. -/
theorem toNat_mask (hb : b.index ≤ 31) : b.mask.toNat = 2 ^ b.index := by
  rw [mask_eq, BitVec.toNat_twoPow_of_lt (Nat.lt_succ_of_le hb)]

theorem getLsbD_mask (b : Flag) {k : Nat} (hk : k < 32) :
    b.mask.getLsbD k = true ↔ b.index = k := by
  rw [mask_eq, BitVec.getLsbD_twoPow, Bool.and_eq_true, decide_eq_true_iff, decide_eq_true_iff]
  exact ⟨fun h => h.2, fun h => ⟨h ▸ hk, h⟩⟩

theorem mask_ne_zero (hb : b.index ≤ 31) : b.mask ≠ 0#32 := by
  intro hzero
  have hbit := (getLsbD_mask b (Nat.lt_succ_of_le hb)).2 rfl
  rw [hzero, BitVec.getLsbD_zero] at hbit
  cases hbit

/-- What a number has in common with the constant of a flag is that constant or nothing. -/
theorem and_mask_eq_zero_iff {x : BitVec 32} (hb : b.index ≤ 31) :
    x &&& b.mask = 0#32 ↔ x.getLsbD b.index = false := by
  have hne := mask_ne_zero hb
  rw [mask_eq] at hne
  rw [mask_eq, BitVec.and_twoPow]
  rcases x.getLsbD b.index with _ | _ <;> simp [hne]

/-- Flags with different indices have no bit in common. -/
theorem mask_and_mask (hc : c.index ≤ 31) (hne : b.index ≠ c.index) : b.mask &&& c.mask = 0#32 := by
  rw [and_mask_eq_zero_iff hc, ← Bool.not_eq_true, getLsbD_mask b (Nat.lt_succ_of_le hc)]
  exact hne

/-- **The bits of a union** are the indices of its flags. -/
theorem getLsbD_union (s : Finset Flag) {k : Nat} (hk : k < 32) :
    (union s).getLsbD k = true ↔ ∃ b ∈ s, b.index = k := by
  induction s using Finset.induction_on with
  | empty => simp [union]
  | insert b s hb ih =>
    have hunion : union (insert b s) = b.mask ||| union s := Finset.fold_insert hb
    rw [hunion, BitVec.getLsbD_or, Bool.or_eq_true, getLsbD_mask b hk, ih,
      Finset.exists_mem_insert]

/-- **Flags that fit**: their indices are different and within 32 bits. -/
structure Fits (bits : List Flag) : Prop where
  distinct : (bits.map Flag.index).Nodup
  low : ∀ b ∈ bits, b.index ≤ 31

namespace Fits

variable {bits : List Flag} {s t : Finset Flag} (h : Fits bits)
include h

theorem eq_of_index (hb : b ∈ bits) (hc : c ∈ bits) (hindex : b.index = c.index) : b = c :=
  List.inj_on_of_nodup_map h.distinct hb hc hindex

/-- No two flags at different places have a bit in common. -/
theorem pairwise_and : bits.Pairwise fun b c => b.mask &&& c.mask = 0#32 := by
  refine List.Pairwise.imp_of_mem (fun {b c} _ hc hne => ?_) (List.pairwise_map.1 h.distinct)
  exact mask_and_mask (h.low c hc) hne

/-- **A union tells which flags are in its set.** -/
theorem mem_iff_union_and_mask (hs : ∀ b ∈ s, b ∈ bits) (hb : b ∈ bits) :
    b ∈ s ↔ union s &&& b.mask ≠ 0#32 := by
  have hlow := h.low b hb
  rw [ne_eq, and_mask_eq_zero_iff hlow, Bool.not_eq_false, getLsbD_union s (Nat.lt_succ_of_le hlow)]
  constructor
  · exact fun hmem => ⟨b, hmem, rfl⟩
  · rintro ⟨c, hc, hindex⟩
    -- a flag of the set that has this index can only be the same flag
    exact h.eq_of_index (hs c hc) hb hindex ▸ hc

/-- Different sets of flags have different unions. -/
theorem eq_of_union_eq (hs : ∀ b ∈ s, b ∈ bits) (ht : ∀ b ∈ t, b ∈ bits)
    (heq : union s = union t) : s = t := by
  ext b
  constructor
  · intro hb
    rwa [h.mem_iff_union_and_mask ht (hs b hb), ← heq, ← h.mem_iff_union_and_mask hs (hs b hb)]
  · intro hb
    rwa [h.mem_iff_union_and_mask hs (ht b hb), heq, ← h.mem_iff_union_and_mask ht (ht b hb)]

end Fits

end Flag

/-- **A flag that a member spells**: the name is that of the member, and the decimal text of the
index is that of an integer literal in the text of the document. -/
structure Flag.SpelledIn (text : String) (member : String × Json.Value) (b : Flag) : Prop where
  name : b.name = .new member.1
  value : member.2 = .number (.integer b.index)
  literal : ∃ l : Json.Literal, l.In text.toList ∧ l.value = .ok (.integer b.index) ∧
    (toString b.index).toList = l.spelling

section Loaded

variable {table : BuiltinTable} {text : String} {api : Api} {id : String} {full : Name}
  {bits : List Flag}

/-- Validation leaves only flags that fit. -/
theorem Flag.fits_of_loaded (h : Api.ofText table text = .ok api)
    (he : .declared id full (.bitField bits) ∈ api.registry.entries) : Fits bits := by
  have hshape : Shape.Consistent api.registry (.bitField bits) :=
    (consistent_of_ofText h).entries _ he
  exact ⟨hshape.bits, hshape.fits⟩

/-- The flags of a bit field are spelled by the members of its declaration, in their order. -/
theorem Flag.spelled_of_made {d : Draft} {name : String} {marked : Bool} {written : DraftShape}
    (hd : Draft.ofText text = .ok d) (ha : .declared name marked written ∈ d.declarations)
    (hshape : written.toShape id = .ok (.bitField bits)) :
    ∃ members, written = .bitField members ∧ List.Forall₂ (Flag.SpelledIn text) members bits := by
  have hkind := kind_of_toShape hshape
  cases written with
  | bitField members =>
    obtain ⟨bits', heach, hbits⟩ := map_eq_ok.1 hshape
    obtain rfl := Shape.bitField.inj hbits
    -- the literal of a bit is that of its member, so the members are what is gone through
    refine ⟨members, rfl, (forall₂_imp_of_mem (forall₂_of_eachMember heach).flip ?_).flip⟩
    intro b member hmember hone
    obtain ⟨n, hvalue, rfl⟩ := Flag.ofMember_eq_ok hone
    have hmem : (member.1, .number (.integer (n : Int))) ∈ members := hvalue ▸ hmember
    obtain ⟨-, l, hl, hliteral, hspelling⟩ := integer_of_member hd ha hmem
    exact ⟨rfl, hvalue, l, hl, hliteral, hspelling⟩
  | _ => cases hkind

/-- The lines of the flags are code of the bit field, in every source that declares it. -/
theorem flags_standIn {cfg : Config} {m : Module} {source : String}
    (he : .declared id full (.bitField bits) ∈ api.registry.entries)
    (hsource : (api.generateModule cfg m).result = .ok (some source)) (hid : id ∈ m.declares) :
    StandsIn (bits.map fun b => b.line b.name.bitIdent) source := by
  obtain ⟨all, hall, hsub⟩ := (Api.emits_of_declares hsource hid (find?_of_mem he)).code
  rw [Setting.code_bitField] at hsub
  refine ⟨all, hall, List.Sublist.trans ?_ hsub⟩
  exact (List.sublist_append_right _ _).trans (List.sublist_append_left _ _)

/-- **The flags of a loaded bit field have masks without a common bit.** Each bit field of the
interface is one of the document, with flags as the members spell them, in their order. Its
declaration never fails: it has a line for each flag, in this order, in which a one is shifted by
the index, and these lines stand in every source that declares it. In 32 bits the constant of a flag
is the power of two, which is not zero; two flags have no bit in common, and different sets of flags
have different unions. -/
theorem loaded_masks (h : Api.ofText table text = .ok api) :
    ∃ d, Draft.ofText text = .ok d ∧
      ∀ id full bits, .declared id full (.bitField bits) ∈ api.registry.entries →
        (∃ name marked members, .declared name marked (.bitField members) ∈ d.declarations ∧
          id = Kind.bitField.idOf name ∧ full = entryName api.lead name marked ∧
          List.Forall₂ (Flag.SpelledIn text) members bits) ∧
        (∀ s : Setting, ∃ lines,
          (s.declare (.declared id full (.bitField bits))).result = .ok lines ∧
          (s.declare (.declared id full (.bitField bits))).code.Sublist lines ∧
          (s.declare (.declared id full (.bitField bits))).code =
            ["bitflags! \x7b", transparentLayout,
              "#[derive(Clone, Copy, Debug, PartialEq, Eq, Hash)]",
              "pub struct " ++ full.flagsIdent ++ ": u32 \x7b"] ++
            bits.map (fun b =>
              "  const " ++ b.name.bitIdent ++ " = 1 << " ++ toString b.index ++ ";") ++
            ["\x7d", "\x7d"]) ∧
        (∀ cfg m source, (api.generateModule cfg m).result = .ok (some source) → id ∈ m.declares →
          StandsIn (bits.map fun b =>
            "  const " ++ b.name.bitIdent ++ " = 1 << " ++ toString b.index ++ ";") source) ∧
        (∀ b ∈ bits, b.mask.toNat = 2 ^ b.index ∧ b.mask ≠ 0#32) ∧
        bits.Pairwise (fun b c => b.mask &&& c.mask = 0#32) ∧
        ∀ s t : Finset Flag, s ⊆ bits.toFinset → t ⊆ bits.toFinset → s ≠ t →
          Flag.union s ≠ Flag.union t := by
  obtain ⟨d, hd, hmade, -⟩ := exists_made h
  refine ⟨d, hd, fun id full bits he =>
    ⟨?spelled, fun s => ?written, ?stands, ?values, ?disjoint, ?sets⟩⟩
  case spelled =>
    obtain ⟨a, ha, hmakes⟩ := hmade _ he (Shape.kind_ne_builtin (.bitField bits))
    cases hmakes with
    | @intro name marked written _ hshape =>
      obtain ⟨members, rfl, hspelled⟩ := Flag.spelled_of_made hd ha hshape
      exact ⟨name, marked, members, ha, rfl, rfl, hspelled⟩
  case written =>
    have hsound := Setting.failures_bitField (s := s) id full bits
    refine ⟨_, Script.result_of_failures_nil hsound, ?_, Setting.code_bitField⟩
    rw [← Script.lines_of_failures_nil hsound]
    exact Script.code_sublist_lines hsound
  case stands =>
    exact fun cfg m source hsource hid => flags_standIn he hsource hid
  case values =>
    intro b hb
    have hlow := (Flag.fits_of_loaded h he).low b hb
    exact ⟨Flag.toNat_mask hlow, Flag.mask_ne_zero hlow⟩
  case disjoint =>
    exact (Flag.fits_of_loaded h he).pairwise_and
  case sets =>
    intro s t hs ht hne heq
    refine hne ((Flag.fits_of_loaded h he).eq_of_union_eq (fun b hb => ?_) (fun b hb => ?_) heq)
    · exact List.mem_toFinset.1 (hs hb)
    · exact List.mem_toFinset.1 (ht hb)

end Loaded

/-- A text with three flags; the first has the highest index. -/
def flaggedText : String :=
  "[\"ti\",[[\"taichi/a.h\",false,[],[[\"bit_field\",\"b\","
    ++ "\x7b\"top\":31,\"low\":0,\"next\":1\x7d]]]]]"

/-- The flags in `flaggedText`. -/
def flaggedBits : List Flag :=
  [⟨.new "top", 31⟩, ⟨.new "low", 0⟩, ⟨.new "next", 1⟩]

/-- The interface in `flaggedText`. -/
def flagged : Api where
  lead := some "ti"
  registry := ⟨[.declared "bit_field.b" (.withPrefix "ti" "b") (.bitField flaggedBits)], by decide⟩
  modules := [⟨"taichi/a.h", false, [], ["bit_field.b"], none⟩]

theorem ofText_flagged : Api.ofText .empty flaggedText = .ok flagged := by
  cbv

/-- In `flaggedText` the highest flag is not lost, and adding either of the others to it makes a
difference. -/
theorem loaded_masks_flagged : Api.ofText .empty flaggedText = .ok flagged ∧
    (∀ s : Setting, ∃ lines, (s.declare (.declared "bit_field.b" (.withPrefix "ti" "b")
        (.bitField flaggedBits))).result = .ok lines) ∧
    (Flag.mask ⟨.new "top", 31⟩).toNat = 0x80000000 ∧
    Flag.union {⟨.new "top", 31⟩, ⟨.new "low", 0⟩} ≠
      Flag.union {⟨.new "top", 31⟩, ⟨.new "next", 1⟩} := by
  obtain ⟨d, -, hall⟩ := loaded_masks ofText_flagged
  obtain ⟨-, hwritten, -, hvalues, -, hsets⟩ := hall _ _ _ (.head _)
  refine ⟨ofText_flagged, fun s => ?_, (hvalues _ (.head _)).1, ?_⟩
  · obtain ⟨lines, hlines, -⟩ := hwritten s
    exact ⟨lines, hlines⟩
  · exact hsets _ _ (by decide) (by decide) (by decide)

end Bindery

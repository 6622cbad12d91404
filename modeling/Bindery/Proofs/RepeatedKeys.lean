import Bindery.Proofs.Carried

/-!
# Keys that are given twice

The cases of an enumeration and the bits of a bit field are written as an object. When it is read, a
key that is given again keeps its place and takes the new value. Only afterwards keys are made into
names, and cases with one name are rejected; bits with one name are not.

* `Keyed.put_of_notMem`, `Keyed.ofList_eq_self_iff`, `Keyed.mem_ofList_of_last`: what is left of
  pairs that are put one after the other.
* `Json.Tree.Holds`: the members of an object, as they are written.
* `KeepsWritten`, `keepsWritten_of_forall₂`: **every written member is kept exactly if no key is
  given twice**.
* `Api.KeepsMembers`: what a loaded document keeps of the members of a declaration.
* `members_kept`: **a document keeps its cases and bits exactly if no key is given twice**;
  `keys_given_twice`: documents that load although a name is.
-/

namespace Bindery

namespace Keyed

variable {α : Type}

/-- A new key goes to the end. -/
theorem put_of_notMem {l : Keyed α} {key : String} {value : α} (h : key ∉ keys l) :
    put l key value = l ++ [(key, value)] := by
  induction l with
  | nil => rfl
  | cons p rest ih =>
    obtain ⟨k, v⟩ := p
    simp only [keys, List.map_cons, List.mem_cons, not_or] at h
    rw [put, if_neg (Ne.symm h.1), ih h.2, List.cons_append]

theorem ofList_concat (ps : List (String × α)) (p : String × α) :
    ofList (ps ++ [p]) = put (ofList ps) p.1 p.2 :=
  List.foldl_concat _ _ _ _

/-- The keys that are left stand in their order, each once. -/
theorem keys_ofList_sublist (ps : List (String × α)) :
    (keys (ofList ps)).Sublist (ps.map Prod.fst) := by
  induction ps using List.reverseRecOn with
  | nil => exact .slnil
  | append_singleton ps p ih =>
    rw [ofList_concat, keys_put, List.map_append, List.map_singleton]
    split
    · exact ih.trans (List.sublist_append_left _ _)
    · exact ih.append_right _

/-- Every key is left. -/
theorem mem_keys_ofList {ps : List (String × α)} {key : String} :
    key ∈ keys (ofList ps) ↔ key ∈ ps.map Prod.fst := by
  induction ps using List.reverseRecOn with
  | nil => rfl
  | append_singleton ps p ih =>
    rw [ofList_concat, keys_put, List.map_append, List.mem_append, List.map_singleton, ← ih,
      List.mem_singleton]
    by_cases hp : p.1 ∈ keys (ofList ps)
    · rw [if_pos hp]
      exact ⟨.inl, fun h => h.elim id fun heq => heq ▸ hp⟩
    · rw [if_neg hp, List.mem_append, List.mem_singleton]

/-- **All pairs are left exactly if no key is given twice.** -/
theorem ofList_eq_self_iff {ps : List (String × α)} :
    ofList ps = ps ↔ (ps.map Prod.fst).Nodup := by
  constructor
  · intro h
    exact h ▸ nodup_keys_ofList ps
  · intro h
    induction ps using List.reverseRecOn with
    | nil => rfl
    | append_singleton ps p ih =>
      rw [List.map_append, List.nodup_append] at h
      obtain ⟨hps, -, hnew⟩ := h
      have hkey : p.1 ∉ keys (ofList ps) := fun hmem =>
        hnew _ ((keys_ofList_sublist ps).subset hmem) p.1 (by simp) rfl
      rw [ofList_concat, put_of_notMem hkey, ih hps]

/-- **The last pair with a key is left.** -/
theorem mem_ofList_of_last {front back : List (String × α)} {key : String} {value : α}
    (h : key ∉ back.map Prod.fst) : (key, value) ∈ ofList (front ++ (key, value) :: back) := by
  suffices hget : get? (ofList (front ++ (key, value) :: back)) key = some value from
    mem_of_get? hget
  induction back using List.reverseRecOn with
  | nil => rw [ofList_concat, get?_put, if_pos rfl]
  | append_singleton back p ih =>
    rw [List.map_append, List.mem_append, not_or, List.map_singleton, List.mem_singleton] at h
    have hsplit : front ++ (key, value) :: (back ++ [p]) =
        (front ++ (key, value) :: back) ++ [p] := by simp
    rw [hsplit, ofList_concat, get?_put, if_neg (Ne.symm h.2), ih h.1]

end Keyed

namespace Json

/-- **The members of an object, as they are written**: their keys with what is read under them. -/
def Tree.Holds (t : Tree) (written : List (String × Value)) : Prop :=
  ∃ ms depth, t = .object ms none ∧
    List.Forall₂ (fun m p => m.1 = .ok p.1 ∧ m.2.read depth = .ok p.2) ms written

theorem forall₂_of_entries {α : Type} {read : Tree → Except Fault α}
    {ms : List (Except Break String × Tree)} {values : List (String × α)}
    (h : Decoder.entries read ms = .ok values) :
    List.Forall₂ (fun m p => m.1 = .ok p.1 ∧ read m.2 = .ok p.2) ms values := by
  induction ms generalizing values with
  | nil =>
    obtain rfl := Except.ok.inj h
    exact .nil
  | cons m rest ih =>
    obtain ⟨key, t⟩ := m
    obtain ⟨k, hk, h⟩ := bind_eq_ok.1 h
    obtain ⟨a, ha, h⟩ := bind_eq_ok.1 h
    obtain ⟨more, hmore, h⟩ := bind_eq_ok.1 h
    obtain rfl := Except.ok.inj h
    exact .cons ⟨literal_eq_ok hk, ha⟩ (ih hmore)

/-- What is read from an object is left of its members. -/
theorem exists_of_keyed {depth : Nat} {t : Tree} {values : Keyed Value}
    (h : Decoder.keyed Tree.read depth t = .ok values) :
    ∃ written, t.Holds written ∧ values = Keyed.ofList written := by
  unfold Decoder.keyed at h
  split at h
  · rename_i ms stop
    obtain ⟨-, -, h⟩ := bind_eq_ok.1 h
    obtain ⟨written, hwritten, h⟩ := bind_eq_ok.1 h
    obtain ⟨_, hclosed, h⟩ := bind_eq_ok.1 h
    obtain rfl := Except.ok.inj h
    obtain rfl := closed_eq_ok hclosed
    exact ⟨written, ⟨ms, _, rfl, forall₂_of_entries hwritten⟩, rfl⟩
  · obtain ⟨found, -, h⟩ := bind_eq_ok.1 h
    cases h

end Json

open Json

/-- A case with the name in a key and the number under it. -/
def Case.Written (p : String × Value) (c : Case) : Prop :=
  c.name = .new p.1 ∧ p.2 = .number (.integer c.value)

/-- A bit with the name in a key and the number under it. -/
def Flag.Written (p : String × Value) (b : Flag) : Prop :=
  b.name = .new p.1 ∧ p.2 = .number (.integer b.index)

/-- **What is kept of written members.** For each key, what was written last is kept, where the key
stands first. So each written member is kept, in order and with its own value, exactly if no key is
given twice. -/
structure KeepsWritten {α : Type} (R : String × Value → α → Prop)
    (written : List (String × Value)) (kept : List α) : Prop where
  merged : List.Forall₂ R (Keyed.ofList written) kept
  last : ∀ front key value back, written = front ++ (key, value) :: back →
    key ∉ back.map Prod.fst → ∃ a ∈ kept, R (key, value) a
  all_iff : List.Forall₂ R written kept ↔ (written.map Prod.fst).Nodup

theorem keepsWritten_of_forall₂ {α : Type} {R : String × Value → α → Prop}
    {written : List (String × Value)} {kept : List α}
    (h : List.Forall₂ R (Keyed.ofList written) kept) : KeepsWritten R written kept where
  merged := h
  last front key value back hwritten hlast := by
    subst hwritten
    exact exists_of_forall₂_left h (Keyed.mem_ofList_of_last hlast)
  all_iff := by
    constructor
    · intro hall
      -- nothing was lost, so that all keys are left
      have hlength :
          (Keyed.keys (Keyed.ofList written)).length = (written.map Prod.fst).length := by
        rw [Keyed.keys, List.length_map, List.length_map, h.length_eq, hall.length_eq]
      rw [← (Keyed.keys_ofList_sublist written).eq_of_length hlength]
      exact Keyed.nodup_keys_ofList written
    · intro hnodup
      rwa [Keyed.ofList_eq_self_iff.2 hnodup] at h

/-- The names of cases are those in the keys that are left. -/
theorem names_of_written {members : Keyed Value} {cases : List Case}
    (h : List.Forall₂ Case.Written members cases) :
    cases.map Case.name = members.keys.map Name.new := by
  induction h with
  | nil => rfl
  | cons hc _ ih =>
    rw [List.map_cons, ih, hc.1]
    rfl

/-- Where cases have different names, keys with one name are the same. -/
theorem key_eq_of_name_eq {written : List (String × Value)} {cases : List Case}
    (h : List.Forall₂ Case.Written (Keyed.ofList written) cases)
    (hnames : (cases.map Case.name).Nodup) :
    ∀ k ∈ written.map Prod.fst, ∀ k' ∈ written.map Prod.fst, Name.new k = .new k' → k = k' := by
  intro k hk k' hk' heq
  rw [names_of_written h] at hnames
  exact List.inj_on_of_nodup_map hnames (Keyed.mem_keys_ofList.2 hk) (Keyed.mem_keys_ofList.2 hk')
    heq

/-- The cases of an enumeration that is loaded. -/
theorem written_of_toShape_enumeration {id : String} {members : Keyed Value} {shape : Shape}
    (h : (DraftShape.enumeration members).toShape id = .ok shape) :
    ∃ cases, shape = .enumeration cases ∧ List.Forall₂ Case.Written members cases := by
  obtain ⟨cases, hcases, rfl⟩ := map_eq_ok.1 h
  refine ⟨cases, rfl, (forall₂_of_eachMember hcases).imp fun p c hmade => ?_⟩
  obtain ⟨n, hvalue, rfl⟩ := Case.ofMember_eq_ok hmade
  exact ⟨rfl, hvalue⟩

/-- The bits of a bit field that is loaded. -/
theorem written_of_toShape_bitField {id : String} {members : Keyed Value} {shape : Shape}
    (h : (DraftShape.bitField members).toShape id = .ok shape) :
    ∃ bits, shape = .bitField bits ∧ List.Forall₂ Flag.Written members bits := by
  obtain ⟨bits, hbits, rfl⟩ := map_eq_ok.1 h
  refine ⟨bits, rfl, (forall₂_of_eachMember hbits).imp fun p b hmade => ?_⟩
  obtain ⟨n, hvalue, rfl⟩ := Flag.ofMember_eq_ok hmade
  exact ⟨rfl, hvalue⟩

namespace Draft

variable {depth : Nat} {t : Tree} {a : DraftEntry}

/-- What fills a slot of a declaration is left of the members that are written there. -/
theorem exists_held {values : Keyed Value} {o : Option (Keyed Value)} {sub : Option Tree}
    (h : Option.Rel (fun sub v => Decoder.keyed Tree.read depth sub = .ok v) sub o)
    (ho : o = some values) :
    ∃ t written, sub = some t ∧ t.Holds written ∧ values = Keyed.ofList written := by
  subst ho
  cases h with
  | @some t _ hread =>
    obtain ⟨written, hholds, rfl⟩ := exists_of_keyed hread
    exact ⟨t, written, rfl, hholds, rfl⟩

/-- The cases of an enumeration in a document. -/
theorem exists_cases_of_tree (h : decodeEntry depth t = .ok a)
    (htag : tag? t = some Kind.enumeration.tag) :
    ∃ sub written name marked, member? .enumeration "cases" t = some sub ∧ sub.Holds written ∧
      a = .declared name marked (.enumeration (Keyed.ofList written)) := by
  obtain ⟨r, name, marked, shape, rfl, hshape, hslots⟩ := exists_of_tag h htag (by decide)
  obtain ⟨members, hneed, rfl⟩ := map_eq_ok.1 hshape
  obtain ⟨sub, written, hsub, hholds, rfl⟩ :=
    exists_held (hslots (by decide) cases_slot rfl) (need_eq_ok hneed)
  exact ⟨sub, written, name, marked, hsub, hholds, rfl⟩

/-- The bits of a bit field in a document. -/
theorem exists_bits_of_tree (h : decodeEntry depth t = .ok a)
    (htag : tag? t = some Kind.bitField.tag) :
    ∃ sub written name marked, member? .bitField "bits" t = some sub ∧ sub.Holds written ∧
      a = .declared name marked (.bitField (Keyed.ofList written)) := by
  obtain ⟨r, name, marked, shape, rfl, hshape, hslots⟩ := exists_of_tag h htag (by decide)
  obtain ⟨members, hneed, rfl⟩ := map_eq_ok.1 hshape
  obtain ⟨sub, written, hsub, hholds, rfl⟩ :=
    exists_held (hslots (by decide) bits_slot rfl) (need_eq_ok hneed)
  exact ⟨sub, written, name, marked, hsub, hholds, rfl⟩

end Draft

namespace Api

variable {table : BuiltinTable} {text : String} {api : Api} {d : Draft} {depth : Nat} {t : Tree}
  {a : DraftEntry}

/-- **What a loaded document keeps of the cases or bits of a declaration.** Keys with one name are
the same text in an enumeration. In a bit field only the indices that are left are different. -/
structure KeepsMembers (api : Api) (t : Tree) (a : DraftEntry) : Prop where
  cases : Draft.tag? t = some Kind.enumeration.tag → ∃ sub written name marked cases,
    Draft.member? .enumeration "cases" t = some sub ∧ sub.Holds written ∧
    a = .declared name marked (.enumeration (Keyed.ofList written)) ∧
    api.registry.find? (Kind.enumeration.idOf name) =
      some (.declared (Kind.enumeration.idOf name) (entryName api.lead name marked)
        (.enumeration cases)) ∧
    KeepsWritten Case.Written written cases ∧ (cases.map Case.name).Nodup ∧
    ∀ k ∈ written.map Prod.fst, ∀ k' ∈ written.map Prod.fst, Name.new k = .new k' → k = k'
  bits : Draft.tag? t = some Kind.bitField.tag → ∃ sub written name marked bits,
    Draft.member? .bitField "bits" t = some sub ∧ sub.Holds written ∧
    a = .declared name marked (.bitField (Keyed.ofList written)) ∧
    api.registry.find? (Kind.bitField.idOf name) =
      some (.declared (Kind.bitField.idOf name) (entryName api.lead name marked)
        (.bitField bits)) ∧
    KeepsWritten Flag.Written written bits ∧ (bits.map Flag.index).Nodup ∧ ∀ b ∈ bits, b.index ≤ 31

theorem keepsMembers (h : Api.ofText table text = .ok api) (hd : Draft.ofText text = .ok d)
    (ha : a ∈ d.declarations) (hread : Draft.decodeEntry depth t = .ok a) :
    api.KeepsMembers t a where
  cases htag := by
    obtain ⟨sub, written, name, marked, hsub, hholds, rfl⟩ :=
      Draft.exists_cases_of_tree hread htag
    obtain ⟨shape, hshape, hfound⟩ := find?_of_declared h hd ha
    obtain ⟨cases, rfl, hcases⟩ := written_of_toShape_enumeration hshape
    have hconsistent : Shape.Consistent api.registry (.enumeration cases) :=
      (consistent_of_ofText h).entries _ (Registry.mem_of_find? hfound)
    have hdisplay : (cases.map (·.name.display)).Nodup := hconsistent.cases
    have hnames : (cases.map Case.name).Nodup :=
      List.Nodup.of_map Name.display (by rwa [List.map_map])
    exact ⟨sub, written, name, marked, cases, hsub, hholds, rfl, hfound,
      keepsWritten_of_forall₂ hcases, hnames, key_eq_of_name_eq hcases hnames⟩
  bits htag := by
    obtain ⟨sub, written, name, marked, hsub, hholds, rfl⟩ :=
      Draft.exists_bits_of_tree hread htag
    obtain ⟨shape, hshape, hfound⟩ := find?_of_declared h hd ha
    obtain ⟨bits, rfl, hbits⟩ := written_of_toShape_bitField hshape
    have hconsistent : Shape.Consistent api.registry (.bitField bits) :=
      (consistent_of_ofText h).entries _ (Registry.mem_of_find? hfound)
    exact ⟨sub, written, name, marked, bits, hsub, hholds, rfl, hfound,
      keepsWritten_of_forall₂ hbits, hconsistent.bits, hconsistent.fits⟩

end Api

/-- **Cases and bits that are kept.** In a document that can be loaded, each enumeration has the
cases and each bit field the bits that are left of the members written for it: every one of them, in
order and with its own value, exactly if no key is given twice. Two keys for one name are the same
text in an enumeration, since its cases must have different names. The bits of a bit field need only
have different indices of at most 31. -/
theorem members_kept {table : BuiltinTable} {text : String} {api : Api}
    (h : Api.ofText table text = .ok api) : ∃ d, Draft.ofText text = .ok d ∧
      List.Forall₂
        (fun mt dm => List.Forall₂ api.KeepsMembers (Draft.declarationTrees mt) dm.entries)
        (Draft.moduleTrees (readText text).tree) d.modules := by
  obtain ⟨d, hd, -⟩ := toApi_of_ofText h
  refine ⟨d, hd, forall₂_imp_of_mem (Draft.forall₂_of_ofText hd) fun mt dm hdm hread => ?_⟩
  refine forall₂_imp_of_mem (Draft.forall₂_of_decodeModule hread) fun t a ha hentry => ?_
  exact Api.keepsMembers h hd (List.mem_flatMap.2 ⟨dm, hdm, ha⟩) hentry

/-- A text with an enumeration in which a key is given twice, and a bit field with two keys for one
name. -/
def repeatedText : String :=
  "[\"ti\",[[\"taichi/a.h\",false,[],[[\"enumeration\",\"e\",\x7b\"a\":0,\"b\":1,\"a\":2\x7d],"
    ++ "[\"bit_field\",\"b\",\x7b\"a\":0,\"A\":1\x7d]]]]]"

/-- A member that is an integer. -/
def integerMember (key : String) (n : Int) : Except Break String × Tree :=
  (.ok key, .number (.ok (.integer n)))

/-- The enumeration in `repeatedText`. -/
def repeatedEnumeration : Tree :=
  .array [.string (.ok "enumeration"), .string (.ok "e"),
    .object [integerMember "a" 0, integerMember "b" 1, integerMember "a" 2] none] none

/-- The bit field in `repeatedText`. -/
def repeatedBitField : Tree :=
  .array [.string (.ok "bit_field"), .string (.ok "b"),
    .object [integerMember "a" 0, integerMember "A" 1] none] none

theorem readText_repeated : readText repeatedText = ⟨.array [.string (.ok "ti"),
    .array [.array [.string (.ok "taichi/a.h"), .boolean false, .array [] none,
      .array [repeatedEnumeration, repeatedBitField] none] none] none] none, true⟩ := by
  cbv

/-- The interface in `repeatedText`. -/
def repeated : Api where
  lead := some "ti"
  registry :=
    ⟨[.declared "enumeration.e" (.withPrefix "ti" "e")
        (.enumeration [⟨.new "a", 2⟩, ⟨.new "b", 1⟩]),
      .declared "bit_field.b" (.withPrefix "ti" "b") (.bitField [⟨.new "a", 0⟩, ⟨.new "A", 1⟩])],
      by decide⟩
  modules := [⟨"taichi/a.h", false, [], ["enumeration.e", "bit_field.b"], none⟩]

theorem ofText_repeated : Api.ofText .empty repeatedText = .ok repeated := by
  cbv

/-- An integer that is written for a key. -/
def writtenInteger (key : String) (n : Int) : String × Value :=
  (key, .number (.integer n))

/-- An object of integers holds just these. -/
theorem holds_integers_iff (pairs : List (String × Int)) {written : List (String × Value)} :
    (Tree.object (pairs.map fun p => integerMember p.1 p.2) none).Holds written ↔
      written = pairs.map fun p => writtenInteger p.1 p.2 := by
  constructor
  · rintro ⟨ms, depth, hms, hread⟩
    obtain ⟨rfl, -⟩ := Tree.object.inj hms
    rw [List.forall₂_map_left_iff] at hread
    induction hread with
    | nil => rfl
    | @cons p w pairs written hp _ ih =>
      obtain ⟨hkey, hvalue⟩ := hp
      have hw : w = writtenInteger p.1 p.2 :=
        Prod.ext (Except.ok.inj hkey).symm (Except.ok.inj hvalue).symm
      rw [hw, ih rfl, List.map_cons]
  · rintro rfl
    refine ⟨_, 0, rfl, ?_⟩
    rw [List.forall₂_map_left_iff, List.forall₂_map_right_iff, List.forall₂_same]
    exact fun p _ => ⟨rfl, rfl⟩

/-- The declarations in `repeatedText`. -/
def repeatedEntries : List DraftEntry :=
  [.declared "e" false (.enumeration [("a", .number (.integer 2)), ("b", .number (.integer 1))]),
    .declared "b" false (.bitField [("a", .number (.integer 0)), ("A", .number (.integer 1))])]

theorem draft_repeated : Draft.ofText repeatedText =
    .ok ⟨some "ti", [⟨"taichi/a.h", false, [], repeatedEntries, none⟩]⟩ := by
  unfold Draft.ofText decode
  rw [readText_repeated]
  cbv

/-- In `repeatedText` the first value for the case is lost, and both bits are kept. -/
theorem members_kept_repeated : Api.ofText .empty repeatedText = .ok repeated ∧
    (∃ full cases, repeated.registry.find? "enumeration.e" =
        some (.declared "enumeration.e" full (.enumeration cases)) ∧
      ¬ List.Forall₂ Case.Written
        [writtenInteger "a" 0, writtenInteger "b" 1, writtenInteger "a" 2] cases) ∧
    ∃ full bits, repeated.registry.find? "bit_field.b" =
        some (.declared "bit_field.b" full (.bitField bits)) ∧
      List.Forall₂ Flag.Written [writtenInteger "a" 0, writtenInteger "A" 1] bits := by
  obtain ⟨d, hd, hall⟩ := members_kept ofText_repeated
  obtain rfl := Except.ok.inj (draft_repeated.symm.trans hd)
  rw [readText_repeated] at hall
  have hkept : List.Forall₂ repeated.KeepsMembers [repeatedEnumeration, repeatedBitField]
      repeatedEntries := (List.forall₂_cons.1 hall).1
  obtain ⟨henumeration, hrest⟩ := List.forall₂_cons.1 hkept
  refine ⟨ofText_repeated, ?_, ?_⟩
  · obtain ⟨sub, written, name, marked, cases, hsub, hholds, ha, hfound, hkeeps, -⟩ :=
      henumeration.cases rfl
    obtain ⟨rfl, rfl, -⟩ := DraftEntry.declared.inj ha
    obtain rfl := Option.some.inj hsub
    obtain rfl := (holds_integers_iff [("a", 0), ("b", 1), ("a", 2)]).1 hholds
    exact ⟨_, cases, hfound, hkeeps.all_iff.not.2 (by decide)⟩
  · obtain ⟨sub, written, name, marked, bits, hsub, hholds, ha, hfound, hkeeps, -⟩ :=
      (List.forall₂_cons.1 hrest).1.bits rfl
    obtain ⟨rfl, rfl, -⟩ := DraftEntry.declared.inj ha
    obtain rfl := Option.some.inj hsub
    obtain rfl := (holds_integers_iff [("a", 0), ("A", 1)]).1 hholds
    exact ⟨_, bits, hfound, hkeeps.all_iff.2 (by decide)⟩

/-- **A name can be given twice**: with the same key in an enumeration, and with any keys in a bit
field. -/
theorem keys_given_twice :
    (¬ ∀ (table : BuiltinTable) (text : String) (api : Api), Api.ofText table text = .ok api →
      ∀ mt ∈ Draft.moduleTrees (readText text).tree, ∀ t ∈ Draft.declarationTrees mt,
        Draft.tag? t = some Kind.enumeration.tag → ∀ sub written,
          Draft.member? .enumeration "cases" t = some sub → sub.Holds written →
            (written.map fun p => Name.new p.1).Nodup) ∧
    ¬ ∀ (table : BuiltinTable) (text : String) (api : Api), Api.ofText table text = .ok api →
      ∀ mt ∈ Draft.moduleTrees (readText text).tree, ∀ t ∈ Draft.declarationTrees mt,
        Draft.tag? t = some Kind.bitField.tag → ∀ sub written,
          Draft.member? .bitField "bits" t = some sub → sub.Holds written →
            (written.map fun p => Name.new p.1).Nodup := by
  constructor
  · intro hall
    have h := hall _ _ _ ofText_repeated
    rw [readText_repeated] at h
    have hnames := h _ (.head _) repeatedEnumeration (.head _) rfl _ _ rfl
      ((holds_integers_iff [("a", 0), ("b", 1), ("a", 2)]).2 rfl)
    revert hnames
    decide
  · intro hall
    have h := hall _ _ _ ofText_repeated
    rw [readText_repeated] at h
    have hnames := h _ (.head _) repeatedBitField (.tail _ (.head _)) rfl _ _ rfl
      ((holds_integers_iff [("a", 0), ("A", 1)]).2 rfl)
    revert hnames
    decide

end Bindery

import Bindery.Proofs.MemberOrder

/-!
# Documents that are rearranged

Where a document has a record, as its root, a module, the documentation of a module, an entry or a
field, the members of the record may stand in any order, and between them may stand members that the
record does not know. An entry is read whole before its tag is looked for, so that what is added to
it, or to one of its fields, must be readable; elsewhere it is enough that it can be passed over.

* `Json.ListRearranged`, `Json.Decoder.BlindTo.list`: an array of rearranged trees.
* `Json.Tree.Readable`: trees that can be read, and what keeps them so.
* `Draft.FieldRearranged`, `EntryRearranged`, `ModuleRearranged`, `RootRearranged`: rearranged
  parts.
* `blindTo_decodeEntry`, `blindTo_decodeModule`, `blindTo_decodeRoot`: decoders do not see it.
* `Api.ofText_of_rearranged`: **a rearranged document describes the same interface**.
-/

namespace Bindery

namespace Json

/-- An array with related items, or the same tree. -/
inductive ListRearranged (V : Tree → Tree → Prop) : Tree → Tree → Prop
  | same (t : Tree) : ListRearranged V t t
  | array {ts ts' : List Tree} {stop : Option Rupture} (h : List.Forall₂ V ts ts') :
    ListRearranged V (.array ts stop) (.array ts' stop)

section Decoders

variable {α β R : Type} {d : Decoder α} {depth : Nat} {V : Tree → Tree → Prop}

theorem Decoder.nullable_of_ne_null {t : Tree} (h : t ≠ .null) :
    Decoder.nullable d depth t = (d depth t).map some := by
  cases t with
  | null => exact absurd rfl h
  | _ => rfl

namespace Decoder.BlindTo

theorem bind {f : α → Except Fault β} (hd : d.BlindTo depth V) :
    Decoder.BlindTo (fun depth t => d depth t >>= f) depth V := by
  intro t t' b ht h
  obtain ⟨a, ha, hf⟩ := bind_eq_ok.1 h
  exact bind_eq_ok.2 ⟨a, hd t t' a ht ha, hf⟩

theorem items (hd : d.BlindTo depth V) {ts ts' : List Tree} (hts : List.Forall₂ V ts ts')
    {as : List α} (h : Decoder.items (d depth) ts = .ok as) :
    Decoder.items (d depth) ts' = .ok as := by
  induction hts generalizing as with
  | nil => exact h
  | cons ht _ ih =>
    obtain ⟨a, ha, h⟩ := bind_eq_ok.1 h
    obtain ⟨rest, hrest, h⟩ := bind_eq_ok.1 h
    exact bind_eq_ok.2 ⟨a, hd _ _ a ht ha, bind_eq_ok.2 ⟨rest, ih hrest, h⟩⟩

theorem list (hd : d.BlindTo (depth + 1) V) :
    Decoder.BlindTo (.list d) depth (ListRearranged V) := by
  intro t t' as ht h
  cases ht with
  | same => exact h
  | array hts =>
    obtain ⟨_, henter, h⟩ := bind_eq_ok.1 h
    obtain ⟨values, hvalues, h⟩ := bind_eq_ok.1 h
    exact bind_eq_ok.2 ⟨_, henter, bind_eq_ok.2 ⟨values, hd.items hts hvalues, h⟩⟩

/-- A value that may be null, where only null is related to null. -/
theorem nullable (hd : d.BlindTo depth V) (hnull : ∀ t t', V t t' → (t = .null ↔ t' = .null)) :
    Decoder.BlindTo (.nullable d) depth V := by
  intro t t' a ht h
  by_cases hnone : t = .null
  · rw [(hnull t t' ht).1 hnone]
    rwa [hnone] at h
  · rw [nullable_of_ne_null hnone] at h
    rw [nullable_of_ne_null fun hnone' => hnone ((hnull t t' ht).2 hnone')]
    obtain ⟨b, hb, rfl⟩ := map_eq_ok.1 h
    exact map_eq_ok.2 ⟨b, hd t t' b ht hb, rfl⟩

end Decoder.BlindTo

theorem Member.blindTo_slot {name : String} {required : Bool} {get : R → Option α}
    {set : R → α → R} (hd : d.BlindTo depth V) :
    (Member.slot name required get set d).read.BlindTo depth V := by
  intro t t' fill ht h
  obtain ⟨a, ha, rfl⟩ := map_eq_ok.1 h
  exact map_eq_ok.2 ⟨a, hd t t' a ht ha, rfl⟩

end Decoders

namespace Tree

/-- A tree that can be passed over. -/
def Passable (t : Tree) : Prop :=
  t.skip = .ok ()

/-- A tree that can be read, with a number of containers around it. -/
def Readable (depth : Nat) (t : Tree) : Prop :=
  ∃ v, t.read depth = .ok v

theorem Readable.passable {depth : Nat} {t : Tree} (h : t.Readable depth) : t.Passable :=
  h.elim fun _ hv => skip_of_read hv

theorem readItems_iff {depth : Nat} {ts : List Tree} :
    (∃ vs, readItems depth ts = .ok vs) ↔ ∀ t ∈ ts, t.Readable depth := by
  induction ts with
  | nil => exact ⟨by simp, fun _ => ⟨[], rfl⟩⟩
  | cons t ts ih =>
    rw [List.forall_mem_cons, ← ih]
    constructor
    · rintro ⟨vs, h⟩
      obtain ⟨v, hv, h⟩ := bind_eq_ok.1 h
      obtain ⟨more, hmore, -⟩ := bind_eq_ok.1 h
      exact ⟨⟨v, hv⟩, more, hmore⟩
    · rintro ⟨⟨v, hv⟩, more, hmore⟩
      exact ⟨v :: more, bind_eq_ok.2 ⟨v, hv, bind_eq_ok.2 ⟨more, hmore, rfl⟩⟩⟩

theorem readMembers_iff {depth : Nat} {ms : List (Except Break String × Tree)} :
    (∃ vs, readMembers depth ms = .ok vs) ↔
      ∀ p ∈ ms, (∃ k, p.1 = .ok k) ∧ p.2.Readable depth := by
  induction ms with
  | nil => exact ⟨by simp, fun _ => ⟨[], rfl⟩⟩
  | cons p ms ih =>
    obtain ⟨key, t⟩ := p
    rw [List.forall_mem_cons, ← ih]
    constructor
    · rintro ⟨vs, h⟩
      obtain ⟨k, hk, h⟩ := bind_eq_ok.1 h
      obtain ⟨v, hv, h⟩ := bind_eq_ok.1 h
      obtain ⟨more, hmore, -⟩ := bind_eq_ok.1 h
      exact ⟨⟨⟨k, literal_eq_ok hk⟩, v, hv⟩, more, hmore⟩
    · rintro ⟨⟨⟨k, rfl⟩, v, hv⟩, more, hmore⟩
      refine ⟨(k, v) :: more, bind_eq_ok.2 ⟨k, rfl, ?_⟩⟩
      exact bind_eq_ok.2 ⟨v, hv, bind_eq_ok.2 ⟨more, hmore, rfl⟩⟩

/-- An array can be read if it may be entered, all its items can be read and it is closed. -/
theorem readable_array_iff {depth : Nat} {ts : List Tree} {stop : Option Rupture} :
    (Tree.array ts stop).Readable depth ↔
      enter depth = .ok () ∧ closed stop = .ok () ∧ ∀ t ∈ ts, t.Readable (depth + 1) := by
  rw [← readItems_iff]
  constructor
  · rintro ⟨v, h⟩
    obtain ⟨_, henter, h⟩ := bind_eq_ok.1 h
    obtain ⟨vs, hvs, h⟩ := bind_eq_ok.1 h
    obtain ⟨_, hclosed, -⟩ := bind_eq_ok.1 h
    exact ⟨henter, hclosed, vs, hvs⟩
  · rintro ⟨henter, hclosed, vs, hvs⟩
    refine ⟨.array vs, bind_eq_ok.2 ⟨(), henter, ?_⟩⟩
    exact bind_eq_ok.2 ⟨vs, hvs, bind_eq_ok.2 ⟨(), hclosed, rfl⟩⟩

/-- An object can be read if it may be entered, all its keys and values can be read and it is
closed. -/
theorem readable_object_iff {depth : Nat} {ms : List (Except Break String × Tree)}
    {stop : Option Rupture} :
    (Tree.object ms stop).Readable depth ↔ enter depth = .ok () ∧ closed stop = .ok () ∧
      ∀ p ∈ ms, (∃ k, p.1 = .ok k) ∧ p.2.Readable (depth + 1) := by
  rw [← readMembers_iff]
  constructor
  · rintro ⟨v, h⟩
    obtain ⟨_, henter, h⟩ := bind_eq_ok.1 h
    obtain ⟨vs, hvs, h⟩ := bind_eq_ok.1 h
    obtain ⟨_, hclosed, -⟩ := bind_eq_ok.1 h
    exact ⟨henter, hclosed, vs, hvs⟩
  · rintro ⟨henter, hclosed, vs, hvs⟩
    refine ⟨.object vs, bind_eq_ok.2 ⟨(), henter, ?_⟩⟩
    exact bind_eq_ok.2 ⟨vs, hvs, bind_eq_ok.2 ⟨(), hclosed, rfl⟩⟩

end Tree

section Readable

variable {depth : Nat} {known : List String} {Accepted : Tree → Prop}

/-- Rearranged items can be read if those before could. -/
theorem ListRearranged.readable {V : Tree → Tree → Prop} {t t' : Tree}
    (hV : ∀ t t', V t t' → t.Readable (depth + 1) → t'.Readable (depth + 1))
    (ht : ListRearranged V t t') (h : t.Readable depth) : t'.Readable depth := by
  cases ht with
  | same => exact h
  | array hts =>
    obtain ⟨henter, hclosed, hitems⟩ := Tree.readable_array_iff.1 h
    exact Tree.readable_array_iff.2 ⟨henter, hclosed, forall_mem_of_forall₂ hV hts hitems⟩

variable {V : String → Tree → Tree → Prop}

/-- A member that is kept has a key and a value that can be read, if those before could. -/
theorem KeptMember.readable (hV : ∀ k t t', V k t t' → t.Readable depth → t'.Readable depth)
    {p p' : Except Break String × Tree} (hp : KeptMember V p p')
    (h : (∃ k, p.1 = .ok k) ∧ p.2.Readable depth) :
    (∃ k, p'.1 = .ok k) ∧ p'.2.Readable depth := by
  obtain ⟨⟨k, hk⟩, hread⟩ := h
  exact ⟨⟨k, hp.1.trans hk⟩, hV k _ _ (hp.2 k hk) hread⟩

theorem ElementsRearranged.readable
    (hV : ∀ k t t', V k t t' → t.Readable depth → t'.Readable depth) {names : List String}
    {ts ts' : List Tree} (hts : ElementsRearranged V names ts ts')
    (h : ∀ t ∈ ts, t.Readable depth) : ∀ t ∈ ts', t.Readable depth := by
  induction hts with
  | nil => exact h
  | cons ht _ ih =>
    obtain ⟨hread, hrest⟩ := List.forall_mem_cons.1 h
    exact List.forall_mem_cons.2 ⟨hV _ _ _ ht hread, ih hrest⟩

/-- A rearranged tree can be read if the one before could. -/
theorem Rearranged.readable
    (hV : ∀ k t t', V k t t' → t.Readable (depth + 1) → t'.Readable (depth + 1))
    (hA : ∀ t, Accepted t → t.Readable (depth + 1)) {t t' : Tree}
    (ht : Rearranged known V Accepted t t') (h : t.Readable depth) : t'.Readable depth := by
  cases ht with
  | same => exact h
  | object hms =>
    obtain ⟨henter, hclosed, hmembers⟩ := Tree.readable_object_iff.1 h
    refine Tree.readable_object_iff.2 ⟨henter, hclosed, ?_⟩
    refine hms.forall_mem (fun p p' hp => hp.readable hV) ?_ hmembers
    rintro p ⟨k, hk, -, haccepted⟩
    exact ⟨⟨k, hk⟩, hA _ haccepted⟩
  | array hts =>
    obtain ⟨henter, hclosed, hitems⟩ := Tree.readable_array_iff.1 h
    exact Tree.readable_array_iff.2 ⟨henter, hclosed, hts.readable hV hitems⟩

end Readable

end Json

namespace Draft

open Json

/-- Documentation of a module that is rearranged. -/
def DocRearranged : Tree → Tree → Prop :=
  Rearranged (docRecord .malformed).names (fun _ => Eq) Tree.Passable

/-- A field that is rearranged, with `depth` containers around it. -/
def FieldRearranged (depth : Nat) : Tree → Tree → Prop :=
  Rearranged fieldRecord.names (fun _ => Eq) (Tree.Readable (depth + 1))

/-- The values of the members of an entry: only its fields may be rearranged. -/
def EntryPart (kind : Kind) (depth : Nat) (name : String) : Tree → Tree → Prop :=
  if fieldsName? kind = some name then ListRearranged (FieldRearranged (depth + 2)) else Eq

/-- **An entry that is rearranged**, its tag like the other members. What its kind does not know is
added, also if another kind knows it. -/
inductive EntryRearranged (depth : Nat) : Tree → Tree → Prop
  | same (t : Tree) : EntryRearranged depth t t
  | object {kind : Kind} {ms ms' : List (Except Break String × Tree)} {stop : Option Rupture}
    (htag : tag? (.object ms stop) = some kind.tag)
    (h : MembersRearranged (tagName :: (variant kind).names) (EntryPart kind depth)
      (Tree.Readable (depth + 1)) ms ms') :
    EntryRearranged depth (.object ms stop) (.object ms' stop)
  | array {kind : Kind} {ts ts' : List Tree} {stop : Option Rupture}
    (h : ElementsRearranged (EntryPart kind depth) (variant kind).names ts ts') :
    EntryRearranged depth (.array (.string (.ok kind.tag) :: ts) stop)
      (.array (.string (.ok kind.tag) :: ts') stop)

/-- The values of the members of a module: its entries and its documentation may be rearranged. -/
def ModulePart (depth : Nat) (name : String) : Tree → Tree → Prop :=
  if name = "declarations" then ListRearranged (EntryRearranged (depth + 2))
  else if name = "doc" then DocRearranged
  else Eq

/-- A module that is rearranged. -/
def ModuleRearranged (depth : Nat) : Tree → Tree → Prop :=
  Rearranged moduleRecord.names (ModulePart depth) Tree.Passable

/-- The values of the members of a document: its modules may be rearranged. -/
def RootPart (name : String) : Tree → Tree → Prop :=
  if name = "modules" then ListRearranged (ModuleRearranged 2) else Eq

/-- **A document that is rearranged.** -/
def RootRearranged : Tree → Tree → Prop :=
  Rearranged rootRecord.names RootPart Tree.Passable

/-- All members are slots, and each has a place of its own, so that `Member.marks_slot` and
`Member.apart_slot` apply. -/
theorem orderless_docRecord (surplus : Surplus) : (docRecord surplus).Orderless where
  distinct := by cases surplus <;> decide
  marks := by simp [docRecord]
  apart := by simp [docRecord]

theorem orderless_fieldRecord : fieldRecord.Orderless where
  distinct := by decide
  marks := by simp [fieldRecord]
  apart := by simp [fieldRecord]

theorem orderless_variant (kind : Kind) : (variant kind).Orderless where
  distinct := by cases kind <;> decide
  marks := by
    cases kind <;> simp [variant, variantMembers, nameMember, fieldsMember, extensionMember]
  apart := by
    cases kind <;> simp [variant, variantMembers, nameMember, fieldsMember, extensionMember]

theorem orderless_moduleRecord : moduleRecord.Orderless where
  distinct := by decide
  marks := by simp [moduleRecord]
  apart := by simp [moduleRecord]

theorem orderless_rootRecord : rootRecord.Orderless where
  distinct := by decide
  marks := by simp [rootRecord]
  apart := by simp [rootRecord]

variable {depth : Nat}

theorem blindTo_decodeDoc : (decodeDoc .malformed).BlindTo depth DocRearranged :=
  (Record.blindTo_read (orderless_docRecord _) .eq fun _ h => h).bind

theorem blindTo_decodeField : decodeField.BlindTo depth (FieldRearranged depth) :=
  (Record.blindTo_read orderless_fieldRecord .eq fun _ h => h.passable).bind

theorem FieldRearranged.readable {t t' : Tree} (ht : FieldRearranged depth t t')
    (h : t.Readable depth) : t'.Readable depth := by
  refine Rearranged.readable ?_ (fun _ ht => ht) ht h
  rintro _ t _ rfl ht
  exact ht

theorem EntryPart.readable {kind : Kind} {name : String} {t t' : Tree}
    (ht : EntryPart kind depth name t t') (h : t.Readable (depth + 1)) :
    t'.Readable (depth + 1) := by
  unfold EntryPart at ht
  split at ht
  · exact ht.readable (fun _ _ ht => ht.readable) h
  · exact ht ▸ h

theorem fieldsName?_ne_tagName (kind : Kind) : fieldsName? kind ≠ some tagName := by
  cases kind <;> decide

theorem eq_fieldsMember {kind : Kind} {m : Member EntryParts} (hm : m ∈ (variant kind).members)
    (h : fieldsName? kind = some m.name) : m = fieldsMember m.name := by
  cases kind with
  | record | union | callback =>
    simp only [variant, variantMembers, List.mem_cons, List.not_mem_nil, or_false] at hm
    rcases hm with rfl | rfl | rfl
    · exact absurd h (by decide)
    · rfl
    · exact absurd h (by decide)
  | function =>
    -- a function has one more member
    simp only [variant, variantMembers, List.mem_cons, List.not_mem_nil, or_false] at hm
    rcases hm with rfl | rfl | rfl | rfl
    · exact absurd h (by decide)
    · rfl
    · exact absurd h (by decide)
    · exact absurd h (by decide)
  | _ => cases h

theorem readsAlike_variant (kind : Kind) :
    (variant kind).ReadsAlike (depth + 1) (EntryPart kind depth) where
  known m hm := by
    unfold EntryPart
    split
    · rename_i hfields
      rw [eq_fieldsMember hm hfields]
      exact Member.blindTo_slot blindTo_decodeField.list
    · exact Decoder.blindTo_eq
  unknown k hk := by
    refine if_neg fun hfields => hk ?_
    exact (fields_slot hfields).mem

/-- One step through the members of an entry: the tag is decoded, anything else is read. -/
inductive TagStep (depth : Nat) (p : Except Break String × Tree) : Option Kind → Option Kind → Prop
  | other {found : Option Kind} {k : String} (hk : p.1 = .ok k) (hne : k ≠ tagName)
    (hread : p.2.Readable depth) : TagStep depth p found found
  | tag {kind : Kind} (hk : p.1 = .ok tagName) (hkind : decodeTag depth p.2 = .ok kind) :
    TagStep depth p none (some kind)

theorem tagAmong_cons_eq_ok_iff {p : Except Break String × Tree}
    {rest : List (Except Break String × Tree)} {found found' : Option Kind} :
    tagAmong depth (p :: rest) found = .ok found' ↔
      ∃ next, TagStep depth p found next ∧ tagAmong depth rest next = .ok found' := by
  obtain ⟨key, t⟩ := p
  constructor
  · intro h
    obtain ⟨k, hk, hstep⟩ := bind_eq_ok.1 h
    obtain rfl := literal_eq_ok hk
    split at hstep
    · rename_i htag
      cases found with
      | some kind => cases hstep
      | none =>
        obtain ⟨kind, hkind, hrest⟩ := bind_eq_ok.1 hstep
        exact ⟨some kind, .tag (congrArg _ htag) hkind, hrest⟩
    · rename_i hne
      obtain ⟨v, hv, hrest⟩ := bind_eq_ok.1 hstep
      exact ⟨found, .other rfl hne ⟨v, hv⟩, hrest⟩
  · rintro ⟨next, hstep, hrest⟩
    cases hstep with
    | @other _ k hk hne hread =>
      obtain rfl : key = .ok k := hk
      obtain ⟨v, hv⟩ := hread
      exact bind_eq_ok.2 ⟨k, rfl, (if_neg hne).trans (bind_eq_ok.2 ⟨v, hv, hrest⟩)⟩
    | @tag kind hk hkind =>
      obtain rfl : key = .ok tagName := hk
      exact bind_eq_ok.2 ⟨tagName, rfl, (if_pos rfl).trans (bind_eq_ok.2 ⟨kind, hkind, hrest⟩)⟩

/-- The tag is looked for step by step. -/
theorem tagAmong_eq_ok_iff {ms : List (Except Break String × Tree)} {found found' : Option Kind} :
    tagAmong depth ms found = .ok found' ↔ Walk (TagStep depth) ms found found' :=
  Walk.eq_ok_iff (fun _ => rfl) tagAmong_cons_eq_ok_iff

/-- Two steps can be made in the other order. -/
theorem TagStep.swap {p q : Except Break String × Tree} {found next found' : Option Kind}
    (hp : TagStep depth p found next) (hq : TagStep depth q next found') :
    ∃ next', TagStep depth q found next' ∧ TagStep depth p next' found' := by
  cases hp with
  | other hk hne hread => exact ⟨found', hq, .other hk hne hread⟩
  | tag hk hkind =>
    -- no second tag can follow
    cases hq with
    | other hk' hne hread => exact ⟨none, .other hk' hne hread, .tag hk hkind⟩

theorem TagStep.kept {kind : Kind} {p p' : Except Break String × Tree} {found found' : Option Kind}
    (hkept : KeptMember (EntryPart kind depth) p p') (h : TagStep (depth + 1) p found found') :
    TagStep (depth + 1) p' found found' := by
  obtain ⟨hkey, hvalue⟩ := hkept
  cases h with
  | other hk hne hread => exact .other (hkey.trans hk) hne ((hvalue _ hk).readable hread)
  | tag hk hkind =>
    have heq : p.2 = p'.2 := by
      have hrel := hvalue tagName hk
      rwa [EntryPart, if_neg (fieldsName?_ne_tagName kind)] at hrel
    exact .tag (hkey.trans hk) (heq ▸ hkind)

/-- Rearranged members have the same tag. -/
theorem tagAmong_of_rearranged {kind : Kind} {ms ms' : List (Except Break String × Tree)}
    {found found' : Option Kind}
    (hms : MembersRearranged (tagName :: (variant kind).names) (EntryPart kind depth)
      (Tree.Readable (depth + 1)) ms ms') (h : tagAmong (depth + 1) ms found = .ok found') :
    tagAmong (depth + 1) ms' found = .ok found' := by
  rw [tagAmong_eq_ok_iff] at h ⊢
  refine h.rearranged TagStep.swap TagStep.kept ?_ hms
  rintro p ⟨k, hk, hu, hread⟩ found
  exact .other hk (fun htag => hu (htag ▸ .head _)) hread

/-- Rearranged members are rearranged without their tag. -/
theorem membersRearranged_filter_isTag {names : List String} {V : String → Tree → Tree → Prop}
    {Accepted : Tree → Prop} {ms ms' : List (Except Break String × Tree)}
    (hms : MembersRearranged (tagName :: names) V Accepted ms ms') :
    MembersRearranged names V Accepted (ms.filter (!isTag ·)) (ms'.filter (!isTag ·)) := by
  obtain ⟨kept, added, hperm, hkept, hadded⟩ := hms
  refine ⟨kept.filter (!isTag ·), added, ?_, ?_, ?_⟩
  · have hall : added.filter (!isTag ·) = added := by
      refine List.filter_eq_self.2 fun p hp => ?_
      obtain ⟨k, hk, hu, -⟩ := hadded p hp
      have hne : k ≠ tagName := fun htag => hu (htag ▸ .head _)
      simp [isTag, hk, hne]
    have hfilter := hperm.filter (!isTag ·)
    rwa [List.filter_append, hall] at hfilter
  · refine List.rel_filter (fun p p' hp => ?_) hkept
    simp only [isTag, hp.1]
  · intro p hp
    obtain ⟨k, hk, hu, haccepted⟩ := hadded p hp
    exact ⟨k, hk, fun hmem => hu (.tail _ hmem), haccepted⟩

theorem blindTo_variant (kind : Kind) :
    Decoder.BlindTo ((variant kind).read .blank) depth
      (Rearranged (variant kind).names (EntryPart kind depth) (Tree.Readable (depth + 1))) :=
  Record.blindTo_read (orderless_variant kind) (readsAlike_variant kind) fun _ h => h.passable

/-- The tag that was found is the tag of the entry. -/
theorem kind_of_tagAmong {kind kind' : Kind} {ms : List (Except Break String × Tree)}
    {stop : Option Rupture} (htag : tag? (.object ms stop) = some kind.tag)
    (h : tagAmong depth ms none = .ok (some kind')) : kind' = kind := by
  obtain ⟨hnone, hsome⟩ := lookUp_of_tagAmong h
  rcases hlook : lookUp tagName ms with _ | t
  · cases hnone hlook
  · obtain ⟨-, found, hkind, heq⟩ := hsome t hlook
    obtain rfl := Option.some.inj heq
    obtain rfl := tag_of_decodeTag hkind
    simp only [tag?, hlook, Option.some.injEq] at htag
    exact Kind.tag_injective htag

/-- **A rearranged entry is read as the same entry.** -/
theorem blindTo_decodeEntry : decodeEntry.BlindTo depth (EntryRearranged depth) := by
  intro t t' a ht h
  cases ht with
  | same => exact h
  | @object kind ms ms' stop htag hms =>
    obtain ⟨_, henter, h⟩ := bind_eq_ok.1 h
    obtain ⟨found, hfound, h⟩ := bind_eq_ok.1 h
    obtain ⟨_, hclosed, h⟩ := bind_eq_ok.1 h
    obtain ⟨kind', hneed, h⟩ := bind_eq_ok.1 h
    obtain ⟨r, hread, hentry⟩ := bind_eq_ok.1 h
    obtain rfl := need_eq_ok hneed
    -- the tag is the same wherever it stands, so the same record reads the other members
    obtain rfl := kind_of_tagAmong htag hfound
    have hfound' := tagAmong_of_rearranged hms hfound
    have hread' := blindTo_variant kind' _ _ r (.object (membersRearranged_filter_isTag hms)) hread
    refine bind_eq_ok.2 ⟨_, henter, bind_eq_ok.2 ⟨some kind', hfound', ?_⟩⟩
    refine bind_eq_ok.2 ⟨_, hclosed, bind_eq_ok.2 ⟨kind', rfl, ?_⟩⟩
    exact bind_eq_ok.2 ⟨r, hread', hentry⟩
  | @array kind ts ts' stop hts =>
    obtain ⟨_, henter, h⟩ := bind_eq_ok.1 h
    obtain ⟨kind', hkind, h⟩ := bind_eq_ok.1 h
    obtain ⟨values, hvalues, h⟩ := bind_eq_ok.1 h
    obtain ⟨_, hclosed, h⟩ := bind_eq_ok.1 h
    obtain ⟨r, hread, hentry⟩ := bind_eq_ok.1 h
    have htag := tag_of_decodeTag hkind
    simp only [Tree.string.injEq, Except.ok.injEq] at htag
    obtain rfl := Kind.tag_injective htag
    -- the elements are read twice: whole, and by the record
    have hitems := Tree.readItems_iff.1 ⟨values, hvalues⟩
    obtain ⟨values', hvalues'⟩ :=
      Tree.readItems_iff.2 (hts.readable (fun _ _ _ ht => ht.readable) hitems)
    have hread' := blindTo_variant kind _ _ r (.array hts) hread
    refine bind_eq_ok.2 ⟨_, henter, bind_eq_ok.2 ⟨kind, hkind, ?_⟩⟩
    refine bind_eq_ok.2 ⟨values', hvalues', ?_⟩
    exact bind_eq_ok.2 ⟨_, hclosed, bind_eq_ok.2 ⟨r, hread', hentry⟩⟩

theorem readsAlike_moduleRecord : moduleRecord.ReadsAlike (depth + 1) (ModulePart depth) where
  known := by
    simp only [moduleRecord, List.forall_mem_cons]
    refine ⟨Decoder.blindTo_eq, Decoder.blindTo_eq, Decoder.blindTo_eq, ?_, ?_, by simp⟩
    · exact Member.blindTo_slot blindTo_decodeEntry.list
    · refine Member.blindTo_slot (blindTo_decodeDoc.nullable ?_)
      rintro t t' (_ | _ | _) <;> simp
  unknown k hk := by
    have hentries : k ≠ "declarations" := fun heq => hk (heq ▸ declarations_slot.mem)
    have hdoc : k ≠ "doc" := fun heq => hk (heq ▸ by decide)
    rw [ModulePart, if_neg hentries, if_neg hdoc]

theorem blindTo_decodeModule : decodeModule.BlindTo depth (ModuleRearranged depth) :=
  (Record.blindTo_read orderless_moduleRecord readsAlike_moduleRecord fun _ h => h).bind

theorem readsAlike_rootRecord : rootRecord.ReadsAlike 1 RootPart where
  known := by
    simp only [rootRecord, List.forall_mem_cons]
    exact ⟨Decoder.blindTo_eq, Member.blindTo_slot blindTo_decodeModule.list, by simp⟩
  unknown k hk := by
    have hmodules : k ≠ "modules" := fun heq => hk (heq ▸ modules_slot.mem)
    exact if_neg hmodules

theorem blindTo_decodeRoot : decodeRoot.BlindTo 0 RootRearranged :=
  (Record.blindTo_read orderless_rootRecord readsAlike_rootRecord fun _ h => h).bind

/-- A rearranged document has the same draft. -/
theorem draft_of_rearranged {text text' : String} {d : Draft}
    (ht : RootRearranged (readText text).tree (readText text').tree)
    (hc : (readText text').complete = true) (h : Draft.ofText text = .ok d) :
    Draft.ofText text' = .ok d := by
  obtain ⟨d', hroot, h⟩ := bind_eq_ok.1 h
  split at h
  · obtain rfl := Except.ok.inj h
    exact bind_eq_ok.2 ⟨d', blindTo_decodeRoot _ _ _ ht hroot, if_pos hc⟩
  · cases h

end Draft

/-- **A rearranged document describes the same interface.** -/
theorem Api.ofText_of_rearranged {table : BuiltinTable} {text text' : String} {api : Api}
    (ht : Draft.RootRearranged (Json.readText text).tree (Json.readText text').tree)
    (hc : (Json.readText text').complete = true) (h : Api.ofText table text = .ok api) :
    Api.ofText table text' = .ok api := by
  unfold Api.ofText at h ⊢
  split at h
  · rename_i d hd
    rw [Draft.draft_of_rearranged ht hc hd]
    exact h
  · cases h

namespace Json

/-- Members backwards, behind one more. -/
def backward (ms : List (Except Break String × Tree)) (more : Except Break String × Tree) :
    List (Except Break String × Tree) :=
  (ms ++ [more]).reverse

theorem membersRearranged_backward {known : List String} {V : String → Tree → Tree → Prop}
    {Accepted : Tree → Prop} {ms kept : List (Except Break String × Tree)}
    {more : Except Break String × Tree} (hkept : List.Forall₂ (KeptMember V) ms kept)
    (hmore : AddedMember known Accepted more) :
    MembersRearranged known V Accepted ms (backward kept more) :=
  ⟨kept, [more], List.reverse_perm _, hkept, List.forall_mem_singleton.2 hmore⟩

/-- A member whose value stays as it is. -/
theorem KeptMember.refl {V : String → Tree → Tree → Prop} {k : String} {t : Tree} (h : V k t t) :
    KeptMember V (.ok k, t) (.ok k, t) := by
  refine ⟨rfl, fun k' hk => ?_⟩
  obtain rfl := Except.ok.inj hk
  exact h

end Json

open Json

/-- A text with a record of each sort. -/
def forwardText : String :=
  "\x7b\"prefix\":\"ti\",\"modules\":[\x7b\"name\":\"a.h\",\"declarations\":["
    ++ "\x7b\"type\":\"callback\",\"name\":\"c\",\"parameters\":["
    ++ "\x7b\"name\":\"x\",\"type\":\"callback.c\"\x7d]\x7d],"
    ++ "\"doc\":\x7b\"module_doc\":[\"a\"]\x7d\x7d]\x7d"

/-- The text with all records backwards, the tag of the entry last, and with a member in front of
each that it does not know. -/
def backwardText : String :=
  "\x7b\"version\":1,\"modules\":[\x7b\"rank\":[],"
    ++ "\"doc\":\x7b\"title\":\"b\",\"module_doc\":[\"a\"]\x7d,\"declarations\":["
    ++ "\x7b\"value\":0,\"parameters\":["
    ++ "\x7b\"unit\":null,\"type\":\"callback.c\",\"name\":\"x\"\x7d],"
    ++ "\"name\":\"c\",\"type\":\"callback\"\x7d],\"name\":\"a.h\"\x7d],\"prefix\":\"ti\"\x7d"

/-- A member that is a text. -/
def textMember (key text : String) : Except Break String × Tree :=
  (.ok key, .string (.ok text))

/-- An array of one item. -/
def single (t : Tree) : Tree :=
  .array [t] none

/-- The field in `forwardText`. -/
def forwardField : List (Except Break String × Tree) :=
  [textMember "name" "x", textMember "type" "callback.c"]

/-- The documentation in `forwardText`. -/
def forwardDoc : List (Except Break String × Tree) :=
  [(.ok "module_doc", single (.string (.ok "a")))]

/-- The members of the entry in `forwardText`, with a given field. -/
def forwardEntry (field : List (Except Break String × Tree)) : List (Except Break String × Tree) :=
  [textMember "type" "callback", textMember "name" "c",
    (.ok "parameters", single (.object field none))]

/-- The members of the module in `forwardText`, with a given entry and given documentation. -/
def forwardModule (entry doc : List (Except Break String × Tree)) :
    List (Except Break String × Tree) :=
  [textMember "name" "a.h", (.ok "declarations", single (.object entry none)),
    (.ok "doc", .object doc none)]

/-- The members of the document in `forwardText`, with a given module. -/
def forwardRoot (m : List (Except Break String × Tree)) : List (Except Break String × Tree) :=
  [textMember "prefix" "ti", (.ok "modules", single (.object m none))]

/-- The field in `backwardText`. -/
def backwardField : List (Except Break String × Tree) :=
  backward forwardField (.ok "unit", .null)

/-- The documentation in `backwardText`. -/
def backwardDoc : List (Except Break String × Tree) :=
  backward forwardDoc (textMember "title" "b")

/-- The entry in `backwardText`. -/
def backwardEntry : List (Except Break String × Tree) :=
  backward (forwardEntry backwardField) (.ok "value", .number (.ok (.integer 0)))

/-- The module in `backwardText`. -/
def backwardModule : List (Except Break String × Tree) :=
  backward (forwardModule backwardEntry backwardDoc) (.ok "rank", .array [] none)

/-- The document in `backwardText`. -/
def backwardRoot : List (Except Break String × Tree) :=
  backward (forwardRoot backwardModule) (.ok "version", .number (.ok (.integer 1)))

theorem readText_forward : readText forwardText =
    ⟨.object (forwardRoot (forwardModule (forwardEntry forwardField) forwardDoc)) none, true⟩ := by
  cbv

theorem readText_backward : readText backwardText = ⟨.object backwardRoot none, true⟩ := by
  cbv

/-- The interface in both texts. -/
def forwardApi : Api where
  lead := some "ti"
  registry := ⟨[.declared "callback.c" (.withPrefix "ti" "c")
    (.callback ⟨[⟨.new "x", "callback.c", false, false, none⟩], none⟩)], by decide⟩
  modules := [⟨"a.h", false, [], ["callback.c"], some ⟨["a"], [], []⟩⟩]

theorem ofText_forward : Api.ofText .empty forwardText = .ok forwardApi := by
  cbv

theorem rearranged_field {depth : Nat} :
    Draft.FieldRearranged depth (.object forwardField none) (.object backwardField none) := by
  refine .object (membersRearranged_backward ?_ ⟨"unit", rfl, by decide, .null, rfl⟩)
  exact .cons (.refl rfl) (.cons (.refl rfl) .nil)

theorem rearranged_doc :
    Draft.DocRearranged (.object forwardDoc none) (.object backwardDoc none) := by
  refine .object (membersRearranged_backward ?_ ⟨"title", rfl, by decide, rfl⟩)
  exact .cons (.refl rfl) .nil

theorem rearranged_entry {depth : Nat} : Draft.EntryRearranged depth
    (.object (forwardEntry forwardField) none) (.object backwardEntry none) := by
  have htag : Draft.tag? (.object (forwardEntry forwardField) none) = some Kind.callback.tag := rfl
  refine .object htag
    (membersRearranged_backward ?_ ⟨"value", rfl, by decide, .number (.integer 0), rfl⟩)
  refine .cons (.refl rfl) (.cons (.refl rfl) (.cons ⟨rfl, ?_⟩ .nil))
  rintro k ⟨⟩
  exact .array (.cons rearranged_field .nil)

theorem rearranged_module {depth : Nat} : Draft.ModuleRearranged depth
    (.object (forwardModule (forwardEntry forwardField) forwardDoc) none)
    (.object backwardModule none) := by
  refine .object (membersRearranged_backward ?_ ⟨"rank", rfl, by decide, rfl⟩)
  refine .cons (.refl rfl) (.cons ⟨rfl, ?_⟩ (.cons ⟨rfl, ?_⟩ .nil))
  · rintro k ⟨⟩
    exact .array (.cons rearranged_entry .nil)
  · rintro k ⟨⟩
    exact rearranged_doc

theorem rearranged_root : Draft.RootRearranged
    (.object (forwardRoot (forwardModule (forwardEntry forwardField) forwardDoc)) none)
    (.object backwardRoot none) := by
  refine .object (membersRearranged_backward ?_ ⟨"version", rfl, by decide, rfl⟩)
  refine .cons (.refl rfl) (.cons ⟨rfl, ?_⟩ .nil)
  rintro k ⟨⟩
  exact .array (.cons rearranged_module .nil)

/-- Both texts describe the same interface. -/
theorem ofText_of_rearranged_backward :
    Draft.RootRearranged (readText forwardText).tree (readText backwardText).tree ∧
      Api.ofText .empty forwardText = .ok forwardApi ∧
        Api.ofText .empty backwardText = .ok forwardApi := by
  have htree : Draft.RootRearranged (readText forwardText).tree (readText backwardText).tree := by
    rw [readText_forward, readText_backward]
    exact rearranged_root
  have hcomplete : (readText backwardText).complete = true := by rw [readText_backward]
  exact ⟨htree, ofText_forward, Api.ofText_of_rearranged htree hcomplete ofText_forward⟩

end Bindery

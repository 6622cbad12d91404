import Mathlib.Data.List.Perm.Subperm
import Mathlib.Logic.Relation
import Bindery.Binding.TypeExpr
import Bindery.Proofs.Consistency
import Bindery.Proofs.Script

/-!
# Which types can be written

A reference can be written as a type if it leads to neither a constant nor a function, and if all
types in the signature of a callback can be written in turn.

* `Registry.Projectable`: the ids of such types, at any depth of callbacks within callbacks.
* `Registry.Unfolds`: no callback contains itself, so that writing signatures out comes to an end.
* `typeWithin_decides`: **writing a type succeeds exactly for these ids**, and never runs out of
  fuel.
* `typeRef_decides`, `fieldText_decides`, `resultType_decides`: the same of references, fields and
  results.
-/

namespace Bindery

/-- The signature of a callback. -/
def Entry.signature? : Entry → Option Signature
  | .declared _ _ (.callback signature) => some signature
  | _ => none

namespace Registry

/-- **The ids that can be written as a type.** -/
inductive Projectable (r : Registry) : String → Prop
  | intro {id : String} {e : Entry} (found : r.find? id = some e)
    (notConstant : e.kind ≠ .definition) (notFunction : e.kind ≠ .function)
    (nested : ∀ s, e.signature? = some s → ∀ t ∈ s.references, r.Projectable t) : r.Projectable id

/-- The callback `a` has `b` in its signature. -/
def Mentions (r : Registry) (a b : String) : Prop :=
  ∃ e s, r.find? a = some e ∧ e.signature? = some s ∧ b ∈ s.references

/-- **No callback reaches itself** through the signatures of callbacks. -/
def Unfolds (r : Registry) : Prop :=
  ∀ id, ¬ Relation.TransGen r.Mentions id id

/-- Every id that an entry names is registered. -/
def Closed (r : Registry) : Prop :=
  ∀ e ∈ r.entries, ∀ id name shape, e = .declared id name shape →
    ∀ t ∈ shape.references, r.contains t = true

variable {r : Registry}

theorem mem_of_find? {id : String} {e : Entry} (h : r.find? id = some e) : e ∈ r.entries :=
  List.mem_of_find?_eq_some h

theorem contains_of_find? {id : String} {e : Entry} (h : r.find? id = some e) :
    r.contains id = true := by
  rw [← find?_isSome, h]
  rfl

theorem find?_of_contains {id : String} (h : r.contains id = true) :
    ∃ e, r.find? id = some e ∧ e.id = id := by
  rw [← find?_isSome] at h
  obtain ⟨e, he⟩ := Option.isSome_iff_exists.1 h
  exact ⟨e, he, id_of_find? he⟩

/-- Different registered ids are at most as many as the entries. -/
theorem length_le_size {ids : List String} (hn : ids.Nodup)
    (hc : ∀ id ∈ ids, r.contains id = true) : ids.length ≤ r.size := by
  have hsub : ids ⊆ r.entries.map Entry.id := fun id hid => (contains_iff r id).1 (hc id hid)
  have := (hn.subperm hsub).length_le
  rwa [List.length_map] at this

/-- What a registered id needs to be written as a type. -/
theorem projectable_iff {id : String} {e : Entry} (he : r.find? id = some e) :
    r.Projectable id ↔ e.kind ≠ .definition ∧ e.kind ≠ .function ∧
      ∀ s, e.signature? = some s → ∀ t ∈ s.references, r.Projectable t := by
  constructor
  · rintro ⟨hf, hd, hn, hs⟩
    obtain rfl : e = _ := Option.some.inj (he.symm.trans hf)
    exact ⟨hd, hn, hs⟩
  · rintro ⟨hd, hn, hs⟩
    exact .intro he hd hn hs

/-- A registry unfolds if its callbacks can be ranked above all that they mention. -/
theorem unfolds_of_rank (rank : String → Nat)
    (h : ∀ e ∈ r.entries, ∀ s ∈ e.signature?, ∀ t ∈ s.references, rank t < rank e.id) :
    r.Unfolds := by
  intro id hid
  -- the rank falls along every chain of mentions
  have hlt : ∀ {a b}, Relation.TransGen r.Mentions a b → rank b < rank a := by
    have hone : ∀ {a b}, r.Mentions a b → rank b < rank a := by
      rintro a b ⟨e, s, he, hs, hb⟩
      have := h e (mem_of_find? he) s hs b hb
      rwa [id_of_find? he] at this
    intro a b hab
    induction hab with
    | single hm => exact hone hm
    | tail _ hm ih => exact (hone hm).trans ih
  exact absurd (hlt hid) (Nat.lt_irrefl _)

end Registry

variable {typeRef : String → Except BindingError String} {P : String → Prop}

theorem fieldText_decides {f : Field} (h : Decides (typeRef f.typeId) (P f.typeId)) :
    Decides (fieldText typeRef f) (P f.typeId) :=
  h.map

theorem fieldTexts_decides {fields : List Field}
    (h : ∀ t ∈ fields.map Field.typeId, Decides (typeRef t) (P t)) :
    Decides (fieldTexts typeRef fields) (∀ t ∈ fields.map Field.typeId, P t) := by
  induction fields with
  | nil => exact .ok (by simp)
  | cons f fs ih =>
    have hf : Decides (fieldText typeRef f) (P f.typeId) := fieldText_decides (h _ (by simp))
    have hfs := ih fun t ht => h t (List.mem_cons_of_mem _ ht)
    refine (hf.bind fun t => hfs.bind (Q := True) fun ts => .ok trivial).congr ?_
    simp

theorem signatureText_decides {s : Signature}
    (h : ∀ t ∈ s.references, Decides (typeRef t) (P t)) :
    Decides (signatureText typeRef s) (∀ t ∈ s.references, P t) := by
  have hp : Decides (fieldTexts typeRef s.params) (∀ t ∈ s.params.map Field.typeId, P t) :=
    fieldTexts_decides fun t ht => h t (List.mem_append_left _ ht)
  unfold signatureText
  rcases hs : s.result with _ | id
  · refine (hp.bind (Q := True) fun params => .ok trivial).congr ?_
    simp [Signature.references, hs]
  · have hid : Decides (typeRef id) (P id) := h id (List.mem_append_right _ (by simp [hs]))
    refine (hp.bind fun params => hid.map.bind (Q := True) fun result => .ok trivial).congr ?_
    simp only [Signature.references, hs, Option.toList_some, List.mem_append, List.mem_singleton,
      or_imp, forall_and, forall_eq, and_true]

namespace Registry

variable {r : Registry}

/-- **Writing a type succeeds exactly if it is projectable.** The callbacks in `path` are different,
registered and lead to the entry, so that without self-containing callbacks the entry is none of
them and the fuel outlasts them. -/
theorem typeWithin_decides (hr : r.Closed) (hu : r.Unfolds) (fuel : ℕ) {path : List String}
    {e : Entry} (he : r.find? e.id = some e) (hn : path.Nodup)
    (hc : ∀ p ∈ path, r.contains p = true) (hp : ∀ p ∈ path, Relation.TransGen r.Mentions p e.id)
    (hf : r.size < fuel + path.length) :
    Decides (r.typeWithin fuel path e) (r.Projectable e.id) := by
  induction fuel generalizing path e with
  | zero =>
    -- without fuel there would be more callbacks in the path than entries
    have := length_le_size hn hc
    omega
  | succ fuel ih =>
    have plain : ∀ {t : String}, e.kind ≠ .definition → e.kind ≠ .function →
        e.signature? = none →
          Decides (.ok t : Except BindingError String) (r.Projectable e.id) := by
      intro t hd hfun hs
      exact .ok ((projectable_iff he).2 ⟨hd, hfun, by simp [hs]⟩)
    rcases e with ⟨id, spelling⟩ | ⟨id, name, shape⟩
    · exact plain (by simp [Entry.kind]) (by simp [Entry.kind]) rfl
    cases shape with
    | definition value =>
      exact .error trivial fun h => ((projectable_iff he).1 h).1 rfl
    | function signature deviceCommand =>
      exact .error trivial fun h => ((projectable_iff he).1 h).2.1 rfl
    | callback signature =>
      -- the callback is not in the path, and goes in front of it for its own signature
      have hid : id ∉ path := fun hmem => hu id (hp id hmem)
      rw [typeWithin, if_neg hid]
      refine (signatureText_decides (P := r.Projectable) fun t ht => ?_).congr ?_
      · have hmt : r.Mentions id t := ⟨_, signature, he, rfl, ht⟩
        obtain ⟨e', he', rfl⟩ := find?_of_contains (hr _ (mem_of_find? he) id name _ rfl t ht)
        rw [he']
        refine ih he' (List.nodup_cons.2 ⟨hid, hn⟩) ?_ ?_ ?_
        · exact List.forall_mem_cons.2 ⟨contains_of_find? he, hc⟩
        · exact List.forall_mem_cons.2 ⟨.single hmt, fun p hpm => (hp p hpm).tail hmt⟩
        · rw [List.length_cons]
          omega
      · rw [projectable_iff he]
        simp [Entry.kind, Shape.kind, Entry.signature?]
    | _ => exact plain (by simp [Entry.kind, Shape.kind]) (by simp [Entry.kind, Shape.kind]) rfl

theorem typeName_decides (hr : r.Closed) (hu : r.Unfolds) {e : Entry}
    (he : r.find? e.id = some e) : Decides (r.typeName e) (r.Projectable e.id) :=
  typeWithin_decides hr hu (r.size + 1) he List.nodup_nil (by simp) (by simp) (by simp)

theorem typeRef_decides (hr : r.Closed) (hu : r.Unfolds) {t : String}
    (ht : r.contains t = true) : Decides (r.typeRef t) (r.Projectable t) := by
  obtain ⟨e, he, rfl⟩ := find?_of_contains ht
  unfold typeRef resolve
  rw [he]
  exact typeName_decides hr hu he

theorem resultType_decides (hr : r.Closed) (hu : r.Unfolds) {result : Option String}
    (h : ∀ t ∈ result.toList, r.contains t = true) :
    Decides (r.resultType result) (∀ t ∈ result.toList, r.Projectable t) := by
  rcases result with _ | t
  · exact .ok (by simp)
  · exact (typeRef_decides hr hu (h t (by simp))).congr (by simp)

end Registry

end Bindery

import Bindery.Proofs.RepeatedKeys

/-!
# Values of members and the literals that spell them

The cases of an enumeration and the bits of a bit field are members of an object, with numbers as
their values. Such a number stands in the text of the document.

* `Json.Tree.Inside.trans`, `inside_of_member?`: the tree of a member stands inside that of its
  record, and so inside that of the document.
* `exists_literal_of_member`: **a number among the values of members is that of a literal in the
  text**.
* `integer_of_member`: an integer among them has 64 bits, and its decimal text is the literal.
-/

namespace Bindery

namespace Json

namespace Tree

variable {s t u : Tree}

theorem Inside.trans (h : s.Inside t) (h' : t.Inside u) : s.Inside u := by
  induction h' with
  | self => exact h
  | item ht _ ih => exact .item ht ih
  | member ht _ ih => exact .member ht ih

theorem mem_of_lookUp {key : String} {ms : List (Except Break String × Tree)}
    (h : lookUp key ms = some t) : t ∈ ms.map Prod.snd := by
  induction ms with
  | nil => cases h
  | cons p rest ih =>
    obtain ⟨k, t'⟩ := p
    cases k with
    | error b => exact .tail _ (ih h)
    | ok k =>
      rw [lookUp_cons] at h
      rcases Option.or_eq_some_iff.1 h with hrest | ⟨-, hhere⟩
      · exact .tail _ (ih hrest)
      · split at hhere
        · obtain rfl := Option.some.inj hhere
          exact .head _
        · cases hhere

theorem inside_of_mem_items (h : s ∈ t.items) : s.Inside t := by
  cases t with
  | array ts stop => exact .item h .self
  | _ => cases h

theorem inside_of_value? {key : String} (h : t.value? key = some s) : s.Inside t := by
  cases t with
  | object ms stop => exact .member (mem_of_lookUp h) .self
  | _ => cases h

end Tree

/-- **A member stands inside its record**, however the record is written. -/
theorem inside_of_member? {R : Type} {shape : Record R} {name : String} {s t : Tree}
    (h : shape.member? name t = some s) : s.Inside t := by
  cases t with
  | object ms stop => exact .member (Tree.mem_of_lookUp h) .self
  | array ts stop => exact .item (List.mem_of_getElem? h) .self
  | _ => cases h

/-- The items of an array that may be missing. -/
theorem inside_of_mem_elim {R : Type} {shape : Record R} {name : String} {s t : Tree}
    (h : s ∈ (shape.member? name t).elim [] Tree.items) : s.Inside t := by
  rcases hmember : shape.member? name t with _ | sub
  · rw [hmember] at h
    cases h
  · rw [hmember] at h
    exact (Tree.inside_of_mem_items h).trans (inside_of_member? hmember)

end Json

open Json

/-- The members of a declaration that have a value. -/
def DraftShape.members : DraftShape → Keyed Value
  | enumeration members => members
  | bitField members => members
  | _ => []

namespace Draft

variable {depth : Nat} {s t : Tree} {a : DraftEntry}

/-- A member stands inside its declaration, wherever the tag stands. -/
theorem inside_of_memberOf {kind : Kind} {name : String} (h : member? kind name t = some s) :
    s.Inside t := by
  cases t with
  | array ts stop =>
    cases ts with
    | nil => exact inside_of_member? h
    | cons tag ts => exact .item (.tail _ (List.mem_of_getElem? h)) .self
  | _ => exact inside_of_member? h

/-- Only a number is read as a number. -/
theorem eq_number_of_read {v : Number} (h : Tree.read depth t = .ok (.number v)) :
    t = .number (.ok v) := by
  cases t with
  | number n =>
    obtain ⟨x, rfl, hx⟩ := read_number h
    obtain rfl := Value.number.inj hx
    rfl
  | null | boolean b | broken r => cases h
  | string s =>
    obtain ⟨text, -, htext⟩ := map_eq_ok.1 h
    cases htext
  | array ts stop =>
    obtain ⟨-, -, h⟩ := bind_eq_ok.1 h
    obtain ⟨values, -, h⟩ := bind_eq_ok.1 h
    obtain ⟨-, -, h⟩ := bind_eq_ok.1 h
    cases h
  | object ms stop =>
    obtain ⟨-, -, h⟩ := bind_eq_ok.1 h
    obtain ⟨values, -, h⟩ := bind_eq_ok.1 h
    obtain ⟨-, -, h⟩ := bind_eq_ok.1 h
    cases h

/-- A number of an object that was read stands in its tree. -/
theorem inside_of_keyed {members : Keyed Value} {key : String} {v : Number}
    (h : Decoder.keyed Tree.read depth t = .ok members) (hm : (key, .number v) ∈ members) :
    Tree.Inside (.number (.ok v)) t := by
  -- each key is left once, so that its value is the one that is looked up
  have hkeys : (Keyed.keys members).Nodup := by
    obtain ⟨written, -, rfl⟩ := exists_of_keyed h
    exact Keyed.nodup_keys_ofList written
  have hrel := rel_of_keyed h key
  rw [(Keyed.mem_iff_get? hkeys).1 hm] at hrel
  rcases hvalue : t.value? key with _ | sub
  · rw [hvalue] at hrel
    cases hrel
  · rw [hvalue] at hrel
    cases hrel with
    | some hread =>
      obtain rfl := eq_number_of_read hread
      exact Tree.inside_of_value? hvalue

/-- A number in the slot of a record that holds an object stands in the tree of the record. -/
theorem inside_of_slot {kind : Kind} {name key : String} {o : Option (Keyed Value)}
    {members : Keyed Value} {v : Number}
    (hrel : Option.Rel (fun sub a => Decoder.keyed Tree.read (depth + 1) sub = .ok a)
      (member? kind name t) o)
    (hneed : need name o = .ok members) (hm : (key, .number v) ∈ members) :
    Tree.Inside (.number (.ok v)) t := by
  obtain rfl := need_eq_ok hneed
  rcases hmember : member? kind name t with _ | sub
  · rw [hmember] at hrel
    cases hrel
  · rw [hmember] at hrel
    cases hrel with
    | some hread =>
      exact (inside_of_keyed hread hm).trans (inside_of_memberOf hmember)

/-- **The numbers of members stand in the tree of their declaration.** -/
theorem inside_of_decodeEntry {name key : String} {marked : Bool} {written : DraftShape}
    {v : Number} (h : decodeEntry depth t = .ok (.declared name marked written))
    (hm : (key, .number v) ∈ written.members) : Tree.Inside (.number (.ok v)) t := by
  obtain ⟨kind, r, -, hentry, hslots⟩ := exists_of_decodeEntry h
  obtain ⟨name', -, hentry⟩ := bind_eq_ok.1 hentry
  split at hentry
  · cases hentry
  obtain ⟨written', hwritten, hentry⟩ := bind_eq_ok.1 hentry
  obtain ⟨rfl, -, rfl⟩ := DraftEntry.declared.inj (Except.ok.inj hentry)
  -- only cases and bits have values
  cases kind with
  | builtin => cases hwritten
  | enumeration =>
    obtain ⟨members, hneed, rfl⟩ := map_eq_ok.1 hwritten
    exact inside_of_slot (hslots (by decide) cases_slot rfl) hneed hm
  | bitField =>
    obtain ⟨members, hneed, rfl⟩ := map_eq_ok.1 hwritten
    exact inside_of_slot (hslots (by decide) bits_slot rfl) hneed hm
  | typeAlias | definition =>
    obtain ⟨x, -, rfl⟩ := map_eq_ok.1 hwritten
    cases hm
  | handle | record | union | function | callback =>
    obtain rfl := Except.ok.inj hwritten
    cases hm

end Draft

section Texts

variable {text : String} {d : Draft} {name key : String} {marked : Bool} {written : DraftShape}

/-- **A number among the values of members is that of a literal in the text.** -/
theorem exists_literal_of_member {v : Number} (h : Draft.ofText text = .ok d)
    (ha : .declared name marked written ∈ d.declarations)
    (hm : (key, .number v) ∈ written.members) :
    ∃ l : Literal, l.In text.toList ∧ l.value = .ok v := by
  obtain ⟨dm, hdm, ha⟩ := List.mem_flatMap.1 ha
  obtain ⟨mt, hmt, hmodule⟩ := exists_of_forall₂_left (Draft.forall₂_of_ofText h).flip hdm
  obtain ⟨t, ht, hentry⟩ := exists_of_forall₂_left (Draft.forall₂_of_decodeModule hmodule).flip ha
  have hinside := ((Draft.inside_of_decodeEntry hentry hm).trans (inside_of_mem_elim ht)).trans
    (inside_of_mem_elim hmt)
  obtain ⟨l, hl, hvalue⟩ := exists_literal_of_inside hinside
  exact ⟨l, hl, hvalue.symm⟩

/-- Only an integer literal is read as an integer. -/
theorem Json.Literal.integral_of_value {l : Literal} {n : Int} (h : l.value = .ok (.integer n)) :
    l.Integral := by
  by_contra hnot
  have hdouble : l.value = l.double := by
    unfold Literal.value
    rw [if_neg fun hparts => hnot ⟨hparts.1, hparts.2⟩]
  exact Literal.double_ne_integer n (hdouble ▸ h)

/-- **An integer among the values of members** has 64 bits, and its decimal text is that of a
literal in the text of the document. -/
theorem integer_of_member {n : Int} (h : Draft.ofText text = .ok d)
    (ha : .declared name marked written ∈ d.declarations)
    (hm : (key, .number (.integer n)) ∈ written.members) :
    -0x8000000000000000 ≤ n ∧ ∃ l : Literal, l.In text.toList ∧ l.value = .ok (.integer n) ∧
      (toString n).toList = l.spelling := by
  obtain ⟨l, hl, hvalue⟩ := exists_literal_of_member h ha hm
  have hintegral := Literal.integral_of_value hvalue
  obtain ⟨hexact, rfl⟩ := (Literal.value_eq_integer_iff hintegral).1 hvalue
  obtain ⟨-, hspelled⟩ := spelled_of_in hl hintegral
  exact ⟨hexact.low, l, hl, hvalue, hspelled hexact.notMinusZero⟩

end Texts

end Bindery

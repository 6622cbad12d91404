import Bindery.Binding.Reference
import Bindery.Proofs.Casing
import Bindery.Proofs.Consistency

/-!
# The characters of identifiers

An identifier is spelled with the characters of the names that it is made of.

* `Shape.memberNames`, `Entry.names`: the names of an entry and of its members.
* `within_declaredIdent`, `within_caseIdent`, `within_memberIdent?`: **if the names of an entry are
  spelled with a class of characters, so is everything that it is shown as**.
-/

namespace Bindery

/-- The names of the members of a shape: its cases, bits, and fields or parameters. -/
def Shape.memberNames (s : Shape) : List Name :=
  s.cases.map Case.name ++ s.bits.map Flag.name ++ s.fields.map Field.name

theorem mem_memberNames {shape : Shape} {n : Name} : n ∈ shape.memberNames ↔
    (∃ c ∈ shape.cases, c.name = n) ∨ (∃ b ∈ shape.bits, b.name = n) ∨
      ∃ f ∈ shape.fields, f.name = n := by
  simp only [Shape.memberNames, List.mem_append, List.mem_map, or_assoc]

/-- The names of an entry and of its members. -/
def Entry.names : Entry → List Name
  | .builtin _ _ => []
  | .declared _ name shape => name :: shape.memberNames

theorem name_mem_names_of_mem_fields {e : Entry} {f : Field} (h : f ∈ e.fields) :
    f.name ∈ e.names := by
  cases e with
  | builtin id spelling => cases h
  | declared id name shape =>
    exact List.mem_cons_of_mem _ (List.mem_append_right _ (List.mem_map_of_mem h))

variable {P : Char → Prop}

/-- Words of letters and digits are spelled with every class that keeps to casing. -/
theorem within_word (hP : CasingClass P) {word : String}
    (h : word.toList.all Char.isAlphanum = true) : ∀ c ∈ word.toList, P c :=
  fun c hc => hP.alphanum c (List.all_eq_true.1 h c hc)

/-- The identifier of an entry. -/
theorem within_declaredIdent (hP : CasingClass P) {e : Entry} {ident : String}
    (he : ∀ n ∈ e.names, n.Within P) (h : e.declaredIdent = .ok ident) :
    ∀ c ∈ ident.toList, P c := by
  cases e with
  | builtin id spelling => cases h
  | declared id name shape =>
    have hname : name.Within P := he name (.head _)
    cases shape with
    | callback signature => cases h
    | definition value =>
      obtain rfl : name.constIdent = ident := Except.ok.inj h
      exact hname.screaming hP
    | function signature deviceCommand =>
      obtain rfl : name.functionIdent = ident := Except.ok.inj h
      exact hname.snake hP
    | bitField bits =>
      obtain rfl : name.flagsIdent = ident := Except.ok.inj h
      exact (hname.extend hP (within_word hP (by decide))).camel hP
    | _ =>
      obtain rfl : name.typeIdent = ident := Except.ok.inj h
      exact hname.camel hP

theorem within_caseIdent (hP : CasingClass P) {id ident : String} {enumeration case : Name}
    (hc : case.Within P) (h : caseIdent id enumeration case = .ok ident) :
    ∀ c ∈ ident.toList, P c := by
  have hcamel := hc.camel hP
  unfold caseIdent at h
  split at h
  · split at h
    · rename_i letter hletter
      obtain rfl : letter ++ case.camel = ident := Except.ok.inj h
      obtain ⟨p, hp, rfl⟩ := Option.map_eq_some_iff.1 hletter
      obtain rfl : p = ("image_dimension", "D") := by
        simpa [Policy.digitLetters] using List.mem_of_find?_eq_some hp
      intro c hc
      rcases List.mem_append.1 (String.toList_append ▸ hc) with hc | hc
      · rw [List.mem_singleton.1 hc]
        exact hP.alphanum _ (by decide)
      · exact hcamel c hc
    · cases h
  · obtain rfl : case.camel = ident := Except.ok.inj h
    exact hcamel

/-- A member behind the type that it belongs to. -/
theorem within_path (hcolon : P ':') {owner member : String} (ho : ∀ c ∈ owner.toList, P c)
    (hm : ∀ c ∈ member.toList, P c) : ∀ c ∈ (owner ++ "::" ++ member).toList, P c := by
  intro c hc
  simp only [String.toList_append, List.mem_append] at hc
  rcases hc with (hc | hc) | hc
  · exact ho c hc
  · obtain rfl : c = ':' := by simpa using hc
    exact hcolon
  · exact hm c hc

/-- What a member of an entry is shown as. -/
theorem within_memberIdent? (hP : CasingClass P) (hcolon : P ':') {e : Entry}
    {member ident : String} (he : ∀ n ∈ e.names, n.Within P)
    (h : e.memberIdent? member = some ident) : ∀ c ∈ ident.toList, P c := by
  cases e with
  | builtin id spelling => cases h
  | declared id name shape =>
    have hname : name.Within P := he name (.head _)
    have hfield : (shape.fields.map (·.name.display)).find? (· == member) = some ident →
        ∀ c ∈ ident.toList, P c := by
      intro hfind
      obtain ⟨f, hf, rfl⟩ := List.mem_map.1 (List.mem_of_find?_eq_some hfind)
      have hmem : f.name ∈ shape.memberNames :=
        List.mem_append_right _ (List.mem_map_of_mem hf)
      exact (he _ (.tail _ hmem)).display hP
    cases shape with
    | enumeration cases =>
      simp only [Entry.memberIdent?] at h
      split at h
      · rename_i c hfind
        split at h
        · rename_i spelled hspelled
          obtain rfl : name.typeIdent ++ "::" ++ spelled = ident := Option.some.inj h
          have hmem : c.name ∈ (Shape.enumeration cases).memberNames :=
            List.mem_append_left _ (List.mem_append_left _
              (List.mem_map_of_mem (List.mem_of_find?_eq_some hfind)))
          exact within_path hcolon (hname.camel hP)
            (within_caseIdent hP (he _ (.tail _ hmem)) hspelled)
        · cases h
      · cases h
    | bitField bits =>
      obtain ⟨b, hfind, rfl⟩ := Option.map_eq_some_iff.1 h
      have hmem : b.name ∈ (Shape.bitField bits).memberNames :=
        List.mem_append_left _ (List.mem_append_right _
          (List.mem_map_of_mem (List.mem_of_find?_eq_some hfind)))
      have hword : ∀ c ∈ Policy.bitWord.toList, P c := within_word hP (by decide)
      have hbit := (he _ (.tail _ hmem)).extend hP hword
      exact within_path hcolon ((hname.extend hP (within_word hP (by decide))).camel hP)
        (hbit.screaming hP)
    | _ => exact hfield h

end Bindery

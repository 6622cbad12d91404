import Bindery.Proofs.Documentation
import Bindery.Proofs.MemberLines

/-!
# References and declarations

A reference in documentation is spelled on its own, apart from the declaration that it leads to.
Both spell alike: an entry is referred to by the identifier that it is declared under, and a member
by the one on its line.

* `PointFree`, `symbolParts_pair`, `symbolParts_member`: the parts of a symbol.
* `Shape.rendering`: how a member is rendered; `memberIdent?_of_mem`: that is what it is shown as.
* `Setting.Agrees`, `Registry.StraysApart`: the agreement, and the symbols that lead nowhere.
* `references_agree`: **in a loaded interface references agree with declarations**.
-/

namespace Bindery

open Text

/-- A text without points. -/
def PointFree (text : String) : Prop :=
  '.' ∉ text.toList

instance (text : String) : Decidable (PointFree text) :=
  inferInstanceAs (Decidable (¬ _))

theorem pointFree_tag (kind : Kind) : PointFree kind.tag := by
  cases kind <;> decide

/-- Two words with a point between them are an id. -/
theorem symbolParts_pair {tag name : String} (ht : PointFree tag) (hn : PointFree name) :
    symbolParts (tag ++ "." ++ name).toList = some ((tag ++ "." ++ name).toList, none) := by
  have hsplit : (tag ++ "." ++ name).toList = tag.toList ++ '.' :: name.toList := by
    simp [String.toList_append]
  rw [hsplit, symbolParts, pieces_append, pieces_of_notMem ht, pieces_of_notMem hn]
  rfl

/-- What stands behind an id and a point is a member. -/
theorem symbolParts_member {tag name : String} (ht : PointFree tag) (hn : PointFree name)
    (member : String) : symbolParts (tag ++ "." ++ name ++ "." ++ member).toList =
      some ((tag ++ "." ++ name).toList, some member.toList) := by
  have hsplit : (tag ++ "." ++ name ++ "." ++ member).toList =
      tag.toList ++ '.' :: (name.toList ++ '.' :: member.toList) := by
    simp [String.toList_append]
  have hid : (tag ++ "." ++ name).toList = tag.toList ++ '.' :: name.toList := by
    simp [String.toList_append]
  obtain ⟨p, ps, hp⟩ := List.exists_cons_of_ne_nil (pieces_ne_nil '.' member.toList)
  have hjoin : joined ['.'] (p :: ps) = member.toList := by
    rw [← hp, joined_pieces]
  rw [hsplit, hid, symbolParts, pieces_append, pieces_append, pieces_of_notMem ht,
    pieces_of_notMem hn, hp]
  simp only [List.singleton_append, hjoin]

namespace Registry

variable {r : Registry} {tag name : String}

/-- What an id leads to. -/
theorem lookUp_pair (ht : PointFree tag) (hn : PointFree name) :
    r.lookUp (tag ++ "." ++ name) =
      ((r.find? (tag ++ "." ++ name)).bind (·.reference? none)).getD
        (.stray (tag ++ "." ++ name)) := by
  simp only [lookUp, symbolParts_pair ht hn, Option.bind_eq_bind, Option.bind_some,
    String.ofList_toList, Option.map_none]

/-- What an id with a member leads to. -/
theorem lookUp_member (ht : PointFree tag) (hn : PointFree name) (member : String) :
    r.lookUp (tag ++ "." ++ name ++ "." ++ member) =
      ((r.find? (tag ++ "." ++ name)).bind fun e =>
        (e.memberIdent? member).map .member).getD
          (.stray (tag ++ "." ++ name ++ "." ++ member)) := by
  simp only [lookUp, symbolParts_member ht hn, Option.bind_eq_bind, Option.bind_some,
    String.ofList_toList, Option.map_some, Entry.reference?]

end Registry

/-- The names of the members of an entry. -/
def Entry.memberNames : Entry → List Name
  | .builtin _ _ => []
  | .declared _ _ shape => shape.memberNames

/-- **How a member with a given name is rendered.** -/
def Shape.rendering (id : String) (full : Name) (shape : Shape) (member : Name) :
    Except BindingError String :=
  match shape with
  | .enumeration _ => (caseIdent id full member).map (full.typeIdent ++ "::" ++ ·)
  | .bitField _ => .ok (full.flagsIdent ++ "::" ++ member.bitIdent)
  | _ => .ok member.display

section Members

variable {id member : String} {full : Name} {shape : Shape}

/-- What is found under the displayed name of one of some things has this name. -/
theorem find?_display {α : Type} {l : List α} (name : α → Name) (hbare : ∀ a ∈ l, (name a).Bare)
    {a : α} (ha : a ∈ l) :
    ∃ b, l.find? (fun b => (name b).display == (name a).display) = some b ∧ name b = name a := by
  have hsome : (l.find? fun b => (name b).display == (name a).display).isSome = true :=
    List.find?_isSome.2 ⟨a, ha, beq_self_eq_true _⟩
  obtain ⟨b, hb⟩ := Option.isSome_iff_exists.1 hsome
  have hdisplay : (name b).display = (name a).display := by
    simpa using List.find?_some hb
  exact ⟨b, hb, ((hbare b (List.mem_of_find?_eq_some hb)).display_inj (hbare a ha)).1 hdisplay⟩

theorem find?_display_eq_none {α : Type} {l : List α} {name : α → Name}
    (h : member ∉ l.map fun a => (name a).display) :
    l.find? (fun b => (name b).display == member) = none := by
  refine List.find?_eq_none.2 fun b hb hdisplay => h ?_
  rw [← beq_iff_eq.1 hdisplay]
  exact List.mem_map_of_mem hb

theorem find?_beq_of_mem {l : List String} (h : member ∈ l) :
    l.find? (· == member) = some member := by
  have hsome : (l.find? (· == member)).isSome = true :=
    List.find?_isSome.2 ⟨member, h, beq_self_eq_true _⟩
  obtain ⟨found, hfound⟩ := Option.isSome_iff_exists.1 hsome
  obtain rfl : found = member := by
    simpa using List.find?_some hfound
  exact hfound

/-- **A member is shown as it is rendered.** -/
theorem memberIdent?_of_mem (hcases : ∀ c ∈ shape.cases, c.name.Bare)
    (hbits : ∀ b ∈ shape.bits, b.name.Bare) {n : Name} (hn : n ∈ shape.memberNames) :
    (Entry.declared id full shape).memberIdent? n.display =
      (shape.rendering id full n).toOption := by
  cases shape with
  | enumeration cases =>
    obtain ⟨c, hc, rfl⟩ : ∃ c ∈ cases, c.name = n := by
      simpa [mem_memberNames, Shape.cases, Shape.bits, Shape.fields] using hn
    obtain ⟨found, hfound, hname⟩ := find?_display (l := cases) Case.name hcases hc
    simp only [Entry.memberIdent?, findCase?, hfound, hname, Shape.rendering]
    cases caseIdent id full c.name <;> rfl
  | bitField bits =>
    obtain ⟨b, hb, rfl⟩ : ∃ b ∈ bits, b.name = n := by
      simpa [mem_memberNames, Shape.cases, Shape.bits, Shape.fields] using hn
    obtain ⟨found, hfound, hname⟩ := find?_display (l := bits) Flag.name hbits hb
    simp only [Entry.memberIdent?, findFlag?, hfound, Option.map_some, hname, Shape.rendering,
      Except.toOption]
  | _ =>
    obtain ⟨f, hf, rfl⟩ : ∃ f ∈ Shape.fields _, f.name = n := by
      simpa [mem_memberNames, Shape.cases, Shape.bits] using hn
    exact find?_beq_of_mem (List.mem_map_of_mem hf)

/-- A name that no member is displayed under shows nothing. -/
theorem memberIdent?_of_notMem (h : member ∉ shape.memberNames.map Name.display) :
    (Entry.declared id full shape).memberIdent? member = none := by
  cases shape with
  | enumeration cases =>
    have hnone : member ∉ cases.map fun c => c.name.display := by
      simpa [mem_memberNames, Shape.cases, Shape.bits, Shape.fields] using h
    simp only [Entry.memberIdent?, findCase?, find?_display_eq_none hnone]
  | bitField bits =>
    have hnone : member ∉ bits.map fun b => b.name.display := by
      simpa [mem_memberNames, Shape.cases, Shape.bits, Shape.fields] using h
    simp only [Entry.memberIdent?, findFlag?, find?_display_eq_none hnone, Option.map_none]
  | _ =>
    refine List.find?_eq_none.2 fun shown hshown heq => h ?_
    obtain ⟨f, hf, rfl⟩ := List.mem_map.1 hshown
    rw [← beq_iff_eq.1 heq]
    exact List.mem_map_of_mem (mem_memberNames.2 (.inr (.inr ⟨f, hf, rfl⟩)))

/-- **A member is rendered with the identifier that is written for it**: a case or a bit behind the
type that it belongs to, a field without the mark of reserved words. -/
theorem rendering_of_writes {r : Registry} {members : List WrittenMember}
    (h : shape.Writes r id full members) {m : WrittenMember} (hm : m ∈ members) :
    ∃ shown, shape.rendering id full m.name = .ok shown ∧
      (shape.kind = .enumeration ∨ shape.kind = .bitField →
        ∃ type, (Entry.declared id full shape).declaredIdent = .ok type ∧
          shown = type ++ "::" ++ m.ident) ∧
      (shape.kind ≠ .enumeration ∧ shape.kind ≠ .bitField →
        m.ident = shown ∨ m.ident = "r#" ++ shown) := by
  cases h with
  | @cases cases idents h =>
    obtain ⟨c, -, ident, hc, rfl⟩ := exists_of_mem_zipWith h hm
    refine ⟨_, map_eq_ok.2 ⟨ident, hc, rfl⟩, fun _ => ⟨_, rfl, rfl⟩, fun hk => ?_⟩
    exact absurd rfl hk.1
  | bits bits =>
    obtain ⟨b, -, rfl⟩ := List.mem_map.1 hm
    exact ⟨_, rfl, fun _ => ⟨_, rfl, rfl⟩, fun hk => absurd rfl hk.2⟩
  | @fields _ lead types hlead h =>
    obtain ⟨f, -, type, -, rfl⟩ := exists_of_mem_zipWith h hm
    have hname : Policy.fieldName f.name.display = f.name.display ∨
        Policy.fieldName f.name.display = "r#" ++ f.name.display := by
      unfold Policy.fieldName
      split
      · exact .inr rfl
      · exact .inl rfl
    cases shape <;> simp only [Shape.fieldLead?, reduceCtorEq] at hlead <;>
      exact ⟨_, rfl, by simp [Shape.kind], fun _ => hname⟩
  | none h => cases hm

end Members

/-- **An entry is referred to as it is declared.** What its id leads to has the identifier that the
declaration declares, and the link to the heading in front of it. What a member leads to is rendered
with the identifier on its line, or in the type of the callback. -/
structure Setting.Agrees (s : Setting) (id : String) (full : Name) (shape : Shape) : Prop where
  entry : shape.kind ≠ .callback → ∃ ident heading,
    (Entry.declared id full shape).declaredIdent = .ok ident ∧
    (Entry.declared id full shape).heading = .ok heading ∧
    s.registry.lookUp id = .entry ident (anchor heading) ∧
    (s.documents = true → .comment ("/// " ++ heading) ∈ s.declare (.declared id full shape)) ∧
    ((s.declare (.declared id full shape)).failures = [] →
      ∃ line, .code line ∈ s.declare (.declared id full shape) ∧ (Declares ident line ∨
        shape.kind = .handle ∧ line = handleLine ident))
  members : shape.kind ≠ .callback → (s.declare (.declared id full shape)).failures = [] →
    ∃ members front back, shape.Writes s.registry id full members ∧
      (s.declare (.declared id full shape)).code =
        front ++ members.map WrittenMember.line ++ back ∧
      ∀ m ∈ members, ∃ shown,
        s.registry.lookUp (id ++ "." ++ m.name.display) = .member shown ∧
        (shape.kind = .enumeration ∨ shape.kind = .bitField →
          ∃ type, (Entry.declared id full shape).declaredIdent = .ok type ∧
            shown = type ++ "::" ++ m.ident) ∧
        (shape.kind ≠ .enumeration ∧ shape.kind ≠ .bitField →
          m.ident = shown ∨ m.ident = "r#" ++ shown)
  fields : ∀ f ∈ shape.fields,
    s.registry.lookUp (id ++ "." ++ f.name.display) = .member f.name.display
  callback : ∀ signature, shape = .callback signature → ∀ text,
    s.registry.typeName (.declared id full shape) = .ok text →
      ∃ types front back, List.Forall₂ (fun p type => fieldType s.registry.typeRef p = .ok type)
        signature.params types ∧
        text = front ++ ", ".intercalate (List.zipWith Field.text signature.params types) ++ back

/-- **Symbols that lead nowhere**: those without a point, those of no entry, and those of a member
that the entry has not. -/
structure Registry.StraysApart (r : Registry) : Prop where
  word : ∀ symbol, PointFree symbol → r.lookUp symbol = .stray symbol
  unknown : ∀ tag name, PointFree tag → PointFree name → r.find? (tag ++ "." ++ name) = none →
    r.lookUp (tag ++ "." ++ name) = .stray (tag ++ "." ++ name) ∧
      ∀ member, r.lookUp (tag ++ "." ++ name ++ "." ++ member) =
        .stray (tag ++ "." ++ name ++ "." ++ member)
  foreign : ∀ tag name e member, PointFree tag → PointFree name →
    r.find? (tag ++ "." ++ name) = some e → member ∉ e.memberNames.map Name.display →
      r.lookUp (tag ++ "." ++ name ++ "." ++ member) =
        .stray (tag ++ "." ++ name ++ "." ++ member)

theorem Registry.straysApart (r : Registry) : r.StraysApart where
  word symbol h := by
    refine (r.lookUp_cases symbol).resolve_right fun hdot => h hdot.1
  unknown tag name ht hn hnone := by
    constructor
    · rw [lookUp_pair ht hn, hnone]
      rfl
    · intro member
      rw [lookUp_member ht hn, hnone]
      rfl
  foreign tag name e member ht hn he hmember := by
    have hshown : e.memberIdent? member = none := by
      cases e with
      | builtin id spelling => rfl
      | declared id full shape => exact memberIdent?_of_notMem hmember
    rw [lookUp_member ht hn, he, Option.bind_some, hshown]
    rfl

section Entries

variable {s : Setting} {id : String} {full : Name} {shape : Shape}

/-- The heading of an entry stands in its declaration. -/
theorem mem_declare_of_mem_heading (hk : shape.kind ≠ .callback) {step : Step}
    (h : step ∈ s.headingScript (.declared id full shape)) :
    step ∈ s.declare (.declared id full shape) := by
  cases shape with
  | callback signature => exact absurd rfl hk
  | typeAlias => simp [Setting.declare, Setting.aliasScript, h]
  | definition => simp [Setting.declare, Setting.definitionScript, h]
  | handle => simp [Setting.declare, Setting.handleScript, h]
  | enumeration => simp [Setting.declare, Setting.enumerationScript, h]
  | bitField => simp [Setting.declare, Setting.bitFieldScript, h]
  | record | union => simp [Setting.declare, Setting.recordScript, h]
  | function => simp [Setting.declare, Setting.functionScript, h]

/-- An entry with an identifier is referred to by it. -/
theorem reference?_none {ident heading : String} {e : Entry} (hident : e.declaredIdent = .ok ident)
    (hheading : e.heading = .ok heading) :
    e.reference? none = some (.entry ident (anchor heading)) := by
  simp only [Entry.reference?, hident, hheading]

variable {raw : String} (hfound : s.registry.find? id = some (.declared id full shape))
  (hid : id = shape.kind.idOf raw) (hraw : PointFree raw)
include hfound hid hraw

/-- What a member of an entry leads to. -/
theorem lookUp_of_mem (hcases : ∀ c ∈ shape.cases, c.name.Bare)
    (hbits : ∀ b ∈ shape.bits, b.name.Bare) {n : Name} (hn : n ∈ shape.memberNames) :
    s.registry.lookUp (id ++ "." ++ n.display) =
      ((shape.rendering id full n).toOption.map Reference.member).getD
        (.stray (id ++ "." ++ n.display)) := by
  subst hid
  rw [Kind.idOf] at hfound ⊢
  rw [Registry.lookUp_member (pointFree_tag _) hraw, hfound, Option.bind_some,
    memberIdent?_of_mem hcases hbits hn]

/-- **An entry without points in its name is referred to as it is declared.** -/
theorem agrees_of_find? (hcases : ∀ c ∈ shape.cases, c.name.Bare)
    (hbits : ∀ b ∈ shape.bits, b.name.Bare) : s.Agrees id full shape where
  entry hk := by
    obtain ⟨ident, hident⟩ := identBy_ok hk (fun name => name) id full
    obtain ⟨heading, hheading⟩ := heading_of_declaredIdent hident
    refine ⟨ident, heading, hident, hheading, ?_, fun hdoc => ?_, fun hf => ?_⟩
    · subst hid
      rw [Kind.idOf] at hfound ⊢
      rw [Registry.lookUp_pair (pointFree_tag _) hraw, hfound, Option.bind_some]
      rw [Kind.idOf] at hident hheading
      rw [reference?_none hident hheading]
      rfl
    · refine mem_declare_of_mem_heading hk ?_
      simp [Setting.headingScript, hdoc, Setting.heading, hheading]
    · obtain ⟨line, hline, hdeclares | ⟨hhandle, hline'⟩⟩ := exists_declares_or_handle hf hident
      · exact ⟨line, hline, .inl hdeclares⟩
      · exact ⟨line, hline, .inr ⟨beq_iff_eq.1 hhandle, hline'⟩⟩
  members hk hf := by
    obtain ⟨members, front, back, hwrites, hcode⟩ := Setting.code_members hk hf
    refine ⟨members, front, back, hwrites, hcode, fun m hm => ?_⟩
    obtain ⟨shown, hshown, hspelled⟩ := rendering_of_writes hwrites hm
    have hn : m.name ∈ shape.memberNames := hwrites.names ▸ List.mem_map_of_mem hm
    refine ⟨shown, ?_, hspelled⟩
    rw [lookUp_of_mem hfound hid hraw hcases hbits hn, hshown]
    rfl
  fields f hf := by
    have hn : f.name ∈ shape.memberNames := mem_memberNames.2 (.inr (.inr ⟨f, hf, rfl⟩))
    have hshown : shape.rendering id full f.name = .ok f.name.display := by
      cases shape with
      | enumeration | bitField => cases hf
      | _ => rfl
    rw [lookUp_of_mem hfound hid hraw hcases hbits hn, hshown]
    rfl
  callback signature hshape text htext := by
    subst hshape
    obtain ⟨types, result, htypes, -, rfl⟩ := Registry.typeName_callback htext
    exact ⟨types, "Option<unsafe extern \"C\" fn(", ")" ++ result ++ ">", htypes,
      by simp only [String.append_assoc]⟩

end Entries

variable {table : BuiltinTable} {text : String} {api : Api}

/-- **References agree with declarations.** In a loaded interface, whatever the module, each entry
that is declared under a name without points is referred to as its declaration spells it, with its
members; and all other symbols are shown as they are. -/
theorem references_agree (h : Api.ofText table text = .ok api) :
    (∀ s : Setting, s.registry = api.registry → ∀ id full shape raw,
      .declared id full shape ∈ api.registry.entries → id = shape.kind.idOf raw →
      PointFree raw → s.Agrees id full shape) ∧
    api.registry.StraysApart := by
  refine ⟨fun s hs id full shape raw he hid hraw => ?_, api.registry.straysApart⟩
  obtain ⟨hcases, hbits⟩ := bare_of_loaded h he
  have hfound : s.registry.find? id = some (.declared id full shape) := by
    rw [hs]
    exact find?_of_mem he
  exact agrees_of_find? hfound hid hraw hcases hbits

/-- A text with a handle, an enumeration, and a structure with a field whose name is a reserved
word. -/
def mixedText : String :=
  "[\"ti\",[[\"taichi/a.h\",false,[],[[\"handle\",\"h\"],[\"enumeration\",\"e\",\x7b\"a\":0\x7d],"
    ++ "[\"structure\",\"s\",[[\"type\",\"handle.h\"]]]]]]]"

/-- The enumeration in `mixedText`. -/
def mixedEnumeration : Entry :=
  .declared "enumeration.e" (.withPrefix "ti" "e") (.enumeration [⟨.new "a", 0⟩])

/-- The interface in `mixedText`. -/
def mixed : Api where
  lead := some "ti"
  registry :=
    ⟨[.declared "handle.h" (.withPrefix "ti" "h") .handle, mixedEnumeration,
      .declared "structure.s" (.withPrefix "ti" "s")
        (.record [⟨.new "type", "handle.h", false, false, none⟩])], by decide⟩
  modules := [⟨"taichi/a.h", false, [], ["handle.h", "enumeration.e", "structure.s"], none⟩]

theorem ofText_mixed : Api.ofText .empty mixedText = .ok mixed := by
  cbv

/-- In `mixedText` a handle, a case and a field are referred to as they are declared. -/
theorem references_agree_mixed : Api.ofText .empty mixedText = .ok mixed ∧
    (∃ heading, (Entry.declared "handle.h" (.withPrefix "ti" "h") .handle).heading = .ok heading ∧
      mixed.registry.lookUp "handle.h" = .entry "TiH" (anchor heading)) ∧
    (∃ m : WrittenMember,
      m.line ∈ ((⟨mixed.registry, none, .default⟩ : Setting).declare mixedEnumeration).code ∧
      mixed.registry.lookUp "enumeration.e.a" = .member ("TiE::" ++ m.ident)) ∧
    mixed.registry.lookUp "structure.s.type" = .member "type" ∧
    mixed.registry.lookUp "handle.z" = .stray "handle.z" := by
  obtain ⟨hagrees, hstrays⟩ := references_agree ofText_mixed
  have hs : (⟨mixed.registry, none, .default⟩ : Setting).registry = mixed.registry := rfl
  have hhandle := hagrees _ hs "handle.h" _ _ "h" (.head _) rfl (by decide)
  have hcases := hagrees _ hs "enumeration.e" _ _ "e" (.tail _ (.head _)) rfl (by decide)
  have hrecord := hagrees _ hs "structure.s" _ _ "s" (.tail _ (.tail _ (.head _))) rfl (by decide)
  refine ⟨ofText_mixed, ?_, ?_, ?_, ?_⟩
  · obtain ⟨ident, heading, hident, hheading, hlook, -⟩ := hhandle.entry (by decide)
    obtain rfl : "TiH" = ident := Except.ok.inj hident
    exact ⟨heading, hheading, hlook⟩
  · obtain ⟨members, front, back, hwrites, hcode, hshown⟩ :=
      hcases.members (by decide) (by decide +kernel)
    have hnames : members.map WrittenMember.name = [.new "a"] := hwrites.names
    obtain ⟨m, rfl, hm⟩ := List.map_eq_singleton_iff.1 hnames
    obtain ⟨shown, hlook, hcase, -⟩ := hshown m (.head _)
    obtain ⟨type, htype, rfl⟩ := hcase (.inl rfl)
    obtain rfl : "TiE" = type := Except.ok.inj htype
    have hsymbol : "enumeration.e" ++ "." ++ (Name.new "a").display = "enumeration.e.a" := by
      decide
    have hpath : "TiE" ++ "::" = "TiE::" := by decide
    rw [hm, hsymbol, hpath] at hlook
    refine ⟨m, ?_, hlook⟩
    have hline : m.line ∈ front ++ [m].map WrittenMember.line ++ back := by simp
    exact hcode ▸ hline
  · have hfield := hrecord.fields ⟨.new "type", "handle.h", false, false, none⟩ (.head _)
    have hdisplay : (Name.new "type").display = "type" := by decide
    have hsymbol : "structure.s" ++ "." ++ "type" = "structure.s.type" := by decide
    rwa [hdisplay, hsymbol] at hfield
  · have hnone : mixed.registry.find? ("handle" ++ "." ++ "z") = none := by decide
    exact (hstrays.unknown "handle" "z" (by decide) (by decide) hnone).1

end Bindery

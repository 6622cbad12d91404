import Bindery.Proofs.ReadBack

/-!
# What a prefix changes

The prefix of an interface is put in front of every name. It shows in the identifiers, and nowhere
else: short names, the type of an enumeration, the letter in front of a digit and whether a record
has a short name do not depend on it.

* `entryName_eq`, `withoutPrefix_entryName`: the words of a name under a prefix.
* `infoEnd_suffix_iff`: **the mark of a record with a short name never lies across the end of a
  prefix**, because words begin with a capital.
* `Policy.Alike`, `alike_entryName`: **no convention depends on the prefix**.
* `ident?_lead`: **an identifier under a prefix** is the prefix, in the casing of its kind, in front
  of the identifier without it.
* `prefix_only_leads`: **one declaration under two prefixes**.
-/

namespace Bindery

/-- The words of a prefix, if there is one. -/
def leadWords (lead : Option String) : List Word :=
  (lead.map Word.ofText).getD []

section Names

variable {lead : Option String} {raw : String} {marked : Bool}

/-- **The name of an entry is its own name behind the words of the prefix.** -/
theorem entryName_eq : entryName lead raw marked =
    ⟨leadWords lead ++ (entryName none raw marked).words, (leadWords lead).length⟩ := by
  cases lead <;> cases marked <;>
    simp [entryName, leadWords, Name.withPrefix, Name.extend, Name.new]

/-- Without a prefix, a name has words if its text has or if it is marked. -/
theorem words_entryName_ne_nil (h : Word.ofText raw ≠ [] ∨ marked = true) :
    (entryName none raw marked).words ≠ [] := by
  rcases h with htext | rfl
  · cases marked <;> simp [entryName, Name.extend, Name.new, htext]
  · have hext : Word.ofText extensionWord ≠ [] := by decide
    simp [entryName, Name.extend, hext]

/-- **A prefix is left out again.** -/
theorem withoutPrefix_entryName (lead : Option String)
    (h : (entryName none raw marked).words ≠ []) :
    (entryName lead raw marked).withoutPrefix = entryName none raw marked := by
  have hpos : 0 < (entryName none raw marked).words.length := List.length_pos_iff.2 h
  have hbare : (entryName none raw marked).lead = 0 := by cases marked <;> rfl
  rw [entryName_eq, Name.withoutPrefix, if_pos (by simpa using hpos), List.drop_left, ← hbare]

/-- A prefix is not displayed. -/
theorem display_entryName :
    (entryName lead raw marked).display = (entryName none raw marked).display := by
  have hbare : (entryName none raw marked).lead = 0 := by cases marked <;> rfl
  rw [entryName_eq, Name.display, Name.display, List.drop_left, hbare, List.drop_zero]

end Names

section Info

variable {us ws : List Word}

theorem title_cons (c : Char) (cs : List Char) : Word.title (c :: cs) =
    (if c.isAlpha then c.toUpper else c) :: Word.titleAfter c.isAlpha cs := by
  unfold Word.title
  rw [titleAfter_cons]
  by_cases hc : c.isAlpha <;> simp [Word.titleAfter, hc]

/-- A word with capitals does not begin with a small letter. -/
theorem isLower_title_head (c : Char) :
    (if c.isAlpha then c.toUpper else c).isLower = false := by
  by_cases ha : c.toNat < 128
  · exact ascii_cases (P := fun c => (if c.isAlpha then c.toUpper else c).isLower = false)
      (by decide) ha
  · have hsame : (if c.isAlpha then c.toUpper else c) = c := by
      rw [toUpper_of_not_ascii ha, ite_self]
    rw [hsame, Char.isLower, Bool.and_eq_false_iff]
    refine .inr (decide_eq_false fun hle => ha ?_)
    have hz : c.val.toNat ≤ 122 := hle
    show c.val.toNat < 128
    omega

/-- The only end of the mark that does not begin with a small letter is the whole mark. -/
theorem eq_infoEnd_of_suffix {c : Char} {cs : List Char} (h : c :: cs <:+ Policy.infoEnd)
    (hc : c.isLower = false) : c :: cs = Policy.infoEnd := by
  have hends : ∀ t ∈ Policy.infoEnd.tails, t.head?.any Char.isLower = false →
      t = Policy.infoEnd ∨ t = [] := by
    decide
  exact (hends _ ((List.mem_tails _ _).2 h) hc).resolve_right (List.cons_ne_nil _ _)

/-- **The mark never lies across the end of a prefix.** It ends words behind a prefix exactly if it
ends them without it. -/
theorem infoEnd_suffix_iff (us : List Word) (hne : ws ≠ []) (hws : ∀ w ∈ ws, w ≠ []) :
    Policy.infoEnd <:+ (us ++ ws).flatMap Word.title ↔
      Policy.infoEnd <:+ ws.flatMap Word.title := by
  rw [List.flatMap_append]
  constructor
  · intro h
    rcases List.suffix_or_suffix_of_suffix h (List.suffix_append _ (ws.flatMap Word.title))
      with hmark | hwords
    · exact hmark
    · -- the words would be a part of the mark, which begins with a small letter or is all of it
      obtain ⟨w, ws, rfl⟩ := List.exists_cons_of_ne_nil hne
      obtain ⟨c, cs, rfl⟩ := List.exists_cons_of_ne_nil (hws w (.head _))
      rw [List.flatMap_cons, title_cons, List.cons_append] at hwords ⊢
      rw [eq_infoEnd_of_suffix hwords (isLower_title_head c)]
  · intro h
    exact h.trans (List.suffix_append _ _)

end Info

/-- **Names that all conventions treat alike**: as those of enumerations, with their cases, and as
those of records. -/
structure Policy.Alike (a b : Name) : Prop where
  enumRepr : enumRepr a = enumRepr b
  digitLetter : digitLetter? a = digitLetter? b
  isInfoType : isInfoType a.typeIdent = isInfoType b.typeIdent
  caseIdent : ∀ id case, caseIdent id a case = caseIdent id b case

/-- **No convention depends on the prefix.** -/
theorem alike_entryName {raw : String} {marked : Bool} (lead : Option String)
    (h : (entryName none raw marked).words ≠ []) :
    Policy.Alike (entryName lead raw marked) (entryName none raw marked) := by
  have hletter : Policy.digitLetter? (entryName lead raw marked) =
      Policy.digitLetter? (entryName none raw marked) := by
    rw [Policy.digitLetter?, display_entryName, Policy.digitLetter?]
  refine ⟨?_, hletter, ?_, fun id case => ?_⟩
  · rw [Policy.enumRepr, display_entryName, Policy.enumRepr]
  · have hnormal := (made_entryName none raw marked).normal
    have hmark := infoEnd_suffix_iff (leadWords lead) h fun w hw => (hnormal w hw).ne_nil
    unfold Policy.isInfoType Name.typeIdent Name.camel
    rw [Bool.eq_iff_iff, List.isSuffixOf_iff_suffix, List.isSuffixOf_iff_suffix,
      String.toList_ofList, String.toList_ofList, entryName_eq]
    exact hmark
  · rw [caseIdent, hletter, caseIdent]

theorem Policy.Alike.trans_symm {a b c : Name} (h : Alike a b) (h' : Alike c b) : Alike a c :=
  ⟨h.enumRepr.trans h'.enumRepr.symm, h.digitLetter.trans h'.digitLetter.symm,
    h.isInfoType.trans h'.isInfoType.symm,
    fun id case => (h.caseIdent id case).trans (h'.caseIdent id case).symm⟩

/-- The casing that the identifiers of a kind have. -/
def Kind.casing : Kind → Name → String
  | .definition => Name.screaming
  | .function => Name.snake
  | _ => Name.camel

/-- What stands between a prefix and the rest of an identifier of a kind. -/
def Kind.joint : Kind → String
  | .definition => "_"
  | .function => "_"
  | _ => ""

section Identifiers

variable {us ws : List Word}

theorem joined_append (sep : List Char) (hu : us ≠ []) (hw : ws ≠ []) :
    Text.joined sep (us ++ ws) = Text.joined sep us ++ sep ++ Text.joined sep ws := by
  induction us with
  | nil => exact absurd rfl hu
  | cons u us ih =>
    obtain ⟨w, ws, rfl⟩ := List.exists_cons_of_ne_nil hw
    cases us with
    | nil => rfl
    | cons v vs =>
      rw [List.cons_append, List.cons_append, Text.joined_cons_cons, Text.joined_cons_cons,
        ← List.cons_append, ih (List.cons_ne_nil _ _)]
      simp only [List.append_assoc]

theorem snake_append (hu : us ≠ []) (hw : ws ≠ []) (m n k : ℕ) :
    Name.snake ⟨us ++ ws, m⟩ = Name.snake ⟨us, n⟩ ++ "_" ++ Name.snake ⟨ws, k⟩ := by
  rw [← String.toList_inj]
  simp only [Name.toList_snake, String.toList_append, joined_append _ hu hw]
  rfl

theorem screaming_append (hu : us ≠ []) (hw : ws ≠ []) (m n k : ℕ) :
    Name.screaming ⟨us ++ ws, m⟩ = Name.screaming ⟨us, n⟩ ++ "_" ++ Name.screaming ⟨ws, k⟩ := by
  rw [← String.toList_inj]
  simp only [Name.toList_screaming, snake_append hu hw m n k, String.toList_append,
    List.map_append]
  rfl

theorem camel_append (m n k : ℕ) :
    Name.camel ⟨us ++ ws, m⟩ = Name.camel ⟨us, n⟩ ++ Name.camel ⟨ws, k⟩ := by
  rw [← String.toList_inj]
  simp only [Name.camel, String.toList_append, String.toList_ofList, List.flatMap_append]

/-- **An identifier under a prefix** is the prefix in the same casing, joined to the identifier
without it. -/
theorem ident?_lead {shape : Shape} (hu : us ≠ []) (hw : ws ≠ []) (m n k : ℕ) :
    shape.ident? ⟨us ++ ws, m⟩ = (shape.ident? ⟨ws, k⟩).map fun key =>
      shape.kind.casing ⟨us, n⟩ ++ shape.kind.joint ++ key := by
  cases shape with
  | definition value => exact congrArg some (screaming_append hu hw m n k)
  | function signature deviceCommand => exact congrArg some (snake_append hu hw m n k)
  | callback signature => rfl
  | bitField bits =>
    -- the word at the end stays behind the other words
    have hwords : Name.extend ⟨us ++ ws, m⟩ Policy.flagsWord =
        ⟨us ++ (ws ++ Word.ofText Policy.flagsWord), m⟩ := by
      rw [Name.extend, List.append_assoc]
    have hflags : Name.flagsIdent ⟨us ++ ws, m⟩ =
        Name.camel ⟨us, n⟩ ++ Name.flagsIdent ⟨ws, k⟩ := by
      rw [Name.flagsIdent, hwords, camel_append m n k]
      rfl
    simp only [Shape.ident?, Option.map_some, Kind.casing, Kind.joint, Shape.kind, hflags,
      String.append_empty]
  | typeAlias | handle | enumeration | record | union =>
    simp only [Shape.ident?, Name.typeIdent, Option.map_some, Kind.casing, Kind.joint, Shape.kind,
      camel_append m n k, String.append_empty]

end Identifiers

section Declarations

variable {lead : Option String} {raw : String} {marked : Bool} {written : DraftShape}
  {shape : Shape}

/-- What a declaration is loaded as: its shape does not depend on the prefix. -/
theorem declaredEntry_eq_ok_iff {e : Entry} : declaredEntry lead raw marked written = .ok e ↔
    ∃ shape, written.toShape (written.kind.idOf raw) = .ok shape ∧
      e = .declared (written.kind.idOf raw) (entryName lead raw marked) shape := by
  constructor
  · intro h
    obtain ⟨shape, hshape, h⟩ := bind_eq_ok.1 h
    exact ⟨shape, hshape, (Except.ok.inj h).symm⟩
  · rintro ⟨shape, hshape, rfl⟩
    exact bind_eq_ok.2 ⟨shape, hshape, rfl⟩

theorem identBy_declared {f : Name → Name} {id key : String} {full : Name}
    (h : shape.ident? (f full) = some key) :
    (Entry.declared id full shape).identBy f = .ok key := by
  simp [Entry.identBy, h]

/-- Everything but a callback has an identifier. -/
theorem exists_ident? (h : shape.kind ≠ .callback) (name : Name) :
    ∃ key, shape.ident? name = some key := by
  cases shape with
  | callback signature => exact absurd rfl h
  | _ => exact ⟨_, rfl⟩

/-- **One declaration under two prefixes**, each of which may be absent. Let a declaration that is
no callback have a word in its name, the mark of extensions included. Under both prefixes it is
loaded as an entry with the same short name, which is the identifier that it is declared under where
there is no prefix, and all conventions treat it alike. The identifier under a prefix with words is
the prefix in the same casing, joined to the short name. -/
theorem prefix_only_leads {e : Entry} (h : declaredEntry lead raw marked written = .ok e)
    (hkind : written.kind ≠ .callback) (hword : Word.ofText raw ≠ [] ∨ marked = true)
    (lead' : Option String) :
    ∃ key e' full full', declaredEntry lead' raw marked written = .ok e' ∧
      e.shortIdent = .ok key ∧ e'.shortIdent = .ok key ∧
      e.name? = some full ∧ e'.name? = some full' ∧ Policy.Alike full full' ∧
      (∃ bare, declaredEntry none raw marked written = .ok bare ∧ bare.declaredIdent = .ok key) ∧
      ∀ p, lead = some p → Word.ofText p ≠ [] →
        e.declaredIdent = .ok (written.kind.casing (.new p) ++ written.kind.joint ++ key) := by
  obtain ⟨shape, hshape, rfl⟩ := declaredEntry_eq_ok_iff.1 h
  have hwords := words_entryName_ne_nil hword
  have hsame := kind_of_toShape hshape
  obtain ⟨key, hkey⟩ := exists_ident? (hsame ▸ hkind) (entryName none raw marked)
  have hshort : ∀ lead, (Entry.declared (written.kind.idOf raw) (entryName lead raw marked)
      shape).shortIdent = .ok key := fun lead =>
    identBy_declared (withoutPrefix_entryName lead hwords ▸ hkey)
  refine ⟨key, _, _, _, declaredEntry_eq_ok_iff.2 ⟨shape, hshape, rfl⟩, hshort lead, hshort lead',
    rfl, rfl, (alike_entryName lead hwords).trans_symm (alike_entryName lead' hwords),
    ⟨_, declaredEntry_eq_ok_iff.2 ⟨shape, hshape, rfl⟩, identBy_declared hkey⟩, ?_⟩
  rintro p rfl hp
  have hlead : leadWords (some p) = (Name.new p).words := rfl
  have hne : (Name.new p).words ≠ [] := hp
  refine identBy_declared ?_
  rw [entryName_eq, hlead, ident?_lead hne hwords _ 0 (entryName none raw marked).lead, ← hsame]
  exact congrArg (Option.map _) hkey

/-- A record whose own name looks like the end of the mark, under a prefix that ends with the first
letter of the mark, and without one. -/
theorem prefix_only_leads_straddling :
    ∃ e e' : Entry, declaredEntry (some "my_i") "nfo" false (.record []) = .ok e ∧
      declaredEntry none "nfo" false (.record []) = .ok e' ∧
      e.shortIdent = .ok "Nfo" ∧ e'.shortIdent = .ok "Nfo" ∧ e'.declaredIdent = .ok "Nfo" ∧
      e.declaredIdent = .ok "MyINfo" ∧ ∃ full full', e.name? = some full ∧
        e'.name? = some full' ∧ Policy.Alike full full' := by
  have hload : declaredEntry (some "my_i") "nfo" false (.record []) =
      .ok (.declared "structure.nfo" (.withPrefix "my_i" "nfo") (.record [])) := by
    decide
  obtain ⟨key, e', full, full', hload', hshort, hshort', hname, hname', halike,
    ⟨bare, hbare, hdeclared⟩, hlead⟩ := prefix_only_leads hload (by decide) (by decide) none
  obtain rfl : "Nfo" = key := Except.ok.inj hshort
  obtain rfl := Except.ok.inj (hbare.symm.trans hload')
  exact ⟨_, _, hload, hload', hshort, hshort', hdeclared, hlead "my_i" rfl (by decide), full, full',
    hname, hname', halike⟩

end Declarations

end Bindery

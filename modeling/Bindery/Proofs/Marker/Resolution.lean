import Bindery.Proofs.Loading
import Bindery.Proofs.Marker.Collision
import Bindery.Proofs.Spelling

/-!
# Resolving the references of a line

Where names consist of letters, digits and underscores, nothing that a reference is shown as can be
mistaken for a symbol. So the condition for the rounds to be right is the exact one.

* `Registry.Plain`: the names of an interface are such names.
* `legible_lookUp`: what its references are shown as has neither points nor backticks.
* `Registry.resolveOnce`: a line with each of its markers replaced on its own.
* `Registry.resolveLine_eq_once_iff`: **a line is resolved as it should be exactly if no markers
  collide in it**.
-/

namespace Bindery

open Text

/-- A letter, a digit or an underscore. -/
def isNameChar (c : Char) : Bool :=
  c.isAlphanum || c == '_'

/-- A text of letters, digits and underscores. -/
def IsPlain (text : String) : Prop :=
  ∀ c ∈ text.toList, isNameChar c = true

instance (text : String) : Decidable (IsPlain text) :=
  List.decidableBAll _ _

/-- A name of letters, digits and underscores. -/
def Name.Plain (name : Name) : Prop :=
  IsPlain name.snake

instance (name : Name) : Decidable name.Plain :=
  inferInstanceAs (Decidable (IsPlain _))

/-- A shape whose members have plain names. -/
@[mk_iff]
structure Shape.Plain (s : Shape) : Prop where
  cases : ∀ c ∈ s.cases, c.name.Plain
  bits : ∀ b ∈ s.bits, b.name.Plain
  fields : ∀ f ∈ s.fields, f.name.Plain

instance (s : Shape) : Decidable s.Plain :=
  decidable_of_iff _ (Shape.plain_iff s).symm

/-- An entry with plain names. -/
def Entry.Plain : Entry → Prop
  | .builtin _ _ => True
  | .declared _ name shape => name.Plain ∧ shape.Plain

instance : (e : Entry) → Decidable e.Plain
  | .builtin _ _ => .isTrue trivial
  | .declared _ _ _ => inferInstanceAs (Decidable (_ ∧ _))

/-- **An interface with plain names.** -/
def Registry.Plain (r : Registry) : Prop :=
  ∀ e ∈ r.entries, e.Plain

instance (r : Registry) : Decidable r.Plain :=
  List.decidableBAll _ _

theorem ascii_of_isNameChar {c : Char} (h : isNameChar c = true) : c.toNat < 128 := by
  unfold isNameChar Char.isAlphanum Char.isAlpha Char.isUpper Char.isLower Char.isDigit at h
  simp only [Bool.or_eq_true, Bool.and_eq_true, decide_eq_true_eq, beq_iff_eq] at h
  rcases h with ((⟨-, h⟩ | ⟨-, h⟩) | ⟨-, h⟩) | rfl
  · have hz : c.val.toNat ≤ 90 := h
    show c.val.toNat < 128
    omega
  · have hz : c.val.toNat ≤ 122 := h
    show c.val.toNat < 128
    omega
  · have hz : c.val.toNat ≤ 57 := h
    show c.val.toNat < 128
    omega
  · decide

theorem isNameChar_toUpper {c : Char} (h : isNameChar c = true) : isNameChar c.toUpper = true :=
  ascii_cases (P := fun c => isNameChar c = true → isNameChar c.toUpper = true) (by decide)
    (ascii_of_isNameChar h) h

theorem isNameChar_toLower {c : Char} (h : isNameChar c = true) : isNameChar c.toLower = true :=
  ascii_cases (P := fun c => isNameChar c = true → isNameChar c.toLower = true) (by decide)
    (ascii_of_isNameChar h) h

theorem casingClass_isNameChar : CasingClass fun c => isNameChar c = true where
  upper _ := isNameChar_toUpper
  lower _ := isNameChar_toLower
  alphanum c h := by simp [isNameChar, h]
  underscore := by decide

namespace Name

variable {name : Name}

theorem plain_iff : name.Plain ↔ name.Within fun c => isNameChar c = true :=
  (within_iff_snake casingClass_isNameChar).symm

theorem plain_extend {text : String} (h : name.Plain) (ht : IsPlain text) :
    (name.extend text).Plain :=
  plain_iff.2 ((plain_iff.1 h).extend casingClass_isNameChar ht)

/-- Plain texts make plain names. -/
theorem plain_withPrefix {lead text : String} (hl : IsPlain lead) (ht : IsPlain text) :
    (withPrefix lead text).Plain := by
  rw [plain_iff]
  intro w hw
  rcases List.mem_append.1 hw with hw | hw
  · exact casingClass_isNameChar.ofText hl w hw
  · exact casingClass_isNameChar.ofText ht w hw

theorem plain_new {text : String} (h : IsPlain text) : (new text).Plain :=
  plain_iff.2 (casingClass_isNameChar.ofText h)

/-- The name of an entry that is read with a plain prefix from a plain text. -/
theorem plain_entryName {lead : Option String} {text : String} (hl : ∀ p ∈ lead, IsPlain p)
    (ht : IsPlain text) (isExtension : Bool) : (entryName lead text isExtension).Plain := by
  have hword : IsPlain extensionWord := by decide
  cases lead with
  | none =>
    cases isExtension with
    | false => exact plain_new ht
    | true => exact plain_extend (plain_new ht) hword
  | some p =>
    have hbase := plain_withPrefix (hl p rfl) ht
    cases isExtension with
    | false => exact hbase
    | true => exact plain_extend hbase hword

end Name

/-- A text in ASCII without points and backticks. -/
def Clear (cs : List Char) : Prop :=
  ∀ c ∈ cs, c.toNat < 128 ∧ c ≠ tick ∧ c ≠ '.'

theorem clear_of_isNameChar {c : Char} (h : isNameChar c = true) :
    c.toNat < 128 ∧ c ≠ tick ∧ c ≠ '.' := by
  have hascii := ascii_of_isNameChar h
  have hother : c ≠ tick ∧ c ≠ '.' :=
    ascii_cases (P := fun c => isNameChar c = true → c ≠ tick ∧ c ≠ '.') (by decide) hascii h
  exact ⟨hascii, hother⟩

theorem casingClass_clear : CasingClass fun c => c.toNat < 128 ∧ c ≠ tick ∧ c ≠ '.' where
  upper c h :=
    ascii_cases (P := fun c => c ≠ tick ∧ c ≠ '.' →
      c.toUpper.toNat < 128 ∧ c.toUpper ≠ tick ∧ c.toUpper ≠ '.') (by decide) h.1 h.2
  lower c h :=
    ascii_cases (P := fun c => c ≠ tick ∧ c ≠ '.' →
      c.toLower.toNat < 128 ∧ c.toLower ≠ tick ∧ c.toLower ≠ '.') (by decide) h.1 h.2
  alphanum c h := clear_of_isNameChar (casingClass_isNameChar.alphanum c h)
  underscore := by decide

/-- A shape is plain if the names of its members are. -/
theorem Shape.plain_iff_memberNames {s : Shape} : s.Plain ↔ ∀ n ∈ s.memberNames, n.Plain := by
  simp [Shape.plain_iff, Shape.memberNames, or_imp, forall_and]

/-- The names of an entry with plain names. -/
theorem Entry.Plain.within {e : Entry} (he : e.Plain) :
    ∀ n ∈ e.names, n.Within fun c => c.toNat < 128 ∧ c ≠ tick ∧ c ≠ '.' := by
  suffices hplain : ∀ n ∈ e.names, n.Plain from
    fun n hn => (Name.plain_iff.1 (hplain n hn)).mono fun _ => clear_of_isNameChar
  cases e with
  | builtin id spelling => simp [Entry.names]
  | declared id name shape =>
    exact List.forall_mem_cons.2 ⟨he.1, Shape.plain_iff_memberNames.1 he.2⟩

/-- The identifier of an entry with plain names. -/
theorem clear_declaredIdent {e : Entry} {ident : String} (he : e.Plain)
    (h : e.declaredIdent = .ok ident) : Clear ident.toList :=
  within_declaredIdent casingClass_clear he.within h

/-- What a member with a plain name is shown as. -/
theorem clear_memberIdent? {e : Entry} {member ident : String} (he : e.Plain)
    (h : e.memberIdent? member = some ident) : Clear ident.toList :=
  within_memberIdent? casingClass_clear (by decide) he.within h

/-- In ASCII, lower case is that of each character; what follows sees it as what came before. -/
theorem lowercaseAfter_ascii (before : List Char) {cs : List Char} (ds : List Char)
    (h : ∀ c ∈ cs, c.toNat < 128) : lowercaseAfter before (cs ++ ds) =
      cs.map Char.toLower ++ lowercaseAfter (cs.reverse ++ before) ds := by
  induction cs generalizing before with
  | nil => rfl
  | cons c cs ih =>
    have hc : c.toNat < 128 := h c (by simp)
    -- the one letter whose lower case depends on the text around it
    have hsigma : c ≠ 'Σ' := by
      rintro rfl
      exact absurd hc (by decide)
    rw [List.cons_append, lowercaseAfter, if_neg hsigma, lowerChar, if_pos hc,
      ih (c :: before) fun d hd => h d (List.mem_cons_of_mem _ hd), List.reverse_cons,
      List.append_assoc]
    rfl

theorem lowercaseAfter_of_ascii (before : List Char) {cs : List Char}
    (h : ∀ c ∈ cs, c.toNat < 128) : lowercaseAfter before cs = cs.map Char.toLower := by
  have hall := lowercaseAfter_ascii before [] h
  rwa [List.append_nil, lowercaseAfter, List.append_nil] at hall

theorem lowercase_ascii {cs : List Char} (h : ∀ c ∈ cs, c.toNat < 128) :
    lowercase cs = cs.map Char.toLower :=
  lowercaseAfter_of_ascii [] h

/-- A text in ASCII without points. -/
def Undotted (cs : List Char) : Prop :=
  ∀ c ∈ cs, c.toNat < 128 ∧ c ≠ '.'

instance (cs : List Char) : Decidable (Undotted cs) :=
  List.decidableBAll _ _

/-- The link to a heading in ASCII without points. -/
theorem anchor_chars {heading : String} (h : Undotted heading.toList) :
    ∀ c ∈ (anchor heading).toList, c ≠ tick ∧ c ≠ '.' := by
  intro c hc
  unfold anchor at hc
  rw [String.toList_ofList, lowercase_ascii fun d hd => (h d hd).1] at hc
  rcases List.mem_cons.1 hc with rfl | hc
  · decide
  · obtain ⟨hc, hticks⟩ := List.mem_filter.1 hc
    -- backticks are dropped; a point could only come from a point
    refine ⟨(of_decide_eq_true hticks).1, ?_⟩
    obtain ⟨lower, hlower, rfl⟩ := List.mem_map.1 hc
    obtain ⟨d, hd, rfl⟩ := List.mem_map.1 hlower
    obtain ⟨hascii, hpoint⟩ := h d hd
    exact ascii_cases (P := fun d => d ≠ '.' →
      (if d.toLower = ' ' then '-' else d.toLower) ≠ '.') (by decide) hascii hpoint

/-- The heading of an entry with a plain name. -/
theorem undotted_heading {e : Entry} {heading : String} (he : e.Plain)
    (h : e.heading = .ok heading) : Undotted heading.toList := by
  unfold Entry.heading at h
  rcases hident : e.declaredIdent with err | ident
  · simp [hident, Except.map] at h
  · have hclear := clear_declaredIdent he hident
    rw [hident] at h
    obtain rfl := Except.ok.inj h
    have htitle : Undotted e.kind.title.toList := by
      cases e.kind <;> decide
    have hopen : Undotted " `".toList := by decide
    have hclose : Undotted "`".toList := by decide
    have hmark : Undotted (if e.isDeviceCommand then deviceCommandMark else "").toList := by
      cases e.isDeviceCommand <;> decide
    intro c hc
    simp only [String.toList_append, List.mem_append] at hc
    rcases hc with (((hc | hc) | hc) | hc) | hc
    · exact htitle c hc
    · exact hopen c hc
    · exact ⟨(hclear c hc).1, (hclear c hc).2.2⟩
    · exact hclose c hc
    · exact hmark c hc

/-- A symbol without a point leads nowhere. -/
theorem dot_mem_of_symbolParts {symbol id : List Char} {member : Option (List Char)}
    (h : symbolParts symbol = some (id, member)) : '.' ∈ symbol := by
  by_contra hdot
  rw [symbolParts, pieces_of_notMem hdot] at h
  cases h

/-- What an entry with plain names is shown as, whole or by a member. -/
theorem clear_reference? {e : Entry} {member : Option String} {shown : Reference} (he : e.Plain)
    (h : e.reference? member = some shown) : shown.isStray = false ∧ Clear shown.name.toList ∧
      ∀ c ∈ shown.closing, c ≠ tick ∧ c ≠ '.' := by
  cases member with
  | some member =>
    obtain ⟨ident, hident, rfl⟩ := Option.map_eq_some_iff.1 h
    exact ⟨rfl, clear_memberIdent? he hident, by simp [Reference.closing, Reference.link?]⟩
  | none =>
    simp only [Entry.reference?] at h
    split at h
    · rename_i ident heading hident hheading
      obtain rfl := Option.some.inj h
      refine ⟨rfl, clear_declaredIdent he hident, fun c hc => ?_⟩
      have hanchor := anchor_chars (undotted_heading he hheading)
      simp only [Reference.closing, Reference.link?, List.cons_append, List.mem_cons,
        List.mem_append, List.not_mem_nil, or_false] at hc
      rcases hc with rfl | rfl | hc | rfl
      · decide
      · decide
      · exact hanchor c hc
      · decide
    · cases h

namespace Registry

variable {r : Registry}

/-- A symbol leads nowhere, or to an entry or a member of one. -/
theorem lookUp_cases (symbol : String) : r.lookUp symbol = .stray symbol ∨
    '.' ∈ symbol.toList ∧
      ∃ e ∈ r.entries, ∃ member, e.reference? member = some (r.lookUp symbol) := by
  unfold lookUp
  rcases hparts : symbolParts symbol.toList with _ | ⟨id, member⟩
  · exact Or.inl rfl
  rcases hfind : r.find? (String.ofList id) with _ | e
  · exact Or.inl (by simp [hfind])
  rcases href : e.reference? (member.map String.ofList) with _ | reference
  · exact Or.inl (by simp [hfind, href])
  · refine Or.inr ⟨dot_mem_of_symbolParts hparts, e, List.mem_of_find?_eq_some hfind,
      member.map String.ofList, ?_⟩
    simp [hfind, href]

/-- **References of an interface with plain names** cannot be mistaken for symbols. -/
theorem legible_lookUp (hr : r.Plain) : Marker.Legible fun s => r.lookUp (String.ofList s) := by
  have hshown : ∀ s : List Char, r.lookUp (String.ofList s) = .stray (String.ofList s) ∨
      '.' ∈ s ∧ (r.lookUp (String.ofList s)).isStray = false ∧
        Clear (r.lookUp (String.ofList s)).name.toList ∧
        ∀ c ∈ (r.lookUp (String.ofList s)).closing, c ≠ tick ∧ c ≠ '.' := by
    intro s
    rcases r.lookUp_cases (String.ofList s) with hstray | ⟨hdot, e, he, member, hreference⟩
    · exact Or.inl hstray
    · exact Or.inr ⟨by simpa using hdot, clear_reference? (hr e he) hreference⟩
  constructor
  · intro s hs
    rcases hshown s with h | ⟨-, h, -⟩
    · simp [h, Reference.name]
    · rw [h] at hs
      cases hs
  · intro s hs
    rcases hshown s with h | ⟨hdot, -⟩
    · simp [h, Reference.isStray] at hs
    · exact hdot
  · intro s hs c hc
    rcases hshown s with h | ⟨-, -, hclear, -⟩
    · simp [h, Reference.isStray] at hs
    · exact (hclear c hc).2
  · intro s c hc
    rcases hshown s with h | ⟨-, -, -, hclosing⟩
    · simp [h, Reference.closing, Reference.link?] at hc
    · exact hclosing c hc

/-- **A line with each of its markers replaced on its own.** -/
def resolveOnce (r : Registry) (line : String) : String :=
  String.ofList
    ((segments line.toList).flatMap (Marker.display fun s => r.lookUp (String.ofList s)))

/-- Markers collide in a line. -/
def Collides (r : Registry) (line : String) : Prop :=
  Marker.Collides (fun s => r.lookUp (String.ofList s)) line.toList

/-- **When a line is resolved as it should be.** For an interface with plain names, the rounds give
the line with each marker replaced on its own exactly if no markers collide. -/
theorem resolveLine_eq_once_iff (hr : r.Plain) (line : String) :
    r.resolveLine line = r.resolveOnce line ↔ ¬ r.Collides line := by
  unfold resolveLine resolveOnce Collides
  rw [String.ofList_inj]
  exact Marker.resolveMarkers_eq_iff (legible_lookUp hr) line.toList

theorem sample_plain : sample.registry.Plain := by
  decide

/-- Markers with something else between them do not collide. -/
theorem not_collides_sample : sample.registry.Plain ∧
    ¬ sample.registry.Collides "`handle.y` or `enumeration.x.a`" :=
  ⟨sample_plain, (resolveLine_eq_once_iff sample_plain _).1 (by cbv)⟩

/-- **A marker can be lost.** The text behind the second marker is the symbol of the first, whose
round comes first and takes the closing backtick of the second marker for an opening one. -/
theorem resolveLine_ne_once : ¬ ∀ (table : BuiltinTable) (text : String) (api : Api),
    Api.ofText table text = .ok api →
      IsPlain (api.lead.getD "") → api.registry.Plain →
        ∀ line, api.registry.resolveLine line = api.registry.resolveOnce line := by
  intro hall
  have h := hall _ _ _ ofText_sample (by decide) sample_plain "`handle.y` `enumeration.x`handle.y`"
  revert h
  decide

end Registry

end Bindery

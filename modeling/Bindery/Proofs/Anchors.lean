import Bindery.Proofs.CamelCase
import Bindery.Proofs.Marker.Resolution

/-!
# Anchors

An anchor is its heading in lower case, with hyphens for spaces and without backticks and
parentheses. So it says the kind of an entry and little more than the letters of its identifier, and
different headings can have one anchor.

* `lowercaseAfter_append`, `lowercaseAfter_behind`: lower case in parts, where a part of the text
  does not see the others.
* `Text.slug`, `slug_heading`: **what an anchor keeps of a heading**.
* `Entry.letters`, `map_toLower_ident`: the letters of an identifier; types run words together.
* `Entry.Alike`, `anchor_eq_iff`: **when two headings have one anchor**.
* `alike_iff_of_plain`: among plain names, if kind, letters and device mark are the same.
-/

namespace Bindery

namespace Text

/-- What does not start with a case hides what is behind it. -/
theorem startsCased_append (cs : List Char) {ds : List Char} (h : startsCased ds = false) :
    startsCased (cs ++ ds) = startsCased cs := by
  unfold startsCased at h ⊢
  rw [List.dropWhile_append]
  rcases cs.dropWhile isCaseIgnorable with _ | ⟨c, rest⟩
  · exact h
  · rfl

/-- A text does not see what follows it if that does not start with a case. -/
theorem lowercaseAfter_append (before cs : List Char) {ds : List Char}
    (h : startsCased ds = false) : lowercaseAfter before (cs ++ ds) =
      lowercaseAfter before cs ++ lowercaseAfter (cs.reverse ++ before) ds := by
  induction cs generalizing before with
  | nil => rfl
  | cons c cs ih =>
    have hsigma : isFinalSigma before (cs ++ ds) = isFinalSigma before cs := by
      unfold isFinalSigma
      rw [startsCased_append cs h]
    rw [List.cons_append, lowercaseAfter, hsigma, ih, lowercaseAfter, List.reverse_cons,
      List.append_assoc, List.append_assoc]
    rfl

/-- A text does not see what came before it if that does not end with a case. -/
theorem lowercaseAfter_behind (before cs : List Char) {behind : List Char}
    (h : startsCased behind = false) :
    lowercaseAfter (before ++ behind) cs = lowercaseAfter before cs := by
  induction cs generalizing before with
  | nil => rfl
  | cons c cs ih =>
    have hsigma : isFinalSigma (before ++ behind) cs = isFinalSigma before cs := by
      unfold isFinalSigma
      rw [startsCased_append before h]
    rw [lowercaseAfter, hsigma, ← List.cons_append, ih, lowercaseAfter]

/-- A property of characters that does not depend on the case of ASCII letters. -/
theorem congr_toLower {α : Type} {f : Char → α}
    (h : ∀ n : Fin 128, f (Char.ofNat n).toLower = f (Char.ofNat n)) (c : Char) :
    f c.toLower = f c := by
  by_cases hc : c.toNat < 128
  · exact ascii_cases (P := fun c => f c.toLower = f c) h hc
  · rw [toLower_of_not_ascii hc]

theorem startsCased_map_toLower (cs : List Char) :
    startsCased (cs.map Char.toLower) = startsCased cs := by
  induction cs with
  | nil => rfl
  | cons c cs ih =>
    have hignored : isCaseIgnorable c.toLower = isCaseIgnorable c :=
      congr_toLower (by decide) c
    have hcased : isCased c.toLower = isCased c := congr_toLower (by decide) c
    unfold startsCased at ih ⊢
    rw [List.map_cons, List.dropWhile_cons, List.dropWhile_cons, hignored]
    cases isCaseIgnorable c with
    | false => exact hcased
    | true => exact ih

/-- **Lower case does not depend on the case of ASCII letters.** -/
theorem lowercase_map_toLower (cs : List Char) :
    lowercase (cs.map Char.toLower) = lowercase cs := by
  suffices hall : ∀ before,
      lowercaseAfter (before.map Char.toLower) (cs.map Char.toLower) = lowercaseAfter before cs from
    hall []
  induction cs with
  | nil => exact fun _ => rfl
  | cons c cs ih =>
    intro before
    have hsigma : (c.toLower = 'Σ') = (c = 'Σ') :=
      congr_toLower (f := fun c => c = 'Σ') (fun n => propext (by revert n; decide)) c
    have hlower : lowerChar c.toLower = lowerChar c := congr_toLower (by decide) c
    have hfinal : isFinalSigma (before.map Char.toLower) (cs.map Char.toLower) =
        isFinalSigma before cs := by
      unfold isFinalSigma
      rw [startsCased_map_toLower, startsCased_map_toLower]
    rw [List.map_cons, lowercaseAfter, lowercaseAfter, hlower, hfinal, ← List.map_cons, ih]
    simp only [hsigma]

/-- Hyphens for spaces, and no backticks and parentheses. -/
def hyphenated (cs : List Char) : List Char :=
  (cs.map fun c => if c = ' ' then '-' else c).filter fun c => c ≠ tick ∧ c ≠ '(' ∧ c ≠ ')'

/-- **What an anchor keeps of a text.** -/
def slug (cs : List Char) : List Char :=
  hyphenated (lowercase cs)

theorem hyphenated_append (cs ds : List Char) :
    hyphenated (cs ++ ds) = hyphenated cs ++ hyphenated ds := by
  unfold hyphenated
  rw [List.map_append, List.filter_append]

theorem slug_map_toLower (cs : List Char) : slug (cs.map Char.toLower) = slug cs := by
  unfold slug
  rw [lowercase_map_toLower]

/-- Of letters, digits and underscores everything is kept but the case. -/
theorem slug_of_isNameChar {cs : List Char} (h : ∀ c ∈ cs, isNameChar c = true) :
    slug cs = cs.map Char.toLower := by
  have hkept : ∀ c : Char, isNameChar c = true →
      c ≠ ' ' ∧ c ≠ tick ∧ c ≠ '(' ∧ c ≠ ')' ∧ c ≠ '-' := fun c hc =>
    ascii_cases (P := fun c => isNameChar c = true →
      c ≠ ' ' ∧ c ≠ tick ∧ c ≠ '(' ∧ c ≠ ')' ∧ c ≠ '-') (by decide) (ascii_of_isNameChar hc) hc
  have hlower : ∀ c ∈ cs.map Char.toLower, isNameChar c = true := by
    intro c hc
    obtain ⟨d, hd, rfl⟩ := List.mem_map.1 hc
    exact isNameChar_toLower (h d hd)
  have hspaces : (cs.map Char.toLower).map (fun c => if c = ' ' then '-' else c) =
      cs.map Char.toLower :=
    (List.map_congr_left fun c hc => if_neg (hkept c (hlower c hc)).1).trans (List.map_id _)
  unfold slug hyphenated
  rw [lowercase_ascii fun c hc => ascii_of_isNameChar (h c hc), hspaces]
  refine List.filter_eq_self.2 fun c hc => decide_eq_true ?_
  obtain ⟨-, htick, hopen, hclose, -⟩ := hkept c (hlower c hc)
  exact ⟨htick, hopen, hclose⟩

end Text

open Text

theorem toList_anchor (heading : String) :
    (anchor heading).toList = '#' :: slug heading.toList := by
  unfold anchor
  rw [String.toList_ofList]
  rfl

theorem anchor_inj {a b : String} : anchor a = anchor b ↔ slug a.toList = slug b.toList := by
  rw [← String.toList_inj, toList_anchor, toList_anchor, List.cons.injEq, eq_self, true_and]

/-- The letters of the identifier of an entry: the words of a type run together, those of a constant
or a function have underscores between them. -/
def Entry.letters : Entry → List Char
  | .builtin _ _ => []
  | .declared _ name shape =>
    (match shape with
    | .definition _ | .function _ _ => joined ['_'] name.words
    | .bitField _ => (name.extend Policy.flagsWord).words.flatten
    | _ => name.words.flatten).map Char.toLower

theorem map_toLower_titleAfter (afterLetter : Bool) (w : Word) :
    (Word.titleAfter afterLetter w).map Char.toLower = w.map Char.toLower := by
  fun_induction Word.titleAfter afterLetter w with
  | case1 => rfl
  | case2 afterLetter c cs hc ih =>
    rw [List.map_cons, List.map_cons, ih]
    cases afterLetter with
    | false => exact congrArg (· :: _) (toLower_toUpper c)
    | true => exact congrArg (· :: _) (toLower_toLower c)
  | case3 afterLetter c cs hc ih => rw [List.map_cons, List.map_cons, ih]

/-- Words with capitals are words run together, letter case apart. -/
theorem map_toLower_camel (name : Name) :
    name.camel.toList.map Char.toLower = name.words.flatten.map Char.toLower := by
  unfold Name.camel
  rw [String.toList_ofList, List.map_flatMap, List.map_flatten]
  exact List.flatMap_congr fun w _ => map_toLower_titleAfter false w

theorem map_toLower_screaming (name : Name) :
    name.screaming.toList.map Char.toLower = (joined ['_'] name.words).map Char.toLower := by
  rw [Name.toList_screaming, Name.toList_snake, List.map_map]
  exact List.map_congr_left fun c _ => toLower_toUpper c

/-- **The letters of an entry are those of its identifier**, letter case apart. -/
theorem map_toLower_ident {e : Entry} {ident : String} (h : e.declaredIdent = .ok ident) :
    ident.toList.map Char.toLower = e.letters := by
  cases e with
  | builtin id spelling => cases h
  | declared id name shape =>
    cases shape with
    | callback signature => cases h
    | definition value =>
      obtain rfl : name.constIdent = ident := Except.ok.inj h
      exact map_toLower_screaming name
    | function signature deviceCommand =>
      obtain rfl : name.functionIdent = ident := Except.ok.inj h
      exact congrArg (List.map Char.toLower) name.toList_snake
    | bitField bits =>
      obtain rfl : name.flagsIdent = ident := Except.ok.inj h
      exact map_toLower_camel (name.extend Policy.flagsWord)
    | _ =>
      obtain rfl : name.typeIdent = ident := Except.ok.inj h
      exact map_toLower_camel name

namespace Entry

variable {e e' : Entry}

/-- What the heading of an entry ends with. -/
def deviceMark (e : Entry) : String :=
  if e.isDeviceCommand then deviceCommandMark else ""

/-- What the anchor of an entry has behind its kind. -/
def slug (e : Entry) : List Char :=
  Text.slug e.letters ++ Text.slug e.deviceMark.toList

/-- **Entries whose headings have one anchor.** -/
structure Alike (e e' : Entry) : Prop where
  kind : e.kind = e'.kind
  slug : e.slug = e'.slug

theorem Alike.refl (e : Entry) : e.Alike e :=
  ⟨rfl, rfl⟩

theorem heading_eq_ok {heading : String} (h : e.heading = .ok heading) :
    ∃ ident, e.declaredIdent = .ok ident ∧
      e.kind.title ++ " `" ++ ident ++ "`" ++ e.deviceMark = heading := by
  unfold Entry.heading at h
  rcases hident : e.declaredIdent with err | ident
  · simp [hident, Except.map] at h
  · rw [hident] at h
    exact ⟨ident, rfl, Except.ok.inj h⟩

/-- What stands in front of the identifier in a heading, up to the backtick. -/
theorem heading_front (kind : Kind) : Undotted (kind.title ++ " `").toList ∧
    startsCased (kind.title ++ " `").toList.reverse = false ∧
    hyphenated ((kind.title ++ " `").toList.map Char.toLower) =
      kind.title.toList.map Char.toLower ++ ['-'] := by
  cases kind <;> decide

/-- What stands behind the identifier in a heading, from the backtick on. -/
theorem heading_back (e : Entry) : Undotted ("`" ++ e.deviceMark).toList ∧
    startsCased ("`" ++ e.deviceMark).toList = false ∧
    hyphenated (("`" ++ e.deviceMark).toList.map Char.toLower) =
      Text.slug e.deviceMark.toList := by
  unfold deviceMark
  cases e.isDeviceCommand <;> decide

/-- **What an anchor keeps of a heading**: the kind, a hyphen, and the slug of the entry. -/
theorem slug_heading {heading : String} (h : e.heading = .ok heading) :
    Text.slug heading.toList = e.kind.title.toList.map Char.toLower ++ '-' :: e.slug := by
  obtain ⟨ident, hident, rfl⟩ := heading_eq_ok h
  obtain ⟨hascii, hcased, hfront⟩ := heading_front e.kind
  obtain ⟨hascii', hcased', hback⟩ := heading_back e
  have hparts : (e.kind.title ++ " `" ++ ident ++ "`" ++ e.deviceMark).toList =
      (e.kind.title ++ " `").toList ++ (ident.toList ++ ("`" ++ e.deviceMark).toList) := by
    simp only [String.toList_append, List.append_assoc]
  -- the identifier stands between two backticks, and sees neither side
  have hmiddle : lowercaseAfter (e.kind.title ++ " `").toList.reverse ident.toList =
      lowercase ident.toList := lowercaseAfter_behind [] _ hcased
  have hletters : hyphenated (lowercase ident.toList) = Text.slug e.letters := by
    rw [← map_toLower_ident hident, slug_map_toLower]
    rfl
  have hlower : lowercase ((e.kind.title ++ " `").toList ++
      (ident.toList ++ ("`" ++ e.deviceMark).toList)) =
        (e.kind.title ++ " `").toList.map Char.toLower ++
          (lowercase ident.toList ++ ("`" ++ e.deviceMark).toList.map Char.toLower) := by
    rw [lowercase, lowercaseAfter_ascii [] _ fun c hc => (hascii c hc).1, List.append_nil,
      lowercaseAfter_append _ _ hcased', hmiddle,
      lowercaseAfter_of_ascii _ fun c hc => (hascii' c hc).1]
  rw [Text.slug, hparts, hlower, hyphenated_append, hyphenated_append, hfront, hletters, hback,
    List.append_assoc]
  rfl

theorem title_inj {a b : Kind} (h : a.title.toList.map Char.toLower =
    b.title.toList.map Char.toLower) : a = b := by
  have hfound : ∀ kind : Kind, Kind.all.find? (fun k =>
      k.title.toList.map Char.toLower == kind.title.toList.map Char.toLower) = some kind := by
    intro kind
    cases kind <;> decide
  have hb := hfound b
  rw [← h, hfound a] at hb
  exact Option.some.inj hb

/-- **When two headings have one anchor**: exactly if the entries are of one kind, and the same is
left of their identifiers and of the mark of device commands. -/
theorem anchor_eq_iff {a b : String} (ha : e.heading = .ok a) (hb : e'.heading = .ok b) :
    anchor a = anchor b ↔ e.Alike e' := by
  have hhyphen : ∀ kind : Kind, '-' ∉ kind.title.toList.map Char.toLower := by
    intro kind
    cases kind <;> decide
  rw [anchor_inj, slug_heading ha, slug_heading hb]
  refine ⟨fun h => ?_, fun h => by rw [h.kind, h.slug]⟩
  -- a title has no hyphen, so that the first one stands behind it
  have hpieces := congrArg (pieces '-') h
  rw [pieces_append, pieces_append, pieces_of_notMem (hhyphen _), pieces_of_notMem (hhyphen _),
    List.singleton_append, List.singleton_append, List.cons.injEq] at hpieces
  refine ⟨title_inj hpieces.1, ?_⟩
  rw [← joined_pieces '-' e.slug, hpieces.2, joined_pieces]

theorem isNameChar_letters (he : e.Plain) : ∀ c ∈ e.letters, isNameChar c = true := by
  cases e with
  | builtin id spelling => simp [letters]
  | declared id name shape =>
    have hname : name.Within fun c => isNameChar c = true := Name.plain_iff.1 he.1
    have hflatten : ∀ {n : Name}, n.Within (fun c => isNameChar c = true) →
        ∀ c ∈ n.words.flatten, isNameChar c = true := by
      intro n hn c hc
      obtain ⟨w, hw, hc⟩ := List.mem_flatten.1 hc
      exact hn w hw c hc
    intro c hc
    obtain ⟨d, hd, rfl⟩ := List.mem_map.1 hc
    refine isNameChar_toLower ?_
    cases shape with
    | definition | function => exact Name.Within.joined casingClass_isNameChar hname d hd
    | bitField bits =>
      refine hflatten (hname.extend casingClass_isNameChar ?_) d hd
      exact within_word casingClass_isNameChar (by decide)
    | _ => exact hflatten hname d hd

theorem slug_of_plain (he : e.Plain) : e.slug = e.letters ++ Text.slug e.deviceMark.toList := by
  have hlower : e.letters.map Char.toLower = e.letters := by
    cases e with
    | builtin id spelling => rfl
    | declared id name shape =>
      unfold letters
      rw [List.map_map]
      exact List.map_congr_left fun c _ => toLower_toLower c
  rw [slug, slug_of_isNameChar (isNameChar_letters he), hlower]

/-- **Among plain names, headings have one anchor exactly if kind, letters and mark agree**. -/
theorem alike_iff_of_plain (he : e.Plain) (he' : e'.Plain) :
    e.Alike e' ↔ e.kind = e'.kind ∧ e.letters = e'.letters ∧
      e.isDeviceCommand = e'.isDeviceCommand := by
  -- the mark begins with a hyphen, which letters do not have
  have hmark : ∀ {a b : Entry}, b.Plain → a.isDeviceCommand = true → b.isDeviceCommand = false →
      a.letters ++ Text.slug a.deviceMark.toList ≠ b.letters ++ Text.slug b.deviceMark.toList := by
    intro a b hb hdevice hplain h
    have hnone : Text.slug b.deviceMark.toList = [] := by
      rw [deviceMark, hplain]
      rfl
    rw [hnone, List.append_nil] at h
    have hmem : '-' ∈ b.letters := by
      rw [← h, deviceMark, hdevice]
      exact List.mem_append_right _ (by decide)
    exact absurd (isNameChar_letters hb _ hmem) (by decide)
  constructor
  · rintro ⟨hkind, hslug⟩
    rw [slug_of_plain he, slug_of_plain he'] at hslug
    have hdevice : e.isDeviceCommand = e'.isDeviceCommand := by
      rcases h : e.isDeviceCommand with _ | _ <;> rcases h' : e'.isDeviceCommand with _ | _
      · rfl
      · exact absurd hslug.symm (hmark he h' h)
      · exact absurd hslug (hmark he' h h')
      · rfl
    have hsame : e.deviceMark = e'.deviceMark := by
      unfold deviceMark
      rw [hdevice]
    rw [hsame] at hslug
    exact ⟨hkind, List.append_cancel_right hslug, hdevice⟩
  · rintro ⟨hkind, hletters, hdevice⟩
    refine ⟨hkind, ?_⟩
    unfold slug deviceMark
    rw [hletters, hdevice]

end Entry

end Bindery

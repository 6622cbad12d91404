import Bindery.Proofs.CamelCase
import Bindery.Proofs.Inventory

/-!
# Entries with one name

Entries are kept apart by their ids, which have the names as written. A name is less than that: it
forgets case, repeated underscores, and whether its last word marks an extension or was written.

* `Api.DistinctNames`: different entries of one kind have different words.
* `DraftEntry.displayed`: the name of a declaration in the form in which it is displayed;
  `DraftEntry.Tidy`: one that is written in that form.
* `words_eq_iff_displayed`: **two declarations have the same words exactly if they are displayed the
  same**.
* `distinctNames_iff`: **names are distinct exactly if no two declarations of one kind that are
  written differently are displayed the same**; `distinctNames_of_tidy`: so they are in a document
  with tidy names.
-/

namespace Bindery

/-- **Different names**: two entries of one kind that are no built-in types have different words. -/
def Api.DistinctNames (api : Api) : Prop :=
  ∀ e ∈ api.registry.entries, ∀ e' ∈ api.registry.entries, e.kind ≠ .builtin →
    e.kind = e'.kind → e ≠ e' → e.name?.map Name.words ≠ e'.name?.map Name.words

namespace DraftEntry

/-- The kind that a declaration states. -/
def kind : DraftEntry → Kind
  | builtin _ => .builtin
  | declared _ _ shape => shape.kind

/-- The name of a declaration as written. -/
def name : DraftEntry → String
  | builtin name => name
  | declared name _ _ => name

/-- The name of a declaration as it is displayed: in lower case, with one underscore between words,
and with the word of extensions at the end of theirs. -/
def displayed : DraftEntry → String
  | builtin name => name
  | declared name isExtension _ => (entryName none name isExtension).display

/-- **A name in the form in which names are displayed**, which ends in the word of extensions only
where the mark puts it there. -/
structure Tidy (a : DraftEntry) : Prop where
  name : (Name.new a.name).display = a.name
  unmarked : ∀ name shape, a = declared name false shape →
    (Word.ofText name).getLast? ≠ (Word.ofText extensionWord).getLast?

theorem isNew_iff {d : DraftEntry} : d.isNew = true ↔ d.kind ≠ .builtin := by
  cases d with
  | builtin name => simp [isNew, kind]
  | declared name isExtension shape => cases shape <;> simp [isNew, kind, DraftShape.kind]

end DraftEntry

/-- Without a prefix, the name of an entry consists of words. -/
theorem bare_entryName (name : String) (isExtension : Bool) :
    (entryName none name isExtension).Bare := by
  cases isExtension with
  | false => exact Name.bare_new name
  | true =>
    refine ⟨rfl, fun w hw => ?_⟩
    rcases List.mem_append.1 hw with hw | hw
    · exact normal_of_mem_ofText hw
    · exact normal_of_mem_ofText hw

/-- The words of a prefix stand in front of all names. -/
theorem words_entryName (lead : Option String) (name : String) (isExtension : Bool) :
    (entryName lead name isExtension).words =
      (lead.elim [] Word.ofText) ++ (entryName none name isExtension).words := by
  cases lead with
  | none => rfl
  | some p =>
    cases isExtension with
    | false => rfl
    | true => exact List.append_assoc _ _ _

/-- **Names have the same words exactly if they are displayed the same**, whatever the prefix. -/
theorem words_eq_iff_displayed (lead : Option String) (name name' : String) (x x' : Bool) :
    (entryName lead name x).words = (entryName lead name' x').words ↔
      (entryName none name x).display = (entryName none name' x').display := by
  have hbare := bare_entryName name x
  have hbare' := bare_entryName name' x'
  rw [words_entryName lead name, words_entryName lead name', List.append_cancel_left_eq,
    hbare.display_inj hbare']
  exact ⟨hbare.ext hbare', congrArg Name.words⟩

namespace DraftEntry.Makes

variable {lead : Option String} {a b : DraftEntry} {e e' : Entry}

/-- An entry has the kind of its declaration. -/
theorem kind_eq (h : a.Makes lead e) : e.kind = a.kind := by
  cases h with
  | intro hshape => exact kind_of_toShape hshape

/-- Two entries have the same words exactly if their declarations are displayed the same. -/
theorem words_eq_iff (h : a.Makes lead e) (h' : b.Makes lead e') :
    e.name?.map Name.words = e'.name?.map Name.words ↔ a.displayed = b.displayed := by
  cases h with
  | @intro name x written shape hshape =>
    cases h' with
    | @intro name' x' written' shape' hshape' =>
      simpa [Entry.name?, displayed] using words_eq_iff_displayed lead name name' x x'

/-- Of one kind, declarations with different names have different ids. -/
theorem id_eq_iff (h : a.Makes lead e) (h' : b.Makes lead e') (hk : a.kind = b.kind) :
    e.id = e'.id ↔ a.name = b.name := by
  cases h with
  | @intro name x written shape hshape =>
    cases h' with
    | @intro name' x' written' shape' hshape' =>
      have hkind : written.kind = written'.kind := hk
      simp only [Entry.id, DraftEntry.name, Kind.idOf, hkind]
      exact ⟨fun hid => String.append_right_inj _ |>.1 hid, fun hn => hn ▸ rfl⟩

end DraftEntry.Makes

variable {table : BuiltinTable} {text : String} {api : Api}

/-- The identifier of a shape is a matter of its kind and of the words of its name. -/
theorem ident?_of_words {shape shape' : Shape} {name name' : Name} (hk : shape.kind = shape'.kind)
    (hw : name.words = name'.words) : shape.ident? name = shape'.ident? name' := by
  have hconst : name.constIdent = name'.constIdent := by
    simp only [Name.constIdent, Name.screaming, hw]
  have hfunction : name.functionIdent = name'.functionIdent := by
    simp only [Name.functionIdent, Name.snake, hw]
  have hflags : name.flagsIdent = name'.flagsIdent := by
    simp only [Name.flagsIdent, Name.camel, Name.extend, hw]
  have htype : name.typeIdent = name'.typeIdent := by
    simp only [Name.typeIdent, Name.camel, hw]
  cases shape <;> cases shape' <;> first
    | simp only [Shape.ident?, hconst, hfunction, hflags, htype]; done
    | cases hk

/-- Entries of one kind with the same words are declared under the same identifier. -/
theorem declaredIdent_of_words {e e' : Entry} {ident : String} (hk : e.kind = e'.kind)
    (hw : e.name?.map Name.words = e'.name?.map Name.words) (h : e.declaredIdent = .ok ident) :
    e'.declaredIdent = .ok ident := by
  cases e with
  | builtin id spelling => cases h
  | declared id name shape =>
    cases e' with
    | builtin id' spelling' => simp [Entry.name?] at hw
    | declared id' name' shape' =>
      have hwords : name.words = name'.words := by simpa [Entry.name?] using hw
      have hident : shape.ident? name = shape'.ident? name' := ident?_of_words hk hwords
      simp only [Entry.declaredIdent, Entry.identBy, ← hident] at h ⊢
      split at h
      · exact h
      · cases h

/-- **Names are distinct exactly if no two declarations of one kind that are written differently are
displayed the same.** -/
theorem distinctNames_iff {d : Draft} (h : Api.ofText table text = .ok api)
    (hd : Draft.ofText text = .ok d) :
    api.DistinctNames ↔ ∀ a ∈ d.declarations, ∀ b ∈ d.declarations, a.kind ≠ .builtin →
      a.kind = b.kind → a.displayed = b.displayed → a.name = b.name := by
  obtain ⟨d', hd', hof, hto⟩ := exists_made h
  obtain rfl : d = d' := Except.ok.inj (hd.symm.trans hd')
  constructor
  · intro hdistinct a ha b hb hk hkind hdisplayed
    obtain ⟨e, he, hmade⟩ := hto a ha (DraftEntry.isNew_iff.2 hk)
    obtain ⟨e', he', hmade'⟩ := hto b hb (DraftEntry.isNew_iff.2 (hkind ▸ hk))
    have hkinds : e.kind = e'.kind := by rw [hmade.kind_eq, hmade'.kind_eq, hkind]
    rw [← hmade.id_eq_iff hmade' hkind]
    by_contra hid
    exact hdistinct e he e' he' hmade.kind_ne hkinds (fun heq => hid (congrArg Entry.id heq))
      ((hmade.words_eq_iff hmade').2 hdisplayed)
  · intro hall e he e' he' hk hkind hne hwords
    obtain ⟨a, ha, hmade⟩ := hof e he hk
    obtain ⟨b, hb, hmade'⟩ := hof e' he' (hkind ▸ hk)
    have hkinds : a.kind = b.kind := by rw [← hmade.kind_eq, ← hmade'.kind_eq, hkind]
    have hnames : a.name = b.name :=
      hall a ha b hb (hmade.kind_eq ▸ hk) hkinds ((hmade.words_eq_iff hmade').1 hwords)
    -- one kind and one name as written make one id, and the registry holds one entry under it
    exact hne (List.inj_on_of_nodup_map api.registry.distinct he he'
      ((hmade.id_eq_iff hmade' hkinds).2 hnames))

/-- Tidy names that are displayed the same are written the same. -/
theorem DraftEntry.Tidy.name_eq {a b : DraftEntry} (ha : a.Tidy) (hb : b.Tidy)
    (hnew : a.kind ≠ .builtin) (hk : a.kind = b.kind) (h : a.displayed = b.displayed) :
    a.name = b.name := by
  cases a with
  | builtin name => exact absurd rfl hnew
  | declared name marked shape =>
    cases b with
    | builtin name' => exact absurd hk hnew
    | declared name' marked' shape' =>
      have hwords := (words_eq_iff_displayed none name name' marked marked').2 h
      suffices hsame : Word.ofText name = Word.ofText name' by
        have hnames : Name.new name = Name.new name' := congrArg (Name.mk · 0) hsame
        rw [← ha.name, ← hb.name]
        exact congrArg Name.display hnames
      cases marked <;> cases marked'
      · exact hwords
      · -- only one of the two has the word of extensions at its end
        have hlast := ha.unmarked _ _ rfl
        rw [show Word.ofText name = Word.ofText name' ++ Word.ofText extensionWord from hwords]
          at hlast
        exact absurd (List.getLast?_append_of_ne_nil _ (by decide)) hlast
      · have hlast := hb.unmarked _ _ rfl
        rw [show Word.ofText name' = Word.ofText name ++ Word.ofText extensionWord from hwords.symm]
          at hlast
        exact absurd (List.getLast?_append_of_ne_nil _ (by decide)) hlast
      · exact List.append_cancel_right hwords

/-- **A document with tidy names describes an interface with different names.** -/
theorem distinctNames_of_tidy {d : Draft} (h : Api.ofText table text = .ok api)
    (hd : Draft.ofText text = .ok d) (htidy : ∀ a ∈ d.declarations, a.Tidy) :
    api.DistinctNames :=
  (distinctNames_iff h hd).2 fun a ha b hb => (htidy a ha).name_eq (htidy b hb)

/-- **When names are distinct.** In a loaded interface, different entries of one kind have different
words exactly if no two declarations of that kind are written differently and displayed the same.
Where two entries do have the same words, they are declared under the same identifier. -/
theorem distinctNames_iff_displayed (h : Api.ofText table text = .ok api) :
    ∃ d, Draft.ofText text = .ok d ∧
      (api.DistinctNames ↔ ∀ a ∈ d.declarations, ∀ b ∈ d.declarations, a.kind ≠ .builtin →
        a.kind = b.kind → a.displayed = b.displayed → a.name = b.name) ∧
      ∀ e ∈ api.registry.entries, ∀ e' ∈ api.registry.entries, e.kind = e'.kind →
        e.name?.map Name.words = e'.name?.map Name.words →
          ∀ ident, e.declaredIdent = .ok ident → e'.declaredIdent = .ok ident := by
  obtain ⟨d, hd, -⟩ := exists_made h
  exact ⟨d, hd, distinctNames_iff h hd, fun e _ e' _ hk hw ident => declaredIdent_of_words hk hw⟩

/-- A text with handles whose names differ by case, by an underscore, and by whether the word of
extensions is written or marked. -/
def sharedText : String :=
  "[\"ti\",[[\"taichi/a.h\",false,[],[[\"handle\",\"a\"],[\"handle\",\"A\"],[\"handle\",\"_a\"],"
    ++ "[\"handle\",\"b_ext\"],[\"handle\",\"b\",true]]]]]"

/-- The interface in `sharedText`. -/
def shared : Api where
  lead := some "ti"
  registry :=
    ⟨[.declared "handle.a" (.withPrefix "ti" "a") .handle,
      .declared "handle.A" (.withPrefix "ti" "A") .handle,
      .declared "handle._a" (.withPrefix "ti" "_a") .handle,
      .declared "handle.b_ext" (.withPrefix "ti" "b_ext") .handle,
      .declared "handle.b" ((Name.withPrefix "ti" "b").extend extensionWord) .handle], by decide⟩
  modules := [⟨"taichi/a.h", false, [],
    ["handle.a", "handle.A", "handle._a", "handle.b_ext", "handle.b"], none⟩]

theorem ofText_shared : Api.ofText .empty sharedText = .ok shared := by
  cbv

/-- The handles `a` and `A` of `sharedText` are written differently and displayed the same. Both are
declared under one identifier. -/
theorem distinctNames_iff_displayed_shared : Api.ofText .empty sharedText = .ok shared ∧
    (∃ d, Draft.ofText sharedText = .ok d ∧ ¬ ∀ a ∈ d.declarations, ∀ b ∈ d.declarations,
      a.kind ≠ .builtin → a.kind = b.kind → a.displayed = b.displayed → a.name = b.name) ∧
    (Entry.declared "handle.A" (.withPrefix "ti" "A") .handle).declaredIdent = .ok "TiA" := by
  obtain ⟨d, hd, hiff, hident⟩ := distinctNames_iff_displayed ofText_shared
  have hone : Entry.declared "handle.a" (.withPrefix "ti" "a") .handle ∈ shared.registry.entries :=
    .head _
  have hother : Entry.declared "handle.A" (.withPrefix "ti" "A") .handle ∈
      shared.registry.entries := .tail _ (.head _)
  refine ⟨ofText_shared, ⟨d, hd, hiff.not.1 fun hdistinct => ?_⟩,
    hident _ hone _ hother rfl rfl "TiA" (by decide)⟩
  exact hdistinct _ hone _ hother (by decide) rfl (by decide) rfl

/-- **Entries of one kind can have one name and one identifier**: by case, by an underscore, and by
the word of extensions. -/
theorem entries_share_name :
    (¬ ∀ (table : BuiltinTable) (text : String) (api : Api), Api.ofText table text = .ok api →
      api.DistinctNames) ∧
    Api.ofText .empty sharedText = .ok shared ∧
    shared.registry.entries.map Entry.declaredIdent =
      [.ok "TiA", .ok "TiA", .ok "TiA", .ok "TiBExt", .ok "TiBExt"] := by
  refine ⟨fun hall => ?_, ofText_shared, by decide⟩
  exact hall _ _ _ ofText_shared _ (.head _) _ (.tail _ (.head _)) (by decide) rfl (by decide) rfl

end Bindery

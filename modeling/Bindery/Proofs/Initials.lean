import Bindery.Proofs.CamelCase
import Bindery.Proofs.Inventory
import Bindery.Proofs.Marker.Resolution
import Bindery.Proofs.ShortNames

/-!
# How identifiers begin

All casings of a name begin with its first character, so that an identifier begins with a digit
exactly if its name does. A short name leaves the prefix out, and with it the letter in front of a
digit.

* `Name.Made`: the names that there are; their words are not empty.
* `Begins`: texts by their first character; `begins_ident`: **every identifier begins as its name
  does**, digit or not.
* `startsWithDigit_camel`, `startsWithDigit_new_iff`: the first character under capitals, and in the
  text of a name.
* `startsIdent_shortIdent_iff`: **a short name is an identifier exactly if what is displayed of the
  name does not begin with a digit**.
* `shortNames_start_iff`: **when all short names of a module can be identifiers**.
-/

namespace Bindery

namespace Name

/-- **The names that there are**: those of texts, with or without a prefix, and what adding words
and leaving out the prefix make of them. -/
inductive Made : Name → Prop
  | new (text : String) : Made (.new text)
  | withPrefix (lead text : String) : Made (.withPrefix lead text)
  | extend {name : Name} (h : Made name) (text : String) : Made (name.extend text)
  | withoutPrefix {name : Name} (h : Made name) : Made name.withoutPrefix

/-- A name consists of words. -/
theorem Made.normal {name : Name} (h : name.Made) : ∀ w ∈ name.words, w.Normal := by
  induction h with
  | new text => exact fun _ => normal_of_mem_ofText
  | withPrefix lead text =>
    intro w hw
    rcases List.mem_append.1 hw with hlead | htext
    · exact normal_of_mem_ofText hlead
    · exact normal_of_mem_ofText htext
  | extend h text ih =>
    intro w hw
    rcases List.mem_append.1 hw with hname | htext
    · exact ih w hname
    · exact normal_of_mem_ofText htext
  | withoutPrefix h ih =>
    intro w hw
    unfold Name.withoutPrefix at hw
    split at hw
    · exact ih w (List.mem_of_mem_drop hw)
    · exact ih w hw

/-- The first word of a name begins with a character. -/
theorem Made.words_eq {name : Name} (h : name.Made) (hne : name.words ≠ []) :
    ∃ c cs ws, name.words = (c :: cs) :: ws := by
  obtain ⟨w, ws, hwords⟩ := List.exists_cons_of_ne_nil hne
  have hw : w ∈ name.words := hwords ▸ List.mem_cons_self
  obtain ⟨c, cs, rfl⟩ := List.exists_cons_of_ne_nil (h.normal w hw).ne_nil
  exact ⟨c, cs, ws, hwords⟩

section Lead

-- the prefix of a name, which it shows only if nothing stands behind it
variable {name : Name}

theorem words_withoutPrefix (h : name.lead < name.words.length) :
    name.withoutPrefix.words = name.words.drop name.lead := by
  rw [withoutPrefix, if_pos h]

/-- A name of prefix words alone keeps them. -/
theorem words_withoutPrefix_of_le (h : name.words.length ≤ name.lead) :
    name.withoutPrefix.words = name.words := by
  rw [withoutPrefix, if_neg (Nat.not_lt.2 h)]

/-- What is displayed of a name is the name without its prefix. -/
theorem display_eq_snake (h : name.lead < name.words.length) :
    name.display = name.withoutPrefix.snake := by
  rw [display, snake, words_withoutPrefix h]

/-- Nothing is displayed of a name of prefix words alone. -/
theorem display_eq_empty (h : name.words.length ≤ name.lead) : name.display = "" := by
  rw [display, List.drop_eq_nil_iff.2 h]
  rfl

end Lead

end Name

theorem made_entryName (lead : Option String) (text : String) (isExtension : Bool) :
    (entryName lead text isExtension).Made := by
  cases lead with
  | none =>
    cases isExtension with
    | false => exact .new text
    | true => exact .extend (.new text) extensionWord
  | some p =>
    cases isExtension with
    | false => exact .withPrefix p text
    | true => exact .extend (.withPrefix p text) extensionWord

/-- The names in a loaded interface. -/
theorem made_of_loaded {table : BuiltinTable} {text : String} {api : Api}
    (h : Api.ofText table text = .ok api) :
    ∀ e ∈ api.registry.entries, ∀ name ∈ e.name?, name.Made := by
  obtain ⟨d, -, hmade, -⟩ := exists_made h
  intro e he name hname
  cases e with
  | builtin id spelling => cases hname
  | declared id full shape =>
    obtain rfl := Option.some.inj hname
    obtain ⟨a, -, hmakes⟩ := hmade _ he shape.kind_ne_builtin
    cases hmakes with
    | intro hshape => exact made_entryName _ _ _

/-- A text whose first character is a digit exactly if the given one is. -/
def Begins (s : String) (c : Char) : Prop :=
  ∃ d ds, s.toList = d :: ds ∧ d.isDigit = c.isDigit

namespace Begins

variable {s : String} {c : Char}

theorem ne_empty (h : Begins s c) : s ≠ "" := by
  obtain ⟨d, ds, hs, -⟩ := h
  rintro rfl
  cases hs

theorem startsWithDigit_eq (h : Begins s c) : startsWithDigit s = c.isDigit := by
  obtain ⟨d, ds, hs, hdigit⟩ := h
  unfold startsWithDigit
  rw [hs]
  exact hdigit

end Begins

section Casings

variable {name : Name} {c : Char} {cs : List Char} {ws : List Word}

theorem begins_snake (h : name.words = (c :: cs) :: ws) : Begins name.snake c := by
  have hjoined : ∃ ds, Text.joined ['_'] ((c :: cs) :: ws) = c :: ds := by
    cases ws with
    | nil => exact ⟨cs, rfl⟩
    | cons w ws => exact ⟨_, rfl⟩
  obtain ⟨ds, hds⟩ := hjoined
  exact ⟨c, ds, by rw [Name.toList_snake, h, hds], rfl⟩

theorem begins_screaming (h : name.words = (c :: cs) :: ws) : Begins name.screaming c := by
  obtain ⟨d, ds, hsnake, hdigit⟩ := begins_snake h
  refine ⟨d.toUpper, ds.map Char.toUpper, ?_, (isDigit_toUpper d).trans hdigit⟩
  rw [Name.toList_screaming, hsnake, List.map_cons]

/-- The capital of a letter is no digit either. -/
theorem exists_title (c : Char) (cs : List Char) :
    ∃ d ds, Word.title (c :: cs) = d :: ds ∧ d.isDigit = c.isDigit := by
  unfold Word.title Word.titleAfter
  split
  · exact ⟨c.toUpper, _, rfl, isDigit_toUpper c⟩
  · exact ⟨c, _, rfl, rfl⟩

theorem begins_camel (h : name.words = (c :: cs) :: ws) : Begins name.camel c := by
  obtain ⟨d, ds, htitle, hdigit⟩ := exists_title c cs
  refine ⟨d, ds ++ ws.flatMap Word.title, ?_, hdigit⟩
  rw [Name.camel, String.toList_ofList, h, List.flatMap_cons, htitle, List.cons_append]

/-- **Every identifier of a name begins as the name does.** -/
theorem begins_ident {shape : Shape} {ident : String} (h : name.words = (c :: cs) :: ws)
    (hident : shape.ident? name = some ident) : Begins ident c := by
  cases shape with
  | definition value =>
    obtain rfl := Option.some.inj hident
    exact begins_screaming h
  | function signature deviceCommand =>
    obtain rfl := Option.some.inj hident
    exact begins_snake h
  | bitField bits =>
    obtain rfl := Option.some.inj hident
    have hwords : (name.extend Policy.flagsWord).words =
        (c :: cs) :: (ws ++ Word.ofText Policy.flagsWord) := by
      unfold Name.extend
      rw [h, List.cons_append]
    exact begins_camel hwords
  | callback signature => cases hident
  | typeAlias | handle | enumeration | record | union =>
    obtain rfl := Option.some.inj hident
    exact begins_camel h

/-- **Capitals do not change whether a name begins with a digit.** -/
theorem startsWithDigit_camel (h : name.Made) :
    startsWithDigit name.camel = startsWithDigit name.snake := by
  by_cases hne : name.words = []
  · unfold Name.camel Name.snake
    rw [hne]
    rfl
  · obtain ⟨c, cs, ws, hwords⟩ := h.words_eq hne
    rw [(begins_camel hwords).startsWithDigit_eq, (begins_snake hwords).startsWithDigit_eq]

end Casings

/-- The first character of the first piece that is not empty is the first that is no separator. -/
theorem head_pieces (cs : List Char) :
    ((Text.pieces '_' cs).filter (· ≠ [])).head?.bind List.head? =
      (cs.dropWhile (· == '_')).head? := by
  induction cs with
  | nil => rfl
  | cons c cs ih =>
    by_cases hc : c = '_'
    · rw [Text.pieces, if_pos hc, hc]
      simpa using ih
    · obtain ⟨p, ps, hp⟩ := List.exists_cons_of_ne_nil (Text.pieces_ne_nil '_' cs)
      rw [Text.pieces, if_neg hc, hp]
      simp [hc]

/-- **The name of a text begins with a digit exactly if the text does**, underscores apart. -/
theorem startsWithDigit_new_iff {text : String} : startsWithDigit (Name.new text).snake = true ↔
    ∃ c, (text.toList.dropWhile (· == '_')).head? = some c ∧ c.isDigit = true := by
  rw [← head_pieces]
  rcases hp : (Text.pieces '_' text.toList).filter (· ≠ []) with _ | ⟨p, ps⟩
  · have hwords : (Name.new text).words = [] := by
      rw [Name.new, Word.ofText, hp]
      rfl
    have hsnake : (Name.new text).snake = "" := by
      rw [Name.snake, hwords]
      rfl
    simp [hsnake, startsWithDigit]
  · have hne : p ≠ [] := by
      have hmem : p ∈ (Text.pieces '_' text.toList).filter (· ≠ []) := hp ▸ List.mem_cons_self
      simpa using (List.mem_filter.1 hmem).2
    obtain ⟨d, ds, rfl⟩ := List.exists_cons_of_ne_nil hne
    have hwords : (Name.new text).words =
        (d.toLower :: ds.map Char.toLower) :: ps.map (·.map Char.toLower) := by
      rw [Name.new, Word.ofText, hp, List.map_cons, List.map_cons]
    rw [(begins_snake hwords).startsWithDigit_eq, isDigit_toLower]
    simp

/-- A text that can begin an identifier: it is not empty, and its first character is no digit. -/
def StartsIdent (s : String) : Prop :=
  s ≠ "" ∧ startsWithDigit s = false

instance (s : String) : Decidable (StartsIdent s) :=
  inferInstanceAs (Decidable (_ ∧ _))

theorem Begins.startsIdent_iff {s : String} {c : Char} (h : Begins s c) :
    StartsIdent s ↔ c.isDigit = false := by
  unfold StartsIdent
  rw [h.startsWithDigit_eq]
  exact and_iff_right h.ne_empty

theorem StartsIdent.append {s : String} (h : StartsIdent s) (t : String) :
    StartsIdent (s ++ t) := by
  obtain ⟨c, cs, hs⟩ := List.exists_cons_of_ne_nil (mt String.toList_eq_nil_iff.1 h.1)
  have hfirst : Begins s c := ⟨c, cs, hs, rfl⟩
  have hbegins : Begins (s ++ t) c := ⟨c, cs ++ t.toList, by
    rw [String.toList_append, hs, List.cons_append], rfl⟩
  exact hbegins.startsIdent_iff.2 (hfirst.startsIdent_iff.1 h)

section Short

variable {id key target : String} {name : Name} {shape : Shape}

/-- An identifier is made of the words of a name alone. -/
theorem ident?_congr {a b : Name} (h : a.words = b.words) : shape.ident? a = shape.ident? b := by
  cases shape <;>
    simp only [Shape.ident?, Name.constIdent, Name.functionIdent, Name.flagsIdent, Name.typeIdent,
      Name.extend, Name.screaming, Name.snake, Name.camel, h]

/-- **A short name is an identifier exactly if what is displayed of the name does not begin with a
digit**, provided that the full name is one. -/
theorem startsIdent_shortIdent_iff (h : name.Made)
    (hkey : (Entry.declared id name shape).shortIdent = .ok key)
    (htarget : (Entry.declared id name shape).declaredIdent = .ok target)
    (hfull : StartsIdent target) :
    key ≠ "" ∧ (StartsIdent key ↔ startsWithDigit name.display = false) := by
  have hshort := ident?_of_identBy hkey
  have hlong := ident?_of_identBy htarget
  by_cases hlead : name.lead < name.words.length
  · -- words are left behind the prefix, and they are what is displayed
    have hwords : name.withoutPrefix.words = name.words.drop name.lead :=
      Name.words_withoutPrefix hlead
    have hdisplay : name.display = name.withoutPrefix.snake := Name.display_eq_snake hlead
    have hne : name.withoutPrefix.words ≠ [] := by
      rw [hwords, ne_eq, List.drop_eq_nil_iff]
      omega
    obtain ⟨c, cs, ws, hfirst⟩ := h.withoutPrefix.words_eq hne
    have hbegins := begins_ident hfirst hshort
    rw [hbegins.startsIdent_iff, hdisplay, (begins_snake hfirst).startsWithDigit_eq]
    exact ⟨hbegins.ne_empty, Iff.rfl⟩
  · -- a name of prefix words alone keeps them, and nothing of it is displayed
    have hle : name.words.length ≤ name.lead := Nat.not_lt.1 hlead
    have hwords : name.withoutPrefix.words = name.words := Name.words_withoutPrefix_of_le hle
    have hsame : key = target := by
      rw [ident?_congr hwords] at hshort
      exact Option.some.inj (hshort.symm.trans hlong)
    rw [hsame, Name.display_eq_empty hle]
    exact ⟨hfull.1, fun _ => rfl, fun _ => hfull⟩

end Short

namespace Api

variable {api : Api} {cfg : Config} {m : Module}

/-- What a declaration registers, by the displayed name of its entry. -/
theorem exists_name_of_reexport? {id : String} {f : Reexport}
    (hmade : ∀ e ∈ api.registry.entries, ∀ name ∈ e.name?, name.Made)
    (hdeclared : ∀ e, api.registry.find? id = some e →
      ∀ ident, e.declaredIdent = .ok ident → StartsIdent ident)
    (hf : api.registry.reexport? id = some f) :
    ∃ e, api.registry.find? id = some e ∧ api.registry.shortens e = true ∧
      ∃ name ∈ e.name?, f.key ≠ "" ∧
        (StartsIdent f.key ↔ startsWithDigit name.display = false) := by
  obtain ⟨e, hfound, hshortens, hkey, htarget⟩ := reexport?_eq_some_iff.1 hf
  have hfull := hdeclared e hfound f.target htarget
  cases e with
  | builtin id spelling => cases hshortens
  | declared id name shape =>
    have hname := hmade _ (Registry.mem_of_find? hfound) name rfl
    exact ⟨_, hfound, hshortens, name, rfl, startsIdent_shortIdent_iff hname hkey htarget hfull⟩

/-- **When all short names of a module can be identifiers.** Let the identifiers that a module
declares begin as identifiers do. Its source ends with lines that list the short names. None of them
is empty, and all of them begin as identifiers do exactly if no entry with a short name is displayed
with a digit in front. -/
theorem shortNames_start_iff {source : String}
    (hmade : ∀ e ∈ api.registry.entries, ∀ name ∈ e.name?, name.Made)
    (h : (api.generateModule cfg m).result = .ok (some source))
    (hdeclared : ∀ id ∈ m.declares, ∀ e, api.registry.find? id = some e →
      ∀ ident, e.declaredIdent = .ok ident → StartsIdent ident) :
    (∃ body, source = unlines (body ++ "" :: (api.reexports cfg m).lines)) ∧
      (api.reexports cfg m).ListedBy (api.reexports cfg m).lines ∧
      (∀ f ∈ (api.reexports cfg m).toList, f.key ≠ "") ∧
      ((∀ f ∈ (api.reexports cfg m).toList, StartsIdent f.key) ↔
        ∀ id ∈ m.declares, ∀ e, api.registry.find? id = some e → api.registry.shortens e = true →
          ∀ name ∈ e.name?, startsWithDigit name.display = false) := by
  obtain ⟨hok, hsource⟩ := source_of_generateModule h
  refine ⟨hsource, (api.reexports cfg m).listedBy_lines, fun f hf => ?_,
    fun hall id hid e hfound hshortens name hname => ?_, fun hall f hf => ?_⟩
  · obtain ⟨id, hid, hreg⟩ := exists_declares_of_mem hok hf
    obtain ⟨e, -, -, name, -, hne, -⟩ := exists_name_of_reexport? hmade (hdeclared id hid) hreg
    exact hne
  · -- another declaration may have taken the short name, and then it begins as this one does
    obtain ⟨key, target, hkey, htarget⟩ := idents_of_shortens hshortens
    have hreg : api.registry.reexport? id = some ⟨key, target⟩ :=
      reexport?_eq_some_iff.2 ⟨e, hfound, hshortens, hkey, htarget⟩
    obtain ⟨g, hg, hsame⟩ := exists_mem_reexports hok hid hreg
    have hstarts := hall g hg
    obtain ⟨e', hfound', -, name', hname', -, hiff⟩ :=
      exists_name_of_reexport? hmade (hdeclared id hid) hreg
    obtain rfl := Option.some.inj (hfound.symm.trans hfound')
    obtain rfl := Option.some.inj (hname.symm.trans hname')
    rw [hsame] at hstarts
    exact hiff.1 hstarts
  · obtain ⟨id, hid, hreg⟩ := exists_declares_of_mem hok hf
    obtain ⟨e, hfound, hshortens, name, hname, -, hiff⟩ :=
      exists_name_of_reexport? hmade (hdeclared id hid) hreg
    exact hiff.2 (hall id hid e hfound hshortens name hname)

/-- A constant whose name begins with a digit behind the prefix. -/
def planarText : String :=
  "[\"ti\",[[\"taichi/a.h\",false,[],[[\"definition\",\"2d\",1]]]]]"

/-- The module in `planarText`. -/
def planarModule : Module :=
  ⟨"taichi/a.h", false, [], ["definition.2d"], none⟩

/-- The interface in `planarText`. -/
def planar : Api where
  lead := some "ti"
  registry := ⟨[.declared "definition.2d" (.withPrefix "ti" "2d") (.definition "1")], by decide⟩
  modules := [planarModule]

theorem ofText_planar : Api.ofText .empty planarText = .ok planar := by
  cbv

theorem planar_generated :
    ∃ source, (planar.generateModule .default planarModule).result = .ok (some source) := by
  have hresult : (planar.generateModule .default planarModule).result = _ :=
    result_generateModule rfl rfl
  have hfailures : (planar.moduleScript .default planarModule).failures = [] := by
    decide
  rw [Script.result_of_failures_nil hfailures] at hresult
  exact ⟨_, hresult⟩

/-- The constant is declared as `TI_2D`. -/
theorem startsIdent_planar : ∀ id ∈ planarModule.declares, ∀ e,
    planar.registry.find? id = some e → ∀ ident, e.declaredIdent = .ok ident →
      StartsIdent ident := by
  intro id hid e hfound ident hident
  obtain rfl : id = "definition.2d" := List.mem_singleton.1 hid
  obtain rfl := Option.some.inj hfound
  obtain rfl : "TI_2D" = ident := Except.ok.inj hident
  decide

/-- Not all short names of the module can be identifiers, as `2d` is displayed. -/
theorem shortNames_start_iff_planar :
    (∀ e ∈ planar.registry.entries, ∀ name ∈ e.name?, name.Made) ∧
      (∃ source, (planar.generateModule .default planarModule).result = .ok (some source)) ∧
      ¬ ∀ f ∈ (planar.reexports .default planarModule).toList, StartsIdent f.key := by
  have hmade := made_of_loaded ofText_planar
  obtain ⟨source, hsource⟩ := planar_generated
  obtain ⟨-, -, -, hiff⟩ := shortNames_start_iff hmade hsource startsIdent_planar
  refine ⟨hmade, ⟨source, hsource⟩, fun hall => ?_⟩
  have hdisplay : startsWithDigit (Name.withPrefix "ti" "2d").display = false :=
    hiff.1 hall "definition.2d" (.head _) _ rfl rfl _ rfl
  exact absurd hdisplay (by decide)

/-- **A short name can begin with a digit** although the prefix, the names and all that is declared
are in order: the constant is exported as `2D`. -/
theorem shortName_starts_with_digit : ¬ ∀ (table : BuiltinTable) (text : String) (api : Api),
    Api.ofText table text = .ok api → (∀ p ∈ api.lead, IsPlain p) →
      (∀ e ∈ api.registry.entries, ∀ name ∈ e.name?, name.Plain) →
      ∀ cfg, ∀ m ∈ api.modules, ∀ source,
        (api.generateModule cfg m).result = .ok (some source) →
        (∀ id ∈ m.declares, ∀ e, api.registry.find? id = some e →
          ∀ ident, e.declaredIdent = .ok ident → StartsIdent ident) →
        ∀ f ∈ (api.reexports cfg m).toList, StartsIdent f.key := by
  intro hall
  obtain ⟨source, hsource⟩ := planar_generated
  have hlead : ∀ p ∈ planar.lead, IsPlain p := by
    rintro p ⟨⟩
    decide
  have hnames : ∀ e ∈ planar.registry.entries, ∀ name ∈ e.name?, name.Plain := by
    decide
  have hkey := hall _ _ _ ofText_planar hlead hnames .default planarModule (.head _) source hsource
    startsIdent_planar ⟨"2D", "TI_2D"⟩ (by decide)
  exact absurd hkey (by decide)

end Api

end Bindery

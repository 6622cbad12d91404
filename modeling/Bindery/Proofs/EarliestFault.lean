import Bindery.Proofs.MemberValues

/-!
# The earliest fault

A document can be wrong in many places. Loading reports one of them: the first declaration that
cannot be taken, and in it the first value that it cannot have. What is wrong between entries is
looked for only if all declarations were taken.

* `DraftShape.Convertible`, `DraftShape.FirstFault`: values that a declaration can have, and the
  first that it cannot have.
* `Taken`: the ids of the table and of earlier declarations.
* `DraftEntry.Faulty`, `DraftEntry.Raises`: a declaration that cannot be taken, and its error.
* `Registry.Reserves`: a registry that has exactly the taken ids; `exists_declare_of_not_faulty`,
  `declare_of_raises`: **what one declaration does to it**.
* `exists_declareAll_of_faultless`, `declareAll_of_raises`: what a run of declarations does.
* `first_fault_wins`: **loading fails with the error of the first faulty declaration**, whatever
  follows, and validates exactly if there is none.
-/

namespace Bindery

open Json

/-- Signed integers of 64 bits. -/
def IntType.i64 : IntType := ⟨"i64", -0x8000000000000000, 0x7FFFFFFFFFFFFFFF⟩

/-- A value that is an integer of a type. -/
def Json.Value.HeldBy (t : IntType) (v : Value) : Prop :=
  ∃ n, v = .number (.integer n) ∧ t.Holds n

instance (t : IntType) : (v : Value) → Decidable (v.HeldBy t)
  | .number (.integer n) =>
    decidable_of_iff (t.Holds n) (by simp [Value.HeldBy])
  | .number (.float _) | .null | .boolean _ | .string _ | .array _ | .object _ =>
    isFalse (by simp [Value.HeldBy])

/-- A value that a constant can have: a number, or a text that is not empty. -/
def Json.Value.Constant (v : Value) : Prop :=
  (∃ n, v = .number n) ∨ ∃ s, v = .string s ∧ s ≠ ""

instance : (v : Value) → Decidable v.Constant
  | .number n => isTrue (.inl ⟨n, rfl⟩)
  | .string s => decidable_of_iff (s ≠ "") (by simp [Value.Constant])
  | .null | .boolean _ | .array _ | .object _ => isFalse (by simp [Value.Constant])

namespace DraftShape

/-- **Values that a declaration can have.** -/
def Convertible : DraftShape → Prop
  | definition v => v.Constant
  | enumeration cases => ∀ p ∈ cases, p.2.HeldBy .i64
  | bitField bits => ∀ p ∈ bits, p.2.HeldBy .u32
  | _ => True

instance : (written : DraftShape) → Decidable written.Convertible
  | definition v => inferInstanceAs (Decidable v.Constant)
  | enumeration cases => inferInstanceAs (Decidable (∀ p ∈ cases, p.2.HeldBy .i64))
  | bitField bits => inferInstanceAs (Decidable (∀ p ∈ bits, p.2.HeldBy .u32))
  | typeAlias _ | handle | record _ | union _ | function _ _ | callback _ => isTrue trivial

/-- **The first value that a declaration cannot have**, in the order of its members. -/
inductive FirstFault : DraftShape → ValueFault → Prop
  | definition {v : Value} (h : ¬ v.Constant) : FirstFault (.definition v) .definition
  | case {before after : Keyed Value} {key : String} {v : Value}
    (hbefore : ∀ p ∈ before, p.2.HeldBy .i64) (h : ¬ v.HeldBy .i64) :
    FirstFault (.enumeration (before ++ (key, v) :: after)) (.case key)
  | bit {before after : Keyed Value} {key : String} {v : Value}
    (hbefore : ∀ p ∈ before, p.2.HeldBy .u32) (h : ¬ v.HeldBy .u32) :
    FirstFault (.bitField (before ++ (key, v) :: after)) (.bit key)

/-- Values as they are read: no integer lies below 64 bits. -/
def Bounded (written : DraftShape) : Prop :=
  ∀ key n, (key, .number (.integer n)) ∈ written.members → IntType.i64.low ≤ n

end DraftShape

/-- The first element without a property. -/
theorem exists_first_not {α : Type} {P : α → Prop} {l : List α} (h : ¬ ∀ a ∈ l, P a) :
    ∃ before a after, l = before ++ a :: after ∧ (∀ b ∈ before, P b) ∧ ¬ P a := by
  classical
  push Not at h
  obtain ⟨a, ha, hnot⟩ := h
  have hsome : (l.find? fun a => decide (¬ P a)).isSome :=
    List.find?_isSome.2 ⟨a, ha, decide_eq_true hnot⟩
  obtain ⟨b, hfound⟩ := Option.isSome_iff_exists.1 hsome
  obtain ⟨hb, before, after, rfl, hbefore⟩ := List.find?_eq_some_iff_append.1 hfound
  exact ⟨before, b, after, rfl, fun c hc => by simpa using hbefore c hc, of_decide_eq_true hb⟩

namespace DraftShape

variable {written : DraftShape}

theorem exists_firstFault (h : ¬ written.Convertible) : ∃ fault, written.FirstFault fault := by
  cases written with
  | definition v => exact ⟨_, .definition h⟩
  | enumeration cases =>
    obtain ⟨before, ⟨key, v⟩, after, rfl, hbefore, hv⟩ := exists_first_not h
    exact ⟨_, .case hbefore hv⟩
  | bitField bits =>
    obtain ⟨before, ⟨key, v⟩, after, rfl, hbefore, hv⟩ := exists_first_not h
    exact ⟨_, .bit hbefore hv⟩
  | _ => exact absurd trivial h

end DraftShape

section Members

variable {α : Type} {f : String → Value → Except LoadError α}

theorem exists_eachMember {members : Keyed Value}
    (h : ∀ p ∈ members, ∃ a, f p.1 p.2 = .ok a) : ∃ as, eachMember f members = .ok as := by
  induction members with
  | nil => exact ⟨[], rfl⟩
  | cons p rest ih =>
    obtain ⟨⟨a, ha⟩, hrest⟩ := List.forall_mem_cons.1 h
    obtain ⟨as, has⟩ := ih hrest
    exact ⟨a :: as, bind_eq_ok.2 ⟨a, ha, bind_eq_ok.2 ⟨as, has, rfl⟩⟩⟩

/-- Members are taken up to the first that fails. -/
theorem eachMember_of_first {before after : Keyed Value} {key : String} {v : Value}
    {err : LoadError} (hbefore : ∀ p ∈ before, ∃ a, f p.1 p.2 = .ok a) (h : f key v = .error err) :
    eachMember f (before ++ (key, v) :: after) = .error err := by
  induction before with
  | nil => exact bind_eq_error.2 (.inl h)
  | cons p rest ih =>
    obtain ⟨⟨a, ha⟩, hrest⟩ := List.forall_mem_cons.1 hbefore
    exact bind_eq_error.2 (.inr ⟨a, ha, bind_eq_error.2 (.inl (ih hrest))⟩)

end Members

section Values

variable {id name : String} {v : Value}

theorem definitionText_of_constant (id : String) (h : v.Constant) :
    ∃ text, definitionText id v = .ok text := by
  obtain ⟨n, rfl⟩ | ⟨s, rfl, hs⟩ := h
  · exact ⟨_, rfl⟩
  · exact ⟨s, if_neg hs⟩

theorem definitionText_of_not_constant (h : ¬ v.Constant) :
    definitionText id v = .error (.invalidValue id .definition) := by
  cases v with
  | number n => exact absurd (.inl ⟨n, rfl⟩) h
  | string s =>
    by_cases hs : s = ""
    · exact if_pos hs
    · exact absurd (.inr ⟨s, rfl, hs⟩) h
  | _ => rfl

theorem Case.ofMember_of_held (h : v.HeldBy .i64) : ∃ c, Case.ofMember id name v = .ok c := by
  obtain ⟨n, rfl, hn⟩ := h
  exact ⟨_, if_pos hn.2⟩

/-- An integer that is read is too high for a case, if anything. -/
theorem Case.ofMember_of_not_held (hlow : ∀ n, v = .number (.integer n) → IntType.i64.low ≤ n)
    (h : ¬ v.HeldBy .i64) : Case.ofMember id name v = .error (.invalidValue id (.case name)) := by
  unfold Case.ofMember
  split
  · rename_i n
    exact if_neg fun hhigh => h ⟨n, rfl, hlow n rfl, hhigh⟩
  · rfl

theorem Flag.ofMember_of_held (h : v.HeldBy .u32) : ∃ b, Flag.ofMember id name v = .ok b := by
  obtain ⟨n, rfl, hn⟩ := h
  exact ⟨_, if_pos hn⟩

theorem Flag.ofMember_of_not_held (h : ¬ v.HeldBy .u32) :
    Flag.ofMember id name v = .error (.invalidValue id (.bit name)) := by
  unfold Flag.ofMember
  split
  · rename_i n
    exact if_neg fun hn => h ⟨n, rfl, hn⟩
  · rfl

variable {written : DraftShape}

theorem exists_toShape_of_convertible (id : String) (h : written.Convertible) :
    ∃ shape, written.toShape id = .ok shape := by
  cases written with
  | definition v =>
    obtain ⟨text, htext⟩ := definitionText_of_constant id h
    exact ⟨_, map_eq_ok.2 ⟨text, htext, rfl⟩⟩
  | enumeration cases =>
    obtain ⟨cs, hcs⟩ := exists_eachMember fun p hp => Case.ofMember_of_held (h p hp)
    exact ⟨_, map_eq_ok.2 ⟨cs, hcs, rfl⟩⟩
  | bitField bits =>
    obtain ⟨bs, hbs⟩ := exists_eachMember fun p hp => Flag.ofMember_of_held (h p hp)
    exact ⟨_, map_eq_ok.2 ⟨bs, hbs, rfl⟩⟩
  | _ => exact ⟨_, rfl⟩

/-- **Conversion fails with the first fault.** -/
theorem toShape_of_firstFault {fault : ValueFault} (hb : written.Bounded)
    (h : written.FirstFault fault) : written.toShape id = .error (.invalidValue id fault) := by
  cases h with
  | definition hv => exact map_eq_error.2 (definitionText_of_not_constant hv)
  | @case before after key v hbefore hv =>
    have hlow : ∀ n, v = .number (.integer n) → IntType.i64.low ≤ n := by
      rintro n rfl
      exact hb key n (List.mem_append_right _ (.head _))
    exact map_eq_error.2 (eachMember_of_first
      (fun p hp => Case.ofMember_of_held (hbefore p hp)) (Case.ofMember_of_not_held hlow hv))
  | bit hbefore hv =>
    exact map_eq_error.2 (eachMember_of_first
      (fun p hp => Flag.ofMember_of_held (hbefore p hp)) (Flag.ofMember_of_not_held hv))

end Values

/-- **The ids that are taken** behind some declarations: those of the table, and theirs. -/
def Taken (table : BuiltinTable) (before : List DraftEntry) (id : String) : Prop :=
  id ∈ Keyed.keys table.spellings ∨ ∃ b ∈ before, b.id = id

instance (table : BuiltinTable) (before : List DraftEntry) (id : String) :
    Decidable (Taken table before id) :=
  inferInstanceAs (Decidable (_ ∨ _))

namespace DraftEntry

variable {table : BuiltinTable} {before : List DraftEntry} {a : DraftEntry} {err err' : LoadError}

/-- **A declaration that cannot be taken** behind others: it names a built-in type that is not in
the table, or it has a value that it cannot have, or its id is taken. Naming a built-in type takes
no id. -/
def Faulty (table : BuiltinTable) (before : List DraftEntry) : DraftEntry → Prop
  | builtin name => table.get? name = none
  | declared name _ written =>
    ¬ written.Convertible ∨ Taken table before (written.kind.idOf name)

instance (table : BuiltinTable) (before : List DraftEntry) :
    (a : DraftEntry) → Decidable (a.Faulty table before)
  | builtin name => inferInstanceAs (Decidable (table.get? name = none))
  | declared _ _ written =>
    inferInstanceAs (Decidable (¬ written.Convertible ∨ Taken table before _))

/-- **The error of a faulty declaration.** That an id is taken is reported only of a declaration
with values that it can have. -/
inductive Raises (table : BuiltinTable) (before : List DraftEntry) : DraftEntry → LoadError → Prop
  | unknown {name : String} (h : table.get? name = none) :
    Raises table before (.builtin name) (.unknownBuiltin name)
  | value {name : String} {marked : Bool} {written : DraftShape} {fault : ValueFault}
    (h : written.FirstFault fault) :
    Raises table before (.declared name marked written)
      (.invalidValue (written.kind.idOf name) fault)
  | duplicate {name : String} {marked : Bool} {written : DraftShape} (hc : written.Convertible)
    (h : Taken table before (written.kind.idOf name)) :
    Raises table before (.declared name marked written) (.duplicateEntry (written.kind.idOf name))

theorem Faulty.exists_raises (h : a.Faulty table before) : ∃ err, a.Raises table before err := by
  cases a with
  | builtin name => exact ⟨_, .unknown h⟩
  | declared name marked written =>
    by_cases hc : written.Convertible
    · exact ⟨_, .duplicate hc (h.resolve_left (not_not_intro hc))⟩
    · obtain ⟨fault, hfault⟩ := DraftShape.exists_firstFault hc
      exact ⟨_, .value hfault⟩

/-- Values as they are read in all members of a declaration. -/
def Bounded : DraftEntry → Prop
  | builtin _ => True
  | declared _ _ written => written.Bounded

end DraftEntry

/-- **A registry in which exactly the taken ids are taken.** -/
def Registry.Reserves (table : BuiltinTable) (before : List DraftEntry) (r : Registry) : Prop :=
  ∀ id, r.contains id = true ↔ Taken table before id

section Declaration

variable {table : BuiltinTable} {before : List DraftEntry} {a : DraftEntry} {r : Registry}
  {err : LoadError}

theorem taken_append_singleton {id : String} :
    Taken table (before ++ [a]) id ↔ Taken table before id ∨ a.id = id := by
  simp [Taken, or_and_right, exists_or, or_assoc]

theorem contains_of_insert {s : Registry} {e : Entry} (h : r.insert e = some s) (id : String) :
    s.contains id = true ↔ r.contains id = true ∨ e.id = id := by
  rw [Registry.contains_iff, Registry.contains_iff, Registry.entries_insert h, List.map_append,
    List.mem_append, List.map_singleton, List.mem_singleton, eq_comm (a := id)]

/-- A declaration with values that it can have makes an entry under its own id. -/
theorem exists_declaredEntry (lead : Option String) (name : String) (marked : Bool)
    {written : DraftShape} (hc : written.Convertible) :
    ∃ e, declaredEntry lead name marked written = .ok e ∧ e.id = written.kind.idOf name := by
  obtain ⟨shape, hshape⟩ := exists_toShape_of_convertible (written.kind.idOf name) hc
  exact ⟨_, bind_eq_ok.2 ⟨shape, hshape, rfl⟩, rfl⟩

/-- **A declaration that is not faulty is taken**, and its id with it. -/
theorem exists_declare_of_not_faulty (lead : Option String) (hr : r.Reserves table before)
    (h : ¬ a.Faulty table before) :
    ∃ s, declare table lead r a = .ok (s, a.id) ∧ s.Reserves table (before ++ [a]) := by
  cases a with
  | builtin name =>
    obtain ⟨spelling, hget⟩ := Option.ne_none_iff_exists'.1 h
    refine ⟨r, by simp [declare, hget, DraftEntry.id], fun id => ?_⟩
    rw [hr id, taken_append_singleton]
    -- the id of the type is one of the table already
    refine ⟨.inl, fun htaken => htaken.elim (fun htaken => htaken) ?_⟩
    rintro rfl
    exact .inl (List.mem_map_of_mem (Keyed.mem_of_get? hget))
  | declared name marked written =>
    obtain ⟨hc, hfree⟩ := not_or.1 h
    obtain ⟨e, he, hid⟩ := exists_declaredEntry lead name marked (not_not.1 hc)
    rcases hinsert : r.insert e with _ | s
    · exact absurd ((hr _).1 (hid ▸ Registry.insert_eq_none.1 hinsert)) hfree
    refine ⟨s, bind_eq_ok.2 ⟨e, he, ?_⟩, fun id => ?_⟩
    · rw [hinsert, hid]
      rfl
    · rw [contains_of_insert hinsert, hr id, taken_append_singleton, hid]
      rfl

/-- **A faulty declaration fails with its error.** -/
theorem declare_of_raises (lead : Option String) (hr : r.Reserves table before) (hb : a.Bounded)
    (h : a.Raises table before err) : declare table lead r a = .error err := by
  cases h with
  | unknown hget => simp [declare, hget]
  | value hfault =>
    exact bind_eq_error.2 (.inl (bind_eq_error.2 (.inl (toShape_of_firstFault hb hfault))))
  | @duplicate name marked written hc htaken =>
    obtain ⟨e, he, hid⟩ := exists_declaredEntry lead name marked hc
    have hinsert : r.insert e = none := Registry.insert_eq_none.2 (hid ▸ (hr _).2 htaken)
    refine bind_eq_error.2 (.inr ⟨e, he, ?_⟩)
    rw [hinsert, hid]

end Declaration

/-- **Declarations that are all taken**: none is faulty behind those before it. -/
def Faultless (table : BuiltinTable) (ds : List DraftEntry) : Prop :=
  ∀ before a, before ++ [a] <+: ds → ¬ a.Faulty table before

section Run

variable {table : BuiltinTable} {lead : Option String} {ds before after : List DraftEntry}
  {a : DraftEntry} {r : Registry} {err : LoadError}

theorem faultless_nil : Faultless table [] := by
  intro before a h
  simp at h

/-- One more declaration is taken exactly if it is not faulty behind the others. -/
theorem faultless_append_singleton_iff :
    Faultless table (ds ++ [a]) ↔ Faultless table ds ∧ ¬ a.Faulty table ds := by
  constructor
  · intro h
    exact ⟨fun before b hb => h before b (hb.trans (List.prefix_append _ _)),
      h ds a List.prefix_rfl⟩
  · rintro ⟨hds, ha⟩ before b hb
    -- the declaration is the last one, or one of the others with the same in front of it
    rcases List.prefix_concat_iff.1 hb with heq | hb
    · obtain ⟨rfl, hone⟩ := List.append_inj' heq rfl
      obtain rfl := List.singleton_inj.1 hone
      exact ha
    · exact hds before b hb

/-- Where not all declarations are taken, there is a first that is not. -/
theorem exists_first_faulty (h : ¬ Faultless table ds) :
    ∃ before a, before ++ [a] <+: ds ∧ Faultless table before ∧ a.Faulty table before := by
  induction ds using List.reverseRecOn with
  | nil => exact absurd faultless_nil h
  | append_singleton ds a ih =>
    by_cases hds : Faultless table ds
    · refine ⟨ds, a, List.prefix_rfl, hds, ?_⟩
      by_contra ha
      exact h (faultless_append_singleton_iff.2 ⟨hds, ha⟩)
    · obtain ⟨before, b, hstart, hbefore, hb⟩ := ih hds
      exact ⟨before, b, hstart.trans (List.prefix_append _ _), hbefore, hb⟩

/-- Declarations in two parts: the second goes on from the registry of the first. -/
theorem declareAll_append (ds ds' : List DraftEntry) :
    declareAll table lead r (ds ++ ds') = declareAll table lead r ds >>= fun p =>
      (declareAll table lead p.1 ds').map fun q => (q.1, p.2 ++ q.2) := by
  induction ds generalizing r with
  | nil =>
    simp only [List.nil_append, declareAll, bind, Except.bind]
    cases declareAll table lead r ds' <;> rfl
  | cons d ds ih =>
    rw [List.cons_append, declareAll, declareAll]
    rcases declare table lead r d with err | ⟨s, id⟩
    · rfl
    simp only [ih, bind, Except.bind, pure, Except.pure]
    rcases declareAll table lead s ds with err | ⟨t, ids⟩
    · rfl
    dsimp only
    cases declareAll table lead t ds' <;> rfl

/-- Modules are taken as their declarations are. -/
theorem map_fst_declareModules (ms : List DraftModule) :
    (declareModules table lead r ms).map Prod.fst =
      (declareAll table lead r (ms.flatMap DraftModule.entries)).map Prod.fst := by
  induction ms generalizing r with
  | nil => rfl
  | cons m ms ih =>
    rw [List.flatMap_cons, declareAll_append, declareModules]
    rcases declareAll table lead r m.entries with err | ⟨s, ids⟩
    · rfl
    have hrest := ih (r := s)
    simp only [bind, Except.bind]
    cases hmodules : declareModules table lead s ms <;>
      cases hall : declareAll table lead s (ms.flatMap DraftModule.entries) <;>
      rw [hmodules, hall] at hrest <;> exact hrest

/-- **Declarations without a fault are all taken.** -/
theorem exists_declareAll_of_faultless (lead : Option String) (hr : r.Reserves table [])
    (h : Faultless table ds) :
    ∃ s ids, declareAll table lead r ds = .ok (s, ids) ∧ s.Reserves table ds := by
  -- from the end, since what a declaration is checked against are all those before it
  induction ds using List.reverseRecOn with
  | nil => exact ⟨r, [], rfl, hr⟩
  | append_singleton ds a ih =>
    obtain ⟨hds, ha⟩ := faultless_append_singleton_iff.1 h
    obtain ⟨s, ids, hs, hreserves⟩ := ih hds
    obtain ⟨t, ht, hreserves'⟩ := exists_declare_of_not_faulty lead hreserves ha
    refine ⟨t, ids ++ [a.id], ?_, hreserves'⟩
    rw [declareAll_append, hs]
    simp [declareAll, ht, bind, Except.bind, Except.map, pure, Except.pure]

/-- **The first faulty declaration ends them all**, whatever follows. -/
theorem declareAll_of_raises (lead : Option String) (hr : r.Reserves table [])
    (hb : ∀ b ∈ ds, b.Bounded) (hstart : before ++ [a] <+: ds) (h : Faultless table before)
    (ha : a.Raises table before err) : declareAll table lead r ds = .error err := by
  obtain ⟨after, rfl⟩ := hstart
  obtain ⟨s, ids, hs, hreserves⟩ := exists_declareAll_of_faultless lead hr h
  have hone := declare_of_raises lead hreserves (hb a (by simp)) ha
  rw [List.append_assoc, declareAll_append, hs]
  refine map_eq_error.2 ?_
  exact bind_eq_error.2 (.inl hone)

end Run

section Documents

variable {table : BuiltinTable} {text : String} {d : Draft} {before : List DraftEntry}
  {a : DraftEntry} {r : Registry} {err : LoadError}

/-- Entries with different ids are all added. -/
theorem exists_insertAll {es : List Entry} (h : ((r.entries ++ es).map Entry.id).Nodup) :
    ∃ s, insertAll r es = .ok s := by
  induction es generalizing r with
  | nil => exact ⟨r, rfl⟩
  | cons e es ih =>
    rcases hinsert : r.insert e with _ | s
    · -- the id would stand twice
      have htaken := (r.contains_iff _).1 (Registry.insert_eq_none.1 hinsert)
      rw [List.map_append, List.map_cons] at h
      exact absurd (.head _) (List.disjoint_of_nodup_append h htaken)
    · rw [List.append_cons, ← Registry.entries_insert hinsert] at h
      simp only [insertAll, hinsert]
      exact ih h

/-- **The types of a table are registered**, and nothing else is at first. -/
theorem exists_insertAll_table (table : BuiltinTable) :
    ∃ r, insertAll .empty table.entries = .ok r ∧ r.Reserves table [] := by
  have hids := table.map_id_entries
  have hempty : Registry.empty.entries = [] := rfl
  have hdistinct : ((Registry.empty.entries ++ table.entries).map Entry.id).Nodup := by
    rw [hempty, List.nil_append, hids]
    exact table.distinct
  obtain ⟨r, hr⟩ := exists_insertAll hdistinct
  refine ⟨r, hr, fun id => ?_⟩
  rw [Registry.contains_iff, entries_insertAll hr, hempty, List.nil_append, hids]
  simp [Taken]

/-- A document that was read has integers of 64 bits. -/
theorem bounded_of_ofText (hd : Draft.ofText text = .ok d) : ∀ b ∈ d.declarations, b.Bounded := by
  rintro (name | ⟨name, marked, written⟩) hb
  · trivial
  · exact fun key n hn => (integer_of_member hd hb hn).1

/-- The declarations of a document decide whether it has an interface. -/
theorem toApi_eq_error (hr : insertAll .empty table.entries = .ok r)
    (h : declareAll table (d.lead.filter (· ≠ "")) r d.declarations = .error err) :
    d.toApi table = .error err := by
  refine bind_eq_error.2 (.inr ⟨r, hr, bind_eq_error.2 (.inl ?_)⟩)
  rw [← map_eq_error (f := Prod.fst), map_fst_declareModules]
  exact map_eq_error.2 h

theorem exists_toApi {s : Registry} {ids : List String}
    (hr : insertAll .empty table.entries = .ok r)
    (h : declareAll table (d.lead.filter (· ≠ "")) r d.declarations = .ok (s, ids)) :
    ∃ api, d.toApi table = .ok api := by
  have hfst : (declareModules table (d.lead.filter (· ≠ "")) r d.modules).map Prod.fst = .ok s := by
    rw [map_fst_declareModules]
    exact map_eq_ok.2 ⟨_, h, rfl⟩
  obtain ⟨⟨s', modules⟩, hmodules, rfl⟩ := map_eq_ok.1 hfst
  exact ⟨_, bind_eq_ok.2 ⟨r, hr, bind_eq_ok.2 ⟨_, hmodules, rfl⟩⟩⟩

/-- **The first faulty declaration of a document is the error**, whatever follows. -/
theorem ofText_of_raises (hd : Draft.ofText text = .ok d)
    (hstart : before ++ [a] <+: d.declarations) (hbefore : Faultless table before)
    (ha : a.Raises table before err) : Api.ofText table text = .error err := by
  obtain ⟨r, hr, hreserves⟩ := exists_insertAll_table table
  have hall := declareAll_of_raises (d.lead.filter (· ≠ "")) hreserves (bounded_of_ofText hd) hstart
    hbefore ha
  unfold Api.ofText
  rw [hd]
  exact bind_eq_error.2 (.inl (toApi_eq_error hr hall))

/-- So a faulty declaration raises one error only, and it is that of the document. -/
theorem exists_error_of_faulty (hd : Draft.ofText text = .ok d)
    (hstart : before ++ [a] <+: d.declarations) (hbefore : Faultless table before)
    (h : a.Faulty table before) :
    ∃ err, Api.ofText table text = .error err ∧
      ∀ err', a.Raises table before err' ↔ err' = err := by
  obtain ⟨err, hraises⟩ := h.exists_raises
  have herr := ofText_of_raises hd hstart hbefore hraises
  refine ⟨err, herr, fun err' => ⟨fun hraises' => ?_, fun heq => heq ▸ hraises⟩⟩
  have herr' := ofText_of_raises hd hstart hbefore hraises'
  exact Except.error.inj (herr'.symm.trans herr)

/-- Without a faulty declaration, it is validation that decides. -/
theorem ofText_of_faultless (hd : Draft.ofText text = .ok d)
    (h : Faultless table d.declarations) :
    ∃ api, d.toApi table = .ok api ∧ Api.ofText table text = api.validate.map fun _ => api := by
  obtain ⟨r, hr, hreserves⟩ := exists_insertAll_table table
  obtain ⟨s, ids, hall, -⟩ := exists_declareAll_of_faultless (d.lead.filter (· ≠ "")) hreserves h
  obtain ⟨api, hapi⟩ := exists_toApi hr hall
  refine ⟨api, hapi, ?_⟩
  unfold Api.ofText
  rw [hd]
  simp only [Api.ofDraft, hapi, bind, Except.bind]
  cases api.validate <;> rfl

/-- A fault that only validation looks for. -/
def LoadError.OfValidation : LoadError → Prop
  | unresolved _ _ => True
  | invalid _ => True
  | _ => False

/-- **The first fault wins.** Take the declarations of a document in the order of its modules. If
one is faulty behind those before it, and none of those is, then loading fails with the only error
that this declaration raises, which depends on nothing that follows. If none is faulty, there is an
interface, and loading ends as its validation does. So a fault of validation is reported only if no
declaration is faulty. -/
theorem first_fault_wins (hd : Draft.ofText text = .ok d) :
    (∀ before a, before ++ [a] <+: d.declarations → Faultless table before →
      a.Faulty table before → ∃ err, Api.ofText table text = .error err ∧
        ∀ err', a.Raises table before err' ↔ err' = err) ∧
    (Faultless table d.declarations → ∃ api, d.toApi table = .ok api ∧
      Api.ofText table text = api.validate.map fun _ => api) ∧
    ∀ err, Api.ofText table text = .error err → err.OfValidation →
      Faultless table d.declarations := by
  refine ⟨fun before a => exists_error_of_faulty hd, ofText_of_faultless hd,
    fun err herr hval => ?_⟩
  by_contra hnot
  obtain ⟨before, a, hstart, hbefore, hfaulty⟩ := exists_first_faulty hnot
  obtain ⟨err', herr', hraises⟩ := exists_error_of_faulty hd hstart hbefore hfaulty
  obtain rfl : err' = err := Except.error.inj (herr'.symm.trans herr)
  -- no declaration raises a fault of validation
  cases (hraises err').2 rfl with
  | unknown | value | duplicate => exact hval

end Documents

/-- A text in which an alias leads nowhere, an enumeration is declared again with two values that it
cannot have, and a module names a type that is in no table. -/
def faultyText : String :=
  "[\"ti\",[[\"a.h\",false,[],[[\"builtin\",\"float\"],[\"alias\",\"x\",\"y\"],"
    ++ "[\"enumeration\",\"e\",\x7b\"a\":0\x7d],"
    ++ "[\"enumeration\",\"e\",\x7b\"a\":1,\"b\":true,\"c\":\"2\"\x7d]]],"
    ++ "[\"b.h\",false,[],[[\"builtin\",\"int\"]]]]]"

/-- The declarations in `faultyText` up to the second enumeration. -/
def faultyStart : List DraftEntry :=
  [.builtin "float", .declared "x" false (.typeAlias "y"),
    .declared "e" false (.enumeration [("a", .number (.integer 0))])]

/-- The second enumeration in `faultyText`. -/
def faultyEnumeration : DraftShape :=
  .enumeration ([("a", .number (.integer 1))] ++ ("b", .boolean true) :: [("c", .string "2")])

/-- The document in `faultyText`. -/
def faultyDraft : Draft where
  lead := some "ti"
  modules :=
    [⟨"a.h", false, [], faultyStart ++ [.declared "e" false faultyEnumeration], none⟩,
      ⟨"b.h", false, [], [.builtin "int"], none⟩]

theorem draft_faulty : Draft.ofText faultyText = .ok faultyDraft := by
  cbv

theorem faultless_faultyStart : Faultless platformTable faultyStart := by
  have hfirst : Faultless platformTable [.builtin "float"] :=
    faultless_append_singleton_iff.2 ⟨faultless_nil, by decide⟩
  have hsecond := faultless_append_singleton_iff.2
    ⟨hfirst, show ¬ (DraftEntry.declared "x" false (.typeAlias "y")).Faulty _ _ by decide⟩
  exact faultless_append_singleton_iff.2 ⟨hsecond, by decide⟩

/-- In `faultyText` the second value of the second enumeration is the error, though the id of the
enumeration is taken, an earlier alias leads nowhere and another fault follows. -/
theorem first_fault_wins_faulty : Draft.ofText faultyText = .ok faultyDraft ∧
    Api.ofText platformTable faultyText = .error (.invalidValue "enumeration.e" (.case "b")) := by
  obtain ⟨hfirst, -⟩ := first_fault_wins draft_faulty
  obtain ⟨err, herr, honly⟩ := hfirst faultyStart (.declared "e" false faultyEnumeration)
    ⟨_, rfl⟩ faultless_faultyStart (by decide)
  have hvalue : (DraftEntry.declared "e" false faultyEnumeration).Raises platformTable faultyStart
      (.invalidValue "enumeration.e" (.case "b")) :=
    .value (.case (by decide) (by decide))
  exact ⟨draft_faulty, (honly _).1 hvalue ▸ herr⟩

end Bindery

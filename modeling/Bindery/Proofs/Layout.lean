import Bindery.Proofs.Inventory

/-!
# What stands where in a document

A decoder takes the parts of a tree apart and puts what it reads into a record. Where a document can
be read, each part of what was read comes from one place of its tree.

* `Json.lookUp`, `Json.Record.member?`: the tree of a member of an object or a record.
* `Json.Record.Slot`, `Slot.rel_of_read`: **a slot of a record holds what its member holds**.
* `forall₂_of_list`, `rel_of_keyed`: the items of an array, and the values of an object.
* `moduleTrees`, `declarationTrees`, `Draft.member?`: the places of modules, of declarations and of
  the members of a declaration.
* `forall₂_of_ofText`, `forall₂_of_decodeModule`, `exists_of_decodeEntry`: **what stands there**.
-/

namespace Bindery

namespace Json

/-- The value of a key among the members of an object: the last one. -/
def lookUp (key : String) : List (Except Break String × Tree) → Option Tree
  | [] => none
  | (.ok k, t) :: rest => (lookUp key rest).or (if k = key then some t else none)
  | (.error _, _) :: rest => lookUp key rest

theorem lookUp_cons (key k : String) (t : Tree) (rest : List (Except Break String × Tree)) :
    lookUp key ((.ok k, t) :: rest) = (lookUp key rest).or (if k = key then some t else none) :=
  rfl

theorem literal_eq_ok {α : Type} {x : Except Break α} {a : α} (h : literal x = .ok a) :
    x = .ok a := by
  cases x with
  | ok b => exact congrArg Except.ok (Except.ok.inj h)
  | error b => cases h

theorem closed_eq_ok {stop : Option Rupture} {u : Unit} (h : closed stop = .ok u) :
    stop = none := by
  cases stop with
  | none => rfl
  | some r => cases h

theorem need_eq_ok {α : Type} {name : String} {o : Option α} {x : α} (h : need name o = .ok x) :
    o = some x := by
  cases o with
  | none => cases h
  | some y => exact congrArg some (Except.ok.inj h)

section Members

variable {R α : Type} {get : R → Option α} {d : Decoder α}

/-- **A member that fills a slot** with what a decoder reads. -/
structure Member.Fills (m : Member R) (get : R → Option α) (d : Decoder α) : Prop where
  given : ∀ r, m.given r = (get r).isSome
  read : ∀ depth t fill, m.read depth t = .ok fill →
    ∃ a, d depth t = .ok a ∧ ∀ r, get (fill r) = some a

/-- A member that leaves a slot alone. -/
def Member.Spares (m : Member R) (get : R → Option α) : Prop :=
  ∀ depth t fill, m.read depth t = .ok fill → ∀ r, get (fill r) = get r

theorem Member.fills_slot {name : String} {required : Bool} {set : R → α → R}
    (h : ∀ r a, get (set r a) = some a) : (Member.slot name required get set d).Fills get d where
  given _ := rfl
  read depth t fill hfill := by
    obtain ⟨a, ha, rfl⟩ := map_eq_ok.1 hfill
    exact ⟨a, ha, fun r => h r a⟩

theorem Member.spares_slot {β : Type} {name : String} {required : Bool} {get' : R → Option β}
    {set : R → β → R} {d' : Decoder β} (h : ∀ r b, get (set r b) = get r) :
    (Member.slot name required get' set d').Spares get := by
  intro depth t fill hfill r
  obtain ⟨b, -, rfl⟩ := map_eq_ok.1 hfill
  exact h r b

/-- A member that fills a slot if it has a given name, and leaves it alone otherwise. -/
structure Member.Respects (m : Member R) (name : String) (get : R → Option α) (d : Decoder α) :
    Prop where
  fills : m.name = name → m.Fills get d
  spares : m.name ≠ name → m.Spares get

theorem Member.Respects.self {name : String} {required : Bool} {set : R → α → R}
    (h : ∀ r a, get (set r a) = some a) :
    (Member.slot name required get set d).Respects name get d :=
  ⟨fun _ => fills_slot h, fun hne => absurd rfl hne⟩

theorem Member.Respects.other {β : Type} {name name' : String} {required : Bool}
    {get' : R → Option β} {set : R → β → R} {d' : Decoder β} (hne : name' ≠ name)
    (h : ∀ r b, get (set r b) = get r) :
    (Member.slot name' required get' set d').Respects name get d :=
  ⟨fun heq => absurd heq hne, fun _ => spares_slot h⟩

/-- **A slot of a record that one of its members fills**, and no other touches. -/
structure Record.Slot (shape : Record R) (name : String) (get : R → Option α) (d : Decoder α) :
    Prop where
  distinct : (shape.members.map Member.name).Nodup
  mem : name ∈ shape.members.map Member.name
  respects : ∀ m ∈ shape.members, m.Respects name get d

/-- The tree of a member of a record: in an object under its name, in an array at its place. -/
def Record.member? (shape : Record R) (name : String) : Tree → Option Tree
  | .object ms _ => lookUp name ms
  | .array ts _ => ts[shape.members.findIdx (·.name == name)]?
  | _ => none

variable {shape : Record R} {name : String} {blank r r' : R} {depth : Nat}

/-- In an object, a slot is filled by the member with its name, which occurs once. -/
theorem Record.Slot.rel_of_readObject (hs : shape.Slot name get d)
    {ms : List (Except Break String × Tree)} (h : shape.readObject depth ms r = .ok r') :
    (lookUp name ms = none → get r' = get r) ∧ ∀ t, lookUp name ms = some t →
      get r = none ∧ ∃ a, d depth t = .ok a ∧ get r' = some a := by
  induction ms generalizing r with
  | nil =>
    obtain rfl := Except.ok.inj h
    simp [lookUp]
  | cons p rest ih =>
    obtain ⟨key, t⟩ := p
    obtain ⟨k, hk, hstep⟩ := bind_eq_ok.1 h
    obtain rfl := literal_eq_ok hk
    rw [lookUp_cons]
    split at hstep
    · -- an unknown member is passed over
      rename_i hunknown
      obtain ⟨-, -, hrest⟩ := bind_eq_ok.1 hstep
      have hne : k ≠ name := by
        rintro rfl
        obtain ⟨m, hm, hname⟩ := List.mem_map.1 hs.mem
        exact List.find?_eq_none.1 hunknown m hm (beq_iff_eq.2 hname)
      rw [if_neg hne, Option.or_none]
      exact ih hrest
    · rename_i m hfound
      have hm : m ∈ shape.members := List.mem_of_find?_eq_some hfound
      have hname : m.name = k := by simpa using List.find?_some hfound
      split at hstep
      · cases hstep
      rename_i hgiven
      obtain ⟨fill, hfill, hrest⟩ := bind_eq_ok.1 hstep
      obtain ⟨hnone, hsome⟩ := ih hrest
      by_cases hkey : k = name
      · obtain ⟨hgive, hread⟩ := (hs.respects m hm).fills (hname.trans hkey)
        obtain ⟨a, ha, hget⟩ := hread depth t fill hfill
        have hblank : get r = none := by
          rw [hgive, Bool.not_eq_true] at hgiven
          simpa using hgiven
        -- a second member with this name would find the slot filled
        have hlast : lookUp name rest = none := by
          refine Option.eq_none_iff_forall_ne_some.2 fun t' ht' => ?_
          rw [hget] at hsome
          cases (hsome t' ht').1
        rw [hlast, if_pos hkey, Option.none_or]
        refine ⟨fun hnot => absurd hnot (by simp), fun t' ht' => ?_⟩
        obtain rfl := Option.some.inj ht'
        exact ⟨hblank, a, ha, (hnone hlast).trans (hget r)⟩
      · have hget : get (fill r) = get r :=
          (hs.respects m hm).spares (fun heq => hkey (hname.symm.trans heq)) depth t fill hfill r
        rw [if_neg hkey, Option.or_none, ← hget]
        exact ⟨hnone, hsome⟩

/-- In an array, a slot is filled by the element at its place. -/
theorem Record.rel_of_readArray {ms : List (Member R)} (hdistinct : (ms.map Member.name).Nodup)
    (hrespects : ∀ m ∈ ms, m.Respects name get d) {stop : Option Rupture} {place : Nat}
    {ts : List Tree} (h : shape.readArray depth stop place ms ts r = .ok r') :
    (name ∉ ms.map Member.name → get r' = get r) ∧
      (name ∈ ms.map Member.name → get r = none →
        Option.Rel (fun t a => d depth t = .ok a) ts[ms.findIdx (·.name == name)]? (get r')) := by
  induction ms generalizing place ts r with
  | nil =>
    cases ts with
    | nil =>
      obtain ⟨-, -, hr⟩ := bind_eq_ok.1 h
      obtain rfl := Except.ok.inj hr
      simp
    | cons t ts => cases h
  | cons m ms ih =>
    rw [List.map_cons, List.nodup_cons] at hdistinct
    have ihms := fun {place : Nat} {ts : List Tree} {r : R} =>
      @ih r hdistinct.2 (fun m hm => hrespects m (.tail _ hm)) place ts
    simp only [List.map_cons, List.mem_cons, List.findIdx_cons]
    cases ts with
    | nil =>
      obtain ⟨-, -, hstep⟩ := bind_eq_ok.1 h
      split at hstep
      · cases hstep
      obtain ⟨hother, hhere⟩ := ihms hstep
      by_cases hname : m.name = name
      · have hmem : name ∉ ms.map Member.name := hname ▸ hdistinct.1
        refine ⟨fun _ => hother hmem, fun _ hblank => ?_⟩
        rw [List.getElem?_nil, hother hmem, hblank]
        exact .none
      · have hne : (m.name == name) = false := beq_eq_false_iff_ne.2 hname
        have hne' : name ≠ m.name := Ne.symm hname
        simp only [hne', false_or, hne, cond_false, List.getElem?_nil] at hhere ⊢
        exact ⟨hother, hhere⟩
    | cons t ts =>
      obtain ⟨fill, hfill, hrest⟩ := bind_eq_ok.1 h
      obtain ⟨hother, hhere⟩ := ihms hrest
      by_cases hname : m.name = name
      · have hmem : name ∉ ms.map Member.name := hname ▸ hdistinct.1
        obtain ⟨a, ha, hget⟩ := ((hrespects m (.head _)).fills hname).read depth t fill hfill
        refine ⟨fun hnot => absurd (.inl hname.symm) hnot, fun _ _ => ?_⟩
        rw [beq_iff_eq.2 hname, cond_true, List.getElem?_cons_zero, hother hmem, hget]
        exact .some ha
      · have hne : (m.name == name) = false := beq_eq_false_iff_ne.2 hname
        have hne' : name ≠ m.name := Ne.symm hname
        have hget : get (fill r) = get r :=
          (hrespects m (.head _)).spares hname depth t fill hfill r
        rw [hget] at hother hhere
        simp only [hne', false_or, hne, cond_false, List.getElem?_cons_succ]
        exact ⟨hother, hhere⟩

/-- **A slot of a record holds what its member holds.** -/
theorem Record.Slot.rel_of_read (hs : shape.Slot name get d) (hblank : get blank = none) {t : Tree}
    (h : shape.read blank depth t = .ok r) :
    Option.Rel (fun sub a => d (depth + 1) sub = .ok a) (shape.member? name t) (get r) := by
  unfold Record.read at h
  split at h
  · rename_i ms stop
    obtain ⟨-, -, h⟩ := bind_eq_ok.1 h
    obtain ⟨read, hread, h⟩ := bind_eq_ok.1 h
    obtain ⟨-, -, h⟩ := bind_eq_ok.1 h
    obtain rfl := Except.ok.inj h
    obtain ⟨hnone, hsome⟩ := hs.rel_of_readObject hread
    have hmember : shape.member? name (.object ms stop) = lookUp name ms := rfl
    rcases hlook : lookUp name ms with _ | sub
    · rw [hmember, hlook, hnone hlook, hblank]
      exact .none
    · obtain ⟨-, a, ha, hget⟩ := hsome sub hlook
      rw [hmember, hlook, hget]
      exact .some ha
  · rename_i ts stop
    obtain ⟨-, -, h⟩ := bind_eq_ok.1 h
    exact (Record.rel_of_readArray hs.distinct hs.respects h).2 hs.mem hblank
  · obtain ⟨found, -, h⟩ := bind_eq_ok.1 h
    cases h

end Members

section Containers

variable {α : Type} {d : Decoder α} {depth : Nat} {t : Tree}

/-- The items of an array; nothing else has any. -/
def Tree.items : Tree → List Tree
  | .array ts _ => ts
  | _ => []

/-- The value of a key, where a tree is an object. -/
def Tree.value? (t : Tree) (key : String) : Option Tree :=
  match t with
  | .object ms _ => lookUp key ms
  | _ => none

theorem forall₂_of_items {read : Tree → Except Fault α} {ts : List Tree} {as : List α}
    (h : Decoder.items read ts = .ok as) : List.Forall₂ (fun t a => read t = .ok a) ts as := by
  induction ts generalizing as with
  | nil =>
    obtain rfl := Except.ok.inj h
    exact .nil
  | cons t ts ih =>
    obtain ⟨a, ha, h⟩ := bind_eq_ok.1 h
    obtain ⟨rest, hrest, h⟩ := bind_eq_ok.1 h
    obtain rfl := Except.ok.inj h
    exact .cons ha (ih hrest)

/-- **The values of an array are those of its items.** -/
theorem forall₂_of_list {as : List α} (h : Decoder.list d depth t = .ok as) :
    List.Forall₂ (fun t a => d (depth + 1) t = .ok a) t.items as := by
  unfold Decoder.list at h
  split at h
  · obtain ⟨-, -, h⟩ := bind_eq_ok.1 h
    obtain ⟨values, hvalues, h⟩ := bind_eq_ok.1 h
    obtain ⟨-, -, h⟩ := bind_eq_ok.1 h
    obtain rfl := Except.ok.inj h
    exact forall₂_of_items hvalues
  · obtain ⟨found, -, h⟩ := bind_eq_ok.1 h
    cases h

/-- The items of an array that may be missing. -/
theorem forall₂_of_rel {sub : Option Tree} {as : Option (List α)}
    (h : Option.Rel (fun t as => Decoder.list d depth t = .ok as) sub as) :
    List.Forall₂ (fun t a => d (depth + 1) t = .ok a) (sub.elim [] Tree.items) (as.getD []) := by
  cases h with
  | none => exact .nil
  | some h => exact forall₂_of_list h

/-- Values that are put one after the other: under each key the last one holds. -/
theorem get?_of_entries {read : Tree → Except Fault α} {ms : List (Except Break String × Tree)}
    {values : List (String × α)} (h : Decoder.entries read ms = .ok values) (key : String)
    (done : Keyed α) :
    (lookUp key ms = none →
        Keyed.get? (values.foldl (fun done p => done.put p.1 p.2) done) key = done.get? key) ∧
      ∀ t, lookUp key ms = some t → ∃ a, read t = .ok a ∧
        Keyed.get? (values.foldl (fun done p => done.put p.1 p.2) done) key = some a := by
  induction ms generalizing values done with
  | nil =>
    obtain rfl := Except.ok.inj h
    simp [lookUp]
  | cons p rest ih =>
    obtain ⟨k', t⟩ := p
    obtain ⟨k, hk, hstep⟩ := bind_eq_ok.1 h
    obtain rfl := literal_eq_ok hk
    obtain ⟨a, ha, hstep⟩ := bind_eq_ok.1 hstep
    obtain ⟨more, hmore, hstep⟩ := bind_eq_ok.1 hstep
    obtain rfl := Except.ok.inj hstep
    obtain ⟨hnone, hsome⟩ := ih hmore (done.put k a)
    rw [List.foldl_cons, lookUp_cons]
    rcases hlook : lookUp key rest with _ | t'
    · have hput := Keyed.get?_put done k key a
      rw [hnone hlook, hput, Option.none_or]
      by_cases hkey : k = key
      · simp [hkey, ha]
      · simp [hkey]
    · simpa using hsome t' hlook

/-- **The values of an object are those of its members**, of several for one key the last. -/
theorem rel_of_keyed {values : Keyed α} (h : Decoder.keyed d depth t = .ok values) (key : String) :
    Option.Rel (fun sub a => d (depth + 1) sub = .ok a) (t.value? key) (values.get? key) := by
  unfold Decoder.keyed at h
  split at h
  · rename_i ms stop
    obtain ⟨-, -, h⟩ := bind_eq_ok.1 h
    obtain ⟨pairs, hpairs, h⟩ := bind_eq_ok.1 h
    obtain ⟨-, -, h⟩ := bind_eq_ok.1 h
    obtain rfl := Except.ok.inj h
    obtain ⟨hnone, hsome⟩ := get?_of_entries hpairs key []
    have hvalue : (Tree.object ms stop).value? key = lookUp key ms := rfl
    rcases hlook : lookUp key ms with _ | sub
    · rw [hvalue, hlook, Keyed.ofList, hnone hlook]
      exact .none
    · obtain ⟨a, ha, hget⟩ := hsome sub hlook
      rw [hvalue, hlook, Keyed.ofList, hget]
      exact .some ha
  · obtain ⟨found, -, h⟩ := bind_eq_ok.1 h
    cases h

end Containers

end Json

namespace Draft

open Json

theorem modules_slot : rootRecord.Slot "modules" RootParts.modules (.list decodeModule) where
  distinct := by decide
  mem := by decide
  respects := List.forall_mem_cons.2 ⟨.other (by decide) fun _ _ => rfl,
    List.forall_mem_singleton.2 (.self fun _ _ => rfl)⟩

theorem declarations_slot :
    moduleRecord.Slot "declarations" ModuleParts.entries (.list decodeEntry) where
  distinct := by decide
  mem := by decide
  respects := by
    simp only [moduleRecord, List.forall_mem_cons]
    exact ⟨.other (by decide) fun _ _ => rfl, .other (by decide) fun _ _ => rfl,
      .other (by decide) fun _ _ => rfl, .self fun _ _ => rfl, .other (by decide) fun _ _ => rfl,
      by simp⟩

theorem count_slot : fieldRecord.Slot "count" FieldParts.count (.nullable decodeCount) where
  distinct := by decide
  mem := by decide
  respects := by
    simp only [fieldRecord, List.forall_mem_cons]
    exact ⟨.other (by decide) fun _ _ => rfl, .other (by decide) fun _ _ => rfl,
      .other (by decide) fun _ _ => rfl, .other (by decide) fun _ _ => rfl, .self fun _ _ => rfl,
      by simp⟩

/-- A member between the name of an entry and its mark, as most kinds have one. -/
theorem middle_slot {α : Type} {kind : Kind} {name : String} {required : Bool}
    {get : EntryParts → Option α} {set : EntryParts → α → EntryParts} {d : Decoder α}
    (hmembers : (variant kind).members =
      [nameMember, .slot name required get set d, extensionMember])
    (hname : "name" ≠ name) (hmark : "is_extension" ≠ name) (hset : ∀ r a, get (set r a) = some a)
    (hnamed : ∀ r a, get { r with name := some a } = get r)
    (hmarked : ∀ r a, get { r with isExtension := some a } = get r) :
    (variant kind).Slot name get d where
  distinct := by
    rw [hmembers]
    simp [nameMember, extensionMember, Member.slot, hname, hmark.symm]
  mem := by
    rw [hmembers]
    simp [Member.slot]
  respects := by
    rw [hmembers]
    exact List.forall_mem_cons.2 ⟨.other hname hnamed,
      List.forall_mem_cons.2 ⟨.self hset, List.forall_mem_singleton.2 (.other hmark hmarked)⟩⟩

theorem value_slot : (variant .definition).Slot "value" EntryParts.value Tree.read :=
  middle_slot rfl (by decide) (by decide) (fun _ _ => rfl) (fun _ _ => rfl) fun _ _ => rfl

theorem cases_slot :
    (variant .enumeration).Slot "cases" EntryParts.cases (.keyed Tree.read) :=
  middle_slot rfl (by decide) (by decide) (fun _ _ => rfl) (fun _ _ => rfl) fun _ _ => rfl

theorem bits_slot : (variant .bitField).Slot "bits" EntryParts.bits (.keyed Tree.read) :=
  middle_slot rfl (by decide) (by decide) (fun _ _ => rfl) (fun _ _ => rfl) fun _ _ => rfl

/-- The name of the member with the fields of an entry, for the kinds that have fields. -/
def fieldsName? : Kind → Option String
  | .record => some "fields"
  | .union => some "variants"
  | .function => some "parameters"
  | .callback => some "parameters"
  | _ => none

theorem fields_slot {kind : Kind} {name : String} (h : fieldsName? kind = some name) :
    (variant kind).Slot name EntryParts.fields (.list decodeField) := by
  cases kind with
  | record | union | callback =>
    obtain rfl := Option.some.inj h
    exact middle_slot rfl (by decide) (by decide) (fun _ _ => rfl) (fun _ _ => rfl) fun _ _ => rfl
  | function =>
    -- a function has one more member
    obtain rfl := Option.some.inj h
    refine ⟨by decide, by decide, ?_⟩
    simp only [variant, variantMembers, nameMember, fieldsMember, extensionMember,
      List.forall_mem_cons]
    exact ⟨.other (by decide) fun _ _ => rfl, .self fun _ _ => rfl,
      .other (by decide) fun _ _ => rfl, .other (by decide) fun _ _ => rfl, by simp⟩
  | _ => cases h

/-- The modules of a document. -/
def moduleTrees (root : Tree) : List Tree :=
  (rootRecord.member? "modules" root).elim [] Tree.items

/-- The declarations of a module. -/
def declarationTrees (t : Tree) : List Tree :=
  (moduleRecord.member? "declarations" t).elim [] Tree.items

/-- The tag of a declaration. -/
def tag? : Tree → Option String
  | .object ms _ =>
    match lookUp tagName ms with
    | some (.string (.ok s)) => some s
    | _ => none
  | .array (.string (.ok s) :: _) _ => some s
  | _ => none

/-- A declaration without its tag, if that stands in front. -/
def untagged : Tree → Tree
  | .array (_ :: ts) stop => .array ts stop
  | t => t

/-- The tree of a member of a declaration. -/
def member? (kind : Kind) (name : String) (t : Tree) : Option Tree :=
  (variant kind).member? name (untagged t)

variable {depth : Nat} {t : Tree}

/-- **The modules of a document**, in order. -/
theorem forall₂_of_ofText {text : String} {d : Draft} (h : Draft.ofText text = .ok d) :
    List.Forall₂ (fun t m => decodeModule 2 t = .ok m) (moduleTrees (readText text).tree)
      d.modules := by
  obtain ⟨d', hroot, h⟩ := bind_eq_ok.1 h
  split at h
  · obtain rfl := Except.ok.inj h
    obtain ⟨r, hread, h⟩ := bind_eq_ok.1 hroot
    obtain rfl := Except.ok.inj h
    exact forall₂_of_rel (modules_slot.rel_of_read rfl hread)
  · cases h

/-- **The declarations of a module**, in order. -/
theorem forall₂_of_decodeModule {m : DraftModule} (h : decodeModule depth t = .ok m) :
    List.Forall₂ (fun t a => decodeEntry (depth + 2) t = .ok a) (declarationTrees t) m.entries := by
  obtain ⟨r, hread, h⟩ := bind_eq_ok.1 h
  obtain ⟨name, -, h⟩ := bind_eq_ok.1 h
  obtain rfl := Except.ok.inj h
  exact forall₂_of_rel (declarations_slot.rel_of_read rfl hread)

theorem tag_of_decodeTag {kind : Kind} (h : decodeTag depth t = .ok kind) :
    t = .string (.ok kind.tag) := by
  obtain ⟨s, hs, hknown⟩ := bind_eq_ok.1 h
  unfold Decoder.string at hs
  split at hs
  · obtain rfl := literal_eq_ok hs
    unfold knownTag at hknown
    split at hknown
    · rename_i found hget
      obtain rfl := Except.ok.inj hknown
      obtain ⟨kind, -, hpair⟩ := List.mem_map.1 (Keyed.mem_of_get? hget)
      obtain ⟨rfl, rfl⟩ := Prod.mk.inj hpair
      rfl
    · cases hknown
  · obtain ⟨found, -, hwrong⟩ := bind_eq_ok.1 hs
    cases hwrong

/-- The tag among the members of an entry is the value of its key. -/
theorem lookUp_of_tagAmong {ms : List (Except Break String × Tree)} {found found' : Option Kind}
    (h : tagAmong depth ms found = .ok found') :
    (lookUp tagName ms = none → found' = found) ∧ ∀ t, lookUp tagName ms = some t →
      found = none ∧ ∃ kind, decodeTag depth t = .ok kind ∧ found' = some kind := by
  induction ms generalizing found with
  | nil =>
    obtain rfl := Except.ok.inj h
    simp [lookUp]
  | cons p rest ih =>
    obtain ⟨key, t⟩ := p
    obtain ⟨k, hk, hstep⟩ := bind_eq_ok.1 h
    obtain rfl := literal_eq_ok hk
    rw [lookUp_cons]
    split at hstep
    · rename_i htag
      cases found with
      | some kind => cases hstep
      | none =>
        obtain ⟨kind, hkind, hrest⟩ := bind_eq_ok.1 hstep
        obtain ⟨hnone, hsome⟩ := ih hrest
        have hlast : lookUp tagName rest = none := by
          refine Option.eq_none_iff_forall_ne_some.2 fun t' ht' => ?_
          cases (hsome t' ht').1
        rw [hlast, if_pos htag, Option.none_or]
        refine ⟨fun hnot => absurd hnot (by simp), fun t' ht' => ?_⟩
        obtain rfl := Option.some.inj ht'
        exact ⟨rfl, kind, hkind, hnone hlast⟩
    · rename_i htag
      obtain ⟨v, -, hrest⟩ := bind_eq_ok.1 hstep
      rw [if_neg htag, Option.or_none]
      exact ih hrest

/-- The other members of an entry are the same without the tag. -/
theorem lookUp_filter_isTag {name : String} (hne : name ≠ tagName)
    (ms : List (Except Break String × Tree)) :
    lookUp name (ms.filter (!isTag ·)) = lookUp name ms := by
  induction ms with
  | nil => rfl
  | cons p rest ih =>
    obtain ⟨key, t⟩ := p
    cases key with
    | error b => exact ih
    | ok k =>
      have hone : isTag (.ok k, t) = (k == tagName) := rfl
      rw [List.filter_cons, hone]
      by_cases htag : k = tagName
      · have hkey : k ≠ name := fun heq => hne (heq.symm.trans htag)
        rw [lookUp_cons, if_neg hkey, Option.or_none, ← ih]
        simp [htag]
      · simp [htag, lookUp_cons, ih]

/-- **The members of a declaration.** A declaration is read by the record of its tag, and each slot
holds what the member with its name holds. -/
theorem exists_of_decodeEntry {a : DraftEntry} (h : decodeEntry depth t = .ok a) :
    ∃ kind r, tag? t = some kind.tag ∧ entryOf kind r = .ok a ∧
      ∀ {α : Type} {name : String} {get : EntryParts → Option α} {d : Decoder α}, name ≠ tagName →
        (variant kind).Slot name get d → get .blank = none →
          Option.Rel (fun sub v => d (depth + 1) sub = .ok v) (member? kind name t) (get r) := by
  unfold decodeEntry at h
  split at h
  · rename_i ms stop
    obtain ⟨-, -, h⟩ := bind_eq_ok.1 h
    obtain ⟨found, htag, h⟩ := bind_eq_ok.1 h
    obtain ⟨-, -, h⟩ := bind_eq_ok.1 h
    obtain ⟨kind, hkind, h⟩ := bind_eq_ok.1 h
    obtain ⟨r, hread, h⟩ := bind_eq_ok.1 h
    refine ⟨kind, r, ?_, h, fun hne hslot hblank => ?_⟩
    · obtain ⟨hnone, hsome⟩ := lookUp_of_tagAmong htag
      rcases hlook : lookUp tagName ms with _ | t'
      · rw [hnone hlook] at hkind
        cases hkind
      · obtain ⟨-, kind', hdecode, rfl⟩ := hsome t' hlook
        obtain rfl := Except.ok.inj hkind
        obtain rfl := tag_of_decodeTag hdecode
        simp only [tag?, hlook]
    · have hrel := hslot.rel_of_read hblank hread
      rw [Record.member?, lookUp_filter_isTag hne] at hrel
      exact hrel
  · rename_i ts stop
    obtain ⟨-, -, h⟩ := bind_eq_ok.1 h
    cases ts with
    | nil =>
      obtain ⟨-, -, h⟩ := bind_eq_ok.1 h
      cases h
    | cons t ts =>
      obtain ⟨kind, hkind, h⟩ := bind_eq_ok.1 h
      obtain ⟨-, -, h⟩ := bind_eq_ok.1 h
      obtain ⟨-, -, h⟩ := bind_eq_ok.1 h
      obtain ⟨r, hread, hentry⟩ := bind_eq_ok.1 h
      obtain rfl := tag_of_decodeTag hkind
      refine ⟨kind, r, rfl, hentry, fun _ hslot hblank => ?_⟩
      have hrel := hslot.rel_of_read hblank hread
      exact hrel
  · obtain ⟨found, -, h⟩ := bind_eq_ok.1 h
    cases h

end Draft

end Bindery

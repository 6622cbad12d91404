import Bindery.Api.Entry
import Bindery.Api.Error

/-!
# The registry

All entries of an interface, each under its id. The first entry with an id keeps it.

* `Registry.insert`: adds an entry, unless its id is taken.
* `Registry.find?`: the entry with an id; `Registry.contains`: whether there is one.
* `find?_insert`: what an insertion changes.
* `Registry.offer`, `Registry.offerAll`: one insertion and many, with the answers to them;
  `offer_cases`: **what an insertion does**.
-/

namespace Bindery

/-- Entries with different ids, in the order in which they were added. -/
structure Registry where
  entries : List Entry
  distinct : (entries.map Entry.id).Nodup

namespace Registry

/-- A registry without entries. -/
def empty : Registry := ⟨[], by simp⟩

instance : Inhabited Registry := ⟨empty⟩

/-- The entry with a given id. -/
def find? (r : Registry) (id : String) : Option Entry :=
  r.entries.find? (·.id == id)

/-- Whether an id is taken. -/
def contains (r : Registry) (id : String) : Bool :=
  r.entries.any (·.id == id)

/-- The number of entries. -/
def size (r : Registry) : Nat :=
  r.entries.length

theorem contains_iff (r : Registry) (id : String) :
    r.contains id = true ↔ id ∈ r.entries.map Entry.id := by
  simp [contains, List.any_eq_true]

/-- Adds an entry; none if its id is taken. -/
def insert (r : Registry) (e : Entry) : Option Registry :=
  if h : r.contains e.id = true then none
  else
    some ⟨r.entries ++ [e], by
      rw [contains_iff] at h
      rw [List.map_append, List.nodup_append]
      refine ⟨r.distinct, by simp, fun a ha b hb => ?_⟩
      rw [List.map_singleton, List.mem_singleton] at hb
      intro hab
      exact h (hb ▸ hab ▸ ha)⟩

theorem insert_eq_none {r : Registry} {e : Entry} :
    r.insert e = none ↔ r.contains e.id = true := by
  unfold insert
  split <;> simp_all

theorem entries_insert {r s : Registry} {e : Entry} (h : r.insert e = some s) :
    s.entries = r.entries ++ [e] := by
  unfold insert at h
  split at h
  · cases h
  · cases h
    rfl

theorem find?_isSome (r : Registry) (id : String) : (r.find? id).isSome = r.contains id := by
  rw [find?, contains, Bool.eq_iff_iff, List.find?_isSome, List.any_eq_true]

theorem id_of_find? {r : Registry} {id : String} {e : Entry} (h : r.find? id = some e) :
    e.id = id := by
  simpa using List.find?_some h

theorem find?_insert {r s : Registry} {e : Entry} (h : r.insert e = some s) (id : String) :
    s.find? id = if id = e.id then some e else r.find? id := by
  have hn : r.contains e.id = false := by
    rw [← Bool.not_eq_true]
    intro hc
    rw [insert_eq_none.2 hc] at h
    cases h
  rw [find?, entries_insert h, List.find?_append]
  by_cases hid : id = e.id
  · subst hid
    have : r.entries.find? (·.id == e.id) = none := by
      rw [← Option.not_isSome_iff_eq_none, ← find?, find?_isSome, hn]
      simp
    simp [this]
  · have hid' : ¬ e.id = id := fun h => hid h.symm
    simp [hid, hid', find?]

/-- The answer to an insertion. -/
abbrev Answer := Except LoadError Unit

/-- One insertion: the answer to it, and the registry afterwards. -/
def offer (r : Registry) (e : Entry) : Answer × Registry :=
  match r.insert e with
  | some s => (.ok (), s)
  | none => (.error (.duplicateEntry e.id), r)

/-- Insertions one after the other: each entry with its answer, and the registry at the end. -/
def offerAll : Registry → List Entry → List (Entry × Answer) × Registry
  | r, [] => ([], r)
  | r, e :: es =>
    let (answer, s) := r.offer e
    let (log, t) := s.offerAll es
    ((e, answer) :: log, t)

/-- **What an insertion does.** It is refused and changes nothing, or it adds its entry. -/
theorem offer_cases (r : Registry) (e : Entry) :
    (r.contains e.id = true ∧ r.offer e = (.error (.duplicateEntry e.id), r)) ∨
      (r.contains e.id = false ∧ ∃ s, r.insert e = some s ∧ r.offer e = (.ok (), s)) := by
  unfold offer
  rcases h : r.insert e with _ | s
  · exact .inl ⟨insert_eq_none.1 h, rfl⟩
  · refine .inr ⟨?_, s, rfl, rfl⟩
    rw [← Bool.not_eq_true, ← insert_eq_none, h]
    exact Option.some_ne_none s

theorem offerAll_cons (r : Registry) (e : Entry) (es : List Entry) : r.offerAll (e :: es) =
    ((e, (r.offer e).1) :: ((r.offer e).2.offerAll es).1, ((r.offer e).2.offerAll es).2) :=
  rfl

end Registry

end Bindery

import Bindery.Proofs.Inventory

/-!
# Insertions into a registry

Entries are inserted one after the other, and an insertion that is refused does not end the others.
The first entry with an id keeps it, unlike a short name or the spelling of a built-in type, which
the last one gets.

* `entries_offer`, `find?_offer`: what one insertion leaves, and what is found then;
  `entries_offerAll`, `find?_offerAll`: the same of many.
* `Registry.Follows`: what answers and registry have to do with the insertions;
  `insertions_answered`: **they have it after all insertions**.
* `insertAll_eq_offerAll`, `declare_declared`: loading inserts in the same way, up to the first
  refusal.
-/

namespace Bindery

namespace Registry

/-- The entries that were accepted. -/
def accepted (log : List (Entry × Answer)) : List Entry :=
  (log.filter (·.2.isOk)).map Prod.fst

variable {r : Registry} {e : Entry} {es : List Entry} {id : String}

/-- The entries after an insertion. -/
theorem entries_offer (r : Registry) (e : Entry) :
    (r.offer e).2.entries = r.entries ++ accepted [(e, (r.offer e).1)] := by
  rcases offer_cases r e with ⟨-, h⟩ | ⟨-, s, hs, h⟩
  · rw [h]
    exact (List.append_nil _).symm
  · rw [h]
    exact entries_insert hs

/-- The first entry with an id keeps it. -/
theorem find?_offer (r : Registry) (e : Entry) (id : String) :
    (r.offer e).2.find? id = (r.find? id).or ([e].find? (·.id == id)) := by
  have htaken := r.find?_isSome e.id
  rcases offer_cases r e with ⟨hc, h⟩ | ⟨hc, s, hs, h⟩
  · rw [h]
    rw [hc, Option.isSome_iff_exists] at htaken
    obtain ⟨f, hf⟩ := htaken
    by_cases hid : e.id = id
    · rw [← hid, hf, Option.some_or]
    · simp [hid]
  · rw [h, find?_insert hs]
    rw [hc, Option.isSome_eq_false_iff, Option.isNone_iff_eq_none] at htaken
    by_cases hid : id = e.id
    · rw [hid, htaken]
      simp
    · simp [hid, Ne.symm hid]

theorem accepted_cons (p : Entry × Answer) (log : List (Entry × Answer)) :
    accepted (p :: log) = accepted [p] ++ accepted log := by
  rw [accepted, ← List.singleton_append, List.filter_append, List.map_append]
  rfl

theorem mem_accepted_iff {log : List (Entry × Answer)} :
    e ∈ accepted log ↔ (e, .ok ()) ∈ log := by
  unfold accepted
  simp only [List.mem_map, List.mem_filter]
  constructor
  · rintro ⟨⟨f, answer⟩, ⟨hmem, hok⟩, rfl⟩
    cases answer with
    | ok a => exact hmem
    | error err => cases hok
  · exact fun h => ⟨_, ⟨h, rfl⟩, rfl⟩

theorem map_fst_offerAll (r : Registry) (es : List Entry) :
    (r.offerAll es).1.map Prod.fst = es := by
  induction es generalizing r with
  | nil => rfl
  | cons e es ih => rw [offerAll_cons, List.map_cons, ih]

/-- One more insertion goes on from where the others ended. -/
theorem offerAll_concat (r : Registry) (es : List Entry) (e : Entry) :
    r.offerAll (es ++ [e]) = ((r.offerAll es).1 ++ [(e, ((r.offerAll es).2.offer e).1)],
      ((r.offerAll es).2.offer e).2) := by
  induction es generalizing r with
  | nil => rfl
  | cons f es ih => rw [List.cons_append, offerAll_cons, ih, offerAll_cons, List.cons_append]

/-- **Insertions leave the accepted entries**, behind those that were there. -/
theorem entries_offerAll (r : Registry) (es : List Entry) :
    (r.offerAll es).2.entries = r.entries ++ accepted (r.offerAll es).1 := by
  induction es generalizing r with
  | nil => exact (List.append_nil _).symm
  | cons e es ih =>
    rw [offerAll_cons, ih, entries_offer, accepted_cons _ (offerAll _ _).1, List.append_assoc]

/-- **The first entry with an id is found**, be it one that was there or one that was inserted. -/
theorem find?_offerAll (r : Registry) (es : List Entry) (id : String) :
    (r.offerAll es).2.find? id = (r.find? id).or (es.find? (·.id == id)) := by
  induction es generalizing r with
  | nil => exact Option.or_none.symm
  | cons e es ih =>
    rw [offerAll_cons, ih, find?_offer, Option.or_assoc, ← List.find?_append,
      List.singleton_append]

/-- **What answers and a registry have to do with insertions**, the first of them into a registry
without entries. -/
structure Follows (es : List Entry) (log : List (Entry × Answer)) (r : Registry) : Prop where
  /-- Each insertion has its answer. -/
  answered : log.map Prod.fst = es
  /-- A further insertion goes on from here. -/
  goesOn : ∀ e, empty.offerAll (es ++ [e]) = (log ++ [(e, (r.offer e).1)], (r.offer e).2)
  /-- It is refused, with its id as the error, exactly if one with the same id was accepted, and
  changes nothing then. -/
  refused : ∀ e err s, r.offer e = (.error err, s) ↔
    err = .duplicateEntry e.id ∧ s = r ∧ ∃ f, (f, .ok ()) ∈ log ∧ f.id = e.id
  /-- What is found under an id is the first entry that was inserted with it. -/
  found : ∀ id e, r.find? id = some e ↔
    e.id = id ∧ ∃ before after, es = before ++ e :: after ∧ ∀ f ∈ before, f.id ≠ id
  contains : ∀ id, r.contains id = (r.find? id).isSome
  size : r.size = (accepted log).length
  /-- The accepted entries are there, each of them once. -/
  entries : r.entries = accepted log
  once : ((accepted log).map Entry.id).Nodup

/-- **Insertions are answered by the ids before them**, and the registry holds what was accepted. -/
theorem insertions_answered (es : List Entry) :
    Follows es (empty.offerAll es).1 (empty.offerAll es).2 := by
  have hentries : (empty.offerAll es).2.entries = accepted (empty.offerAll es).1 :=
    entries_offerAll empty es
  refine ⟨map_fst_offerAll empty es, offerAll_concat empty es, fun e err s => ?_, fun id e => ?_,
    fun id => (find?_isSome _ id).symm, ?_, hentries, hentries ▸ (empty.offerAll es).2.distinct⟩
  · -- the ids that are taken are those of the accepted entries
    have htaken : (empty.offerAll es).2.contains e.id = true ↔
        ∃ f, (f, .ok ()) ∈ (empty.offerAll es).1 ∧ f.id = e.id := by
      simp only [contains_iff, hentries, List.mem_map, mem_accepted_iff]
    rw [← htaken]
    rcases offer_cases (empty.offerAll es).2 e with ⟨hc, h⟩ | ⟨hc, s', -, h⟩
    · rw [h, hc]
      simp [eq_comm]
    · rw [h, hc]
      simp
  · have hempty : empty.find? id = none := rfl
    rw [find?_offerAll, hempty, Option.none_or, List.find?_eq_some_iff_append]
    simp
  · rw [size, hentries]

/-- A handle keeps its id, though a built-in type with the same id comes behind it. -/
theorem insertions_answered_taken :
    let handle := .declared "handle.y" (.new "y") .handle
    let r := (empty.offerAll [handle, .builtin "float" "f32"]).2
    r.offer (.builtin "handle.y" "u64") = (.error (.duplicateEntry "handle.y"), r) ∧
      r.find? "handle.y" = some handle ∧ r.size = 2 := by
  intro handle r
  have hfollows := insertions_answered [handle, .builtin "float" "f32"]
  refine ⟨?_, ?_, hfollows.size⟩
  · exact (hfollows.refused (.builtin "handle.y" "u64") _ _).2 ⟨rfl, rfl, handle, .head _, rfl⟩
  · exact (hfollows.found "handle.y" handle).2 ⟨rfl, [], [.builtin "float" "f32"], rfl, by simp⟩

end Registry

/-- Loading the types of a table inserts them, up to the first that is refused. -/
theorem insertAll_eq_offerAll (r : Registry) (es : List Entry) :
    insertAll r es = ((r.offerAll es).1.forM Prod.snd).map fun _ => (r.offerAll es).2 := by
  induction es generalizing r with
  | nil => rfl
  | cons e es ih =>
    rw [insertAll, Registry.offerAll_cons]
    rcases Registry.offer_cases r e with ⟨hc, h⟩ | ⟨-, s, hs, h⟩
    · rw [Registry.insert_eq_none.2 hc, h]
      rfl
    · rw [hs, h]
      exact ih s

/-- A declaration inserts its entry, and has the answer to that as its error. -/
theorem declare_declared (table : BuiltinTable) (lead : Option String) (r : Registry)
    (name : String) (marked : Bool) (written : DraftShape) :
    declare table lead r (.declared name marked written) =
      declaredEntry lead name marked written >>= fun e =>
        (r.offer e).1.map fun _ => ((r.offer e).2, e.id) := by
  refine congrArg (declaredEntry lead name marked written >>= ·) (funext fun e => ?_)
  rcases Registry.offer_cases r e with ⟨hc, h⟩ | ⟨-, s, hs, h⟩
  · rw [Registry.insert_eq_none.2 hc, h]
    rfl
  · rw [hs, h]
    rfl

end Bindery

/-!
# Keyed lists

Pairs of a key and a value, in the order in which the keys came. Putting a value under a known key
replaces the value and keeps the place.

* `Keyed.put`, `Keyed.ofList`: setting a value, and setting many one after the other.
* `Keyed.get?`: looking a value up.
* `get?_put`: what a put changes; `mem_iff_get?`: what is found is what is there.
* `keys_put`: where a key stands; `nodup_keys_ofList`: each key stands once.
-/

namespace Bindery

/-- Pairs of a key and a value. -/
abbrev Keyed (α : Type) := List (String × α)

namespace Keyed

variable {α : Type}

/-- Sets the value of a key: a known key keeps its place, a new one goes to the end. -/
def put : Keyed α → String → α → Keyed α
  | [], key, value => [(key, value)]
  | (k, v) :: rest, key, value =>
    if k = key then (k, value) :: rest else (k, v) :: put rest key value

/-- The value of a key. -/
def get? : Keyed α → String → Option α
  | [], _ => none
  | (k, v) :: rest, key => if k = key then some v else get? rest key

/-- The keys in their order. -/
def keys (l : Keyed α) : List String :=
  l.map Prod.fst

/-- All pairs put one after the other. -/
def ofList (pairs : List (String × α)) : Keyed α :=
  pairs.foldl (fun done p => put done p.1 p.2) []

theorem get?_put (l : Keyed α) (key other : String) (value : α) :
    get? (put l key value) other = if key = other then some value else get? l other := by
  induction l with
  | nil => simp [put, get?]
  | cons p rest ih =>
    obtain ⟨k, v⟩ := p
    by_cases hk : k = key
    · subst hk
      by_cases ho : k = other <;> simp [put, get?, ho]
    · by_cases ho : k = other
      · subst ho
        have hk' : ¬ key = k := fun h => hk h.symm
        simp [put, get?, hk, hk']
      · simp [put, get?, hk, ho, ih]

theorem mem_of_get? {l : Keyed α} {key : String} {value : α} (h : get? l key = some value) :
    (key, value) ∈ l := by
  induction l with
  | nil => cases h
  | cons p rest ih =>
    obtain ⟨k, v⟩ := p
    unfold get? at h
    split at h
    · rename_i hk
      rw [hk, Option.some.inj h]
      exact .head _
    · exact .tail _ (ih h)

/-- Where each key stands once, a value is found exactly if it is there. -/
theorem mem_iff_get? {l : Keyed α} (h : (keys l).Nodup) {key : String} {value : α} :
    (key, value) ∈ l ↔ get? l key = some value := by
  refine ⟨fun hm => ?_, mem_of_get?⟩
  induction l with
  | nil => cases hm
  | cons p rest ih =>
    obtain ⟨k, v⟩ := p
    rw [keys, List.map_cons, List.nodup_cons] at h
    unfold get?
    rcases List.mem_cons.1 hm with heq | hrest
    · obtain ⟨rfl, rfl⟩ := Prod.mk.inj heq
      rw [if_pos rfl]
    · -- a later pair with this key would be a second one
      have hk : k ≠ key := by
        rintro rfl
        exact h.1 (List.mem_map.2 ⟨_, hrest, rfl⟩)
      rw [if_neg hk]
      exact ih h.2 hrest

theorem keys_put (l : Keyed α) (key : String) (value : α) :
    keys (put l key value) = if key ∈ keys l then keys l else keys l ++ [key] := by
  induction l with
  | nil => simp [put, keys]
  | cons p rest ih =>
    obtain ⟨k, v⟩ := p
    by_cases hk : k = key
    · subst hk
      simp [put, keys]
    · have hk' : ¬ key = k := fun h => hk h.symm
      simp only [keys] at ih
      simp only [put, keys, if_neg hk, List.map_cons, ih, List.mem_cons, hk', false_or]
      by_cases hm : key ∈ List.map Prod.fst rest <;> simp [hm]

theorem nodup_keys_put {l : Keyed α} (h : (keys l).Nodup) (key : String) (value : α) :
    (keys (put l key value)).Nodup := by
  rw [keys_put]
  split
  · exact h
  · rename_i hk
    rw [List.nodup_append]
    refine ⟨h, by simp, fun a ha b hb => ?_⟩
    rw [List.mem_singleton] at hb
    intro hab
    exact hk (hb ▸ hab ▸ ha)

theorem nodup_keys_foldl (pairs : List (String × α)) {l : Keyed α} (h : (keys l).Nodup) :
    (keys (pairs.foldl (fun done p => put done p.1 p.2) l)).Nodup := by
  induction pairs generalizing l with
  | nil => exact h
  | cons p rest ih => exact ih (nodup_keys_put h p.1 p.2)

theorem nodup_keys_ofList (pairs : List (String × α)) : (keys (ofList pairs)).Nodup :=
  nodup_keys_foldl pairs (by simp [keys])

end Keyed

end Bindery

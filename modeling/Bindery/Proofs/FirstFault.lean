import Bindery.Proofs.Consistency

/-!
# The first fault

Which fault validation reports, said without the loops that look for it. Members of an entry are
counted from nought, the result of a function or callback after all its parameters.

* `MemberFault`: what can be wrong with one member of an entry, given those before it.
* `Entry.FirstFault`: the fault of the first member that has one.
* `Api.FirstUndeclared`: the first declaration, in the order of the modules, without an entry.
* `validateIn_spec`: **validation accepts exactly the consistent interfaces**, whatever the order of
  the entries, and otherwise reports the first undeclared id or the first fault of some entry.
-/

namespace Bindery

/-- **What is wrong with one member** of the entry `id`, given the members before it. -/
inductive MemberFault (r : Registry) (id : String) (s : Shape) : ℕ → LoadError → Prop
  | target {t : String} (hs : s = .typeAlias t) (ht : r.contains t = false) :
    MemberFault r id s 0 (.unresolved id t)
  | fieldType {pre post : List Field} {f : Field} (hs : s.fields = pre ++ f :: post)
    (ht : r.contains f.typeId = false) : MemberFault r id s pre.length (.unresolved id f.typeId)
  | fieldCount {pre post : List Field} {f : Field} {count : String}
    (hs : s.fields = pre ++ f :: post) (ht : r.contains f.typeId = true)
    (hc : f.count = some (.sibling count)) (hn : ∀ g ∈ s.fields, g.name.display ≠ count) :
    MemberFault r id s pre.length (.invalid (.strayCount count f.name.display id))
  | result {t : String} (hs : s.result? = some t) (ht : r.contains t = false) :
    MemberFault r id s s.fields.length (.unresolved id t)
  | repeatedCase {pre post : List Case} {c : Case} (hs : s.cases = pre ++ c :: post)
    (hc : ∃ d ∈ pre, d.name.display = c.name.display) :
    MemberFault r id s pre.length (.invalid (.repeatedCase c.name.display id))
  | bitTooHigh {pre post : List Flag} {b : Flag} (hs : s.bits = pre ++ b :: post)
    (hb : 31 < b.index) : MemberFault r id s pre.length (.invalid (.bitTooHigh b.index id))
  | repeatedBit {pre post : List Flag} {b : Flag} (hs : s.bits = pre ++ b :: post)
    (hb : b.index ≤ 31) (hc : ∃ d ∈ pre, d.index = b.index) :
    MemberFault r id s pre.length (.invalid (.repeatedBit b.index id))

/-- **The first fault of an entry**, in the order of its members. -/
def Entry.FirstFault (r : Registry) (err : LoadError) : Entry → Prop
  | .builtin _ _ => False
  | .declared id _ s =>
    ∃ place, MemberFault r id s place err ∧ ∀ i < place, ∀ other, ¬ MemberFault r id s i other

/-- **The first declaration without an entry**, in the order of the modules. -/
def Api.FirstUndeclared (api : Api) (err : LoadError) : Prop :=
  ∃ before m after front id back, api.modules = before ++ m :: after ∧
    m.declares = front ++ id :: back ∧ api.registry.contains id = false ∧
    (∀ n ∈ before, ∀ i ∈ n.declares, api.registry.contains i = true) ∧
    (∀ i ∈ front, api.registry.contains i = true) ∧ err = .unresolved m.name id

section Heads

variable {α β ε : Type}

/-- Where the first element of a concatenation comes from. -/
theorem head?_flatMap_eq_some {f : α → List ε} {l : List α} {e : ε}
    (h : (l.flatMap f).head? = some e) :
    ∃ pre a post, l = pre ++ a :: post ∧ (f a).head? = some e ∧ ∀ b ∈ pre, f b = [] := by
  rw [List.head?_flatMap, List.findSome?_eq_some_iff] at h
  obtain ⟨pre, a, post, hl, ha, hpre⟩ := h
  exact ⟨pre, a, post, hl, ha, fun b hb => List.head?_eq_none_iff.1 (hpre b hb)⟩

theorem head?_append_eq_some {l k : List ε} {e : ε} (h : (l ++ k).head? = some e) :
    l.head? = some e ∨ l = [] ∧ k.head? = some e := by
  cases l with
  | nil => exact Or.inr ⟨rfl, h⟩
  | cons a l => exact Or.inl h

/-- Of two places in a list, the earlier one lies before the later one. -/
theorem mem_front_of_lt {pre pre' post post' : List α} {a a' : α}
    (h : pre' ++ a' :: post' = pre ++ a :: post) (hlt : pre'.length < pre.length) :
    ∃ mid, pre = pre' ++ a' :: mid := by
  have hw : pre' ++ [a'] <+: pre ++ a :: post := ⟨post', by rw [← h]; simp⟩
  have hp : pre' ++ [a'] <+: pre := by
    refine List.prefix_of_prefix_length_le hw (List.prefix_append _ _) ?_
    rw [List.length_append, List.length_singleton]
    exact hlt
  obtain ⟨mid, hmid⟩ := hp
  exact ⟨mid, by simp [← hmid]⟩

end Heads

variable {r : Registry} {id : String}

theorem head?_referenceFaults {owner t : String} {err : LoadError}
    (h : (referenceFaults r owner t).head? = some err) :
    r.contains t = false ∧ err = .unresolved owner t := by
  unfold referenceFaults at h
  split at h
  · simp at h
  · rename_i hc
    exact ⟨by simpa using hc, by simpa using h.symm⟩

theorem head?_fieldFaults {names : List String} {f : Field} {err : LoadError}
    (h : (fieldFaults r id names f).head? = some err) :
    r.contains f.typeId = false ∧ err = .unresolved id f.typeId ∨
      r.contains f.typeId = true ∧ ∃ count, f.count = some (.sibling count) ∧ count ∉ names ∧
        err = .invalid (.strayCount count f.name.display id) := by
  unfold fieldFaults at h
  rcases head?_append_eq_some h with h | ⟨hn, h⟩
  · exact Or.inl (head?_referenceFaults h)
  refine Or.inr ⟨referenceFaults_eq_nil_iff.1 hn, ?_⟩
  split at h
  · rename_i count hc
    split at h
    · simp at h
    · rename_i hm
      exact ⟨count, hc, hm, by simpa using h.symm⟩
  · simp at h

/-- The first repeated case, with nothing wrong before it. -/
theorem head?_caseFaults {seen : List String} {cases : List Case} {err : LoadError}
    (h : (caseFaults id seen cases).head? = some err) :
    ∃ pre c post, cases = pre ++ c :: post ∧ caseFaults id seen pre = [] ∧
      (c.name.display ∈ seen ∨ ∃ d ∈ pre, d.name.display = c.name.display) ∧
      err = .invalid (.repeatedCase c.name.display id) := by
  induction cases generalizing seen with
  | nil => simp [caseFaults] at h
  | cons c cs ih =>
    unfold caseFaults at h
    rcases head?_append_eq_some h with h | ⟨hn, h⟩
    · by_cases hs : c.name.display ∈ seen
      · rw [if_pos hs] at h
        exact ⟨[], c, cs, rfl, rfl, Or.inl hs, by simpa using h.symm⟩
      · simp [hs] at h
    · -- what the later case repeats was seen before, or is this case, or stands between them
      obtain ⟨pre, d, post, rfl, hpre, hd, rfl⟩ := ih h
      refine ⟨c :: pre, d, post, rfl, ?_, ?_, rfl⟩
      · unfold caseFaults
        rw [hn, hpre]
        rfl
      · rcases hd with hd | ⟨k, hk, hkd⟩
        · rcases List.mem_cons.1 hd with hd | hd
          · exact Or.inr ⟨c, by simp, hd.symm⟩
          · exact Or.inl hd
        · exact Or.inr ⟨k, by simp [hk], hkd⟩

/-- The first bit that is too high or repeated, with nothing wrong before it. -/
theorem head?_flagFaults {seen : List ℕ} {bits : List Flag} {err : LoadError}
    (h : (flagFaults id seen bits).head? = some err) :
    ∃ pre b post, bits = pre ++ b :: post ∧ flagFaults id seen pre = [] ∧
      (31 < b.index ∧ err = .invalid (.bitTooHigh b.index id) ∨
        b.index ≤ 31 ∧ (b.index ∈ seen ∨ ∃ d ∈ pre, d.index = b.index) ∧
          err = .invalid (.repeatedBit b.index id)) := by
  induction bits generalizing seen with
  | nil => simp [flagFaults] at h
  | cons b bs ih =>
    unfold flagFaults at h
    rcases head?_append_eq_some h with h | ⟨hn, h⟩
    · refine ⟨[], b, bs, rfl, rfl, ?_⟩
      by_cases hh : maxBitIndex < b.index
      · rw [if_pos hh] at h
        exact Or.inl ⟨hh, by simpa using h.symm⟩
      rw [if_neg hh] at h
      by_cases hs : b.index ∈ seen
      · rw [if_pos hs] at h
        exact Or.inr ⟨by unfold maxBitIndex at hh; omega, Or.inl hs, by simpa using h.symm⟩
      · simp [hs] at h
    · obtain ⟨pre, d, post, rfl, hpre, hd⟩ := ih h
      refine ⟨b :: pre, d, post, rfl, ?_, ?_⟩
      · unfold flagFaults
        rw [hn, hpre]
        rfl
      · rcases hd with hd | ⟨hle, hd, herr⟩
        · exact Or.inl hd
        refine Or.inr ⟨hle, ?_, herr⟩
        rcases hd with hd | ⟨k, hk, hkd⟩
        · rcases List.mem_cons.1 hd with hd | hd
          · exact Or.inr ⟨b, by simp, hd.symm⟩
          · exact Or.inl hd
        · exact Or.inr ⟨k, by simp [hk], hkd⟩

/-- The first field with a fault is the first member with one. -/
theorem firstFault_of_field {name : Name} {s : Shape} {err : LoadError} {pre post : List Field}
    {f : Field} (hs : s.fields = pre ++ f :: post)
    (hf : (fieldFaults r id (s.fields.map (·.name.display)) f).head? = some err)
    (hpre : ∀ g ∈ pre, fieldFaults r id (s.fields.map (·.name.display)) g = []) :
    (Entry.declared id name s).FirstFault r err := by
  refine ⟨pre.length, ?_, ?_⟩
  · rcases head?_fieldFaults hf with ⟨ht, rfl⟩ | ⟨ht, count, hc, hn, rfl⟩
    · exact .fieldType hs ht
    · refine .fieldCount hs ht hc fun g hg hgc => hn ?_
      exact List.mem_map.2 ⟨g, hg, hgc⟩
  -- an earlier field with a fault would lie in `pre`; other members stand in other shapes
  intro i hi other hm
  have early : ∀ {pre' post' : List Field} {g : Field}, s.fields = pre' ++ g :: post' →
      pre'.length < pre.length → fieldFaults r id (s.fields.map (·.name.display)) g = [] := by
    intro pre' post' g hg hlt
    obtain ⟨mid, rfl⟩ := mem_front_of_lt (hg.symm.trans hs) hlt
    exact hpre g (by simp)
  cases hm with
  | target ht => simp [ht, Shape.fields] at hs
  | fieldType hg ht =>
    have := (fieldFaults_eq_nil_iff.1 (early hg hi)).1
    simp [ht] at this
  | fieldCount hg ht hc hn =>
    have := (fieldFaults_eq_nil_iff.1 (early hg hi)).2 _ hc
    obtain ⟨k, hk, hkc⟩ := List.mem_map.1 this
    exact hn k hk hkc
  | result hr ht =>
    rw [hs, List.length_append] at hi
    omega
  | repeatedCase hc _ => cases s <;> simp_all [Shape.fields, Shape.cases]
  | bitTooHigh hb _ => cases s <;> simp_all [Shape.fields, Shape.bits]
  | repeatedBit hb _ _ => cases s <;> simp_all [Shape.fields, Shape.bits]

/-- A result without an entry is the first fault if no parameter has one. -/
theorem firstFault_of_result {name : Name} {s : Shape} {t : String}
    (hf : fieldListFaults r id s.fields = []) (hs : s.result? = some t)
    (ht : r.contains t = false) :
    (Entry.declared id name s).FirstFault r (.unresolved id t) := by
  refine ⟨s.fields.length, .result hs ht, fun i hi other hm => ?_⟩
  -- the places before the result are those of the parameters, which are all in order
  obtain ⟨htypes, hcounts⟩ := fieldListFaults_eq_nil_iff.1 hf
  cases hm with
  | target hg => simp [hg, Shape.result?] at hs
  | fieldType hg hn =>
    have := htypes _ (List.mem_map_of_mem (hg ▸ List.mem_append_right _ List.mem_cons_self))
    simp [hn] at this
  | fieldCount hg _ hc hn =>
    obtain ⟨k, hk, hkc⟩ := hcounts _ (by simp [hg]) _ hc
    exact hn k hk hkc
  | result _ _ => omega
  | repeatedCase hc _ => cases s <;> simp_all [Shape.fields, Shape.cases, Shape.result?]
  | bitTooHigh hb _ => cases s <;> simp_all [Shape.fields, Shape.bits, Shape.result?]
  | repeatedBit hb _ _ => cases s <;> simp_all [Shape.fields, Shape.bits, Shape.result?]

theorem firstFault_of_signature {name : Name} {s : Shape} {signature : Signature}
    {err : LoadError} (hp : s.fields = signature.params) (hr : s.result? = signature.result)
    (h : (signatureFaults r id signature).head? = some err) :
    (Entry.declared id name s).FirstFault r err := by
  unfold signatureFaults at h
  rcases head?_append_eq_some h with h | ⟨hn, h⟩
  · unfold fieldListFaults at h
    rw [← hp] at h
    obtain ⟨pre, f, post, hs, hf, hpre⟩ := head?_flatMap_eq_some h
    exact firstFault_of_field hs hf hpre
  · split at h
    · rename_i t hres
      obtain ⟨ht, rfl⟩ := head?_referenceFaults h
      exact firstFault_of_result (hp ▸ hn) (hr.trans hres) ht
    · simp at h

/-- **The fault that is found in an entry is its first.** -/
theorem firstFault_of_head {e : Entry} {err : LoadError} (h : (e.faults r).head? = some err) :
    e.FirstFault r err := by
  rcases e with ⟨id, spelling⟩ | ⟨id, name, s⟩
  · simp [Entry.faults] at h
  cases s with
  | typeAlias t =>
    obtain ⟨ht, rfl⟩ := head?_referenceFaults h
    exact ⟨0, .target rfl ht, fun i hi => by omega⟩
  | definition value => simp [Entry.faults] at h
  | handle => simp [Entry.faults] at h
  | enumeration cases =>
    obtain ⟨pre, c, post, hs, hpre, hc, rfl⟩ := head?_caseFaults h
    refine ⟨pre.length, .repeatedCase hs (by simpa using hc), fun i hi other hm => ?_⟩
    -- an earlier repetition would lie within `pre`, where all names differ
    have hn := (caseFaults_eq_nil_iff.1 hpre).1
    cases hm with
    | repeatedCase hg hd =>
      obtain ⟨mid, rfl⟩ := mem_front_of_lt (hg.symm.trans hs) hi
      obtain ⟨d, hd, hdc⟩ := hd
      rw [List.map_append, List.nodup_append] at hn
      exact hn.2.2 _ (List.mem_map.2 ⟨d, hd, rfl⟩) _ (by simp) hdc
    | _ => simp_all [Shape.fields, Shape.bits, Shape.result?]
  | bitField bits =>
    obtain ⟨pre, b, post, hs, hpre, hb⟩ := head?_flagFaults h
    obtain ⟨hn, hle, -⟩ := flagFaults_eq_nil_iff.1 hpre
    refine ⟨pre.length, ?_, fun i hi other hm => ?_⟩
    · rcases hb with ⟨hlt, rfl⟩ | ⟨hle, hd, rfl⟩
      · exact .bitTooHigh hs hlt
      · exact .repeatedBit hs hle (by simpa using hd)
    cases hm with
    | bitTooHigh hg hlt =>
      obtain ⟨mid, rfl⟩ := mem_front_of_lt (hg.symm.trans hs) hi
      have := hle _ (List.mem_append_right _ List.mem_cons_self)
      omega
    | repeatedBit hg _ hd =>
      obtain ⟨mid, rfl⟩ := mem_front_of_lt (hg.symm.trans hs) hi
      obtain ⟨d, hd, hdc⟩ := hd
      rw [List.map_append, List.nodup_append] at hn
      exact hn.2.2 _ (List.mem_map.2 ⟨d, hd, rfl⟩) _ (by simp) hdc
    | _ => simp_all [Shape.fields, Shape.cases, Shape.result?]
  | record fields =>
    obtain ⟨pre, f, post, hs, hf, hpre⟩ := head?_flatMap_eq_some h
    exact firstFault_of_field hs hf hpre
  | union variants =>
    obtain ⟨pre, f, post, hs, hf, hpre⟩ := head?_flatMap_eq_some h
    exact firstFault_of_field hs hf hpre
  | function signature deviceCommand => exact firstFault_of_signature rfl rfl h
  | callback signature => exact firstFault_of_signature rfl rfl h

/-- The undeclared id that is found is the first. -/
theorem firstUndeclared_of_head {api : Api} {err : LoadError}
    (h : api.undeclared.head? = some err) : api.FirstUndeclared err := by
  obtain ⟨before, m, after, hm, h, hbefore⟩ := head?_flatMap_eq_some h
  obtain ⟨front, id, back, hid, h, hfront⟩ := head?_flatMap_eq_some h
  obtain ⟨hc, rfl⟩ := head?_referenceFaults h
  refine ⟨before, m, after, front, id, back, hm, hid, hc, fun n hn i hi => ?_, fun i hi => ?_, rfl⟩
  · exact referenceFaults_eq_nil_iff.1 (List.flatMap_eq_nil_iff.1 (hbefore n hn) i hi)
  · exact referenceFaults_eq_nil_iff.1 (hfront i hi)

theorem validateIn_eq_ok_iff {api : Api} {order : List Entry} :
    api.validateIn order = .ok () ↔
      api.undeclared ++ order.flatMap (Entry.faults api.registry) = [] := by
  unfold Api.validateIn
  split
  · rename_i h
    simp [h]
  · rename_i fault rest h
    simp [h]

theorem validateIn_eq_error_iff {api : Api} {order : List Entry} {err : LoadError} :
    api.validateIn order = .error err ↔
      (api.undeclared ++ order.flatMap (Entry.faults api.registry)).head? = some err := by
  unfold Api.validateIn
  split
  · rename_i h
    simp [h]
  · rename_i fault rest h
    simp [h]

/-- Validation in any order accepts exactly the consistent interfaces. -/
theorem validateIn_ok_iff_consistent {api : Api} {order : List Entry}
    (ho : order.Perm api.registry.entries) :
    api.validateIn order = .ok () ↔ api.Consistent := by
  rw [validateIn_eq_ok_iff, List.append_eq_nil_iff, undeclared_eq_nil_iff, List.flatMap_eq_nil_iff]
  constructor
  · rintro ⟨hd, he⟩
    exact ⟨hd, fun e hmem => faults_eq_nil_iff.1 (he e (ho.mem_iff.2 hmem))⟩
  · rintro ⟨hd, he⟩
    exact ⟨hd, fun e hmem => faults_eq_nil_iff.2 (he e (ho.mem_iff.1 hmem))⟩

/-- Where the error of a validation comes from. -/
theorem validateIn_error_source {api : Api} {order : List Entry}
    (ho : order.Perm api.registry.entries) {err : LoadError}
    (h : api.validateIn order = .error err) :
    api.undeclared.head? = some err ∨
      api.undeclared = [] ∧
        ∃ e ∈ api.registry.entries, (e.faults api.registry).head? = some err := by
  rcases head?_append_eq_some (validateIn_eq_error_iff.1 h) with h | ⟨hn, h⟩
  · exact Or.inl h
  · obtain ⟨pre, e, post, rfl, he, -⟩ := head?_flatMap_eq_some h
    exact Or.inr ⟨hn, e, ho.mem_iff.1 (by simp), he⟩

/-- With at most one faulty entry, no order of the entries changes the result. -/
theorem validateIn_order_irrelevant {api : Api} {order order' : List Entry}
    (ho : order.Perm api.registry.entries) (ho' : order'.Perm api.registry.entries)
    (hone : ∀ e₁ ∈ api.registry.entries, ∀ e₂ ∈ api.registry.entries,
      ¬ e₁.Consistent api.registry → ¬ e₂.Consistent api.registry → e₁ = e₂) :
    api.validateIn order' = api.validateIn order := by
  rcases h : api.validateIn order with err | ⟨⟩
  · rcases h' : api.validateIn order' with err' | ⟨⟩
    · -- undeclared ids come first in both orders; without any, both errors are of the one entry
      rcases validateIn_error_source ho h with hu | ⟨hn, e, he, hf⟩
      · rcases validateIn_error_source ho' h' with hu' | ⟨hn', -⟩
        · rw [hu] at hu'
          rw [Option.some.inj hu']
        · simp [hn'] at hu
      rcases validateIn_error_source ho' h' with hu' | ⟨-, e', he', hf'⟩
      · simp [hn] at hu'
      have faulty : ∀ {e : Entry} {x : LoadError}, (e.faults api.registry).head? = some x →
          ¬ e.Consistent api.registry := by
        intro e x hx hc
        simp [faults_eq_nil_iff.2 hc] at hx
      obtain rfl := hone e he e' he' (faulty hf) (faulty hf')
      rw [hf] at hf'
      rw [Option.some.inj hf']
    · rw [(validateIn_ok_iff_consistent ho).2 ((validateIn_ok_iff_consistent ho').1 h')] at h
      cases h
  · exact (validateIn_ok_iff_consistent ho').2 ((validateIn_ok_iff_consistent ho).1 h)

/-- **What validation decides.** In whatever order the entries are visited, an interface is accepted
exactly if it is consistent. The error is the first undeclared id in the order of the modules; if
every id is declared, it is the first fault of some entry of the interface. Where at most one entry
is at fault, the order makes no difference. -/
theorem validateIn_spec (api : Api) {order : List Entry}
    (ho : order.Perm api.registry.entries) :
    (api.validateIn order = .ok () ↔ api.Consistent) ∧
      (∀ err, api.validateIn order = .error err →
        api.FirstUndeclared err ∨
          (∀ m ∈ api.modules, ∀ id ∈ m.declares, api.registry.contains id = true) ∧
            ∃ e ∈ api.registry.entries, e.FirstFault api.registry err) ∧
      ((∀ e₁ ∈ api.registry.entries, ∀ e₂ ∈ api.registry.entries,
          ¬ e₁.Consistent api.registry → ¬ e₂.Consistent api.registry → e₁ = e₂) →
        ∀ order' : List Entry, order'.Perm api.registry.entries →
          api.validateIn order' = api.validateIn order) := by
  refine ⟨validateIn_ok_iff_consistent ho, fun err h => ?_, fun hone order' ho' => ?_⟩
  · rcases validateIn_error_source ho h with hu | ⟨hn, e, he, hf⟩
    · exact Or.inl (firstUndeclared_of_head hu)
    · exact Or.inr ⟨undeclared_eq_nil_iff.1 hn, e, he, firstFault_of_head hf⟩
  · exact validateIn_order_irrelevant ho ho' hone

/-- Visited from its end, an interface with two faulty entries is refused for the second one. -/
theorem validateIn_spec_reversed :
    let api : Api := ⟨none, ⟨[.declared "alias.a" (Name.new "a") (.typeAlias "handle.gone"),
      .declared "bit_field.b" (Name.new "b")
        (.bitField [⟨Name.new "low", 31⟩, ⟨Name.new "high", 32⟩])],
      by decide⟩, []⟩
    api.registry.entries.reverse.Perm api.registry.entries ∧ ¬ api.Consistent ∧
      api.validateIn api.registry.entries.reverse =
        .error (.invalid (.bitTooHigh 32 "bit_field.b")) := by
  intro api
  have ho : api.registry.entries.reverse.Perm api.registry.entries := List.reverse_perm _
  have herr : api.validateIn api.registry.entries.reverse =
      .error (.invalid (.bitTooHigh 32 "bit_field.b")) := by decide
  have hspec := validateIn_spec api ho
  refine ⟨ho, fun hc => ?_, herr⟩
  rw [hspec.1.2 hc] at herr
  cases herr

end Bindery

import Bindery.Proofs.Layout

/-!
# The order of the members of an object

An object is read member by member into a record. Each member goes into a place of its own, and what
the record does not know is passed over, so that the order of the members makes no difference.

* `Tree.skip_of_read`: what can be read can be passed over.
* `Rearranged`: a tree with the members of an object in another order, with related values, and with
  members between them that nobody knows.
* `Walk`, `Walk.rearranged`: **steps along the members of an object**, whatever their order.
* `Member.Apart`, `Record.Orderless`: members, and records, for which the order makes no difference.
* `Record.Takes`, `Takes.swap`: one step of reading an object, and two steps in the other order.
* `Record.blindTo_read`: **a rearranged tree is read as the same record**.
-/

namespace Bindery.Json

namespace Tree

mutual

/-- What can be read can be passed over. -/
theorem skip_of_read {depth : Nat} : ∀ {t : Tree} {v : Value},
    t.read depth = .ok v → t.skip = .ok ()
  | .null, _, _ => rfl
  | .boolean _, _, _ => rfl
  | .number _, _, _ => rfl
  | .string _, _, _ => rfl
  | .array items stop, v, h => by
    obtain ⟨-, -, h⟩ := bind_eq_ok.1 h
    obtain ⟨values, hvalues, h⟩ := bind_eq_ok.1 h
    obtain ⟨_, hclosed, -⟩ := bind_eq_ok.1 h
    obtain rfl := closed_eq_ok hclosed
    simp only [skip, skipItems_of_read hvalues]
    rfl
  | .object members stop, v, h => by
    obtain ⟨-, -, h⟩ := bind_eq_ok.1 h
    obtain ⟨values, hvalues, h⟩ := bind_eq_ok.1 h
    obtain ⟨_, hclosed, -⟩ := bind_eq_ok.1 h
    obtain rfl := closed_eq_ok hclosed
    simp only [skip, skipMembers_of_read hvalues]
    rfl

/-- Items that can be read can be passed over. -/
theorem skipItems_of_read {depth : Nat} : ∀ {ts : List Tree} {vs : List Value},
    readItems depth ts = .ok vs → skipItems ts = .ok ()
  | [], _, _ => rfl
  | t :: ts, vs, h => by
    obtain ⟨v, hv, h⟩ := bind_eq_ok.1 h
    obtain ⟨more, hmore, -⟩ := bind_eq_ok.1 h
    simp only [skipItems, skip_of_read hv, skipItems_of_read hmore]
    rfl

/-- Members that can be read can be passed over. -/
theorem skipMembers_of_read {depth : Nat} : ∀ {ms : List (Except Break String × Tree)}
    {vs : List (String × Value)}, readMembers depth ms = .ok vs → skipMembers ms = .ok ()
  | [], _, _ => rfl
  | (key, t) :: rest, vs, h => by
    obtain ⟨k, -, h⟩ := bind_eq_ok.1 h
    obtain ⟨v, hv, h⟩ := bind_eq_ok.1 h
    obtain ⟨more, hmore, -⟩ := bind_eq_ok.1 h
    simp only [skipMembers, skip_of_read hv, skipMembers_of_read hmore]
    rfl

end

end Tree

/-- **A decoder that does not see a difference**: what it reads from a tree, it reads from every
related one. -/
def Decoder.BlindTo {α : Type} (d : Decoder α) (depth : Nat) (V : Tree → Tree → Prop) : Prop :=
  ∀ t t' a, V t t' → d depth t = .ok a → d depth t' = .ok a

theorem Decoder.blindTo_eq {α : Type} {d : Decoder α} {depth : Nat} : d.BlindTo depth Eq := by
  rintro t _ a rfl h
  exact h

/-- A member that is kept: it has its key, and its value is related to the one before. -/
def KeptMember (V : String → Tree → Tree → Prop) (p p' : Except Break String × Tree) : Prop :=
  p'.1 = p.1 ∧ ∀ k, p.1 = .ok k → V k p.2 p'.2

/-- A member that is added: its key is not known, and its value is accepted. -/
def AddedMember (known : List String) (Accepted : Tree → Prop) (p : Except Break String × Tree) :
    Prop :=
  ∃ k, p.1 = .ok k ∧ k ∉ known ∧ Accepted p.2

/-- **The members of an object in any order**, with related values, and with others between them
that are not known. -/
def MembersRearranged (known : List String) (V : String → Tree → Tree → Prop)
    (Accepted : Tree → Prop) (ms ms' : List (Except Break String × Tree)) : Prop :=
  ∃ kept added, ms'.Perm (kept ++ added) ∧ List.Forall₂ (KeptMember V) ms kept ∧
    ∀ p ∈ added, AddedMember known Accepted p

/-- The elements of an array that stand for members with the given names, with related values. -/
inductive ElementsRearranged (V : String → Tree → Tree → Prop) :
    List String → List Tree → List Tree → Prop
  | nil {names : List String} : ElementsRearranged V names [] []
  | cons {name : String} {names : List String} {t t' : Tree} {ts ts' : List Tree} (ht : V name t t')
    (h : ElementsRearranged V names ts ts') :
    ElementsRearranged V (name :: names) (t :: ts) (t' :: ts')

/-- **A tree for a record that is rearranged**: as an object with its members in any order, or as an
array with related elements. -/
inductive Rearranged (known : List String) (V : String → Tree → Tree → Prop)
    (Accepted : Tree → Prop) : Tree → Tree → Prop
  | same (t : Tree) : Rearranged known V Accepted t t
  | object {ms ms' : List (Except Break String × Tree)} {stop : Option Rupture}
    (h : MembersRearranged known V Accepted ms ms') :
    Rearranged known V Accepted (.object ms stop) (.object ms' stop)
  | array {ts ts' : List Tree} {stop : Option Rupture} (h : ElementsRearranged V known ts ts') :
    Rearranged known V Accepted (.array ts stop) (.array ts' stop)

/-- What holds of each item of a list, of a list with related items. -/
theorem forall_mem_of_forall₂ {α β : Type} {R : α → β → Prop} {P : α → Prop} {Q : β → Prop}
    (hR : ∀ a b, R a b → P a → Q b) {as : List α} {bs : List β} (hrel : List.Forall₂ R as bs)
    (h : ∀ a ∈ as, P a) : ∀ b ∈ bs, Q b := by
  intro b hb
  obtain ⟨a, ha, hab⟩ := exists_of_forall₂_left hrel.flip hb
  exact hR a b hab (h a ha)

/-- What holds of each member still holds of each. -/
theorem MembersRearranged.forall_mem {known : List String} {V : String → Tree → Tree → Prop}
    {Accepted : Tree → Prop} {P : Except Break String × Tree → Prop}
    {ms ms' : List (Except Break String × Tree)}
    (hms : MembersRearranged known V Accepted ms ms')
    (hkept : ∀ p p', KeptMember V p p' → P p → P p')
    (hadded : ∀ p, AddedMember known Accepted p → P p) (h : ∀ p ∈ ms, P p) : ∀ p ∈ ms', P p := by
  obtain ⟨kept, added, hperm, hforall, hadd⟩ := hms
  intro p hp
  rcases List.mem_append.1 (hperm.mem_iff.1 hp) with hk | ha
  · exact forall_mem_of_forall₂ hkept hforall h p hk
  · exact hadded p (hadd p ha)

/-- Steps along a list, each from a state to the next. -/
inductive Walk {P S : Type} (Step : P → S → S → Prop) : List P → S → S → Prop
  | nil (s : S) : Walk Step [] s s
  | cons {p : P} {ps : List P} {s next s' : S} (hp : Step p s next) (h : Walk Step ps next s') :
    Walk Step (p :: ps) s s'

namespace Walk

variable {P S : Type} {Step : P → S → S → Prop} {ps ps' : List P} {s s' : S}

/-- A function that fails or makes one step after the other. -/
theorem eq_ok_iff {ε : Type} {run : List P → S → Except ε S} (hnil : ∀ s, run [] s = .ok s)
    (hcons : ∀ {p ps s s'}, run (p :: ps) s = .ok s' ↔
      ∃ next, Step p s next ∧ run ps next = .ok s') :
    run ps s = .ok s' ↔ Walk Step ps s s' := by
  induction ps generalizing s with
  | nil =>
    rw [hnil]
    constructor
    · intro h
      obtain rfl := Except.ok.inj h
      exact .nil s
    · rintro ⟨⟩
      rfl
  | cons p ps ih =>
    rw [hcons]
    constructor
    · rintro ⟨next, hp, hrest⟩
      exact .cons hp (ih.1 hrest)
    · rintro (_ | ⟨hp, hrest⟩)
      exact ⟨_, hp, ih.2 hrest⟩

/-- Steps that can be exchanged two by two can be made in any order. -/
theorem perm (hswap : ∀ {p q s next s'}, Step p s next → Step q next s' →
      ∃ next', Step q s next' ∧ Step p next' s') (hperm : ps.Perm ps') (h : Walk Step ps s s') :
    Walk Step ps' s s' := by
  induction hperm generalizing s with
  | nil => exact h
  | cons p _ ih =>
    cases h with
    | cons hp h => exact .cons hp (ih h)
  | swap p q ps =>
    rcases h with _ | ⟨hq, _ | ⟨hp, h⟩⟩
    obtain ⟨next', hp', hq'⟩ := hswap hq hp
    exact .cons hp' (.cons hq' h)
  | trans _ _ ih ih' => exact ih' (ih h)

theorem forall₂ {K : P → P → Prop} (hK : ∀ {p p' s s'}, K p p' → Step p s s' → Step p' s s')
    (hps : List.Forall₂ K ps ps') (h : Walk Step ps s s') : Walk Step ps' s s' := by
  induction hps generalizing s with
  | nil => exact h
  | cons hp _ ih =>
    cases h with
    | cons hstep h => exact .cons (hK hp hstep) (ih h)

/-- Steps that lead nowhere can be added. -/
theorem append (hps' : ∀ p ∈ ps', ∀ s, Step p s s) (h : Walk Step ps s s') :
    Walk Step (ps ++ ps') s s' := by
  induction h with
  | nil s =>
    induction ps' with
    | nil => exact .nil s
    | cons p ps' ih =>
      obtain ⟨hp, hps'⟩ := List.forall_mem_cons.1 hps'
      exact .cons (hp s) (ih hps')
  | cons hp _ ih => exact .cons hp ih

/-- **Rearranged members lead to the same end**, if steps can be exchanged, do not see how a value
changes, and lead nowhere for members that are added. -/
theorem rearranged {Step : Except Break String × Tree → S → S → Prop} {known : List String}
    {V : String → Tree → Tree → Prop} {Accepted : Tree → Prop}
    {ms ms' : List (Except Break String × Tree)}
    (hswap : ∀ {p q s next s'}, Step p s next → Step q next s' →
      ∃ next', Step q s next' ∧ Step p next' s')
    (hkept : ∀ {p p' s s'}, KeptMember V p p' → Step p s s' → Step p' s s')
    (hadded : ∀ {p}, AddedMember known Accepted p → ∀ s, Step p s s)
    (hms : MembersRearranged known V Accepted ms ms') (h : Walk Step ms s s') :
    Walk Step ms' s s' := by
  obtain ⟨kept, added, hperm, hforall, hadd⟩ := hms
  -- values first, then what is added behind them, and the order last
  have hwalk : Walk Step kept s s' := h.forall₂ hkept hforall
  exact (hwalk.append fun p hp => hadded (hadd p hp)).perm hswap hperm.symm

end Walk

variable {R : Type}

/-- A member that counts as given once it was read. -/
def Member.Marks (m : Member R) : Prop :=
  ∀ depth t fill r, m.read depth t = .ok fill → m.given (fill r) = true

/-- **Two members that do not touch each other**: each leaves open whether the other was given, and
it makes no difference which of them is filled in first. -/
structure Member.Apart (m m' : Member R) : Prop where
  given : ∀ depth t fill r, m.read depth t = .ok fill → m'.given (fill r) = m'.given r
  given' : ∀ depth t fill r, m'.read depth t = .ok fill → m.given (fill r) = m.given r
  comm : ∀ depth t t' fill fill' r, m.read depth t = .ok fill → m'.read depth t' = .ok fill' →
    fill' (fill r) = fill (fill' r)

theorem Member.Apart.symm {m m' : Member R} (h : m.Apart m') : m'.Apart m where
  given := h.given'
  given' := h.given
  comm depth t t' fill fill' r hfill hfill' := (h.comm depth t' t fill' fill r hfill' hfill).symm

@[simp] theorem Member.marks_slot {α : Type} {name : String} {required : Bool} {get : R → Option α}
    {set : R → α → R} {d : Decoder α} (h : ∀ r a, get (set r a) = some a) :
    (Member.slot name required get set d).Marks := by
  intro depth t fill r hfill
  obtain ⟨a, -, rfl⟩ := map_eq_ok.1 hfill
  exact (congrArg Option.isSome (h r a)).trans rfl

/-- Slots with places of their own do not touch each other. -/
@[simp] theorem Member.apart_slot {α β : Type} {name name' : String} {required required' : Bool}
    {get : R → Option α} {get' : R → Option β} {set : R → α → R} {set' : R → β → R}
    {d : Decoder α} {d' : Decoder β} (hget : ∀ r a, get' (set r a) = get' r)
    (hget' : ∀ r b, get (set' r b) = get r) (hset : ∀ r a b, set' (set r a) b = set (set' r b) a) :
    (Member.slot name required get set d).Apart (Member.slot name' required' get' set' d') where
  given depth t fill r hfill := by
    obtain ⟨a, -, rfl⟩ := map_eq_ok.1 hfill
    exact congrArg Option.isSome (hget r a)
  given' depth t fill r hfill := by
    obtain ⟨b, -, rfl⟩ := map_eq_ok.1 hfill
    exact congrArg Option.isSome (hget' r b)
  comm depth t t' fill fill' r hfill hfill' := by
    obtain ⟨a, -, rfl⟩ := map_eq_ok.1 hfill
    obtain ⟨b, -, rfl⟩ := map_eq_ok.1 hfill'
    exact hset r a b

namespace Record

/-- The names of the members of a record. -/
def names (shape : Record R) : List String :=
  shape.members.map Member.name

/-- **A record for which the order of the members makes no difference.** -/
structure Orderless (shape : Record R) : Prop where
  distinct : shape.names.Nodup
  marks : ∀ m ∈ shape.members, m.Marks
  apart : shape.members.Pairwise Member.Apart

variable {shape : Record R} {depth : Nat} {r r' : R}

instance : Std.Symm (Member.Apart (R := R)) :=
  ⟨fun _ _ h => h.symm⟩

theorem Orderless.apart_of_ne (ho : shape.Orderless) {m m' : Member R} (hm : m ∈ shape.members)
    (hm' : m' ∈ shape.members) (hne : m ≠ m') : m.Apart m' :=
  ho.apart.forall hm hm' hne

/-- **One step of reading an object**: a member that the record does not know is passed over, and
any other one is filled in, unless it was given before. -/
inductive Takes (shape : Record R) (depth : Nat) (p : Except Break String × Tree) : R → R → Prop
  | unknown {r : R} {k : String} (hk : p.1 = .ok k) (hu : k ∉ shape.names)
    (hs : p.2.skip = .ok ()) : Takes shape depth p r r
  | known {r : R} {m : Member R} {fill : R → R} (hk : p.1 = .ok m.name) (hm : m ∈ shape.members)
    (hg : m.given r = false) (hf : m.read depth p.2 = .ok fill) : Takes shape depth p r (fill r)

theorem find?_name_eq_none_iff {k : String} :
    shape.members.find? (·.name == k) = none ↔ k ∉ shape.names := by
  simp [names, List.find?_eq_none]

theorem find?_name_eq_some_iff (hd : shape.names.Nodup) {k : String} {m : Member R} :
    shape.members.find? (·.name == k) = some m ↔ m ∈ shape.members ∧ m.name = k := by
  constructor
  · intro h
    exact ⟨List.mem_of_find?_eq_some h, by simpa using List.find?_some h⟩
  · rintro ⟨hm, rfl⟩
    rcases hfind : shape.members.find? (·.name == m.name) with _ | found
    · exact absurd (List.mem_map_of_mem hm) (find?_name_eq_none_iff.1 hfind)
    · have hname : found.name = m.name := by simpa using List.find?_some hfind
      have hfound := List.mem_of_find?_eq_some hfind
      rw [hfind, List.inj_on_of_nodup_map hd hfound hm hname]

theorem readObject_cons_eq_ok_iff (hd : shape.names.Nodup) {p : Except Break String × Tree}
    {rest : List (Except Break String × Tree)} :
    shape.readObject depth (p :: rest) r = .ok r' ↔
      ∃ next, shape.Takes depth p r next ∧ shape.readObject depth rest next = .ok r' := by
  obtain ⟨key, t⟩ := p
  constructor
  · intro h
    obtain ⟨k, hk, hstep⟩ := bind_eq_ok.1 h
    obtain rfl := literal_eq_ok hk
    split at hstep
    · rename_i hunknown
      obtain ⟨_, hskip, hrest⟩ := bind_eq_ok.1 hstep
      exact ⟨r, .unknown rfl (find?_name_eq_none_iff.1 hunknown) hskip, hrest⟩
    · rename_i m hfound
      obtain ⟨hm, rfl⟩ := (find?_name_eq_some_iff hd).1 hfound
      split at hstep
      · cases hstep
      rename_i hgiven
      obtain ⟨fill, hfill, hrest⟩ := bind_eq_ok.1 hstep
      exact ⟨fill r, .known rfl hm (by simpa using hgiven) hfill, hrest⟩
  · rintro ⟨next, htakes, hrest⟩
    cases htakes with
    | @unknown k hk hu hs =>
      obtain rfl : key = .ok k := hk
      refine bind_eq_ok.2 ⟨k, rfl, ?_⟩
      rw [find?_name_eq_none_iff.2 hu]
      exact bind_eq_ok.2 ⟨_, hs, hrest⟩
    | @known m fill hk hm hg hf =>
      obtain rfl : key = .ok m.name := hk
      have hnot : ¬ m.given r = true := by simp [hg]
      refine bind_eq_ok.2 ⟨m.name, rfl, ?_⟩
      rw [(find?_name_eq_some_iff hd).2 ⟨hm, rfl⟩]
      exact (if_neg hnot).trans (bind_eq_ok.2 ⟨fill, hf, hrest⟩)

/-- **An object is read step by step.** -/
theorem readObject_eq_ok_iff (hd : shape.names.Nodup) {ms : List (Except Break String × Tree)} :
    shape.readObject depth ms r = .ok r' ↔ Walk (shape.Takes depth) ms r r' :=
  Walk.eq_ok_iff (fun _ => rfl) (readObject_cons_eq_ok_iff hd)

/-- Two steps can be made in the other order. -/
theorem Takes.swap (ho : shape.Orderless) {p q : Except Break String × Tree} {next : R}
    (hp : shape.Takes depth p r next) (hq : shape.Takes depth q next r') :
    ∃ next', shape.Takes depth q r next' ∧ shape.Takes depth p next' r' := by
  cases hp with
  | unknown hk hu hs =>
    refine ⟨r', hq, ?_⟩
    exact .unknown hk hu hs
  | @known m fill hk hm hg hf =>
    cases hq with
    | unknown hk' hu' hs' => exact ⟨r, .unknown hk' hu' hs', .known hk hm hg hf⟩
    | @known m' fill' hk' hm' hg' hf' =>
      have hne : m ≠ m' := by
        -- a member cannot be given twice
        rintro rfl
        rw [ho.marks m hm _ _ _ r hf] at hg'
        cases hg'
      have hapart := ho.apart_of_ne hm hm' hne
      rw [hapart.given _ _ _ r hf] at hg'
      have hgiven : m.given (fill' r) = false := by rw [hapart.given' _ _ _ r hf', hg]
      rw [hapart.comm _ _ _ _ _ r hf hf']
      exact ⟨fill' r, .known hk' hm' hg' hf', .known hk hm hgiven hf⟩

variable {blank : R} {V : String → Tree → Tree → Prop} {Accepted : Tree → Prop}

/-- **Related values are read alike** by the members of a record, and those of other members are the
same. -/
structure ReadsAlike (shape : Record R) (depth : Nat) (V : String → Tree → Tree → Prop) : Prop where
  known : ∀ m ∈ shape.members, m.read.BlindTo depth (V m.name)
  unknown : ∀ k ∉ shape.names, V k = Eq

theorem ReadsAlike.eq : shape.ReadsAlike depth fun _ => Eq where
  known _ _ := Decoder.blindTo_eq
  unknown _ _ := rfl

/-- A step with a member that is kept. -/
theorem Takes.kept (hV : shape.ReadsAlike depth V) {p p' : Except Break String × Tree}
    (hkept : KeptMember V p p') (h : shape.Takes depth p r r') : shape.Takes depth p' r r' := by
  obtain ⟨hkey, hvalue⟩ := hkept
  cases h with
  | @unknown k hk hu hs =>
    have heq : p.2 = p'.2 := by
      have hrel := hvalue k hk
      rwa [hV.unknown k hu] at hrel
    exact .unknown (hkey.trans hk) hu (heq ▸ hs)
  | known hk hm hg hf =>
    exact .known (hkey.trans hk) hm hg (hV.known _ hm _ _ _ (hvalue _ hk) hf)

/-- **Rearranged members are read as the same record.** -/
theorem readObject_of_rearranged (ho : shape.Orderless) (hV : shape.ReadsAlike depth V)
    (hA : ∀ t, Accepted t → t.skip = .ok ()) {ms ms' : List (Except Break String × Tree)}
    (hms : MembersRearranged shape.names V Accepted ms ms')
    (h : shape.readObject depth ms r = .ok r') : shape.readObject depth ms' r = .ok r' := by
  rw [readObject_eq_ok_iff ho.distinct] at h ⊢
  refine h.rearranged (fun hp hq => hp.swap ho hq) (fun hkept hp => hp.kept hV hkept) ?_ hms
  rintro p ⟨k, hk, hu, haccepted⟩ r
  exact .unknown hk hu (hA _ haccepted)

theorem readArray_of_rearranged {stop : Option Rupture} {place : Nat} {ms : List (Member R)}
    (hV : ∀ m ∈ ms, m.read.BlindTo depth (V m.name)) {ts ts' : List Tree}
    (hts : ElementsRearranged V (ms.map Member.name) ts ts')
    (h : shape.readArray depth stop place ms ts r = .ok r') :
    shape.readArray depth stop place ms ts' r = .ok r' := by
  induction ms generalizing place ts ts' r with
  | nil =>
    cases hts with
    | nil => exact h
  | cons m ms ih =>
    cases hts with
    | nil => exact h
    | cons ht hts =>
      obtain ⟨fill, hfill, hrest⟩ := bind_eq_ok.1 h
      have hfill' := hV m (.head _) _ _ _ ht hfill
      exact bind_eq_ok.2 ⟨fill, hfill', ih (fun m hm => hV m (.tail _ hm)) hts hrest⟩

/-- **A rearranged tree is read as the same record.** -/
theorem blindTo_read (ho : shape.Orderless) (hV : shape.ReadsAlike (depth + 1) V)
    (hA : ∀ t, Accepted t → t.skip = .ok ()) :
    Decoder.BlindTo (shape.read blank) depth (Rearranged shape.names V Accepted) := by
  intro t t' r ht h
  cases ht with
  | same => exact h
  | object hms =>
    obtain ⟨_, henter, h⟩ := bind_eq_ok.1 h
    obtain ⟨read, hread, h⟩ := bind_eq_ok.1 h
    have hread' := readObject_of_rearranged ho hV hA hms hread
    exact bind_eq_ok.2 ⟨_, henter, bind_eq_ok.2 ⟨read, hread', h⟩⟩
  | array hts =>
    obtain ⟨_, henter, h⟩ := bind_eq_ok.1 h
    exact bind_eq_ok.2 ⟨_, henter, readArray_of_rearranged hV.known hts h⟩

end Record

end Bindery.Json

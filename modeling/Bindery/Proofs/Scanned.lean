import Bindery.Proofs.Numerals

/-!
# Numbers of a text

A text is read once, from left to right: what is read from some place leaves the text behind it. So
each number in the tree of a text is that of a literal which stands in the text.

* `Json.Literal.In`: the literals in a text; `spelled_of_in`: integer literals are spelled there.
* `Json.Tree.Inside`: the trees in a tree.
* `Json.Scanned`: trees that are read from the front of a text, and the text behind them.
* `exists_literal_of_inside`: **each number in the tree of a text is that of a literal in it**.
-/

namespace Bindery.Json

/-- **A literal that stands in a text.** -/
def Literal.In (l : Literal) (cs : List Char) : Prop :=
  ∃ place rest, place <:+ cs ∧ scanNumber place = .ok (l, rest)

theorem Literal.In.mono {l : Literal} {cs cs' : List Char} (h : l.In cs) (hs : cs <:+ cs') :
    l.In cs' := by
  obtain ⟨place, rest, hplace, hscan⟩ := h
  exact ⟨place, rest, hplace.trans hs, hscan⟩

/-- **An integer literal in a text is spelled there**, and its spelling is the decimal text of its
integer, minus zero apart. -/
theorem spelled_of_in {l : Literal} {cs : List Char} (h : l.In cs) (hl : l.Integral) :
    l.spelling <:+: cs ∧
      ((l.negative = true → l.integer ≠ 0) → (toString l.integer).toList = l.spelling) := by
  obtain ⟨place, rest, hplace, hscan⟩ := h
  obtain ⟨hnumeral, hspelled⟩ := spelling_of_scanNumber hscan hl
  have hfront : l.spelling <+: place := ⟨rest, hspelled.symm⟩
  exact ⟨hfront.isInfix.trans hplace.isInfix, Literal.toString_integer hnumeral⟩

section Rest

variable {cs rest : List Char}

theorem dropBlank_suffix (cs : List Char) : dropBlank cs <:+ cs :=
  List.dropWhile_suffix _

theorem suffix_of_dropBlank {c : Char} (h : dropBlank cs = c :: rest) : rest <:+ cs :=
  (List.suffix_cons c rest).trans (h ▸ dropBlank_suffix cs)

theorem suffix_of_scanWord {word : List Char} (h : scanWord word cs = .ok rest) : rest <:+ cs := by
  induction word generalizing cs with
  | nil =>
    obtain rfl := Except.ok.inj h
    exact List.suffix_rfl
  | cons w word ih =>
    cases cs with
    | nil => cases h
    | cons c cs =>
      unfold scanWord at h
      split at h
      · exact (ih h).trans (List.suffix_cons c cs)
      · cases h

theorem suffix_of_scanString (h : (scanString cs).rest = .ok rest) : rest <:+ cs := by
  fun_induction scanString cs with
  -- the text breaks; it ends at a quote; or one more piece is scanned
  | case1 | case4 | case5 | case7 | case8 | case9 => cases h
  | case2 cs =>
    obtain rfl := Except.ok.inj h
    exact List.suffix_cons _ _
  | case3 a b c d cs u hu ih =>
    exact (ih h).trans (List.suffix_append ['\\', 'u', a, b, c, d] cs)
  | case6 c cs hq hu e he ih => exact (ih h).trans (List.suffix_append ['\\', c] cs)
  | case10 c cs _ _ _ _ _ _ ih => exact (ih h).trans (List.suffix_cons c cs)

theorem suffix_of_scanDigits {ds : List Char} (h : scanDigits cs = .ok (ds, rest)) :
    rest <:+ cs := by
  unfold scanDigits at h
  split at h
  · cases h
  · obtain ⟨-, rfl⟩ := Prod.mk.inj (Except.ok.inj h)
    exact List.dropWhile_suffix _

theorem suffix_of_scanFraction {ds : Option (List Char)} (h : scanFraction cs = .ok (ds, rest)) :
    rest <:+ cs := by
  unfold scanFraction at h
  split at h
  · obtain ⟨⟨found, behind⟩, hscan, h⟩ := bind_eq_ok.1 h
    obtain ⟨-, rfl⟩ := Prod.mk.inj (Except.ok.inj h)
    exact (suffix_of_scanDigits hscan).trans (List.suffix_cons _ _)
  · obtain ⟨-, rfl⟩ := Prod.mk.inj (Except.ok.inj h)
    exact List.suffix_rfl

theorem suffix_of_scanExponent {e : Option (Bool × List Char)}
    (h : scanExponent cs = .ok (e, rest)) : rest <:+ cs := by
  unfold scanExponent at h
  split at h
  · obtain ⟨-, rfl⟩ := Prod.mk.inj (Except.ok.inj h)
    exact List.suffix_rfl
  · rename_i c cs
    split at h
    · obtain ⟨⟨found, behind⟩, hscan, h⟩ := bind_eq_ok.1 h
      obtain ⟨-, rfl⟩ := Prod.mk.inj (Except.ok.inj h)
      refine (suffix_of_scanDigits hscan).trans (List.IsSuffix.trans ?_ (List.suffix_cons c cs))
      -- behind the sign of the exponent, if it has one
      split
      · exact List.suffix_cons _ _
      · exact List.suffix_cons _ _
      · exact List.suffix_rfl
    · obtain ⟨-, rfl⟩ := Prod.mk.inj (Except.ok.inj h)
      exact List.suffix_rfl

theorem suffix_of_scanNumber {l : Literal} (h : scanNumber cs = .ok (l, rest)) : rest <:+ cs := by
  unfold scanNumber at h
  dsimp only at h
  obtain ⟨⟨whole, cs'⟩, hwhole, h⟩ := bind_eq_ok.1 h
  obtain ⟨⟨fraction, cs''⟩, hfraction, h⟩ := bind_eq_ok.1 h
  obtain ⟨⟨exponent, behind⟩, hexponent, h⟩ := bind_eq_ok.1 h
  obtain ⟨-, rfl⟩ := Prod.mk.inj (Except.ok.inj h)
  obtain ⟨-, hbody⟩ := numeral_of_scanWhole hwhole
  refine ((suffix_of_scanExponent hexponent).trans (suffix_of_scanFraction hfraction)).trans ?_
  refine List.IsSuffix.trans ⟨whole, hbody.symm⟩ ?_
  split
  · exact List.suffix_cons _ _
  · exact List.suffix_rfl

end Rest

/-- A tree that stands in a tree. -/
inductive Tree.Inside (s : Tree) : Tree → Prop
  | self : Inside s s
  | item {ts : List Tree} {stop : Option Rupture} {t : Tree} (ht : t ∈ ts) (h : Inside s t) :
    Inside s (.array ts stop)
  | member {ms : List (Except Break String × Tree)} {stop : Option Rupture} {t : Tree}
    (ht : t ∈ ms.map Prod.snd) (h : Inside s t) : Inside s (.object ms stop)

/-- **Trees that are read from the front of a text**, and the text behind them: each number in them
is that of a literal in the text. -/
structure Scanned (cs : List Char) (ts : List Tree) (rest : Option (List Char)) : Prop where
  numbers : ∀ t ∈ ts, ∀ n, Tree.Inside (.number n) t → ∃ l : Literal, l.In cs ∧ n = l.value
  suffix : ∀ r, rest = some r → r <:+ cs

namespace Scanned

variable {cs cs' r : List Char} {ts : List Tree} {t : Tree} {rest : Option (List Char)}

theorem mono (h : Scanned cs ts rest) (hs : cs <:+ cs') : Scanned cs' ts rest where
  numbers t ht n hn := by
    obtain ⟨l, hl, hvalue⟩ := h.numbers t ht n hn
    exact ⟨l, hl.mono hs, hvalue⟩
  suffix r hr := (h.suffix r hr).trans hs

theorem nil (h : ∀ r, rest = some r → r <:+ cs) : Scanned cs [] rest where
  numbers := by simp
  suffix := h

theorem cons (h : Scanned cs [t] (some r)) (h' : Scanned r ts rest) :
    Scanned cs (t :: ts) rest where
  numbers := List.forall_mem_cons.2
    ⟨h.numbers t (.head _), (h'.mono (h.suffix r rfl)).numbers⟩
  suffix := (h'.mono (h.suffix r rfl)).suffix

/-- A tree with nothing in it. -/
theorem leaf (hleaf : ∀ n, ¬ Tree.Inside (.number n) t) (h : ∀ r, rest = some r → r <:+ cs) :
    Scanned cs [t] rest where
  numbers := List.forall_mem_singleton.2 fun n hn => absurd hn (hleaf n)
  suffix := h

theorem array {stop : Option Rupture} (h : Scanned cs ts rest) :
    Scanned cs [.array ts stop] rest where
  numbers := List.forall_mem_singleton.2 fun n hn => by
    cases hn with
    | item ht hin => exact h.numbers _ ht n hin
  suffix := h.suffix

theorem object {ms : List (Except Break String × Tree)} {stop : Option Rupture}
    (h : Scanned cs (ms.map Prod.snd) rest) : Scanned cs [.object ms stop] rest where
  numbers := List.forall_mem_singleton.2 fun n hn => by
    cases hn with
    | member ht hin => exact h.numbers _ ht n hin
  suffix := h.suffix

theorem broken (r : Rupture) : Scanned cs [.broken r] none :=
  leaf (fun n hn => by cases hn) (by simp)

theorem cutNumber (cs : List Char) : Scanned cs [(cutNumber cs).1] (cutNumber cs).2 := by
  unfold Json.cutNumber
  split
  · rename_i l rest hscan
    refine ⟨List.forall_mem_singleton.2 fun n hn => ?_, fun r hr => ?_⟩
    · cases hn with
      | self => exact ⟨l, ⟨cs, rest, List.suffix_rfl, hscan⟩, rfl⟩
    · obtain rfl := Option.some.inj hr
      exact suffix_of_scanNumber hscan
  · exact broken _

theorem cutWord {word : List Char} (hleaf : ∀ n, ¬ Tree.Inside (.number n) t) :
    Scanned cs [(cutWord word t cs).1] (cutWord word t cs).2 := by
  unfold Json.cutWord
  split
  · rename_i rest hscan
    refine leaf hleaf fun r hr => ?_
    obtain rfl := Option.some.inj hr
    exact suffix_of_scanWord hscan
  · exact broken _

theorem cutString : Scanned cs [(cutString cs).1] (cutString cs).2 := by
  unfold Json.cutString
  dsimp only
  split
  · rename_i rest text hrest
    refine leaf (fun n hn => by cases hn) fun r hr => ?_
    obtain rfl := Option.some.inj hr
    exact suffix_of_scanString hrest
  · exact broken _
  · exact broken _

theorem cutPlain (cs : List Char) : Scanned cs [(cutPlain cs).1] (cutPlain cs).2 := by
  unfold Json.cutPlain
  split
  · exact broken _
  · exact (cutWord fun n hn => by cases hn).mono (List.suffix_cons _ _)
  · exact (cutWord fun n hn => by cases hn).mono (List.suffix_cons _ _)
  · exact (cutWord fun n hn => by cases hn).mono (List.suffix_cons _ _)
  · exact cutString.mono (List.suffix_cons _ _)
  · split
    · exact cutNumber _
    · exact broken _

end Scanned

/-- What a reader finds with some fuel is read from the front of the text. -/
structure Faithful (fuel : Nat) : Prop where
  tree : ∀ cs, Scanned cs [(cutTree fuel cs).1] (cutTree fuel cs).2
  items : ∀ cs, Scanned cs (cutItems fuel cs).items (cutItems fuel cs).rest
  members : ∀ cs, Scanned cs ((cutMembers fuel cs).members.map Prod.snd) (cutMembers fuel cs).rest

namespace Faithful

variable {fuel : Nat}

theorem tree_succ (h : Faithful fuel) (cs : List Char) :
    Scanned cs [(cutTree (fuel + 1) cs).1] (cutTree (fuel + 1) cs).2 := by
  unfold cutTree
  split
  · rename_i r hr
    refine (Scanned.array ?_).mono (suffix_of_dropBlank hr)
    split
    · exact .nil (by simp [Items.broken])
    · rename_i hclosed
      exact .nil (by simpa using suffix_of_dropBlank hclosed)
    · exact (h.items _).mono (dropBlank_suffix r)
  · rename_i r hr
    refine (Scanned.object ?_).mono (suffix_of_dropBlank hr)
    split
    · rename_i hclosed
      exact .nil (by simpa using suffix_of_dropBlank hclosed)
    · exact (h.members _).mono (dropBlank_suffix r)
  · exact (Scanned.cutPlain _).mono (dropBlank_suffix cs)

theorem items_succ (h : Faithful fuel) (cs : List Char) :
    Scanned cs (cutItems (fuel + 1) cs).items (cutItems (fuel + 1) cs).rest := by
  have htree := h.tree cs
  unfold cutItems
  split
  · rename_i t hcut
    rwa [hcut] at htree
  · rename_i t r hcut
    rw [hcut] at htree
    refine htree.cons ?_
    split
    · exact .nil (by simp [Items.broken])
    · rename_i hclosed
      exact .nil (by simpa using suffix_of_dropBlank hclosed)
    · rename_i hmore
      exact (h.items _).mono (suffix_of_dropBlank hmore)
    · exact .nil (by simp [Items.broken])

/-- The value of a member, behind its key. -/
theorem value (h : Faithful fuel) {cs : List Char} {cut : Cut}
    (hcut : (match dropBlank cs with
      | [] => .broken .ended
      | ':' :: r => cutTree fuel r
      | _ => .broken .malformed) = cut) : Scanned cs [cut.1] cut.2 := by
  subst hcut
  split
  · exact .broken _
  · rename_i hcolon
    exact (h.tree _).mono (suffix_of_dropBlank hcolon)
  · exact .broken _

theorem members_succ (h : Faithful fuel) (cs : List Char) :
    Scanned cs ((cutMembers (fuel + 1) cs).members.map Prod.snd)
      (cutMembers (fuel + 1) cs).rest := by
  unfold cutMembers
  split
  · exact .nil (by simp [Members.broken])
  · rename_i q hq
    refine Scanned.mono ?_ (suffix_of_dropBlank hq)
    dsimp only
    split
    · exact .nil (by simp)
    · -- the value stands behind the key, and the other members behind the value
      rename_i r hkey
      refine Scanned.mono ?_ (suffix_of_scanString hkey)
      split
      · rename_i t hcut
        exact h.value hcut
      · rename_i t r' hcut
        refine (h.value hcut).cons ?_
        split
        · exact .nil (by simp [Members.broken])
        · rename_i hclosed
          exact .nil (by simpa using suffix_of_dropBlank hclosed)
        · rename_i hmore
          exact (h.members _).mono (suffix_of_dropBlank hmore)
        · exact .nil (by simp [Members.broken])
  · exact .nil (by simp [Members.broken])

end Faithful

theorem faithful (fuel : Nat) : Faithful fuel := by
  induction fuel with
  | zero =>
    -- without fuel nothing is read
    refine ⟨fun cs => ?_, fun cs => ?_, fun cs => ?_⟩
    · unfold cutTree
      exact .broken _
    · unfold cutItems
      exact .nil (by simp [Items.broken])
    · unfold cutMembers
      exact .nil (by simp [Members.broken])
  | succ fuel ih => exact ⟨ih.tree_succ, ih.items_succ, ih.members_succ⟩

/-- **Each number in the tree of a text is that of a literal in the text.** -/
theorem exists_literal_of_inside {text : String} {n : Except Break Number}
    (h : Tree.Inside (.number n) (readText text).tree) :
    ∃ l : Literal, l.In text.toList ∧ n = l.value := by
  have hread := ((faithful (2 * text.toList.length + 1)).tree text.toList).numbers _ (.head _) n
  refine hread ?_
  unfold readText at h
  dsimp only at h
  split at h
  · rename_i t hcut
    rwa [hcut]
  · rename_i t rest hcut
    rwa [hcut]

end Bindery.Json

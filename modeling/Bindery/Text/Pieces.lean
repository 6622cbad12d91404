/-!
# Pieces of a text

Cutting a text at every occurrence of a separator, and joining the pieces again; taking off a
beginning or an end; and replacing a pattern, from left to right and without overlap, where what a
replacement puts in is not looked at again.

* `pieces`: the texts between the separators; there is always one more than there are separators.
* `joined`: texts with a separator between neighbours.
* `joined_pieces`, `pieces_joined`: joining the pieces gives the text back, and cutting a joined
  text gives the pieces back.
* `pieces_append`, `pieces_of_notMem`, `notMem_of_mem_pieces`: cutting at one separator, a text
  without any, and pieces, which have none.
* `mem_joined`, `mem_of_mem_pieces`: where the characters of joined texts and of pieces come from.
* `afterFront?`, `beforeBack?`: what follows a given beginning, and what precedes a given end.
* `replaceAll`: a text with every occurrence of a pattern replaced.
-/

namespace Bindery.Text

/-- The texts between the occurrences of a separator. -/
def pieces (sep : Char) : List Char → List (List Char)
  | [] => [[]]
  | c :: cs =>
    if c = sep then [] :: pieces sep cs
    else
      match pieces sep cs with
      | [] => [[c]]
      | p :: ps => (c :: p) :: ps

/-- Texts one after the other, with a separator between neighbours. -/
def joined (sep : List Char) : List (List Char) → List Char
  | [] => []
  | [t] => t
  | t :: ts => t ++ sep ++ joined sep ts

theorem pieces_ne_nil (sep : Char) (cs : List Char) : pieces sep cs ≠ [] := by
  cases cs with
  | nil => simp [pieces]
  | cons c cs =>
    simp only [pieces]
    split
    · simp
    · split <;> simp

theorem joined_cons_cons (sep t u : List Char) (ts : List (List Char)) :
    joined sep (t :: u :: ts) = t ++ sep ++ joined sep (u :: ts) := rfl

theorem joined_pieces (sep : Char) (cs : List Char) : joined [sep] (pieces sep cs) = cs := by
  induction cs with
  | nil => rfl
  | cons c cs ih =>
    obtain ⟨p, ps, hp⟩ := List.exists_cons_of_ne_nil (pieces_ne_nil sep cs)
    by_cases hc : c = sep
    · rw [pieces, if_pos hc, hp, joined_cons_cons, ← hp, ih, hc]
      rfl
    · rw [pieces, if_neg hc, hp]
      rw [hp] at ih
      cases ps with
      | nil => simpa [joined] using ih
      | cons q qs => simpa [joined] using ih

theorem pieces_append (sep : Char) (cs ds : List Char) :
    pieces sep (cs ++ sep :: ds) = pieces sep cs ++ pieces sep ds := by
  induction cs with
  | nil => simp [pieces]
  | cons c cs ih =>
    by_cases hc : c = sep
    · simp [pieces, hc, ih]
    · obtain ⟨p, ps, hp⟩ := List.exists_cons_of_ne_nil (pieces_ne_nil sep cs)
      rw [hp] at ih
      simp [pieces, hc, ih, hp]

theorem pieces_of_notMem {sep : Char} {cs : List Char} (h : sep ∉ cs) : pieces sep cs = [cs] := by
  induction cs with
  | nil => rfl
  | cons c cs ih =>
    rw [List.mem_cons, not_or] at h
    rw [pieces, if_neg (Ne.symm h.1), ih h.2]

/-- No piece has a separator in it. -/
theorem notMem_of_mem_pieces {sep : Char} (cs : List Char) : ∀ p ∈ pieces sep cs, sep ∉ p := by
  induction cs with
  | nil => simp [pieces]
  | cons c cs ih =>
    obtain ⟨p, ps, hp⟩ := List.exists_cons_of_ne_nil (pieces_ne_nil sep cs)
    rw [hp] at ih
    by_cases hc : c = sep
    · simpa [pieces, hc, hp] using ih
    · simpa [pieces, hc, hp, Ne.symm hc] using ih

/-- Texts without the separator are the pieces of the joined text. -/
theorem pieces_joined {sep : Char} {ts : List (List Char)} (hne : ts ≠ [])
    (h : ∀ t ∈ ts, sep ∉ t) : pieces sep (joined [sep] ts) = ts := by
  induction ts with
  | nil => exact absurd rfl hne
  | cons t ts ih =>
    have ht : sep ∉ t := h t (.head _)
    cases ts with
    | nil => exact pieces_of_notMem ht
    | cons u us =>
      have hrest := ih (List.cons_ne_nil _ _) fun v hv => h v (.tail _ hv)
      rw [joined_cons_cons, List.append_assoc, List.singleton_append, pieces_append,
        pieces_of_notMem ht, hrest, List.singleton_append]

theorem mem_joined {sep : List Char} {ts : List (List Char)} {c : Char} (h : c ∈ joined sep ts) :
    c ∈ sep ∨ ∃ t ∈ ts, c ∈ t := by
  induction ts with
  | nil => cases h
  | cons t ts ih =>
    cases ts with
    | nil => exact Or.inr ⟨t, by simp, h⟩
    | cons u us =>
      rw [joined_cons_cons, List.mem_append, List.mem_append] at h
      rcases h with (h | h) | h
      · exact Or.inr ⟨t, by simp, h⟩
      · exact Or.inl h
      · rcases ih h with h | ⟨v, hv, hc⟩
        · exact Or.inl h
        · exact Or.inr ⟨v, List.mem_cons_of_mem _ hv, hc⟩

theorem mem_joined_of_mem {sep t : List Char} {ts : List (List Char)} {c : Char} (ht : t ∈ ts)
    (hc : c ∈ t) : c ∈ joined sep ts := by
  induction ts with
  | nil => cases ht
  | cons u us ih =>
    cases us with
    | nil =>
      rw [List.mem_singleton.1 ht] at hc
      exact hc
    | cons v vs =>
      rw [joined_cons_cons, List.mem_append, List.mem_append]
      rcases List.mem_cons.1 ht with rfl | ht
      · exact Or.inl (Or.inl hc)
      · exact Or.inr (ih ht)

theorem mem_of_mem_pieces {sep c : Char} {cs p : List Char} (hp : p ∈ pieces sep cs)
    (hc : c ∈ p) : c ∈ cs := by
  rw [← joined_pieces sep cs]
  exact mem_joined_of_mem hp hc

/-- What follows a beginning, if the text begins that way. -/
def afterFront? : List Char → List Char → Option (List Char)
  | [], cs => some cs
  | _ :: _, [] => none
  | f :: fs, c :: cs => if f = c then afterFront? fs cs else none

/-- What precedes an end, if the text ends that way. -/
def beforeBack? (back cs : List Char) : Option (List Char) :=
  (afterFront? back.reverse cs.reverse).map List.reverse

theorem afterFront?_eq_some {front cs rest : List Char} :
    afterFront? front cs = some rest ↔ cs = front ++ rest := by
  induction front generalizing cs with
  | nil => simp [afterFront?, eq_comm]
  | cons f fs ih =>
    cases cs with
    | nil => simp [afterFront?]
    | cons c cs =>
      by_cases h : f = c
      · simp [afterFront?, h, ih]
      · simp [afterFront?, h, eq_comm]

theorem beforeBack?_eq_some {back cs rest : List Char} :
    beforeBack? back cs = some rest ↔ cs = rest ++ back := by
  simp only [beforeBack?, Option.map_eq_some_iff, afterFront?_eq_some]
  constructor
  · rintro ⟨a, ha, rfl⟩
    simpa using congrArg List.reverse ha
  · intro h
    exact ⟨rest.reverse, by simp [h], by simp⟩

/-- Replaces the occurrences of a pattern after the first characters, which are dropped because
they belong to an occurrence that was found before. -/
def replaceAfter (pattern new : List Char) : Nat → List Char → List Char
  | _, [] => []
  | skip + 1, _ :: cs => replaceAfter pattern new skip cs
  | 0, c :: cs =>
    if pattern.isPrefixOf (c :: cs) then new ++ replaceAfter pattern new (pattern.length - 1) cs
    else c :: replaceAfter pattern new 0 cs

/-- A text with every occurrence of a pattern replaced. -/
def replaceAll (pattern new : List Char) (cs : List Char) : List Char :=
  replaceAfter pattern new 0 cs

end Bindery.Text

import Bindery.Proofs.Prefixes

/-!
# The mark of records with a short name

Which records have a short name is read off the end of their types. The words of a type run
together there, but each of them begins with a capital or with no letter, so that the mark at the
end belongs to the last word alone.

* `Word.titleAfter_append`, `Word.titleAfter_eq_append_iff`: the capitals of a word in two parts.
* `Word.infoEnd_suffix_title_iff`: **which words end with the mark** once they have capitals.
* `isInfoType_iff`: **which names mark a record**.
-/

namespace Bindery

namespace Word

variable {w : Word} {front back : List Char} {afterLetter : Bool}

theorem length_titleAfter (afterLetter : Bool) (w : Word) :
    (titleAfter afterLetter w).length = w.length := by
  fun_induction titleAfter afterLetter w with
  | case1 => rfl
  | case2 afterLetter c cs hc ih => rw [List.length_cons, ih, List.length_cons]
  | case3 afterLetter c cs hc ih => rw [List.length_cons, ih, List.length_cons]

/-- The second part of a word has its capitals by how the first part ends. -/
theorem titleAfter_append (afterLetter : Bool) (v w : Word) :
    titleAfter afterLetter (v ++ w) =
      titleAfter afterLetter v ++ titleAfter (v.endsInLetter afterLetter) w := by
  induction v generalizing afterLetter with
  | nil => rfl
  | cons c cs ih =>
    rw [List.cons_append, titleAfter_cons, ih, titleAfter_cons _ c cs, List.append_assoc]
    rfl

/-- Parts of a word with capitals come from parts of the word. -/
theorem titleAfter_eq_append_iff :
    titleAfter afterLetter w = front ++ back ↔ ∃ v t, w = v ++ t ∧
      titleAfter afterLetter v = front ∧ titleAfter (v.endsInLetter afterLetter) t = back := by
  constructor
  · intro h
    have hlength : w.length = front.length + back.length := by
      rw [← length_titleAfter afterLetter w, h, List.length_append]
    refine ⟨w.take front.length, w.drop front.length, (List.take_append_drop _ _).symm, ?_⟩
    rw [← List.take_append_drop front.length w, titleAfter_append] at h
    refine List.append_inj h ?_
    rw [length_titleAfter, List.length_take]
    omega
  · rintro ⟨v, t, rfl, rfl, rfl⟩
    exact titleAfter_append afterLetter v t

/-- **A word is its capitals in lower case.** -/
theorem map_toLower_titleAfter (hw : ∀ c ∈ w, c.toLower = c) (afterLetter : Bool) :
    (titleAfter afterLetter w).map Char.toLower = w := by
  fun_induction titleAfter afterLetter w with
  | case1 => rfl
  | case2 afterLetter c cs hc ih =>
    obtain ⟨hlower, hcs⟩ := List.forall_mem_cons.1 hw
    rw [List.map_cons, ih hcs]
    cases afterLetter <;> simp [hlower]
  | case3 afterLetter c cs hc ih =>
    obtain ⟨hlower, hcs⟩ := List.forall_mem_cons.1 hw
    rw [List.map_cons, ih hcs, hlower]

theorem endsInLetter_concat (afterLetter : Bool) (w : Word) (c : Char) :
    endsInLetter afterLetter (w ++ [c]) = c.isAlpha := by
  induction w generalizing afterLetter with
  | nil => rfl
  | cons d ds ih => exact ih d.isAlpha

/-- What does not end in a letter is nothing, or its last character is none. -/
theorem endsInLetter_eq_false_iff :
    w.endsInLetter false = false ↔ w = [] ∨ ∃ v c, c.isAlpha = false ∧ w = v ++ [c] := by
  rcases List.eq_nil_or_concat' w with rfl | ⟨v, c, rfl⟩
  · exact iff_of_true rfl (.inl rfl)
  · rw [endsInLetter_concat]
    constructor
    · exact fun hc => .inr ⟨v, c, hc, rfl⟩
    · rintro (hnil | ⟨v', c', hc, heq⟩)
      · exact absurd hnil (by simp)
      · obtain ⟨-, hlast⟩ := List.append_inj' heq rfl
        rwa [List.singleton_inj.1 hlast]

/-- The word that a record is marked with. -/
def info : Word := ['i', 'n', 'f', 'o']

/-- The mark is the word `info` where no letter stands before it. -/
theorem titleAfter_eq_infoEnd_iff (hw : ∀ c ∈ w, c.toLower = c) :
    titleAfter afterLetter w = Policy.infoEnd ↔ afterLetter = false ∧ w = info := by
  constructor
  · intro h
    have hinfo : w = info := by
      rw [← map_toLower_titleAfter hw afterLetter, h]
      decide
    subst hinfo
    cases afterLetter with
    | false => exact ⟨rfl, rfl⟩
    | true => exact absurd h (by decide)
  · rintro ⟨rfl, rfl⟩
    decide

/-- **Which words end with the mark** once they have capitals: `info`, and those that end in it
behind a character that is no letter. -/
theorem infoEnd_suffix_title_iff (hw : ∀ c ∈ w, c.toLower = c) :
    Policy.infoEnd <:+ w.title ↔
      w = info ∨ ∃ front c, c.isAlpha = false ∧ w = front ++ c :: info := by
  have hparts : Policy.infoEnd <:+ w.title ↔
      ∃ v, w = v ++ info ∧ v.endsInLetter false = false := by
    constructor
    · rintro ⟨front, hfront⟩
      obtain ⟨v, t, rfl, -, hmark⟩ := titleAfter_eq_append_iff.1 hfront.symm
      have ht : ∀ c ∈ t, c.toLower = c := fun c hc => hw c (List.mem_append_right v hc)
      obtain ⟨hends, rfl⟩ := (titleAfter_eq_infoEnd_iff ht).1 hmark
      exact ⟨v, rfl, hends⟩
    · rintro ⟨v, rfl, hends⟩
      rw [title, titleAfter_append, hends]
      exact List.suffix_append _ _
  rw [hparts]
  constructor
  · rintro ⟨v, rfl, hends⟩
    obtain rfl | ⟨front, c, hc, rfl⟩ := endsInLetter_eq_false_iff.1 hends
    · exact .inl rfl
    · exact .inr ⟨front, c, hc, by rw [List.append_assoc, List.singleton_append]⟩
  · rintro (rfl | ⟨front, c, hc, rfl⟩)
    · exact ⟨[], rfl, rfl⟩
    · exact ⟨front ++ [c], by rw [List.append_assoc, List.singleton_append],
        (endsInLetter_concat false front c).trans hc⟩

end Word

namespace Name

variable {name : Name}

/-- The mark at the end of a type is one at the end of the last word. -/
theorem isInfoType_iff_title (h : name.Made) : Policy.isInfoType name.typeIdent = true ↔
    ∃ w, name.words.getLast? = some w ∧ Policy.infoEnd <:+ w.title := by
  have htype : Policy.isInfoType name.typeIdent = true ↔
      Policy.infoEnd <:+ name.words.flatMap Word.title := by
    rw [Policy.isInfoType, List.isSuffixOf_iff_suffix, typeIdent, camel, String.toList_ofList]
  rw [htype]
  rcases List.eq_nil_or_concat' name.words with hnil | ⟨us, w, hwords⟩
  · rw [hnil]
    decide
  · have hw : ∀ v ∈ [w], v ≠ [] := fun v hv =>
      (h.normal v (hwords ▸ List.mem_append_right us hv)).ne_nil
    rw [hwords, infoEnd_suffix_iff us (List.cons_ne_nil w []) hw]
    simp

/-- **Which names mark a record.** The type that is named carries the mark at its end exactly if the
name has a last word and this is `info`, or ends in it behind a character that is no letter of
ASCII. Letters of two words never make up the mark: whatever words are before the last one, the mark
stands at the end of the type exactly if it stands at the end of the last word with its capitals. -/
theorem isInfoType_iff (h : name.Made) :
    (Policy.isInfoType name.typeIdent = true ↔
      ∃ w, name.words.getLast? = some w ∧
        (w = Word.info ∨ ∃ front c, c.isAlpha = false ∧ w = front ++ c :: Word.info)) ∧
      ∀ us w, name.words = us ++ [w] →
        (Policy.isInfoType name.typeIdent = true ↔ Policy.infoEnd <:+ w.title) := by
  rw [isInfoType_iff_title h]
  refine ⟨exists_congr fun w => and_congr_right fun hlast => ?_, fun us w hwords => ?_⟩
  · exact Word.infoEnd_suffix_title_iff (h.normal w (List.mem_of_getLast? hlast)).lower
  · rw [hwords, List.getLast?_append_cons]
    simp

/-- A letter of another script does not hide the mark, a letter of ASCII does, and the end of a
prefix is no part of it. -/
theorem isInfoType_iff_parted :
    (withPrefix "ti" "create_éinfo").Made ∧ (withPrefix "ti" "create_einfo").Made ∧
      (withPrefix "my_i" "nfo").Made ∧
      Policy.isInfoType (withPrefix "ti" "create_éinfo").typeIdent = true ∧
      Policy.isInfoType (withPrefix "ti" "create_einfo").typeIdent ≠ true ∧
      Policy.isInfoType (withPrefix "my_i" "nfo").typeIdent ≠ true := by
  have hparted := Made.withPrefix "ti" "create_éinfo"
  have hletter := Made.withPrefix "ti" "create_einfo"
  have hlead := Made.withPrefix "my_i" "nfo"
  have hletterWords : (withPrefix "ti" "create_einfo").words =
      [['t', 'i'], ['c', 'r', 'e', 'a', 't', 'e']] ++ ['e' :: Word.info] := by
    decide
  have hleadWords : (withPrefix "my_i" "nfo").words = [['m', 'y'], ['i']] ++ [['n', 'f', 'o']] := by
    decide
  refine ⟨hparted, hletter, hlead, ?_, fun hinfo => ?_, fun hinfo => ?_⟩
  · exact (isInfoType_iff hparted).1.2
      ⟨'é' :: Word.info, by decide, .inr ⟨[], 'é', by decide, rfl⟩⟩
  · exact absurd (((isInfoType_iff hletter).2 _ _ hletterWords).1 hinfo) (by decide)
  · exact absurd (((isInfoType_iff hlead).2 _ _ hleadWords).1 hinfo) (by decide)

end Name

end Bindery

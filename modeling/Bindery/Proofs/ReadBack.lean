import Bindery.Proofs.Initials

/-!
# Reading names back

Every name is a sequence of words in lower case, whatever texts it comes from and however it was
changed. Spelled with underscores, in either case, it can be read back, so that two names with one
spelling have the same words.

* `Name.Made.lead_le`: the prefix of a name is a part of it.
* `Name.snake_eq_iff`, `Name.screaming_eq_iff`: **names are spelled the same exactly if their words
  are the same**.
* `made_reads_back`: all that holds of every name.
-/

namespace Bindery

/-- A normal word has no capital of ASCII in it. -/
theorem Word.Normal.isUpper_eq_false {w : Word} (h : w.Normal) {c : Char} (hc : c ∈ w) :
    c.isUpper = false :=
  (isUpper_title (h.lower c hc)).1

namespace Name

variable {name other : Name}

/-- **The prefix of a name is a part of it**, and stays one whatever is done to the name. -/
theorem Made.lead_le (h : name.Made) : name.lead ≤ name.words.length := by
  induction h with
  | new text => exact Nat.zero_le _
  | withPrefix lead text =>
    rw [Name.withPrefix, List.length_append]
    exact Nat.le_add_right _ _
  | extend _ text ih =>
    rw [Name.extend, List.length_append]
    exact ih.trans (Nat.le_add_right _ _)
  | withoutPrefix _ _ =>
    unfold Name.withoutPrefix
    split
    · exact Nat.zero_le _
    · exact Nat.zero_le _

/-- **Lower case with underscores can be read back.** -/
theorem new_snake (h : name.Made) : new name.snake = ⟨name.words, 0⟩ := by
  rw [new, ofText_snake h.normal]

/-- **Upper case with underscores can be read back.** -/
theorem new_screaming (h : name.Made) : new name.screaming = ⟨name.words, 0⟩ := by
  rw [new, ofText_screaming h.normal]

/-- **Lower case with underscores tells names with different words apart.** -/
theorem snake_eq_iff (h : name.Made) (h' : other.Made) :
    name.snake = other.snake ↔ name.words = other.words := by
  constructor
  · intro heq
    rw [← ofText_snake h.normal, heq, ofText_snake h'.normal]
  · intro heq
    rw [snake, snake, heq]

/-- **Upper case with underscores tells names with different words apart.** -/
theorem screaming_eq_iff (h : name.Made) (h' : other.Made) :
    name.screaming = other.screaming ↔ name.words = other.words := by
  constructor
  · intro heq
    rw [← ofText_screaming h.normal, heq, ofText_screaming h'.normal]
  · intro heq
    rw [screaming, screaming, heq]

/-- **What every name is like.** A name is made of a text, with or without a prefix, and changed any
number of times by adding words and by leaving out the prefix. Its words are not empty and have
neither underscores nor capitals of ASCII, and the prefix is a part of it. Spelled with underscores,
in lower or in upper case, it is read back with the same words, so that names are spelled the same
exactly if their words are. What is displayed is the name without its prefix if there are words
behind it; of a name of prefix words alone nothing is displayed, although it keeps them. -/
theorem made_reads_back (h : name.Made) :
    (∀ w ∈ name.words, w ≠ [] ∧ '_' ∉ w ∧ ∀ c ∈ w, c.isUpper = false) ∧
      name.lead ≤ name.words.length ∧
      new name.snake = ⟨name.words, 0⟩ ∧ new name.screaming = ⟨name.words, 0⟩ ∧
      (∀ other : Name, other.Made →
        (name.snake = other.snake ↔ name.words = other.words) ∧
          (name.screaming = other.screaming ↔ name.words = other.words)) ∧
      (name.lead < name.words.length → name.display = name.withoutPrefix.snake) ∧
      (name.lead = name.words.length →
        name.display = "" ∧ name.withoutPrefix.words = name.words) := by
  refine ⟨fun w hw => ?_, h.lead_le, new_snake h, new_screaming h, fun other hother => ?_,
    display_eq_snake, fun hall => ?_⟩
  · have hnormal := h.normal w hw
    exact ⟨hnormal.ne_nil, hnormal.whole, fun c hc => hnormal.isUpper_eq_false hc⟩
  · exact ⟨snake_eq_iff h hother, screaming_eq_iff h hother⟩
  · exact ⟨display_eq_empty hall.ge, words_withoutPrefix_of_le hall.ge⟩

/-- A name with a prefix of two words, capitals and needless underscores. -/
def messyName : Name :=
  (withPrefix "_My_LIB" "Größe__2D").extend "Ext_"

/-- The messy name is read back from both spellings, and differs from the one without a prefix. -/
theorem made_reads_back_messy : messyName.Made ∧ messyName.snake = "my_lib_größe_2d_ext" ∧
    messyName.screaming = "MY_LIB_GRößE_2D_EXT" ∧
    new "my_lib_größe_2d_ext" = ⟨messyName.words, 0⟩ ∧
    new "MY_LIB_GRößE_2D_EXT" = ⟨messyName.words, 0⟩ ∧
    messyName.snake ≠ messyName.withoutPrefix.snake ∧ messyName.display = "größe_2d_ext" := by
  have hmade : messyName.Made := .extend (.withPrefix _ _) _
  have hsnake : messyName.snake = "my_lib_größe_2d_ext" := by decide
  have hscreaming : messyName.screaming = "MY_LIB_GRößE_2D_EXT" := by decide
  obtain ⟨-, -, hread, hread', hsame, hdisplay, -⟩ := made_reads_back hmade
  refine ⟨hmade, hsnake, hscreaming, hsnake ▸ hread, hscreaming ▸ hread', fun heq => ?_, ?_⟩
  · exact absurd ((hsame _ hmade.withoutPrefix).1.1 heq) (by decide)
  · rw [hdisplay (by decide)]
    decide

end Name

end Bindery

import Bindery.Binding.Ident

/-!
# Casings of one name

The casings of a name write the same characters up to the case of ASCII letters.

* `ascii_cases`: a property of ASCII characters, checked one by one.
* `toList_screaming`: upper case is lower case with every letter raised.
* `startsWithDigit_screaming`: no casing makes a name begin with a digit.
* `CasingClass`, `Name.Within`: a class of characters that changes of case do not leave, and the
  names that are spelled with it.
* `Name.Within.snake`, `Name.Within.screaming`, `Name.Within.camel`, `Name.Within.display`: **every
  casing of such a name is spelled with the class**.
-/

namespace Bindery

/-- A property of all ASCII characters follows from the 128 cases. -/
theorem ascii_cases {P : Char → Prop} (h : ∀ n : Fin 128, P (Char.ofNat n)) {c : Char}
    (hc : c.toNat < 128) : P c := by
  have := h ⟨c.toNat, hc⟩
  rwa [Char.ofNat_toNat] at this

theorem toUpper_of_not_ascii {c : Char} (hc : ¬ c.toNat < 128) : c.toUpper = c := by
  refine dif_neg fun h => hc ?_
  have hz : c.val.toNat ≤ 122 := h.2
  show c.val.toNat < 128
  omega

theorem toLower_of_not_ascii {c : Char} (hc : ¬ c.toNat < 128) : c.toLower = c := by
  refine dif_neg fun h => hc ?_
  have hz : c.val.toNat ≤ 90 := h.2
  show c.val.toNat < 128
  omega

theorem isDigit_toUpper (c : Char) : c.toUpper.isDigit = c.isDigit := by
  by_cases hc : c.toNat < 128
  · exact ascii_cases (P := fun c => c.toUpper.isDigit = c.isDigit) (by decide) hc
  · rw [toUpper_of_not_ascii hc]

theorem isDigit_toLower (c : Char) : c.toLower.isDigit = c.isDigit := by
  by_cases hc : c.toNat < 128
  · exact ascii_cases (P := fun c => c.toLower.isDigit = c.isDigit) (by decide) hc
  · rw [toLower_of_not_ascii hc]

/-- Changing characters and joining texts can be exchanged if the separator stays. -/
theorem joined_map {f : Char → Char} {sep : List Char} (hs : sep.map f = sep)
    (ts : List (List Char)) :
    Text.joined sep (ts.map (·.map f)) = (Text.joined sep ts).map f := by
  induction ts with
  | nil => rfl
  | cons t ts ih =>
    cases ts with
    | nil => rfl
    | cons u us =>
      rw [List.map_cons, List.map_cons, Text.joined_cons_cons, Text.joined_cons_cons,
        List.map_append, List.map_append, hs, ← ih, List.map_cons]

namespace Name

theorem toList_snake (name : Name) : name.snake.toList = Text.joined ['_'] name.words := by
  unfold snake
  rw [String.toList_ofList]

theorem toList_screaming (name : Name) :
    name.screaming.toList = name.snake.toList.map Char.toUpper := by
  unfold screaming
  rw [String.toList_ofList, joined_map (by decide), toList_snake]

end Name

/-- **No casing makes a name begin with a digit.** -/
theorem startsWithDigit_screaming (name : Name) :
    startsWithDigit name.screaming = startsWithDigit name.snake := by
  unfold startsWithDigit
  rw [Name.toList_screaming]
  cases name.snake.toList with
  | nil => rfl
  | cons c cs => exact isDigit_toUpper c

/-- **A class of characters that casings do not leave.** Letters, digits and the underscore belong
to it. -/
structure CasingClass (P : Char → Prop) : Prop where
  upper : ∀ c, P c → P c.toUpper
  lower : ∀ c, P c → P c.toLower
  alphanum : ∀ c, c.isAlphanum = true → P c
  underscore : P '_'

variable {P : Char → Prop}

/-- The words of a text are spelled with its characters in lower case. -/
theorem CasingClass.ofText (hP : CasingClass P) {text : String} (h : ∀ c ∈ text.toList, P c) :
    ∀ w ∈ Word.ofText text, ∀ c ∈ w, P c := by
  intro w hw c hc
  obtain ⟨p, hp, rfl⟩ := List.mem_map.1 hw
  obtain ⟨d, hd, rfl⟩ := List.mem_map.1 hc
  exact hP.lower d (h d (Text.mem_of_mem_pieces (List.mem_filter.1 hp).1 hd))

theorem CasingClass.titleAfter (hP : CasingClass P) {w : Word} (h : ∀ c ∈ w, P c)
    (afterLetter : Bool) : ∀ c ∈ Word.titleAfter afterLetter w, P c := by
  fun_induction Word.titleAfter afterLetter w with
  | case1 afterLetter => simp
  | case2 afterLetter c cs hc ih =>
    have hhead := h c (by simp)
    refine List.forall_mem_cons.2 ⟨?_, ih fun d hd => h d (List.mem_cons_of_mem _ hd)⟩
    split
    · exact hP.lower c hhead
    · exact hP.upper c hhead
  | case3 afterLetter c cs hc ih =>
    exact List.forall_mem_cons.2 ⟨h c (by simp), ih fun d hd => h d (List.mem_cons_of_mem _ hd)⟩

namespace Name

/-- A name whose words are spelled with characters of a class. -/
def Within (P : Char → Prop) (name : Name) : Prop :=
  ∀ w ∈ name.words, ∀ c ∈ w, P c

namespace Within

variable {name : Name}

theorem mono {Q : Char → Prop} (h : name.Within P) (hPQ : ∀ c, P c → Q c) : name.Within Q :=
  fun w hw c hc => hPQ c (h w hw c hc)

theorem extend (hP : CasingClass P) (h : name.Within P) {text : String}
    (ht : ∀ c ∈ text.toList, P c) : (name.extend text).Within P := by
  intro w hw
  rcases List.mem_append.1 hw with hw | hw
  · exact h w hw
  · exact hP.ofText ht w hw

/-- The characters of words joined by underscores. -/
theorem joined (hP : CasingClass P) {words : List Word} (h : ∀ w ∈ words, ∀ c ∈ w, P c) :
    ∀ c ∈ Text.joined ['_'] words, P c := by
  intro c hc
  rcases Text.mem_joined hc with hc | ⟨w, hw, hc⟩
  · rw [List.mem_singleton.1 hc]
    exact hP.underscore
  · exact h w hw c hc

theorem snake (hP : CasingClass P) (h : name.Within P) : ∀ c ∈ name.snake.toList, P c := by
  rw [toList_snake]
  exact joined hP h

theorem screaming (hP : CasingClass P) (h : name.Within P) :
    ∀ c ∈ name.screaming.toList, P c := by
  intro c hc
  rw [toList_screaming] at hc
  obtain ⟨d, hd, rfl⟩ := List.mem_map.1 hc
  exact hP.upper d (h.snake hP d hd)

theorem camel (hP : CasingClass P) (h : name.Within P) : ∀ c ∈ name.camel.toList, P c := by
  intro c hc
  rw [Name.camel, String.toList_ofList] at hc
  obtain ⟨w, hw, hc⟩ := List.mem_flatMap.1 hc
  exact hP.titleAfter (h w hw) false c hc

theorem display (hP : CasingClass P) (h : name.Within P) : ∀ c ∈ name.display.toList, P c := by
  rw [Name.display, String.toList_ofList]
  exact joined hP fun w hw => h w (List.mem_of_mem_drop hw)

end Within

/-- A name is spelled with a class exactly if its lower-case form is. -/
theorem within_iff_snake (hP : CasingClass P) {name : Name} :
    name.Within P ↔ ∀ c ∈ name.snake.toList, P c := by
  refine ⟨fun h => h.snake hP, fun h w hw c hc => h c ?_⟩
  rw [toList_snake]
  exact Text.mem_joined_of_mem hw hc

end Name

end Bindery

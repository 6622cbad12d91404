import Bindery.Proofs.Marker.Resolution

/-!
# Texts on one line

Where the names of an interface have no line feeds, resolving the references of a line adds none.

* `OneLine`: a text without line feeds.
* `Registry.OneLineNames`: the names of an interface have none.
* `newline_notMem_lowercase`: the full lower case of a text has none that the text has not.
* `mem_resolveMarkers`: where the characters of a resolved line come from.
* `oneLine_heading`, `oneLine_resolveLine`: **headings and resolved lines stay on one line**.
-/

namespace Bindery

open Text

/-- A text without line feeds. -/
def OneLine (text : String) : Prop :=
  '\n' ∉ text.toList

instance (text : String) : Decidable (OneLine text) :=
  inferInstanceAs (Decidable (¬ _))

@[simp] theorem oneLine_append {a b : String} : OneLine (a ++ b) ↔ OneLine a ∧ OneLine b := by
  unfold OneLine
  rw [String.toList_append, List.mem_append, not_or]

/-- **An interface whose names have no line feeds**, those of members included. -/
def Registry.OneLineNames (r : Registry) : Prop :=
  ∀ e ∈ r.entries, ∀ n ∈ e.names, OneLine n.snake

instance (r : Registry) : Decidable r.OneLineNames :=
  inferInstanceAs (Decidable (∀ e ∈ r.entries, ∀ n ∈ e.names, OneLine n.snake))

theorem casingClass_notNewline : CasingClass fun c => c ≠ '\n' where
  upper c h := by
    by_cases hc : c.toNat < 128
    · exact ascii_cases (P := fun c => c ≠ '\n' → c.toUpper ≠ '\n') (by decide) hc h
    · rwa [toUpper_of_not_ascii hc]
  lower c h := by
    by_cases hc : c.toNat < 128
    · exact ascii_cases (P := fun c => c ≠ '\n' → c.toLower ≠ '\n') (by decide) hc h
    · rwa [toLower_of_not_ascii hc]
  alphanum _ h := by
    rintro rfl
    revert h
    decide
  underscore := by decide

theorem oneLine_iff {text : String} : OneLine text ↔ ∀ c ∈ text.toList, c ≠ '\n' :=
  ⟨fun h _ hc hn => h (hn ▸ hc), fun h hmem => h _ hmem rfl⟩

theorem within_of_oneLine {name : Name} (h : OneLine name.snake) :
    name.Within fun c => c ≠ '\n' :=
  (Name.within_iff_snake casingClass_notNewline).2 (oneLine_iff.1 h)

theorem oneLine_display {name : Name} (h : OneLine name.snake) : OneLine name.display :=
  oneLine_iff.2 ((within_of_oneLine h).display casingClass_notNewline)

theorem newline_notMem_lowerChar {c : Char} (h : c ≠ '\n') : '\n' ∉ lowerChar c := by
  -- no run of the table reaches down to the line feed
  have htable : ∀ r ∈ lowerRuns, 10 < (r.first : Int) + r.shift := by
    decide +kernel
  unfold lowerChar
  split
  · rw [List.mem_singleton]
    exact (casingClass_notNewline.lower c h).symm
  · split
    · decide
    · split
      · rename_i r hr
        have hlow := htable r (List.mem_of_find?_eq_some hr)
        have hcovers := List.find?_some hr
        simp only [CaseRun.covers, Bool.and_eq_true, decide_eq_true_eq] at hcovers
        intro hmem
        have hnat : 10 = (Char.ofNat (c.toNat + r.shift).toNat).toNat :=
          congrArg Char.toNat (List.mem_singleton.1 hmem)
        rw [Char.toNat_ofNat] at hnat
        split at hnat <;> omega
      · rw [List.mem_singleton]
        exact h.symm

/-- **Lower case puts in no line feed.** -/
theorem newline_notMem_lowercase {cs : List Char} (h : '\n' ∉ cs) : '\n' ∉ lowercase cs := by
  suffices hall : ∀ before, '\n' ∉ lowercaseAfter before cs from hall []
  induction cs with
  | nil => exact fun _ => List.not_mem_nil
  | cons c cs ih =>
    intro before
    rw [List.mem_cons, not_or] at h
    rw [lowercaseAfter, List.mem_append, not_or]
    refine ⟨?_, ih h.2 _⟩
    split
    · split <;> decide
    · exact newline_notMem_lowerChar (Ne.symm h.1)

theorem oneLine_anchor {heading : String} (h : OneLine heading) : OneLine (anchor heading) := by
  unfold OneLine anchor
  rw [String.toList_ofList, List.mem_cons, not_or]
  refine ⟨by decide, fun hmem => ?_⟩
  obtain ⟨c, hc, hnew⟩ := List.mem_map.1 (List.mem_filter.1 hmem).1
  split at hnew
  · exact absurd hnew (by decide)
  · exact newline_notMem_lowercase h (hnew ▸ hc)

variable {e : Entry}

theorem oneLine_declaredIdent (he : ∀ n ∈ e.names, OneLine n.snake) {ident : String}
    (h : e.declaredIdent = .ok ident) : OneLine ident :=
  oneLine_iff.2 (within_declaredIdent casingClass_notNewline
    (fun n hn => within_of_oneLine (he n hn)) h)

theorem oneLine_memberIdent? (he : ∀ n ∈ e.names, OneLine n.snake) {member ident : String}
    (h : e.memberIdent? member = some ident) : OneLine ident :=
  oneLine_iff.2 (within_memberIdent? casingClass_notNewline (by decide)
    (fun n hn => within_of_oneLine (he n hn)) h)

/-- The heading of an entry is one line if its name is. -/
theorem oneLine_heading (he : ∀ n ∈ e.names, OneLine n.snake) {heading : String}
    (h : e.heading = .ok heading) : OneLine heading := by
  unfold Entry.heading at h
  rcases hident : e.declaredIdent with err | ident
  · simp [hident, Except.map] at h
  · rw [hident] at h
    obtain rfl := Except.ok.inj h
    have htitle : OneLine e.kind.title := by
      cases e.kind <;> decide
    have hmark : OneLine (if e.isDeviceCommand then deviceCommandMark else "") := by
      cases e.isDeviceCommand <;> decide
    simp only [oneLine_append]
    exact ⟨⟨⟨⟨htitle, by decide⟩, oneLine_declaredIdent he hident⟩, by decide⟩, hmark⟩

/-- What an entry is shown as, whole or by a member. -/
theorem oneLine_reference? (he : ∀ n ∈ e.names, OneLine n.snake) {member : Option String}
    {shown : Reference} (h : e.reference? member = some shown) : OneLine shown.markdown := by
  cases member with
  | some member =>
    obtain ⟨ident, hident, rfl⟩ := Option.map_eq_some_iff.1 h
    simp only [Reference.markdown, Reference.link?, Reference.name, oneLine_append]
    exact ⟨⟨by decide, oneLine_memberIdent? he hident⟩, by decide⟩
  | none =>
    simp only [Entry.reference?] at h
    split at h
    · rename_i ident heading hident hheading
      obtain rfl := Option.some.inj h
      simp only [Reference.markdown, Reference.link?, Reference.name, oneLine_append]
      exact ⟨⟨⟨⟨by decide, oneLine_declaredIdent he hident⟩, by decide⟩,
        oneLine_anchor (oneLine_heading he hheading)⟩, by decide⟩
    · cases h

namespace Text

theorem mem_replaceAfter {pattern new cs : List Char} {skip : ℕ} {c : Char}
    (h : c ∈ replaceAfter pattern new skip cs) : c ∈ new ∨ c ∈ cs := by
  fun_induction replaceAfter pattern new skip cs with
  | case1 skip => exact Or.inr h
  | case2 skip d cs ih => exact (ih h).imp_right (List.mem_cons_of_mem d)
  | case3 d cs hprefix ih =>
    rcases List.mem_append.1 h with h | h
    · exact Or.inl h
    · exact (ih h).imp_right (List.mem_cons_of_mem d)
  | case4 d cs hprefix ih =>
    rcases List.mem_cons.1 h with rfl | h
    · exact Or.inr (.head _)
    · exact (ih h).imp_right (List.mem_cons_of_mem d)

/-- **The characters of a resolved line** come from the line, or from what one of its symbols is
replaced by. -/
theorem mem_resolveMarkers {replacement : List Char → List Char} {line : List Char} {c : Char}
    (h : c ∈ resolveMarkers replacement line) :
    c ∈ line ∨ ∃ s ∈ symbolsOf line, c ∈ replacement s := by
  have hrounds : ∀ (symbols : List (List Char)) (text : List Char),
      c ∈ symbols.foldl (fun text s => replaceAll (marker s) (replacement s) text) text →
        c ∈ text ∨ ∃ s ∈ symbols, c ∈ replacement s := by
    intro symbols
    induction symbols with
    | nil => exact fun _ h => Or.inl h
    | cons s symbols ih =>
      intro text h
      rcases ih _ h with h | ⟨u, hu, hc⟩
      · rcases mem_replaceAfter h with h | h
        · exact Or.inr ⟨s, .head _, h⟩
        · exact Or.inl h
      · exact Or.inr ⟨u, .tail _ hu, hc⟩
  exact hrounds _ _ h

end Text

namespace Registry

variable {r : Registry}

/-- What the symbol of a marker leads to is shown on one line. -/
theorem oneLine_lookUp (hr : r.OneLineNames) {s : List Char} (hs : IsSymbol s) :
    OneLine (r.lookUp (String.ofList s)).markdown := by
  rcases r.lookUp_cases (String.ofList s) with h | ⟨-, e, he, member, href⟩
  · rw [h]
    have hword : isWordChar '\n' = false := by
      rw [isWordChar_of_ascii (by decide)]
      decide
    have hsymbol : OneLine (String.ofList s) := by
      unfold OneLine
      rw [String.toList_ofList]
      exact hs.notMem hword (by decide)
    simp only [Reference.markdown, Reference.link?, Reference.name, oneLine_append]
    exact ⟨⟨by decide, hsymbol⟩, by decide⟩
  · exact oneLine_reference? (hr e he) href

/-- **A resolved line stays on one line.** -/
theorem oneLine_resolveLine (hr : r.OneLineNames) {line : String} (h : OneLine line) :
    OneLine (r.resolveLine line) := by
  unfold OneLine resolveLine
  rw [String.toList_ofList]
  intro hmem
  rcases mem_resolveMarkers hmem with hline | ⟨s, hs, hc⟩
  · exact h hline
  · exact oneLine_lookUp hr (isSymbol_of_mem_segments (Marker.mem_symbolsOf.1 hs)) hc

end Registry

end Bindery

import Mathlib.Data.List.Basic
import Bindery.Proofs.Casing

/-!
# What a casing leaves of the words

Joining words by underscores keeps them apart. Running them together does not: a capital shows where
a word begins only if a letter begins it behind another letter.

* `Word.Normal`: words as names have them; `normal_of_mem_ofText`.
* `ofText_joined`: **words joined by underscores can be read back**, in whatever case they are
  written; `ofText_snake`, `ofText_screaming`, `ofText_display`.
* `Word.fused`: words run together, with an underscore left between two letters.
* `uncamel`, `recamel`: from words with capitals to fused words, and back.
* `flatMap_title_eq_iff`: **words look the same with capitals exactly if they are the same when
  fused**.
-/

namespace Bindery

/-- A word as names have them: not empty, in lower case, without underscores. -/
structure Word.Normal (w : Word) : Prop where
  ne_nil : w ≠ []
  lower : ∀ c ∈ w, c.toLower = c
  whole : '_' ∉ w

theorem toLower_ne_underscore {c : Char} (hc : c ≠ '_') : c.toLower ≠ '_' := by
  by_cases ha : c.toNat < 128
  · exact ascii_cases (P := fun c => c ≠ '_' → c.toLower ≠ '_') (by decide) ha hc
  · rwa [toLower_of_not_ascii ha]

theorem toUpper_ne_underscore {c : Char} (hc : c ≠ '_') : c.toUpper ≠ '_' := by
  by_cases ha : c.toNat < 128
  · exact ascii_cases (P := fun c => c ≠ '_' → c.toUpper ≠ '_') (by decide) ha hc
  · rwa [toUpper_of_not_ascii ha]

theorem toLower_toLower (c : Char) : c.toLower.toLower = c.toLower := by
  by_cases ha : c.toNat < 128
  · exact ascii_cases (P := fun c => c.toLower.toLower = c.toLower) (by decide) ha
  · rw [toLower_of_not_ascii ha, toLower_of_not_ascii ha]

theorem toLower_toUpper (c : Char) : c.toUpper.toLower = c.toLower := by
  by_cases ha : c.toNat < 128
  · exact ascii_cases (P := fun c => c.toUpper.toLower = c.toLower) (by decide) ha
  · rw [toUpper_of_not_ascii ha]

/-- The words of a text are normal. -/
theorem normal_of_mem_ofText {text : String} {w : Word} (h : w ∈ Word.ofText text) : w.Normal := by
  obtain ⟨p, hp, rfl⟩ := List.mem_map.1 h
  obtain ⟨hp, hne⟩ := List.mem_filter.1 hp
  have hwhole := Text.notMem_of_mem_pieces _ p hp
  refine ⟨by simpa using hne, ?_, ?_⟩
  · intro c hc
    obtain ⟨d, -, rfl⟩ := List.mem_map.1 hc
    exact toLower_toLower d
  · intro hc
    obtain ⟨d, hd, heq⟩ := List.mem_map.1 hc
    exact toLower_ne_underscore (fun h => hwhole (h ▸ hd)) heq

/-- **Words joined by underscores can be read back**, in lower case. -/
theorem ofText_joined {ws : List Word} (hne : ∀ w ∈ ws, w ≠ []) (hwhole : ∀ w ∈ ws, '_' ∉ w) :
    Word.ofText (String.ofList (Text.joined ['_'] ws)) = ws.map (·.map Char.toLower) := by
  unfold Word.ofText
  rw [String.toList_ofList]
  rcases ws with _ | ⟨w, ws⟩
  · rfl
  · rw [Text.pieces_joined (List.cons_ne_nil _ _) hwhole,
      List.filter_eq_self.2 (by simpa using hne)]

namespace Name

/-- A name that a text spells, without a prefix. -/
structure Bare (name : Name) : Prop where
  lead : name.lead = 0
  words : ∀ w ∈ name.words, w.Normal

theorem bare_new (text : String) : (Name.new text).Bare :=
  ⟨rfl, fun _ => normal_of_mem_ofText⟩

theorem ofText_screaming {name : Name} (h : ∀ w ∈ name.words, w.Normal) :
    Word.ofText name.screaming = name.words := by
  unfold screaming
  rw [ofText_joined, List.map_map]
  · refine (List.map_congr_left fun w hw => ?_).trans (List.map_id _)
    change (w.map Char.toUpper).map Char.toLower = w
    rw [List.map_map]
    refine (List.map_congr_left fun c hc => ?_).trans (List.map_id _)
    exact (toLower_toUpper c).trans ((h w hw).lower c hc)
  · intro w hw
    obtain ⟨v, hv, rfl⟩ := List.mem_map.1 hw
    simpa using (h v hv).ne_nil
  · intro w hw hc
    obtain ⟨v, hv, rfl⟩ := List.mem_map.1 hw
    obtain ⟨d, hd, heq⟩ := List.mem_map.1 hc
    exact toUpper_ne_underscore (fun h' => (h v hv).whole (h' ▸ hd)) heq

theorem ofText_snake {name : Name} (h : ∀ w ∈ name.words, w.Normal) :
    Word.ofText name.snake = name.words := by
  unfold snake
  rw [ofText_joined (fun w hw => (h w hw).ne_nil) (fun w hw => (h w hw).whole)]
  refine (List.map_congr_left fun w hw => ?_).trans (List.map_id _)
  exact (List.map_congr_left fun c hc => (h w hw).lower c hc).trans (List.map_id _)

theorem ofText_display {name : Name} (h : name.Bare) :
    Word.ofText name.display = name.words := by
  have hdisplay : name.display = name.snake := by
    rw [display, h.lead, List.drop_zero, snake]
  rw [hdisplay, ofText_snake h.words]

theorem Bare.ext {a b : Name} (ha : a.Bare) (hb : b.Bare) (h : a.words = b.words) : a = b := by
  have hlead : a.lead = b.lead := ha.lead.trans hb.lead.symm
  cases a
  cases b
  congr

/-- Names without a prefix are displayed differently. -/
theorem Bare.display_inj {a b : Name} (ha : a.Bare) (hb : b.Bare) :
    a.display = b.display ↔ a = b := by
  refine ⟨fun h => ha.ext hb ?_, fun h => h ▸ rfl⟩
  rw [← ofText_display ha, h, ofText_display hb]

end Name

namespace Word

/-- Whether a word begins with a letter. -/
def startsInLetter : Word → Bool
  | [] => false
  | c :: _ => c.isAlpha

/-- Whether a letter is last once a word has been written. -/
def endsInLetter : Bool → Word → Bool
  | afterLetter, [] => afterLetter
  | _, c :: cs => endsInLetter c.isAlpha cs

/-- **Words run together, with an underscore left between two letters.** -/
def fused : Bool → List Word → List Char
  | _, [] => []
  | afterLetter, w :: ws =>
    (if afterLetter && w.startsInLetter then ['_'] else []) ++ w ++
      fused (endsInLetter afterLetter w) ws

end Word

/-- Fused words from words with capitals: a capital behind a letter begins a word. -/
def uncamel : Bool → List Char → List Char
  | _, [] => []
  | afterLetter, c :: cs =>
    (if afterLetter && c.isUpper then ['_', c.toLower] else [c.toLower]) ++ uncamel c.isAlpha cs

/-- Words with capitals from fused words. -/
def recamel : Bool → List Char → List Char
  | _, [] => []
  | afterLetter, c :: cs =>
    if c = '_' then recamel false cs
    else Word.titleAfter afterLetter [c] ++ recamel c.isAlpha cs

theorem titleAfter_cons (afterLetter : Bool) (c : Char) (cs : List Char) :
    Word.titleAfter afterLetter (c :: cs) =
      Word.titleAfter afterLetter [c] ++ Word.titleAfter c.isAlpha cs := by
  by_cases hc : c.isAlpha <;> simp [Word.titleAfter, hc]

/-- A small letter is raised to a capital, and no other character in lower case is one. -/
theorem isUpper_title {c : Char} (hc : c.toLower = c) :
    c.isUpper = false ∧
      (c.isAlpha = true → c.toUpper.isUpper = true ∧ c.toUpper.isAlpha = true) := by
  by_cases ha : c.toNat < 128
  · exact ascii_cases (P := fun c => c.toLower = c → c.isUpper = false ∧
      (c.isAlpha = true → c.toUpper.isUpper = true ∧ c.toUpper.isAlpha = true)) (by decide) ha hc
  · have halpha : c.isAlpha = false := by
      refine Bool.eq_false_iff.2 fun h => ha ?_
      unfold Char.isAlpha Char.isUpper Char.isLower at h
      simp only [Bool.or_eq_true, Bool.and_eq_true, decide_eq_true_eq, UInt32.le_iff_toNat_le] at h
      have : c.toNat = c.val.toNat := rfl
      have : 'Z'.val.toNat = 90 := rfl
      have : 'z'.val.toNat = 122 := rfl
      omega
    exact ⟨(Bool.or_eq_false_iff.1 halpha).1, by simp [halpha]⟩

/-- A character that was raised behind a letter parts two words. -/
theorem uncamel_title {c : Char} (hc : c.toLower = c) (afterLetter inWord : Bool)
    (rest : List Char) :
    uncamel afterLetter (Word.titleAfter inWord [c] ++ rest) =
      (if afterLetter && !inWord && c.isAlpha then ['_'] else []) ++
        c :: uncamel c.isAlpha rest := by
  obtain ⟨hupper, hletter⟩ := isUpper_title hc
  rcases ha : c.isAlpha with _ | _
  · simp [Word.titleAfter, uncamel, ha, hupper, hc]
  obtain ⟨hu, hal⟩ := hletter ha
  have hback : c.toUpper.toLower = c := (toLower_toUpper c).trans hc
  rcases inWord with _ | _
  · cases afterLetter <;> simp [Word.titleAfter, uncamel, ha, hu, hal, hback]
  · simp [Word.titleAfter, uncamel, ha, hupper, hc]

/-- Inside a word nothing is parted. -/
theorem uncamel_word {w : Word} (hw : ∀ c ∈ w, c.toLower = c) (afterLetter : Bool)
    (rest : List Char) :
    uncamel afterLetter (Word.titleAfter afterLetter w ++ rest) =
      w ++ uncamel (w.endsInLetter afterLetter) rest := by
  induction w generalizing afterLetter with
  | nil => rfl
  | cons c cs ih =>
    obtain ⟨hc, hcs⟩ := List.forall_mem_cons.1 hw
    rw [titleAfter_cons, List.append_assoc, uncamel_title hc, ih hcs]
    simp [Word.endsInLetter]

/-- A word with capitals is parted from a letter before it if it begins with one. -/
theorem uncamel_title_word {w : Word} (hw : ∀ c ∈ w, c.toLower = c) (afterLetter : Bool)
    (rest : List Char) :
    uncamel afterLetter (w.title ++ rest) =
      (if afterLetter && w.startsInLetter then ['_'] else []) ++ w ++
        uncamel (w.endsInLetter afterLetter) rest := by
  unfold Word.title
  rcases w with _ | ⟨c, cs⟩
  · simp [Word.titleAfter, Word.startsInLetter, Word.endsInLetter]
  · obtain ⟨hc, hcs⟩ := List.forall_mem_cons.1 hw
    rw [titleAfter_cons, List.append_assoc, uncamel_title hc, uncamel_word hcs]
    simp [Word.startsInLetter, Word.endsInLetter]

theorem recamel_word {w : Word} (hw : '_' ∉ w) (afterLetter : Bool) (rest : List Char) :
    recamel afterLetter (w ++ rest) =
      Word.titleAfter afterLetter w ++ recamel (w.endsInLetter afterLetter) rest := by
  induction w generalizing afterLetter with
  | nil => rfl
  | cons c cs ih =>
    rw [List.mem_cons, not_or] at hw
    rw [titleAfter_cons, List.cons_append, recamel, if_neg (Ne.symm hw.1), ih hw.2,
      List.append_assoc]
    rfl

/-- What follows an underscore, or no letter, begins with a capital. -/
theorem recamel_parted_word {w : Word} (hw : '_' ∉ w) (afterLetter : Bool) (rest : List Char) :
    recamel afterLetter
        ((if afterLetter && w.startsInLetter then ['_'] else []) ++ w ++ rest) =
      w.title ++ recamel (w.endsInLetter afterLetter) rest := by
  unfold Word.title
  rcases w with _ | ⟨c, cs⟩
  · simp [Word.titleAfter, Word.startsInLetter, Word.endsInLetter]
  rcases hparted : afterLetter && Word.startsInLetter (c :: cs) with _ | _
  · -- either no letter stands before the word, or none begins it
    have hfirst : Word.titleAfter afterLetter (c :: cs) = Word.titleAfter false (c :: cs) := by
      rcases Bool.and_eq_false_iff.1 hparted with rfl | hc
      · rfl
      · have hc : c.isAlpha = false := hc
        simp [Word.titleAfter, hc]
    simp only [Bool.false_eq_true, if_false, List.nil_append]
    rw [recamel_word hw, hfirst]
  · have hskip : ∀ cs, recamel afterLetter ('_' :: cs) = recamel false cs := fun _ => by
      simp [recamel]
    rw [if_pos rfl, List.append_assoc, List.singleton_append, hskip, recamel_word hw]
    rfl

variable {ws vs : List Word}

theorem uncamel_flatMap_title (hw : ∀ w ∈ ws, w.Normal) (afterLetter : Bool) :
    uncamel afterLetter (ws.flatMap Word.title) = Word.fused afterLetter ws := by
  induction ws generalizing afterLetter with
  | nil => rfl
  | cons w ws ih =>
    obtain ⟨hw, hws⟩ := List.forall_mem_cons.1 hw
    rw [List.flatMap_cons, uncamel_title_word hw.lower, ih hws]
    rfl

theorem recamel_fused (hw : ∀ w ∈ ws, w.Normal) (afterLetter : Bool) :
    recamel afterLetter (Word.fused afterLetter ws) = ws.flatMap Word.title := by
  induction ws generalizing afterLetter with
  | nil => rfl
  | cons w ws ih =>
    obtain ⟨hw, hws⟩ := List.forall_mem_cons.1 hw
    rw [List.flatMap_cons, Word.fused, recamel_parted_word hw.whole, ih hws]

/-- **Words look the same with capitals exactly if they are the same when fused.** -/
theorem flatMap_title_eq_iff (hw : ∀ w ∈ ws, w.Normal) (hv : ∀ v ∈ vs, v.Normal) :
    ws.flatMap Word.title = vs.flatMap Word.title ↔ Word.fused false ws = Word.fused false vs := by
  constructor
  · intro h
    rw [← uncamel_flatMap_title hw, h, uncamel_flatMap_title hv]
  · intro h
    rw [← recamel_fused hw false, h, recamel_fused hv]

/-- Behind a digit an underscore is lost. -/
example : Word.fused false [['a', '1'], ['b']] = Word.fused false [['a', '1', 'b']] := rfl

theorem endsInLetter_of_letters {w : Word} (hne : w ≠ []) (hw : ∀ c ∈ w, c.isAlpha = true)
    (afterLetter : Bool) : w.endsInLetter afterLetter = true := by
  induction w generalizing afterLetter with
  | nil => exact absurd rfl hne
  | cons c cs ih =>
    obtain ⟨hc, hcs⟩ := List.forall_mem_cons.1 hw
    rcases cs with _ | ⟨d, ds⟩
    · exact hc
    · exact ih (List.cons_ne_nil _ _) hcs c.isAlpha

/-- Words of letters keep all their underscores. -/
theorem fused_of_letters (hne : ∀ w ∈ ws, w ≠ []) (hletters : ∀ w ∈ ws, ∀ c ∈ w, c.isAlpha = true) :
    Word.fused false ws = Text.joined ['_'] ws := by
  induction ws with
  | nil => rfl
  | cons w ws ih =>
    obtain ⟨hw, hws⟩ := List.forall_mem_cons.1 hne
    obtain ⟨hwl, hwsl⟩ := List.forall_mem_cons.1 hletters
    rcases ws with _ | ⟨v, vs⟩
    · simp [Word.fused, Text.joined]
    -- the next word begins with a letter, so that the underscore before it stays
    obtain ⟨c, cs, rfl⟩ := List.exists_cons_of_ne_nil (hws v (.head _))
    have hc : c.isAlpha = true := hwsl _ (.head _) c (.head _)
    rw [Text.joined_cons_cons, ← ih hws hwsl, Word.fused, endsInLetter_of_letters hw hwl]
    simp [Word.fused, Word.startsInLetter, Word.endsInLetter, hc]

end Bindery

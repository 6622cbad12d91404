import Bindery.Proofs.ShortNames

/-!
# Names of handles

A handle has no short name, and a name of a handle has none either. What counts as a name of a
handle is decided by the target of an alias alone; what that target is another name for is not
looked at.

* `Registry.HandleBehind`: the entries that lead to a handle, with the number of aliases on the way.
* `failures_of_handleBehind`: such an entry can always be declared.
* `shortens_iff_of_handleBehind`, `declare_changes_iff`: **it gets a short name exactly if there is
  more than one alias on the way**; `alias_chain_shortened`: one that does.
-/

namespace Bindery

/-- **The entries that lead to a handle** behind a number of aliases. -/
inductive Registry.HandleBehind (r : Registry) : Nat → Entry → Prop
  | handle (id : String) (name : Name) : HandleBehind r 0 (.declared id name .handle)
  | another {n : Nat} {target : String} {t : Entry} (id : String) (name : Name)
    (found : r.find? target = some t) (rest : HandleBehind r n t) :
    HandleBehind r (n + 1) (.declared id name (.typeAlias target))

variable {r : Registry} {s : Setting} {n : Nat} {e : Entry}

theorem isHandle_iff_of_handleBehind (h : r.HandleBehind n e) : e.isHandle = true ↔ n = 0 := by
  cases h with
  | handle id name => simp [Entry.isHandle, Entry.kind, Shape.kind]
  | another id name found rest => simp [Entry.isHandle, Entry.kind, Shape.kind]

/-- What leads to a handle is a type under its own name. -/
theorem exists_typeName_of_handleBehind (h : r.HandleBehind n e) :
    ∃ text, r.typeName e = .ok text := by
  cases h with
  | handle id name => exact ⟨name.typeIdent, rfl⟩
  | another id name found rest => exact ⟨name.typeIdent, rfl⟩

/-- **What leads to a handle can be declared.** -/
theorem failures_of_handleBehind (h : s.registry.HandleBehind n e) :
    (s.declare e).failures = [] := by
  cases h with
  | handle id name =>
    have hheading : (s.headingScript (.declared id name .handle)).failures = [] :=
      Setting.failures_headingScript (by decide)
    simp [Setting.declare, Setting.handleScript, hheading]
  | @another n target t id name found rest =>
    have hk : (Shape.typeAlias target).kind ≠ .callback := by simp [Shape.kind]
    have hheading : (s.headingScript (.declared id name (.typeAlias target))).failures = [] :=
      Setting.failures_headingScript hk
    have hexport := failures_exportScript hk id name
    obtain ⟨text, htext⟩ := exists_typeName_of_handleBehind rest
    have htarget : s.registry.resolve target = .ok t := by
      unfold Registry.resolve
      rw [found]
    simp only [Setting.declare, Setting.aliasScript, htarget, htext, Script.attempt,
      Script.collect_append, Setting.failures_markScript, hheading]
    split
    · rfl
    · simp [hexport]

/-- **What leads to a handle has a short name exactly if it is an alias of an alias.** -/
theorem shortens_iff_of_handleBehind (h : r.HandleBehind n e) : r.shortens e = true ↔ 1 < n := by
  cases h with
  | handle id name => simp [Registry.shortens]
  | @another n target t id name found rest =>
    have htarget := isHandle_iff_of_handleBehind rest
    have hshort : r.shortens (.declared id name (.typeAlias target)) = !t.isHandle := by
      simp [Registry.shortens, found]
    rw [hshort, Bool.not_eq_true', ← Bool.not_eq_true, htarget]
    omega

/-- What a declaration of something that leads to a handle registers. -/
theorem exports_of_handleBehind (h : s.registry.HandleBehind n e) :
    (n ≤ 1 → (s.declare e).exports = []) ∧
      (1 < n → ∃ key target, e.shortIdent = .ok key ∧ e.declaredIdent = .ok target ∧
        (s.declare e).exports = [⟨key, target⟩]) := by
  have hfailures := failures_of_handleBehind h
  have hshort := shortens_iff_of_handleBehind h
  rw [Script.exports_of_failures_nil hfailures, Setting.registered_declare hfailures]
  constructor
  · intro hn
    have hnot : ¬ s.registry.shortens e = true := by
      rw [hshort]
      omega
    rw [if_neg hnot]
  · intro hn
    have hyes : s.registry.shortens e = true := hshort.2 hn
    obtain ⟨key, target, hkey, htarget⟩ := idents_of_shortens hyes
    refine ⟨key, target, hkey, htarget, ?_⟩
    rw [if_pos hyes]
    simp [Setting.exportScript, hkey, htarget]

/-- A registration is seen in a table without short names. -/
theorem Reexports.register_empty_ne (f : Reexport) : empty.register f ≠ empty := by
  intro h
  have htargets : Keyed.put [] f.key f.target = [] := congrArg targets h
  simp [Keyed.put] at htargets

/-- **When the declaration of a name of a handle changes the short names.** Something that leads to
a handle can always be declared. Its declaration leaves all short names as they are exactly if it is
a handle or an alias of a handle; an alias of an alias takes its short name for itself. -/
theorem declare_changes_iff (h : s.registry.HandleBehind n e) :
    (s.declare e).failures = [] ∧
      ((∀ t : Reexports, t.registerAll (s.declare e).exports = t) ↔ n ≤ 1) ∧
      (1 < n → ∃ key target, e.shortIdent = .ok key ∧ e.declaredIdent = .ok target ∧
        ∀ t : Reexports, t.registerAll (s.declare e).exports = t.register ⟨key, target⟩) := by
  obtain ⟨hnone, hone⟩ := exports_of_handleBehind h
  have hregister : 1 < n → ∃ key target, e.shortIdent = .ok key ∧ e.declaredIdent = .ok target ∧
      ∀ t : Reexports, t.registerAll (s.declare e).exports = t.register ⟨key, target⟩ := by
    intro hn
    obtain ⟨key, target, hkey, htarget, hexports⟩ := hone hn
    refine ⟨key, target, hkey, htarget, fun t => ?_⟩
    rw [hexports]
    rfl
  refine ⟨failures_of_handleBehind h, ⟨fun hkept => ?_, fun hn t => ?_⟩, hregister⟩
  · by_contra hn
    obtain ⟨key, target, -, -, hchanged⟩ := hregister (by omega)
    exact Reexports.register_empty_ne ⟨key, target⟩ ((hchanged .empty).symm.trans (hkept .empty))
  · rw [hnone hn]
    rfl

/-- A text with a handle, a name for it, and a name for this name. -/
def chainText : String :=
  "[\"ti\",[[\"taichi/a.h\",false,[],[[\"handle\",\"h\"],[\"alias\",\"a\",\"handle.h\"],"
    ++ "[\"alias\",\"b\",\"alias.a\"]]]]]"

/-- The name of the handle in `chainText`. -/
def chainInner : Entry :=
  .declared "alias.a" (.withPrefix "ti" "a") (.typeAlias "handle.h")

/-- The name of the name of the handle in `chainText`. -/
def chainOuter : Entry :=
  .declared "alias.b" (.withPrefix "ti" "b") (.typeAlias "alias.a")

/-- The interface in `chainText`. -/
def chain : Api where
  lead := some "ti"
  registry :=
    ⟨[.declared "handle.h" (.withPrefix "ti" "h") .handle, chainInner, chainOuter], by decide⟩
  modules := [⟨"taichi/a.h", false, [], ["handle.h", "alias.a", "alias.b"], none⟩]

theorem ofText_chain : Api.ofText .empty chainText = .ok chain := by
  cbv

theorem handleBehind_chainInner : chain.registry.HandleBehind 1 chainInner :=
  .another _ _ rfl (.handle _ _)

theorem handleBehind_chainOuter : chain.registry.HandleBehind 2 chainOuter :=
  .another _ _ rfl handleBehind_chainInner

/-- In `chainText` one alias is left without a short name, and the other takes `B`. -/
theorem declare_changes_iff_chain : Api.ofText .empty chainText = .ok chain ∧
    (∀ t : Reexports, t.registerAll
      ((⟨chain.registry, none, .default⟩ : Setting).declare chainInner).exports = t) ∧
    ∀ t : Reexports, t.registerAll
      ((⟨chain.registry, none, .default⟩ : Setting).declare chainOuter).exports =
        t.register ⟨"B", "TiB"⟩ := by
  obtain ⟨-, hkept, -⟩ :=
    declare_changes_iff (s := ⟨chain.registry, none, .default⟩) handleBehind_chainInner
  obtain ⟨-, -, htaken⟩ :=
    declare_changes_iff (s := ⟨chain.registry, none, .default⟩) handleBehind_chainOuter
  obtain ⟨key, target, hkey, htarget, hregister⟩ := htaken (by decide)
  obtain rfl : "B" = key := Except.ok.inj hkey
  obtain rfl : "TiB" = target := Except.ok.inj htarget
  exact ⟨ofText_chain, hkept.2 le_rfl, hregister⟩

/-- **A name that leads to a handle can have a short name**, behind a second alias. -/
theorem alias_chain_shortened : ¬ ∀ (table : BuiltinTable) (text : String) (api : Api),
    Api.ofText table text = .ok api → ∀ s : Setting, s.registry = api.registry →
      ∀ e ∈ api.registry.entries, ∀ n, api.registry.HandleBehind n e →
        ∀ t : Reexports, t.registerAll (s.declare e).exports = t := by
  intro hall
  have hkept := hall _ _ _ ofText_chain ⟨chain.registry, none, .default⟩ rfl chainOuter
    (.tail _ (.tail _ (.head _))) 2 handleBehind_chainOuter .empty
  revert hkept
  decide

end Bindery

import Mathlib
import Bindery.Document.Load
import Bindery.Proofs.FirstFault
import Bindery.Proofs.Projection

/-!
# What loading guarantees

* `consistent_of_ofText`: **a loaded interface is consistent**.
* `closed_of_ofText`: every id that one of its entries names is registered.
* `sample`, `ofText_sample`: a small interface, loaded from its text.
-/

namespace Bindery

theorem consistent_of_ofDraft {table : BuiltinTable} {d : Draft} {api : Api}
    (h : Api.ofDraft table d = .ok api) : api.Consistent := by
  unfold Api.ofDraft at h
  rcases ha : d.toApi table with err | loaded
  · rw [ha] at h
    cases h
  · rw [ha] at h
    rcases hv : loaded.validate with err | ⟨⟩
    · simp [bind, Except.bind, hv] at h
    · obtain rfl : loaded = api := by simpa [bind, Except.bind, hv, pure, Except.pure] using h
      exact (validateIn_ok_iff_consistent (List.Perm.refl _)).1 hv

/-- **A loaded interface is consistent.** -/
theorem consistent_of_ofText {table : BuiltinTable} {text : String} {api : Api}
    (h : Api.ofText table text = .ok api) : api.Consistent := by
  unfold Api.ofText at h
  split at h
  · exact consistent_of_ofDraft h
  · cases h

theorem closed_of_consistent {api : Api} (h : api.Consistent) : api.registry.Closed := by
  rintro e he id name shape rfl
  exact (h.entries _ he : shape.Consistent api.registry).references

/-- Every id that an entry of a loaded interface names is registered. -/
theorem closed_of_ofText {table : BuiltinTable} {text : String} {api : Api}
    (h : Api.ofText table text = .ok api) : api.registry.Closed :=
  closed_of_consistent (consistent_of_ofText h)

/-- One module, in which a constant and an enumeration share a name, and a callback is the type of
a field. -/
def sampleText : String :=
  "[\"ti\",[[\"taichi/a.h\",false,[],[[\"handle\",\"y\"],[\"definition\",\"x\",1],"
    ++ "[\"enumeration\",\"x\",\x7b\"a\":0\x7d],[\"callback\",\"f\",[[\"v\",\"handle.y\"]]],"
    ++ "[\"structure\",\"g\",[[\"f\",\"callback.f\"]]]]]]]"

/-- The module in `sampleText`. -/
def sampleModule : Module :=
  ⟨"taichi/a.h", false, [],
    ["handle.y", "definition.x", "enumeration.x", "callback.f", "structure.g"], none⟩

/-- The interface in `sampleText`. -/
def sample : Api where
  lead := some "ti"
  registry :=
    ⟨[.declared "handle.y" (.withPrefix "ti" "y") .handle,
      .declared "definition.x" (.withPrefix "ti" "x") (.definition "1"),
      .declared "enumeration.x" (.withPrefix "ti" "x") (.enumeration [⟨.new "a", 0⟩]),
      .declared "callback.f" (.withPrefix "ti" "f")
        (.callback ⟨[⟨.new "v", "handle.y", false, false, none⟩], none⟩),
      .declared "structure.g" (.withPrefix "ti" "g")
        (.record [⟨.new "f", "callback.f", false, false, none⟩])], by decide⟩
  modules := [sampleModule]

theorem ofText_sample : Api.ofText .empty sampleText = .ok sample := by
  cbv

end Bindery

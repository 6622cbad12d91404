import Bindery.Proofs.MemberLines
import Bindery.Proofs.StrayMarkers

/-!
# The bodies of declarations

An enumeration, a bit field, a record, a union and a function are each written as the lines of a
frame with the lines of the members in it. The only other lines are those of the documentation.

* `Setting.note?`, `Setting.memberNote`, `Setting.parameterNotes`: the documentation of members as
  lines, in front of each or as a list under one heading.
* `Frame`, `Setting.Frames`: the lines that belong neither to members nor to the documentation.
* `Setting.Body`: these lines, the documentation and the members put together.
* `declare_body`: **all lines of a declaration with members**, in their order.
-/

namespace Bindery

/-- The kinds of the entries that are declared with all their members. -/
def Kind.composed : List Kind :=
  [.enumeration, .bitField, .record, .union, .function]

namespace Script

/-- A script that succeeds has written the lines of all its steps. -/
theorem eq_written_of_result {s : Script} {ls : List String} (h : s.result = .ok ls) :
    ls = s.written := by
  have hall := result_of_failures_nil (failures_nil_of_result h)
  rw [h] at hall
  exact Except.ok.inj hall

end Script

namespace Setting

variable {s : Setting} {id : String} {e : Entry}

/-- The id of an entry, where no documentation is written. -/
def mark (s : Setting) (id : String) : List String :=
  if s.config.docMode = .entryId then ["// " ++ id] else []

/-- The heading of an entry and its documentation, where documentation is written. -/
def headingLines (s : Setting) (id heading : String) : List String :=
  if s.documents then
    ("/// " ++ heading) :: (s.entryDoc id).map fun text => "/// " ++ s.registry.resolveLine text
  else []

/-- The documentation of a member with its markers resolved, where documentation is written. -/
def note? (s : Setting) (id member : String) : Option String :=
  if s.documents then (s.memberDoc? id member).map s.registry.resolveLine else none

/-- The line in front of a member, if it has documentation. -/
def memberNote (s : Setting) (id : String) (m : WrittenMember) : List String :=
  (s.note? id m.name.display).toList.map ("  /// " ++ ·)

/-- The documented parameters, as the items of a list. -/
def parameterItems (s : Setting) (id : String) (params : List Field) : List String :=
  params.filterMap fun p =>
    (s.note? id p.name.display).map fun note => "/// - `" ++ p.name.display ++ "`: " ++ note

/-- The documented parameters under a heading, if there are any. -/
def parameterNotes (s : Setting) (id : String) (params : List Field) : List String :=
  if s.parameterItems id params = [] then []
  else ["///", "/// Parameters:"] ++ s.parameterItems id params

theorem written_docLine (sign text : String) :
    (s.docLine sign text).written = [sign ++ s.registry.resolveLine text] := by
  have hlines := lines_docLine (s := s) sign text
  rw [Script.lines_of_failures_nil (remarks_docLine sign text).failures_eq_nil] at hlines
  exact hlines

@[simp] theorem written_markScript : (s.markScript e).written = s.mark e.id := by
  unfold markScript mark
  split
  · rfl
  · rfl

@[simp] theorem written_exportScript : (exportScript e).written = [] :=
  collect_exportScript (fun _ => rfl) (fun _ => rfl) e

theorem written_headingScript {heading : String} (h : e.heading = .ok heading) :
    (s.headingScript e).written = s.headingLines e.id heading := by
  unfold headingScript headingLines Setting.heading
  rw [h]
  split
  · simp only [Script.collect_append, Script.collect_flatMap, written_docLine]
    exact congrArg _ (List.flatMap_pure_eq_map _ _)
  · rfl

theorem written_memberScript (m : WrittenMember) :
    (s.memberScript id m.name.display).written = s.memberNote id m := by
  unfold memberScript memberLine memberNote note?
  split
  · rcases s.memberDoc? id m.name.display with _ | text
    · rfl
    · exact written_docLine _ _
  · rfl

theorem written_parameterLine (hs : s.documents = true) (p : Field) :
    (s.parameterLine id p.name.display).written = ((s.note? id p.name.display).map fun note =>
      "/// - `" ++ p.name.display ++ "`: " ++ note).toList := by
  unfold parameterLine note?
  rw [if_pos hs]
  rcases s.memberDoc? id p.name.display with _ | text
  · rfl
  · exact written_docLine _ _

/-- There are no items if nothing is documented, or no parameter is. -/
theorem parameterItems_eq_nil_iff {params : List Field} : s.parameterItems id params = [] ↔
    ¬ (s.documents && params.any fun p => (s.memberDoc? id p.name.display).isSome) = true := by
  unfold parameterItems note?
  rw [List.filterMap_eq_nil_iff]
  by_cases hs : s.documents = true
  · simp [hs]
  · simp [hs]

@[simp] theorem written_parameterScript (params : List Field) :
    (s.parameterScript id params).written = s.parameterNotes id params := by
  unfold parameterScript parameterNotes
  by_cases hany : s.parameterItems id params = []
  · rw [if_pos hany, if_neg (parameterItems_eq_nil_iff.1 hany)]
    rfl
  · -- an item is there only where documentation is written
    have hdocumented := not_not.1 (mt parameterItems_eq_nil_iff.2 hany)
    have hs : s.documents = true := (Bool.and_eq_true_iff.1 hdocumented).1
    rw [if_neg hany, if_pos hdocumented]
    simp only [Script.collect_append, Script.collect_flatMap, written_parameterLine hs,
      parameterItems, List.filterMap_eq_flatMap_toList]
    rfl

/-- The lines of members: for those of a function only their own, for others each behind its
documentation. -/
def rows (s : Setting) (id : String) (shape : Shape) (members : List WrittenMember) :
    List String :=
  members.flatMap fun m => (if shape.kind = .function then [] else s.memberNote id m) ++ [m.line]

/-- Members with their documentation in front are written row by row. -/
theorem written_memberSteps {shape : Shape} (hk : shape.kind ≠ .function)
    (members : List WrittenMember) :
    Script.written (members.flatMap (s.memberSteps id)) = s.rows id shape members := by
  refine (Script.collect_flatMap _ _ _).trans (List.flatMap_congr fun m _ => ?_)
  simp only [if_neg hk, memberSteps, Script.collect_append, written_memberScript]
  rfl

end Setting

/-- The lines of a declaration that belong neither to its members nor to its documentation. -/
structure Frame where
  /-- What stands in front of the documentation. -/
  above : List String
  /-- What stands between the documentation and the first member. -/
  opening : List String
  closing : List String

/-- The frame of a record or a union. -/
def Frame.ofRecord (keyword ident : String) : Frame where
  above := []
  opening :=
    ["#[repr(C)]", "#[derive(Clone, Copy)]", "pub " ++ keyword ++ " " ++ ident ++ " \x7b"]
  closing := ["\x7d"]

/-- **The frame of a shape** under its name. That of a function ends with the type of the result. -/
inductive Setting.Frames (s : Setting) (full : Name) : Shape → Frame → Prop
  | enumeration (cases : List Case) : Frames s full (.enumeration cases)
      ⟨[], ["#[repr(" ++ Policy.enumRepr full ++ ")]", plainTraits,
        "pub enum " ++ full.typeIdent ++ " \x7b"], ["\x7d"]⟩
  | bitField (bits : List Flag) : Frames s full (.bitField bits)
      ⟨["bitflags! \x7b"], [transparentLayout, "#[derive(Clone, Copy, Debug, PartialEq, Eq, Hash)]",
        "pub struct " ++ full.flagsIdent ++ ": u32 \x7b"], ["\x7d", "\x7d"]⟩
  | record (fields : List Field) :
      Frames s full (.record fields) (.ofRecord "struct" full.typeIdent)
  | union (variants : List Field) :
      Frames s full (.union variants) (.ofRecord "union" full.typeIdent)
  | function {signature : Signature} {deviceCommand : Bool} {result : String}
      (h : s.registry.resultType signature.result = .ok result) :
      Frames s full (.function signature deviceCommand)
        ⟨["#[link(name = \"" ++ s.config.linkName ++ "\")]", "unsafe extern \"C\" \x7b"],
          ["pub fn " ++ full.functionIdent ++ "("], [") -> " ++ result ++ ";", "\x7d"]⟩

/-- The parameters of a function; other shapes have none. -/
def Shape.params : Shape → List Field
  | .function signature _ => signature.params
  | _ => []

namespace Setting

variable {s : Setting} {id heading : String} {full : Name} {shape : Shape}

/-- **All lines of a declaration**: those of a frame, with the documentation and the members in
it. -/
structure Body (s : Setting) (id : String) (full : Name) (shape : Shape) (heading : String)
    (frame : Frame) (members : List WrittenMember) (lines : List String) : Prop where
  frames : s.Frames full shape frame
  writes : shape.Writes s.registry id full members
  lines_eq : lines = s.mark id ++ frame.above ++ s.headingLines id heading ++
    s.parameterNotes id shape.params ++ frame.opening ++ s.rows id shape members ++ frame.closing

/-- Shapes without parameters have no list of them. -/
theorem parameterNotes_nil : s.parameterNotes id [] = [] := rfl

theorem written_recordScript {e : Entry} {keyword ident : String} {fields : List Field}
    (hkind : shape.kind ≠ .function) (hheading : e.heading = .ok heading)
    (h : (s.recordScript e keyword ident fields).failures = []) :
    ∃ types, List.Forall₂ (fun f type => fieldType s.registry.typeRef f = .ok type) fields types ∧
      (s.recordScript e keyword ident fields).written =
        s.mark e.id ++ s.headingLines e.id heading ++ (Frame.ofRecord keyword ident).opening ++
          s.rows e.id shape (List.zipWith (Field.written "  pub ") fields types) ++ ["\x7d"] := by
  simp only [recordScript, Script.collect_append, List.append_eq_nil_iff] at h
  obtain ⟨types, htypes, hsteps⟩ := exists_written (f := s.fieldScript e.id)
    (w := Field.written "  pub ") (fun f => fieldScript_eq) h.1.2
  have hrows : Script.written (fields.flatMap (s.fieldScript e.id)) =
      s.rows e.id shape (List.zipWith (Field.written "  pub ") fields types) :=
    (congrArg Script.written hsteps).trans (written_memberSteps hkind _)
  refine ⟨types, htypes, ?_⟩
  simp only [recordScript, Script.collect_append, written_markScript,
    written_headingScript hheading, hrows]
  rfl

/-- The lines of a record or a union, behind steps that write none. -/
theorem body_recordScript {before : Script} {keyword : String}
    (hkind : shape.kind ≠ .function) (hlead : shape.fieldLead? = some "  pub ")
    (hheading : (Entry.declared id full shape).heading = .ok heading)
    (hframe : s.Frames full shape (.ofRecord keyword full.typeIdent))
    (hparams : shape.params = []) (hbefore : before.written = [])
    (h : (before ++ s.recordScript (.declared id full shape) keyword full.typeIdent
      shape.fields).failures = []) :
    ∃ members, s.Body id full shape heading (.ofRecord keyword full.typeIdent) members
      (before ++ s.recordScript (.declared id full shape) keyword full.typeIdent
        shape.fields).written := by
  simp only [Script.collect_append, List.append_eq_nil_iff] at h
  obtain ⟨types, htypes, hlines⟩ := written_recordScript hkind hheading h.2
  refine ⟨_, hframe, .fields hlead htypes, ?_⟩
  simp only [Script.collect_append, hbefore, hlines, hparams, parameterNotes_nil, Frame.ofRecord,
    List.append_nil, List.nil_append]
  rfl

/-- The lines of a function: its parameters are documented in front of its signature. -/
theorem body_functionScript {signature : Signature} {deviceCommand : Bool}
    (hheading : (Entry.declared id full (.function signature deviceCommand)).heading = .ok heading)
    (h : (s.declare (.declared id full (.function signature deviceCommand))).failures = []) :
    ∃ frame members, s.Body id full (.function signature deviceCommand) heading frame members
      (s.declare (.declared id full (.function signature deviceCommand))).written := by
  simp only [declare, functionScript, Script.collect_append, List.append_eq_nil_iff] at h
  obtain ⟨types, htypes, hsteps⟩ := exists_written (f := s.paramScript)
    (g := fun m => [.code m.line]) (w := Field.written "  ")
    (fun p hp => attempt_fieldLine hp) h.1.1.2
  rcases hresult : s.registry.resultType signature.result with err | result
  · simp [hresult, Script.attempt] at h
  refine ⟨_, _, .function hresult, .fields rfl htypes, ?_⟩
  have hrows : Script.written (signature.params.flatMap s.paramScript) =
      s.rows id (.function signature deviceCommand)
        (List.zipWith (Field.written "  ") signature.params types) := by
    exact (congrArg Script.written hsteps).trans (Script.collect_flatMap _ _ _)
  simp only [declare, functionScript, Script.collect_append, written_markScript,
    written_exportScript, written_headingScript hheading, written_parameterScript, hrows, hresult,
    Script.attempt, List.append_assoc, List.nil_append]
  rfl

/-- The lines of an enumeration. -/
theorem body_enumerationScript {cases : List Case}
    (hheading : (Entry.declared id full (.enumeration cases)).heading = .ok heading)
    (h : (s.declare (.declared id full (.enumeration cases))).failures = []) :
    ∃ frame members, s.Body id full (.enumeration cases) heading frame members
      (s.declare (.declared id full (.enumeration cases))).written := by
  simp only [declare, enumerationScript, Script.collect_append, List.append_eq_nil_iff] at h
  obtain ⟨idents, hidents, hsteps⟩ := exists_written (f := s.caseScript id full)
    (w := Case.written) (fun c => caseScript_eq) h.1.2
  have hrows : Script.written (cases.flatMap
      (s.caseScript (Entry.declared id full (.enumeration cases)).id full)) =
        s.rows id (.enumeration cases) (List.zipWith Case.written cases idents) :=
    (congrArg Script.written hsteps).trans (written_memberSteps (by simp [Shape.kind]) _)
  refine ⟨_, _, .enumeration cases, .cases hidents, ?_⟩
  simp only [declare, enumerationScript, Script.collect_append, written_markScript,
    written_exportScript, written_headingScript hheading, hrows, Shape.params, parameterNotes_nil,
    List.append_nil]
  rfl

/-- The lines of a bit field: its heading stands inside the macro. -/
theorem body_bitFieldScript {bits : List Flag}
    (hheading : (Entry.declared id full (.bitField bits)).heading = .ok heading) :
    ∃ frame members, s.Body id full (.bitField bits) heading frame members
      (s.declare (.declared id full (.bitField bits))).written := by
  have hsteps : bits.flatMap (s.flagScript (Entry.declared id full (.bitField bits)).id) =
      (bits.map Flag.written).flatMap (s.memberSteps id) := by
    rw [List.flatMap_map]
    rfl
  have hrows : Script.written (bits.flatMap
      (s.flagScript (Entry.declared id full (.bitField bits)).id)) =
        s.rows id (.bitField bits) (bits.map Flag.written) :=
    (congrArg Script.written hsteps).trans (written_memberSteps (by simp [Shape.kind]) _)
  refine ⟨_, _, .bitField bits, .bits bits, ?_⟩
  simp only [declare, bitFieldScript, Script.collect_append, written_markScript,
    written_exportScript, written_headingScript hheading, hrows, Shape.params, parameterNotes_nil,
    List.append_nil]
  rfl

/-- **A declaration without failures has the lines of a body.** -/
theorem exists_body (hkind : shape.kind ∈ Kind.composed)
    (hheading : (Entry.declared id full shape).heading = .ok heading)
    (h : (s.declare (.declared id full shape)).failures = []) :
    ∃ frame members, s.Body id full shape heading frame members
      (s.declare (.declared id full shape)).written := by
  cases shape with
  | enumeration cases => exact body_enumerationScript hheading h
  | bitField bits => exact body_bitFieldScript hheading
  | record fields =>
    -- only info types have a short name, which is no line
    have hbefore : Script.written (if Policy.isInfoType full.typeIdent then
        exportScript (.declared id full (.record fields)) else []) = [] := by
      split
      · exact written_exportScript
      · rfl
    obtain ⟨members, hbody⟩ := body_recordScript (by simp [Shape.kind]) rfl hheading
      (.record fields) rfl hbefore h
    exact ⟨_, members, hbody⟩
  | union variants =>
    obtain ⟨members, hbody⟩ := body_recordScript (by simp [Shape.kind]) rfl hheading
      (.union variants) rfl written_exportScript h
    exact ⟨_, members, hbody⟩
  | function signature deviceCommand => exact body_functionScript hheading h
  | typeAlias | definition | handle | callback => simp [Shape.kind, Kind.composed] at hkind

/-- Where ids are written in place of documentation, a body has no other comment. -/
theorem Body.lines_of_entryId {frame : Frame} {members : List WrittenMember} {ls : List String}
    (h : s.Body id full shape heading frame members ls) (hmode : s.config.docMode = .entryId) :
    ls = ("// " ++ id) ::
      (frame.above ++ frame.opening ++ members.map WrittenMember.line ++ frame.closing) := by
  have hdocuments : s.documents = false := by
    unfold documents
    rw [hmode]
    rfl
  have hnote : ∀ member, s.note? id member = none := by
    intro member
    rw [note?, hdocuments]
    rfl
  have hparameters : s.parameterNotes id shape.params = [] := by
    have hitems : s.parameterItems id shape.params = [] := by
      unfold parameterItems
      simp [hnote]
    rw [parameterNotes, if_pos hitems]
  have hrows : s.rows id shape members = members.map WrittenMember.line := by
    unfold rows memberNote
    simp only [hnote, Option.toList_none, List.map_nil, ite_self, List.nil_append]
    exact List.flatMap_pure_eq_map _ _
  rw [h.lines_eq, hparameters, hrows, mark, if_pos hmode, headingLines, hdocuments]
  simp

end Setting

/-- **All lines of a declaration with members.** If an enumeration, a bit field, a record, a union
or a function is declared, its lines are those of its frame with the lines of its members in it, one
for each member and in their order. Documentation, if it is written, stands in front of the members
that have some; that of parameters is a list in front of the signature, under a heading and only if
there is any. If ids are written instead, there is no other comment than the id. -/
theorem declare_body (s : Setting) {id : String} {full : Name} {shape : Shape} {ls : List String}
    (hkind : shape.kind ∈ Kind.composed)
    (h : (s.declare (.declared id full shape)).result = .ok ls) :
    ∃ heading frame members, (Entry.declared id full shape).heading = .ok heading ∧
      s.Body id full shape heading frame members ls ∧
      members.map WrittenMember.name = shape.memberNames ∧
      (s.config.docMode = .entryId → ls = ("// " ++ id) ::
        (frame.above ++ frame.opening ++ members.map WrittenMember.line ++ frame.closing)) := by
  have hcallback : shape.kind ≠ .callback := by
    intro hc
    rw [hc] at hkind
    exact absurd hkind (by decide)
  obtain ⟨ident, hident⟩ := identBy_ok hcallback (fun name => name) id full
  obtain ⟨heading, hheading⟩ := heading_of_declaredIdent hident
  obtain ⟨frame, members, hbody⟩ := Setting.exists_body hkind hheading
    (Script.failures_nil_of_result h)
  rw [← Script.eq_written_of_result h] at hbody
  exact ⟨heading, frame, members, hheading, hbody, hbody.writes.names, hbody.lines_of_entryId⟩

/-- A function with a value and a pointer as parameters. -/
def documentedFunction : Shape :=
  .function ⟨[⟨.new "a", "int32_t", false, false, none⟩,
    ⟨.new "b", "int32_t", true, false, none⟩], none⟩ false

/-- A record with a value and an array as fields. -/
def documentedRecord : Shape :=
  .record [⟨.new "x", "int32_t", false, false, none⟩,
    ⟨.new "y", "int32_t", false, false, some (.fixed 4)⟩]

/-- The function and the record, with documentation for one member of each. -/
def documentedMembers : Setting where
  registry :=
    ⟨[.builtin "int32_t" "i32", .declared "function.f" (.withPrefix "ti" "f") documentedFunction,
      .declared "structure.g" (.withPrefix "ti" "g") documentedRecord], by decide⟩
  doc := some ⟨[], [("function.f", ["Fills `structure.g`."])],
    [("function.f.b", "Where to."), ("structure.g.y", "Read by `function.f`.")]⟩
  config := .default

/-- The one documented parameter is listed in front of the signature, the one documented field has
its note in front of its line. -/
theorem declare_body_documented :
    (∃ heading frame members, documentedMembers.Body "function.f" (.withPrefix "ti" "f")
      documentedFunction heading frame members
      ["#[link(name = \"taichi_c_api\")]", "unsafe extern \"C\" \x7b", "/// Function `ti_f`",
        "/// Fills [`TiG`](#structure-tig).", "///", "/// Parameters:", "/// - `b`: Where to.",
        "pub fn ti_f(", "  a: i32,", "  b: *const i32,", ") -> ();", "\x7d"]) ∧
    ∃ heading frame members, documentedMembers.Body "structure.g" (.withPrefix "ti" "g")
      documentedRecord heading frame members
      ["/// Structure `TiG`", "#[repr(C)]", "#[derive(Clone, Copy)]", "pub struct TiG \x7b",
        "  pub x: i32,", "  /// Read by [`ti_f`](#function-ti_f).", "  pub y: [i32; 4],",
        "\x7d"] := by
  have hbody : ∀ {id : String} {full : Name} {shape : Shape} {ls : List String},
      shape.kind ∈ Kind.composed → (documentedMembers.declare (.declared id full shape)).result =
        .ok ls →
      ∃ heading frame members, documentedMembers.Body id full shape heading frame members ls := by
    intro id full shape ls hkind hresult
    obtain ⟨heading, frame, members, -, hbody, -, -⟩ :=
      declare_body documentedMembers hkind hresult
    exact ⟨heading, frame, members, hbody⟩
  have hfunction : documentedFunction.kind ∈ Kind.composed := by decide
  have hrecord : documentedRecord.kind ∈ Kind.composed := by decide
  exact ⟨hbody hfunction (by decide), hbody hrecord (by decide)⟩

end Bindery

/-
Module: ComponentTemplates.Proofs.Codec.RoundTrip
Purpose: What is written as JSON is read back, for every type that has a JSON form and however the reader
  comes by the value. A file of tags is read as the list or the one tag that it was written from, and
  no value passes for both (`decode_encode`).
Main exports: Production.Fits, decodeStatement_encodeStatement, decodeFragment_encodeFragment,
  decodeProduction_encodeProduction, decode_encode
-/
import ComponentTemplates.Codec.Decode
import ComponentTemplates.Proofs.Codec.Reading

namespace ComponentTemplates

open Json

/-- The number of a line, where it is known, takes no more than 64 bits. -/
def LineFits (line : Option Nat) : Prop :=
  ∀ number ∈ line, number < Nat.pow 2 64

/-- The line of a tag and those of its attributes take no more than 64 bits. -/
structure Production.Fits (production : Production) : Prop where
  line : LineFits production.line
  attributes : ∀ given ∈ production.attributes, LineFits given.line

/-! ## Lookups, targets and expressions -/

theorem decodeStrings_encodeStrings (texts : List String) :
    decodeStrings (encodeStrings texts) = some texts := by
  unfold decodeStrings encodeStrings
  rw [items?_array]
  exact mapM_map_of_forall fun _ _ => rfl

theorem decodeMode_encodeMode (passage : Passage) (mode : Lookup.Mode) :
    decodeMode passage (encodeMode mode) = some mode := by
  cases mode with
  | render => rfl
  | object => rfl

theorem decodeOpener_encodeOpener (passage : Passage) (kind : Opener) :
    decodeOpener passage (encodeOpener kind) = some kind := by
  cases kind with
  | choice => rfl
  | loop => rfl

theorem decodeStep_encodeStep (step : Lookup.Step) : decodeStep (encodeStep step) = some step := by
  obtain ⟨field, hfields, hfield⟩ := fields?_object
    [("name", .string step.name), ("args", encodeStrings step.args)] (by simp [Bindings.names])
    ["name", "args"]
  obtain ⟨_, hname⟩ := hfield "name" _ rfl
  obtain ⟨_, hargs⟩ := hfield "args" _ rfl
  simp [decodeStep, encodeStep, hfields, hname, hargs, decodeString, decodeOr,
    decodeStrings_encodeStrings]

theorem decodeLookup_encodeLookup (passage : Passage) (lookup : Lookup) :
    decodeLookup passage (encodeLookup lookup) = some lookup := by
  obtain ⟨field, hfields, hfield⟩ := fields?_object
    [("steps", .array (lookup.steps.map encodeStep)), ("mode", encodeMode lookup.mode)]
    (by simp [Bindings.names]) ["steps", "mode"]
  obtain ⟨_, hsteps⟩ := hfield "steps" _ rfl
  obtain ⟨_, hmode⟩ := hfield "mode" _ rfl
  have hread : (lookup.steps.map encodeStep).mapM decodeStep = some lookup.steps :=
    mapM_map_of_forall fun step _ => decodeStep_encodeStep step
  unfold decodeLookup encodeLookup
  simp only [hfields, hsteps, hmode, decodeOr, decodeMode_encodeMode, items?_array, hread,
    Option.bind_eq_bind, Option.bind_some, Option.pure_def]

theorem decodeTarget_encodeTarget (passage : Passage) (target : Target) :
    decodeTarget passage (encodeTarget target) = some target := by
  cases target with
  | page =>
      rw [decodeTarget, encodeTarget, tagged?_unit (by decide)]
      rfl
  | children =>
      rw [decodeTarget, encodeTarget, tagged?_unit (by decide)]
      rfl
  | property name =>
      obtain ⟨_, hcase⟩ := tagged?_encodeCase (show "name" ≠ "kind" by decide) passage "property"
        (.string name) targetNames
      rw [decodeTarget, encodeTarget, hcase]
      rfl

theorem decodeExpr_encodeExpr (passage : Passage) (value : Expr) :
    decodeExpr passage (encodeExpr value) = some value := by
  cases value with
  | literal text =>
      obtain ⟨_, hcase⟩ := tagged?_encodeCase (show "value" ≠ "kind" by decide) passage "literal"
        (.string text) exprNames
      rw [decodeExpr, encodeExpr, hcase]
      rfl
  | value lookup =>
      obtain ⟨_, hcase⟩ := tagged?_encodeCase (show "value" ≠ "kind" by decide) passage "call"
        (encodeLookup lookup) exprNames
      rw [decodeExpr, encodeExpr, hcase]
      exact congrArg (Option.map Expr.value) (decodeLookup_encodeLookup passage lookup)

/-! ## Statements

A statement is copied before it is read, so what is written must be readable. -/

theorem readable_encodeStrings (texts : List String) : (encodeStrings texts).readable = true := by
  rw [encodeStrings, readable, readableItems_iff]
  intro item hitem
  obtain ⟨text, _, rfl⟩ := List.mem_map.1 hitem
  rfl

theorem readable_encodeLookup (lookup : Lookup) : (encodeLookup lookup).readable = true := by
  have hsteps : readableItems (lookup.steps.map encodeStep) = true := by
    rw [readableItems_iff]
    intro item hitem
    obtain ⟨step, _, rfl⟩ := List.mem_map.1 hitem
    simp [encodeStep, readable, readableMembers, readable_encodeStrings]
  have hmode : (encodeMode lookup.mode).readable = true := by
    cases lookup.mode with
    | render => rfl
    | object => rfl
  simp [encodeLookup, readable, readableMembers, hsteps, hmode]

theorem readable_encodeTarget (target : Target) : (encodeTarget target).readable = true := by
  cases target with
  | page => rfl
  | children => rfl
  | property name => rfl

theorem readable_encodeExpr (value : Expr) : (encodeExpr value).readable = true := by
  cases value with
  | literal text => rfl
  | value lookup => simp [encodeExpr, encodeCase, readable, readableMembers, readable_encodeLookup]

mutual

/-- A written statement is readable, so it may stand anywhere. -/
theorem readable_encodeStatement (statement : Statement) :
    (encodeStatement statement).readable = true := by
  cases statement with
  | append target value =>
      simp [encodeStatement, encodeOperation, readable, readableMembers, readable_encodeTarget,
        readable_encodeExpr]
  | choose branches otherwise =>
      cases otherwise with
      | none =>
          simp [encodeStatement, encodeOperation, readable, readableMembers,
            readable_encodeBranches branches]
      | some body =>
          simp [encodeStatement, encodeOperation, readable, readableMembers,
            readable_encodeBranches branches, readable_encodeStatements body]
  | loop subject body =>
      simp [encodeStatement, encodeOperation, readable, readableMembers, readable_encodeLookup,
        readable_encodeStatements body]
  | within scope body =>
      simp [encodeStatement, encodeOperation, readable, readableMembers, readable_encodeLookup,
        readable_encodeStatements body]
  | beginProps => rfl
  | initProperty name => rfl
  | createProperty name => rfl
  | initChildren => rfl
  | sealChildren => rfl
  | renderComponent name target =>
      simp [encodeStatement, encodeOperation, readable, readableMembers, readable_encodeTarget]

theorem readable_encodeStatements (body : List Statement) :
    readableItems (encodeStatements body) = true := by
  cases body with
  | nil => rfl
  | cons statement rest =>
      rw [encodeStatements, readableItems, readable_encodeStatement statement,
        readable_encodeStatements rest]
      rfl

theorem readable_encodeBranches (branches : List Branch) :
    readableItems (encodeBranches branches) = true := by
  cases branches with
  | nil => rfl
  | cons branch rest =>
      obtain ⟨condition, body⟩ := branch
      simp [encodeBranches, readable, readableItems, readableMembers, readable_encodeLookup,
        readable_encodeStatements body, readable_encodeBranches rest]

end

/-- An operation is a record that tells its own name. -/
theorem reads_encodeOperation (name : String) (fields : List (String × Json))
    (hdistinct : (Bindings.names (("op", .string name) :: fields)).Nodup) (names : List String) :
    operation? (encodeOperation name fields) = some (.string name) ∧
      ∃ field, (encodeOperation name fields).fields? names = some field ∧
        ∀ other value, Bindings.get? (("op", .string name) :: fields) other = some value →
          ∃ h, field other = some ⟨value, h⟩ := by
  constructor
  · have honce : (named (("op", .string name) :: fields) "op").length = 1 := by
      rw [length_named]
      exact List.count_eq_one_of_mem hdistinct (List.mem_cons_self ..)
    obtain ⟨part, hpart⟩ := List.length_eq_one_iff.1 honce
    have hhead := head?_named (("op", .string name) :: fields) "op"
    rw [hpart] at hhead
    unfold operation? encodeOperation
    dsimp only
    rw [hpart]
    exact hhead
  · exact fields?_object _ hdistinct names

section Operations

variable (passage : Passage)

/-- An append is read back with its target and its value. -/
theorem decodeStatement_append (target : Target) (value : Expr) :
    decodeStatement passage (encodeStatement (.append target value)) = some (.append target value) := by
  obtain ⟨hname, field, hfields, hfield⟩ := reads_encodeOperation "append"
    [("target", encodeTarget target), ("value", encodeExpr value)] (by simp [Bindings.names])
    ["op", "target", "value"]
  obtain ⟨_, htarget⟩ := hfield "target" _ rfl
  obtain ⟨_, hvalue⟩ := hfield "value" _ rfl
  rw [decodeStatement, if_pos (readable_encodeStatement _), encodeStatement, hname]
  simp [caseName?, hfields, htarget, hvalue, decodeTarget_encodeTarget, decodeExpr_encodeExpr]

/-- A choice is read back if its bodies are. -/
theorem decodeStatement_choose {branches : List Branch} {otherwise : Option (List Statement)}
    (hbranches : (encodeBranches branches).mapM decodeBranch = some branches)
    (hotherwise : ∀ body ∈ otherwise,
      (encodeStatements body).mapM (decodeStatement .copied) = some body) :
    decodeStatement passage (encodeStatement (.choose branches otherwise)) =
      some (.choose branches otherwise) := by
  rw [decodeStatement, if_pos (readable_encodeStatement _)]
  cases otherwise with
  | none =>
      obtain ⟨hname, field, hfields, hfield⟩ := reads_encodeOperation "if"
        [("branches", .array (encodeBranches branches)), ("otherwise", .null)]
        (by simp [Bindings.names]) ["op", "branches", "otherwise"]
      obtain ⟨_, hlisted⟩ := hfield "branches" _ rfl
      obtain ⟨_, hnull⟩ := hfield "otherwise" _ rfl
      rw [encodeStatement, hname]
      simp [caseName?, hfields, hlisted, hnull, items?_array, hbranches]
  | some body =>
      have hbody := hotherwise body rfl
      obtain ⟨hname, field, hfields, hfield⟩ := reads_encodeOperation "if"
        [("branches", .array (encodeBranches branches)),
          ("otherwise", .array (encodeStatements body))]
        (by simp [Bindings.names]) ["op", "branches", "otherwise"]
      obtain ⟨_, hlisted⟩ := hfield "branches" _ rfl
      obtain ⟨_, hlast⟩ := hfield "otherwise" _ rfl
      rw [encodeStatement, hname]
      simp [caseName?, hfields, hlisted, hlast, items?_array, hbranches, hbody]

/-- A loop is read back if its body is. -/
theorem decodeStatement_loop {body : List Statement} (subject : Lookup)
    (hbody : (encodeStatements body).mapM (decodeStatement .copied) = some body) :
    decodeStatement passage (encodeStatement (.loop subject body)) = some (.loop subject body) := by
  obtain ⟨hname, field, hfields, hfield⟩ := reads_encodeOperation "loop"
    [("over", encodeLookup subject), ("body", .array (encodeStatements body))]
    (by simp [Bindings.names]) ["op", "over", "body"]
  obtain ⟨_, hsubject⟩ := hfield "over" _ rfl
  obtain ⟨_, hlisted⟩ := hfield "body" _ rfl
  rw [decodeStatement, if_pos (readable_encodeStatement _), encodeStatement, hname]
  simp [caseName?, hfields, hsubject, hlisted, decodeLookup_encodeLookup, items?_array, hbody]

/-- A scope block is read back if its body is. -/
theorem decodeStatement_within {body : List Statement} (scope : Lookup)
    (hbody : (encodeStatements body).mapM (decodeStatement .copied) = some body) :
    decodeStatement passage (encodeStatement (.within scope body)) = some (.within scope body) := by
  obtain ⟨hname, field, hfields, hfield⟩ := reads_encodeOperation "with"
    [("scope", encodeLookup scope), ("body", .array (encodeStatements body))]
    (by simp [Bindings.names]) ["op", "scope", "body"]
  obtain ⟨_, hscope⟩ := hfield "scope" _ rfl
  obtain ⟨_, hlisted⟩ := hfield "body" _ rfl
  rw [decodeStatement, if_pos (readable_encodeStatement _), encodeStatement, hname]
  simp [caseName?, hfields, hscope, hlisted, decodeLookup_encodeLookup, items?_array, hbody]

/-- The operations that nothing is told about but their names. -/
theorem decodeStatement_beginProps :
    decodeStatement passage (encodeStatement .beginProps) = some .beginProps := by
  obtain ⟨hname, field, hfields, _⟩ :=
    reads_encodeOperation "beginProps" [] (by simp [Bindings.names]) ["op"]
  rw [decodeStatement, if_pos (readable_encodeStatement _), encodeStatement, hname]
  simp [caseName?, hfields]

/-- A statement without fields is read back from its operation alone. -/
theorem decodeStatement_initChildren :
    decodeStatement passage (encodeStatement .initChildren) = some .initChildren := by
  obtain ⟨hname, field, hfields, _⟩ :=
    reads_encodeOperation "initChildren" [] (by simp [Bindings.names]) ["op"]
  rw [decodeStatement, if_pos (readable_encodeStatement _), encodeStatement, hname]
  simp [caseName?, hfields]

theorem decodeStatement_sealChildren :
    decodeStatement passage (encodeStatement .sealChildren) = some .sealChildren := by
  obtain ⟨hname, field, hfields, _⟩ :=
    reads_encodeOperation "sealChildren" [] (by simp [Bindings.names]) ["op"]
  rw [decodeStatement, if_pos (readable_encodeStatement _), encodeStatement, hname]
  simp [caseName?, hfields]

/-- The operations on one property. -/
theorem decodeStatement_initProperty (name : String) :
    decodeStatement passage (encodeStatement (.initProperty name)) = some (.initProperty name) := by
  obtain ⟨hname, field, hfields, hfield⟩ := reads_encodeOperation "initProperty"
    [("name", .string name)] (by simp [Bindings.names]) ["op", "name"]
  obtain ⟨_, htext⟩ := hfield "name" _ rfl
  rw [decodeStatement, if_pos (readable_encodeStatement _), encodeStatement, hname]
  simp [caseName?, hfields, htext, decodeString]

theorem decodeStatement_createProperty (name : String) :
    decodeStatement passage (encodeStatement (.createProperty name)) = some (.createProperty name) := by
  obtain ⟨hname, field, hfields, hfield⟩ := reads_encodeOperation "createProperty"
    [("name", .string name)] (by simp [Bindings.names]) ["op", "name"]
  obtain ⟨_, htext⟩ := hfield "name" _ rfl
  rw [decodeStatement, if_pos (readable_encodeStatement _), encodeStatement, hname]
  simp [caseName?, hfields, htext, decodeString]

theorem decodeStatement_renderComponent (name : String) (target : Target) :
    decodeStatement passage (encodeStatement (.renderComponent name target)) =
      some (.renderComponent name target) := by
  obtain ⟨hname, field, hfields, hfield⟩ := reads_encodeOperation "renderComponent"
    [("name", .string name), ("target", encodeTarget target)] (by simp [Bindings.names])
    ["op", "name", "target"]
  obtain ⟨_, htext⟩ := hfield "name" _ rfl
  obtain ⟨_, htarget⟩ := hfield "target" _ rfl
  rw [decodeStatement, if_pos (readable_encodeStatement _), encodeStatement, hname]
  simp [caseName?, hfields, htext, htarget, decodeString, decodeTarget_encodeTarget]

end Operations

-- The induction is on the program. A body is a value inside its block, so it is read as copied.
mutual

/-- Every statement is read back as it was written, in every passage. -/
theorem decodeStatement_encodeStatement (passage : Passage) (statement : Statement) :
    decodeStatement passage (encodeStatement statement) = some statement := by
  cases statement with
  | append target value => exact decodeStatement_append passage target value
  | choose branches otherwise =>
      have hbranches := mapM_encodeBranches branches
      cases otherwise with
      | none => exact decodeStatement_choose passage hbranches nofun
      | some body =>
          have hbody := mapM_encodeStatements .copied body
          apply decodeStatement_choose passage hbranches
          rintro other ⟨⟩
          exact hbody
  | loop subject body =>
      exact decodeStatement_loop passage subject (mapM_encodeStatements .copied body)
  | within scope body =>
      exact decodeStatement_within passage scope (mapM_encodeStatements .copied body)
  | beginProps => exact decodeStatement_beginProps passage
  | initProperty name => exact decodeStatement_initProperty passage name
  | createProperty name => exact decodeStatement_createProperty passage name
  | initChildren => exact decodeStatement_initChildren passage
  | sealChildren => exact decodeStatement_sealChildren passage
  | renderComponent name target => exact decodeStatement_renderComponent passage name target

/-- A body is read back as it was written. -/
theorem mapM_encodeStatements (passage : Passage) (body : List Statement) :
    (encodeStatements body).mapM (decodeStatement passage) = some body := by
  cases body with
  | nil => rfl
  | cons statement rest =>
      rw [encodeStatements, List.mapM_cons, decodeStatement_encodeStatement passage statement,
        mapM_encodeStatements passage rest]
      rfl

theorem mapM_encodeBranches (branches : List Branch) :
    (encodeBranches branches).mapM decodeBranch = some branches := by
  cases branches with
  | nil => rfl
  | cons branch rest =>
      obtain ⟨condition, body⟩ := branch
      have hbody := mapM_encodeStatements .copied body
      obtain ⟨field, hfields, hfield⟩ := fields?_object
        [("condition", encodeLookup condition), ("body", .array (encodeStatements body))]
        (by simp [Bindings.names]) ["condition", "body"]
      obtain ⟨_, hcondition⟩ := hfield "condition" _ rfl
      obtain ⟨_, hlisted⟩ := hfield "body" _ rfl
      rw [encodeBranches, List.mapM_cons, mapM_encodeBranches rest, decodeBranch]
      simp [hfields, hcondition, hlisted, decodeLookup_encodeLookup, items?_array, hbody]

end

theorem encodeBranches_eq_map (branches : List Branch) :
    encodeBranches branches = branches.map encodeBranch := by
  induction branches with
  | nil => rfl
  | cons branch rest ih =>
      obtain ⟨condition, body⟩ := branch
      rw [encodeBranches, List.map_cons, ih]
      rfl

theorem decodeBranch_encodeBranch (branch : Branch) :
    decodeBranch (encodeBranch branch) = some branch := by
  have hread := mapM_encodeBranches [branch]
  rw [encodeBranches_eq_map, List.map_singleton, List.mapM_cons, List.mapM_nil] at hread
  cases hbranch : decodeBranch (encodeBranch branch) with
  | none => simp [hbranch] at hread
  | some other => simpa [hbranch] using hread

theorem decodeChildren_encodeChildren (passage : Passage) (body : List Statement) :
    decodeChildren passage (encodeChildren body) = some body := by
  obtain ⟨field, hfields, hfield⟩ := fields?_object
    [("statements", .array (encodeStatements body))] (by simp [Bindings.names]) ["statements"]
  obtain ⟨_, hlisted⟩ := hfield "statements" _ rfl
  simp [decodeChildren, encodeChildren, decodeStatements, hfields, hlisted, items?_array,
    mapM_encodeStatements]

/-! ## Tags and configurations -/

mutual

theorem decodeFragment_encodeFragment (passage : Passage) (fragment : Fragment) :
    decodeFragment passage (encodeFragment fragment) = some fragment := by
  have hkind : "value" ≠ "kind" := by decide
  rw [decodeFragment]
  cases fragment with
  | literal text =>
      obtain ⟨_, hcase⟩ := tagged?_encodeCase hkind passage "literal" (.string text) fragmentNames
      rw [encodeFragment, hcase]
      rfl
  | value lookup =>
      obtain ⟨_, hcase⟩ :=
        tagged?_encodeCase hkind passage "call" (encodeLookup lookup) fragmentNames
      rw [encodeFragment, hcase]
      exact congrArg (Option.map Fragment.value) (decodeLookup_encodeLookup passage lookup)
  | opener kind =>
      obtain ⟨_, hcase⟩ :=
        tagged?_encodeCase hkind passage "opener" (encodeOpener kind) fragmentNames
      rw [encodeFragment, hcase]
      exact congrArg (Option.map Fragment.opener) (decodeOpener_encodeOpener passage kind)
  | branch guard body =>
      have hbody := mapM_encodeFragments passage body
      obtain ⟨field, hfields, hfield⟩ := fields?_object
        [("guard", encodeGuard guard), ("body", .array (encodeFragments body))]
        (by simp [Bindings.names]) ["guard", "body"]
      obtain ⟨_, hguard⟩ := hfield "guard" _ rfl
      obtain ⟨_, hlisted⟩ := hfield "body" _ rfl
      obtain ⟨_, hcase⟩ := tagged?_encodeCase hkind passage "branch"
        (.object [("guard", encodeGuard guard), ("body", .array (encodeFragments body))])
        fragmentNames
      have hread : decodeNullable (encodeGuard guard) (decodeLookup passage) = some guard := by
        cases guard with
        | none => rfl
        | some lookup => exact congrArg (Option.map some) (decodeLookup_encodeLookup passage lookup)
      rw [encodeFragment, hcase]
      simp [branchFields?, hfields, hguard, hlisted, decodeOr, hread, items?_array, hbody]

theorem mapM_encodeFragments (passage : Passage) (body : List Fragment) :
    (encodeFragments body).mapM (decodeFragment passage) = some body := by
  cases body with
  | nil => rfl
  | cons fragment rest =>
      rw [encodeFragments, List.mapM_cons, decodeFragment_encodeFragment passage fragment,
        mapM_encodeFragments passage rest]
      rfl

end

/-- A line number that fits, or its absence, is read back as it was written. -/
theorem decodeNullable_encodeLine {line : Option Nat} (h : LineFits line) :
    decodeNullable (encodeLine line) decodeLine = some line := by
  cases line with
  | none => rfl
  | some number =>
      have hfits : number < Nat.pow 2 64 := h number rfl
      simp [encodeLine, decodeNullable, decodeLine, hfits]

theorem decodeAttribute_encodeAttribute (passage : Passage) {given : Attribute}
    (h : LineFits given.line) : decodeAttribute passage (encodeAttribute given) = some given := by
  obtain ⟨field, hfields, hfield⟩ := fields?_object
    [("name", .string given.name), ("value", .array (encodeFragments given.value)),
      ("line", encodeLine given.line)] (by simp [Bindings.names]) ["name", "value", "line"]
  obtain ⟨_, hname⟩ := hfield "name" _ rfl
  obtain ⟨_, hvalue⟩ := hfield "value" _ rfl
  obtain ⟨_, hline⟩ := hfield "line" _ rfl
  simp [decodeAttribute, encodeAttribute, hfields, hname, hvalue, hline, decodeString, decodeOr,
    decodeLineField, items?_array, mapM_encodeFragments, decodeNullable_encodeLine h]

/-- A production whose lines fit is read back as it was written. -/
theorem decodeProduction_encodeProduction (passage : Passage) {production : Production}
    (h : production.Fits) :
    decodeProduction passage (encodeProduction production) = some production := by
  obtain ⟨field, hfields, hfield⟩ := fields?_object
    [("name", .string production.name),
      ("attributes", .array (production.attributes.map encodeAttribute)),
      ("children", (production.children.map encodeChildren).getD .null),
      ("line", encodeLine production.line)]
    (by simp [Bindings.names]) ["name", "attributes", "children", "line"]
  obtain ⟨_, hname⟩ := hfield "name" _ rfl
  obtain ⟨_, hlisted⟩ := hfield "attributes" _ rfl
  obtain ⟨_, hchildren⟩ := hfield "children" _ rfl
  obtain ⟨_, hline⟩ := hfield "line" _ rfl
  have hattributes : (production.attributes.map encodeAttribute).mapM (decodeAttribute passage) =
      some production.attributes :=
    mapM_map_of_forall fun given hgiven =>
      decodeAttribute_encodeAttribute passage (h.attributes given hgiven)
  have hread : decodeNullable ((production.children.map encodeChildren).getD .null)
      (decodeChildren passage) = some production.children := by
    cases production.children with
    | none => rfl
    | some body => exact congrArg (Option.map some) (decodeChildren_encodeChildren passage body)
  unfold decodeProduction encodeProduction
  simp only [hfields, hname, hlisted, hchildren, hline, decodeString, decodeOr, decodeLineField,
    items?_array, hattributes, hread, decodeNullable_encodeLine h.line, Option.bind_eq_bind,
    Option.bind_some, Option.pure_def]

theorem decodeConfig_encodeConfig (config : Config) :
    decodeConfig (encodeConfig config) = some config := by
  obtain ⟨field, hfields, hfield⟩ := fields?_object
    [("componentPaths", encodeStrings config.componentPaths)] (by simp [Bindings.names])
    ["componentPaths"]
  obtain ⟨_, hpaths⟩ := hfield "componentPaths" _ rfl
  simp [decodeConfig, encodeConfig, hfields, hpaths, decodeOr, decodeStrings_encodeStrings]

/-! ## Files of tags -/

theorem readable_encodeGuard (guard : Option Lookup) : (encodeGuard guard).readable = true := by
  cases guard with
  | none => rfl
  | some lookup => exact readable_encodeLookup lookup

mutual

theorem readable_encodeFragment (fragment : Fragment) :
    (encodeFragment fragment).readable = true := by
  cases fragment with
  | literal text => rfl
  | value lookup =>
      simp [encodeFragment, encodeCase, readable, readableMembers, readable_encodeLookup]
  | branch guard body =>
      simp [encodeFragment, encodeCase, readable, readableMembers, readable_encodeGuard,
        readable_encodeFragments body]
  | opener kind =>
      cases kind with
      | choice => rfl
      | loop => rfl

theorem readable_encodeFragments (body : List Fragment) :
    readableItems (encodeFragments body) = true := by
  cases body with
  | nil => rfl
  | cons fragment rest =>
      rw [encodeFragments, readableItems, readable_encodeFragment fragment,
        readable_encodeFragments rest]
      rfl

end

theorem readable_encodeLine (line : Option Nat) : (encodeLine line).readable = true := by
  cases line with
  | none => rfl
  | some number => rfl

theorem readable_encodeAttribute (given : Attribute) : (encodeAttribute given).readable = true := by
  simp [encodeAttribute, readable, readableMembers, readable_encodeFragments, readable_encodeLine]

theorem readable_encodeProduction (production : Production) :
    (encodeProduction production).readable = true := by
  have hattributes : readableItems (production.attributes.map encodeAttribute) = true := by
    rw [readableItems_iff]
    intro item hitem
    obtain ⟨given, _, rfl⟩ := List.mem_map.1 hitem
    exact readable_encodeAttribute given
  have hchildren : ((production.children.map encodeChildren).getD .null).readable = true := by
    cases production.children with
    | none => rfl
    | some body => simp [encodeChildren, readable, readableMembers, readable_encodeStatements]
  simp [encodeProduction, readable, readableMembers, hattributes, hchildren, readable_encodeLine]

/-- A tag that is written as an array begins with its name. -/
theorem head?_of_decodeProduction {passage : Passage} {items : List Json} {production : Production}
    (h : decodeProduction passage (.array items) = some production) :
    items.head? = some (.string production.name) := by
  simp only [decodeProduction, Option.bind_eq_bind, Option.bind_eq_some_iff] at h
  obtain ⟨field, hfields, name, hname, text, htext, _, _, _, _, _, _, hproduction⟩ := h
  obtain rfl : text = production.name := by
    rw [← Option.some.inj hproduction]
  have hfirst : (parts items)[0]? = some name := by
    simp only [fields?, Option.ite_none_right_eq_some, Option.some.injEq] at hfields
    rw [← hfields.2] at hname
    exact hname
  have hhead : items.head? = some name.1 := by
    have hmapped := congrArg List.head? (map_parts items)
    rw [List.head?_map, List.head?_eq_getElem?, hfirst] at hmapped
    exact hmapped.symm
  rw [hhead]
  cases hvalue : name.1 with
  | string value =>
      rw [hvalue, decodeString] at htext
      rw [Option.some.inj htext]
  | null | bool | number | array | object | invalid => simp [hvalue, decodeString] at htext

/-- A text is no tag, so that no list of tags begins with a name as a tag does. -/
theorem decodeProductions_exclusive (passage : Passage) (json : Json) :
    json.items? (fun part => decodeProduction passage part.1) = none ∨
      decodeProduction passage json = none := by
  rw [or_iff_not_imp_right]
  intro hsingle
  obtain ⟨production, hproduction⟩ := Option.ne_none_iff_exists'.1 hsingle
  cases json with
  | array items =>
      have hhead := head?_of_decodeProduction hproduction
      obtain ⟨first, rest, rfl⟩ := List.ne_nil_iff_exists_cons.1
        (show items ≠ [] by rintro rfl; simp at hhead)
      rw [List.head?_cons, Option.some.injEq] at hhead
      subst hhead
      rw [items?_array, List.mapM_cons]
      rfl
  | null | bool | number | string | object | invalid => rfl

/-- **Round trip**: every value that has a JSON form is read back from it, whichever way the reader
comes by it. A file is read as the tags that it was written from, be it a list or a single tag; no
value is both a list of tags and a tag, so it does not matter which of the two is tried first. -/
theorem decode_encode (passage : Passage) :
    (∀ production : Production, production.Fits →
      decodeProduction passage (encodeProduction production) = some production) ∧
    (∀ given : Attribute, LineFits given.line →
      decodeAttribute passage (encodeAttribute given) = some given) ∧
    (∀ fragment, decodeFragment passage (encodeFragment fragment) = some fragment) ∧
    (∀ lookup, decodeLookup passage (encodeLookup lookup) = some lookup) ∧
    (∀ step, decodeStep (encodeStep step) = some step) ∧
    (∀ body, decodeChildren passage (encodeChildren body) = some body) ∧
    (∀ statement, decodeStatement passage (encodeStatement statement) = some statement) ∧
    (∀ branch, decodeBranch (encodeBranch branch) = some branch) ∧
    (∀ target, decodeTarget passage (encodeTarget target) = some target) ∧
    (∀ value, decodeExpr passage (encodeExpr value) = some value) ∧
    (∀ config, decodeConfig (encodeConfig config) = some config) ∧
    (∀ productions : List Production, (∀ production ∈ productions, production.Fits) →
      decodeProductions (.array (productions.map encodeProduction)) = some productions) ∧
    (∀ production : Production, production.Fits →
      decodeProductions (encodeProduction production) = some [production]) ∧
    ∀ json : Json,
      (json.items? (fun part => decodeProduction passage part.1) = none ∨
        decodeProduction passage json = none) ∧
      decodeProductions json =
        if json.readable then
          (decodeProduction .shared json).map (fun production => [production]) <|>
            json.items? (fun part => decodeProduction .shared part.1)
        else none := by
  refine ⟨fun _ => decodeProduction_encodeProduction passage,
    fun _ => decodeAttribute_encodeAttribute passage, decodeFragment_encodeFragment passage,
    decodeLookup_encodeLookup passage, decodeStep_encodeStep, decodeChildren_encodeChildren passage,
    decodeStatement_encodeStatement passage, decodeBranch_encodeBranch,
    decodeTarget_encodeTarget passage, decodeExpr_encodeExpr passage, decodeConfig_encodeConfig,
    ?list, ?single, fun json => ⟨decodeProductions_exclusive passage json, ?order⟩⟩
  case list =>
    intro productions hfits
    have hreadable : (Json.array (productions.map encodeProduction)).readable = true := by
      rw [readable, readableItems_iff]
      intro item hitem
      obtain ⟨production, _, rfl⟩ := List.mem_map.1 hitem
      exact readable_encodeProduction production
    have hlist : (productions.map encodeProduction).mapM (decodeProduction .shared) =
        some productions :=
      mapM_map_of_forall fun production hmem =>
        decodeProduction_encodeProduction .shared (hfits production hmem)
    rw [decodeProductions, if_pos hreadable, items?_array, hlist]
    rfl
  case single =>
    intro production hfits
    have hlist : (encodeProduction production).items?
        (fun part => decodeProduction .shared part.1) = none := rfl
    rw [decodeProductions, if_pos (readable_encodeProduction production), hlist,
      decodeProduction_encodeProduction .shared hfits]
    rfl
  case order =>
    unfold decodeProductions
    rcases decodeProductions_exclusive .shared json with hlist | hsingle
    · rw [hlist]
      simp
    · rw [hsingle]
      simp

/-- A tag with a guarded part inside a guarded part, a choice in its inner markup and the greatest
line that fits. -/
def tabsTag : Production where
  name := "ui/tabs"
  attributes :=
    [{ name := "' title \"", line := some (Nat.pow 2 64 - 1), value :=
        [.literal "kind", .opener .loop,
          .branch (some { steps := [⟨"user.name", ["a'b", "\\"]⟩], mode := .object })
            [.branch none [.value { steps := [] }, .literal "\x7d"]]] }]
  children := some
    [.choose [⟨{ steps := [⟨"open", []⟩] }, [.append .page (.literal "\n")]⟩]
        (some [.renderComponent "icon" .children]),
      .choose [] none, .within { steps := [⟨"x", []⟩] } [.loop { steps := [] } [.beginProps]]]
  line := some 0

/-- The tag, alone in a file and in a list with another one, is read back. -/
theorem decode_encode_tabsTag :
    tabsTag.Fits ∧
      decodeProductions (.array ([tabsTag, { name := "b" }].map encodeProduction)) =
        some [tabsTag, { name := "b" }] ∧
      decodeProductions (encodeProduction tabsTag) = some [tabsTag] := by
  have hfits : tabsTag.Fits :=
    { line := by simp [LineFits, tabsTag]
      attributes := by simp [LineFits, tabsTag] }
  have hplain : Production.Fits { name := "b" } :=
    { line := by simp [LineFits]
      attributes := by simp }
  obtain ⟨-, -, -, -, -, -, -, -, -, -, -, hlist, hsingle, -⟩ := decode_encode .direct
  refine ⟨hfits, hlist _ ?_, hsingle tabsTag hfits⟩
  simp [hfits, hplain]

end ComponentTemplates

/-
Module: ComponentTemplates.Proofs.Invocation.Shape
Purpose: What the code of a tag looks like. A tag names properties, each at its first mention, and gives
  each of them the value of the last attribute that names it. If the tag compiles at all, its code is
  one block for each of these properties, in order, then the block of the inner markup, between the
  start of a map of properties and the rendering of the component (`statements_of_compile`). No part
  of it but the rendering writes to the page (`retargetAll_statements`).
Main exports: Production.propertyNames, Production.given, Production.innerMarkup,
  Production.statements_of_compile, Production.retargetAll_statements
-/
import ComponentTemplates.Invocation.Basic
import ComponentTemplates.Proofs.Bindings
import ComponentTemplates.Proofs.Except
import ComponentTemplates.Proofs.Statement.Retarget

namespace ComponentTemplates

namespace Production

/-- The properties that the attributes name, in the order of their first mention. -/
def propertyNames (production : Production) : List String :=
  (production.attributes.map Attribute.property).eraseDups

/-- The value of the last attribute that names the property. -/
def given (production : Production) (name : String) : List Fragment :=
  ((production.attributes.filter fun given => given.property = name).getLast?.map (·.value)).getD []

/-- The inner markup; none is the same as no statements. -/
def innerMarkup (production : Production) : List Statement :=
  production.children.getD []

/-- The block that makes one of the properties. -/
def propertyBlock (production : Production) (name : String) : List Statement :=
  normalizeProperty name (Fragment.assembleAll name false (production.given name))

/-- The block that makes the inner markup a property, if there is inner markup. -/
def childrenBlock (production : Production) : List Statement :=
  if production.innerMarkup = [] then [] else compileChildren production.innerMarkup

end Production

/-- The block that an attribute alone stands for, with the name of its property. -/
def Attribute.block (given : Attribute) : String × List Statement :=
  (given.property, normalizeProperty given.property
    (Fragment.assembleAll given.property false given.value))

/-- What an attribute's value is appended as, once it is accepted. -/
theorem assembleProperty_eq_ok {component property : String} {given : Attribute}
    {appends : List Statement} (h : assembleProperty component property given = .ok appends) :
    appends = Fragment.assembleAll property false given.value := by
  unfold assembleProperty at h
  split at h
  · cases h
  · split at h
    · cases h
    · injection h with happends
      exact happends.symm

/-- One more attribute, behind those whose blocks are there already. -/
def Production.addAttribute (component : String) (properties : Bindings (List Statement))
    (given : Attribute) : Except CompileError (Bindings (List Statement)) := do
  let appends ← assembleProperty component given.property given
  return Bindings.insert properties given.property (normalizeProperty given.property appends)

/-- Attributes that are compiled have their blocks bound to their properties. -/
theorem Production.compileAttributes_eq_ok {component : String} {attributes : List Attribute}
    {properties : Bindings (List Statement)}
    (h : compileAttributes component attributes = .ok properties) :
    properties = Bindings.ofList (attributes.map Attribute.block) := by
  have hfold : ∀ (rest : List Attribute) (before : Bindings (List Statement)),
      rest.foldlM (addAttribute component) before = .ok properties →
      properties = (rest.map Attribute.block).foldl
        (fun bindings pair => Bindings.insert bindings pair.1 pair.2) before := by
    intro rest
    induction rest with
    | nil =>
        intro before hrun
        injection hrun with hbefore
        exact hbefore.symm
    | cons first rest ih =>
        intro before hrun
        rw [List.foldlM_cons] at hrun
        obtain ⟨next, hnext, hrest⟩ := bind_eq_ok.1 hrun
        obtain ⟨appends, happends, hok⟩ := bind_eq_ok.1 hnext
        rw [assembleProperty_eq_ok happends] at hok
        injection hok with hnext
        subst hnext
        exact ih _ hrest
  exact hfold attributes [] h

/-- The last attribute of a property decides which block it has. -/
theorem Production.lastValue?_blocks (attributes : List Attribute) (name : String) :
    Bindings.lastValue? (attributes.map Attribute.block) name =
      (attributes.filter fun given => given.property = name).getLast?.map fun given =>
        normalizeProperty name (Fragment.assembleAll name false given.value) := by
  have hfilter : (attributes.map Attribute.block).filter (fun pair => pair.1 = name) =
      (attributes.filter fun given => given.property = name).map Attribute.block := by
    simp only [List.filter_map, Function.comp_def]
    rfl
  rw [Bindings.lastValue?, hfilter, List.getLast?_map, Option.map_map]
  apply Option.map_congr
  intro given hlast
  have hname : given.property = name := by
    simpa using (List.mem_filter.1 (List.mem_of_getLast? hlast)).2
  simp [Attribute.block, hname]

namespace Production

variable {production : Production}

/-- The blocks of the attributes, one for each property. -/
theorem ofList_blocks (production : Production) :
    Bindings.ofList (production.attributes.map Attribute.block) =
      production.propertyNames.map fun name => (name, production.propertyBlock name) := by
  rw [Bindings.ofList_eq_map, List.map_map]
  apply List.map_congr_left
  intro name hname
  have hmem : ∃ given ∈ production.attributes, given.property = name := by
    simpa [Attribute.block, List.mem_eraseDups] using hname
  obtain ⟨given, hgiven, hproperty⟩ := hmem
  have hin : given ∈ production.attributes.filter fun given => given.property = name :=
    List.mem_filter.2 ⟨hgiven, by simpa using hproperty⟩
  have hne := List.ne_nil_of_mem hin
  obtain ⟨last, hlast⟩ := Option.isSome_iff_exists.1 (List.getLast?_isSome.2 hne)
  rw [lastValue?_blocks, propertyBlock, Production.given, hlast]
  rfl

theorem contains_ofList_blocks (production : Production) (name : String) :
    Bindings.contains (Bindings.ofList (production.attributes.map Attribute.block)) name = true ↔
      name ∈ production.propertyNames := by
  rw [ofList_blocks, Bindings.contains_iff_mem_names]
  simp [Bindings.names]

theorem nodup_propertyNames (production : Production) : production.propertyNames.Nodup :=
  Bindings.nodup_eraseDups _

/-- Inner markup, if there is any, joins the properties under its name, which must be free. -/
theorem addChildren_eq (production : Production) (properties : Bindings (List Statement)) :
    production.addChildren properties =
      if production.innerMarkup = [] then .ok properties
      else if Bindings.contains properties childrenProperty then
        .error (.childrenCollision production.name production.line)
      else .ok (Bindings.insert properties childrenProperty
        (compileChildren production.innerMarkup)) := by
  obtain ⟨name, attributes, children, line⟩ := production
  cases children with
  | none => rfl
  | some statements =>
      cases statements with
      | nil => rfl
      | cons statement rest => rfl

/-- What the inner markup adds to the properties, if it may. -/
theorem addChildren_eq_ok {properties after : Bindings (List Statement)}
    (h : production.addChildren properties = .ok after) :
    after.flatMap (·.2) = properties.flatMap (·.2) ++ production.childrenBlock ∧
      (production.innerMarkup ≠ [] → Bindings.contains properties childrenProperty = false) := by
  rw [addChildren_eq] at h
  by_cases hinner : production.innerMarkup = []
  · rw [if_pos hinner] at h
    cases h
    simp [childrenBlock, hinner]
  · rw [if_neg hinner] at h
    split at h
    · cases h
    next hcontains =>
      rw [Bool.not_eq_true] at hcontains
      cases h
      simp [Bindings.insert_of_not_contains hcontains, childrenBlock, hinner, hcontains]

/-- The code of a tag that compiles. Inner markup and a property of its name exclude each other. -/
theorem statements_of_compile {invocation : Invocation}
    (h : production.compile = .ok invocation) :
    invocation.statements =
        .beginProps :: (production.propertyNames.flatMap production.propertyBlock ++
          production.childrenBlock ++ [.renderComponent production.name .page]) ∧
      (production.innerMarkup ≠ [] → childrenProperty ∉ production.propertyNames) := by
  obtain ⟨properties, hattributes, h⟩ := bind_eq_ok.1 h
  obtain ⟨after, hchildren, h⟩ := bind_eq_ok.1 h
  have hproperties := compileAttributes_eq_ok hattributes
  obtain ⟨hafter, hcollision⟩ := addChildren_eq_ok hchildren
  injection h with hinvocation
  constructor
  · rw [← hinvocation]
    simp only [List.cons_append]
    rw [hafter, hproperties, ofList_blocks, List.flatMap_map]
  · intro hinner hmem
    have hcontains := hcollision hinner
    rw [hproperties] at hcontains
    rw [← contains_ofList_blocks, hcontains] at hmem
    cases hmem

end Production

mutual

/-- The parts of a property go to that property, wherever the tag stands. -/
theorem retargetAll_assemble (target : Target) (name : String) (guarded : Bool)
    (fragment : Fragment) :
    Statement.retargetAll target (fragment.assemble name guarded) =
      fragment.assemble name guarded := by
  cases fragment with
  | literal text =>
      rw [Fragment.assemble]
      split
      · rfl
      · rfl
  | value lookup => rfl
  | branch guard body =>
      cases guard with
      | none =>
          rw [Fragment.assemble]
          exact retargetAll_assembleAll target name guarded body
      | some guard =>
          rw [Fragment.assemble]
          have hbody := retargetAll_assembleAll target name true body
          cases hassembled : Fragment.assembleAll name true body with
          | nil => rfl
          | cons statement rest =>
              rw [hassembled] at hbody
              simp only [Statement.retargetAll, Statement.retarget, Statement.retargetBranches]
                at hbody ⊢
              rw [hbody]
  | opener kind => rfl

/-- The statements for parts of an attribute write to their property only, so redirecting leaves them
alone. -/
theorem retargetAll_assembleAll (target : Target) (name : String) (guarded : Bool)
    (fragments : List Fragment) :
    Statement.retargetAll target (Fragment.assembleAll name guarded fragments) =
      Fragment.assembleAll name guarded fragments := by
  cases fragments with
  | nil => rfl
  | cons fragment rest =>
      rw [Fragment.assembleAll, Statement.retargetAll_append,
        retargetAll_assemble target name guarded fragment,
        retargetAll_assembleAll target name guarded rest]

end

namespace Production

variable (production : Production) (target : Target)

theorem retargetAll_propertyBlock (name : String) :
    Statement.retargetAll target (production.propertyBlock name) = production.propertyBlock name := by
  rw [propertyBlock, normalizeProperty, List.cons_append, Statement.retargetAll,
    Statement.retargetAll_append, retargetAll_assembleAll]
  rfl

theorem retargetAll_propertyBlocks (names : List String) :
    Statement.retargetAll target (names.flatMap production.propertyBlock) =
      names.flatMap production.propertyBlock := by
  induction names with
  | nil => rfl
  | cons name rest ih =>
      rw [List.flatMap_cons, Statement.retargetAll_append, ih,
        retargetAll_propertyBlock production target name]

theorem retargetAll_childrenBlock :
    Statement.retargetAll target production.childrenBlock = production.childrenBlock := by
  rw [childrenBlock]
  split
  · rfl
  · rw [compileChildren, List.cons_append, Statement.retargetAll, Statement.retargetAll_append,
      Statement.retargetAll_children]
    rfl

/-- Of the code of a tag only the rendering of the component is retargeted. -/
theorem retargetAll_statements {production : Production} {invocation : Invocation}
    (h : production.compile = .ok invocation) :
    Statement.retargetAll target invocation.statements =
      .beginProps :: (production.propertyNames.flatMap production.propertyBlock ++
        production.childrenBlock ++ [.renderComponent production.name target]) := by
  rw [(statements_of_compile h).1, Statement.retargetAll, Statement.retargetAll_append,
    Statement.retargetAll_append, retargetAll_propertyBlocks, retargetAll_childrenBlock]
  rfl

end Production

end ComponentTemplates

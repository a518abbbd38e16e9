/-
Module: ComponentTemplates.Proofs.Invocation.Verdict
Purpose: Which tags compile, and what is wrong with the others. A tag is refused for its first attribute
  that holds the opening of a block, whether or not a later attribute takes its place, and otherwise for
  a property that has the name of its inner markup. The code of any other tag has one block for each
  property, and in it all that the last attribute of that name gives, in order and under its guards
  (`Production.compile_verdict`).
Main exports: Fragment.leaves, Statement.Adds, adds_assembleAll, Production.Blames,
  Production.Acceptable, Production.compile_verdict
-/
import ComponentTemplates.Proofs.Invocation.Openings
import ComponentTemplates.Proofs.Invocation.Shape

namespace ComponentTemplates

/-! ## What an attribute gives to its property -/

/-- A text or a lookup, with the guards that it stands behind, the outermost first. -/
structure Leaf where
  guards : List Lookup := []
  value : Expr

namespace Leaf

/-- The leaf behind one more guard. -/
def behind (guard : Lookup) (leaf : Leaf) : Leaf :=
  { leaf with guards := guard :: leaf.guards }

/-- The leaf with a lookup that asks for the value itself. -/
def asValue (leaf : Leaf) : Leaf :=
  match leaf.value with
  | .literal _ => leaf
  | .value lookup => { leaf with value := .value (lookup.withMode .object) }

theorem asValue_asValue (leaf : Leaf) : leaf.asValue.asValue = leaf.asValue := by
  obtain ⟨guards, value⟩ := leaf
  cases value with
  | literal text => rfl
  | value lookup => rfl

/-- It does not matter whether a leaf asks for the value itself before or after it gets a guard. -/
theorem asValue_behind (guard : Lookup) (leaf : Leaf) :
    (leaf.behind guard).asValue = leaf.asValue.behind guard := by
  obtain ⟨guards, value⟩ := leaf
  cases value with
  | literal text => rfl
  | value lookup => rfl

end Leaf

namespace Fragment

mutual

/-- What a part holds: its texts, but for empty ones, and its lookups, which behind a guard ask for the
value itself. -/
def leaves : Fragment → List Leaf
  | .literal text => if text.isEmpty then [] else [{ value := .literal text }]
  | .value lookup => [{ value := .value lookup }]
  | .branch none body => leavesAll body
  | .branch (some guard) body => (leavesAll body).map fun leaf => leaf.asValue.behind guard
  | .opener _ => []
termination_by structural fragment => fragment

/-- What parts hold one after another. -/
def leavesAll : List Fragment → List Leaf
  | [] => []
  | fragment :: rest => fragment.leaves ++ leavesAll rest
termination_by structural fragments => fragments

end

end Fragment

/-- The statements add leaves to a property, in order, and do nothing else: those behind a guard in a
choice with this guard, and no choice is empty. -/
inductive Statement.Adds (property : String) : List Statement → List Leaf → Prop where
  | nil : Adds property [] []
  | append {rest : List Statement} {more : List Leaf} (value : Expr)
      (hrest : Adds property rest more) :
      Adds property (.append (.property property) value :: rest) ({ value } :: more)
  | choose {body rest : List Statement} {inner more : List Leaf} (guard : Lookup)
      (hbody : Adds property body inner) (hinner : inner ≠ [])
      (hrest : Adds property rest more) :
      Adds property (.choose [⟨guard, body⟩] none :: rest) (inner.map (Leaf.behind guard) ++ more)

namespace Statement.Adds

variable {property : String} {first second : List Statement} {leaves more : List Leaf}

/-- Statements one after the other add their leaves one after the other. -/
theorem concat (hfirst : Adds property first leaves) (hsecond : Adds property second more) :
    Adds property (first ++ second) (leaves ++ more) := by
  induction hfirst with
  | nil => exact hsecond
  | append value _ ih => exact .append value ih
  | choose guard hbody hinner _ _ ih =>
      rw [List.append_assoc]
      exact .choose guard hbody hinner ih

theorem eq_nil (h : Adds property [] leaves) : leaves = [] := by
  cases h
  rfl

theorem ne_nil {statement : Statement} (h : Adds property (statement :: first) leaves) :
    leaves ≠ [] := by
  cases h with
  | append value _ => exact List.cons_ne_nil _ _
  | choose guard _ hinner _ =>
      exact List.append_ne_nil_of_left_ne_nil (by simpa using hinner) _

end Statement.Adds

mutual

/-- A fragment is assembled to statements that add its leaves. -/
theorem adds_assemble (property : String) (guarded : Bool) (fragment : Fragment) :
    Statement.Adds property (fragment.assemble property guarded)
      (if guarded then fragment.leaves.map Leaf.asValue else fragment.leaves) := by
  cases fragment with
  | literal text =>
      rw [Fragment.assemble, Fragment.leaves]
      by_cases hempty : text.isEmpty = true
      · cases guarded <;> simpa [hempty] using .nil
      · cases guarded <;> simpa [hempty] using .append _ .nil
  | value lookup => cases guarded <;> exact .append _ .nil
  | branch guard body =>
      cases guard with
      | none => exact adds_assembleAll property guarded body
      | some guard =>
          have hbody : Statement.Adds property (Fragment.assembleAll property true body)
              ((Fragment.leavesAll body).map Leaf.asValue) :=
            adds_assembleAll property true body
          have hleaves : (if guarded then (Fragment.branch (some guard) body).leaves.map Leaf.asValue
              else (Fragment.branch (some guard) body).leaves) =
                ((Fragment.leavesAll body).map Leaf.asValue).map (Leaf.behind guard) := by
            cases guarded <;>
              simp [Fragment.leaves, Leaf.asValue_behind, Leaf.asValue_asValue]
          rw [hleaves, Fragment.assemble]
          cases hstatements : Fragment.assembleAll property true body with
          | nil =>
              rw [hstatements] at hbody
              rw [hbody.eq_nil]
              exact .nil
          | cons statement rest =>
              rw [hstatements] at hbody
              have hchoice := Statement.Adds.choose guard hbody hbody.ne_nil .nil
              rwa [List.append_nil] at hchoice
  | opener kind => cases guarded <;> exact .nil

/-- The statements for several parts add the leaves of the parts, in order. -/
theorem adds_assembleAll (property : String) (guarded : Bool) (fragments : List Fragment) :
    Statement.Adds property (Fragment.assembleAll property guarded fragments)
      (if guarded then (Fragment.leavesAll fragments).map Leaf.asValue
        else Fragment.leavesAll fragments) := by
  cases fragments with
  | nil => cases guarded <;> exact .nil
  | cons fragment rest =>
      have hboth := (adds_assemble property guarded fragment).concat
        (adds_assembleAll property guarded rest)
      cases guarded with
      | false => exact hboth
      | true => simpa [Fragment.assembleAll, Fragment.leavesAll] using hboth

end

/-! ## Which attributes are refused -/

namespace Attribute

/-- No opening stands in the value of the attribute. -/
def Closed (given : Attribute) : Prop :=
  ∀ kind, ¬given.Opens kind

/-- An attribute without openings holds neither that of a choice nor that of a loop. -/
theorem closed_iff (given : Attribute) :
    given.Closed ↔ ¬given.Opens .choice ∧ ¬given.Opens .loop := by
  refine ⟨fun h => ⟨h .choice, h .loop⟩, ?_⟩
  rintro ⟨hchoice, hloop⟩ kind
  cases kind with
  | choice => exact hchoice
  | loop => exact hloop

end Attribute

section Assemble

variable {component property : String} {given : Attribute}

/-- An attribute with the opening of a choice is refused, whatever else it holds. -/
theorem assembleProperty_of_choice (h : given.Opens .choice) :
    assembleProperty component property given =
      .error (.missingEndIf property component given.line) := by
  rw [assembleProperty, if_pos ((given.anyOpener_iff .choice).2 h)]

theorem assembleProperty_of_loop (h : given.Opens .loop) (hchoice : ¬given.Opens .choice) :
    assembleProperty component property given =
      .error (.loopInProperty property component given.line) := by
  rw [← given.anyOpener_iff] at hchoice
  rw [assembleProperty, if_neg hchoice, if_pos ((given.anyOpener_iff .loop).2 h)]

theorem assembleProperty_of_closed (h : given.Closed) :
    assembleProperty component property given =
      .ok (Fragment.assembleAll property false given.value) := by
  obtain ⟨hchoice, hloop⟩ := given.closed_iff.1 h
  rw [← given.anyOpener_iff] at hchoice hloop
  rw [assembleProperty, if_neg hchoice, if_neg hloop]

end Assemble

namespace Production

/-- Attributes without openings are compiled one after another. -/
theorem foldlM_of_closed (component : String) {attributes : List Attribute}
    (h : ∀ given ∈ attributes, given.Closed) (properties : Bindings (List Statement)) :
    ∃ after, attributes.foldlM (addAttribute component) properties = .ok after := by
  induction attributes generalizing properties with
  | nil => exact ⟨properties, rfl⟩
  | cons given rest ih =>
      obtain ⟨hgiven, hrest⟩ := List.forall_mem_cons.1 h
      rw [List.foldlM_cons, addAttribute, assembleProperty_of_closed hgiven]
      exact ih hrest _

/-- The attributes are read up to the first one that is refused. -/
theorem compileAttributes_of_refused {component : String} {before after : List Attribute}
    {given : Attribute} {error : CompileError} (hbefore : ∀ other ∈ before, other.Closed)
    (hgiven : assembleProperty component given.property given = .error error) :
    compileAttributes component (before ++ given :: after) = .error error := by
  obtain ⟨properties, hproperties⟩ := foldlM_of_closed component hbefore []
  change (before ++ given :: after).foldlM (addAttribute component) [] = .error error
  rw [List.foldlM_append, hproperties, ok_bind, List.foldlM_cons, addAttribute, hgiven]
  rfl

/-! ## The verdict on a tag -/

variable (production : Production)

/-- The error that a tag is refused with. -/
inductive Blames : CompileError → Prop where
  /-- The first attribute that holds an opening holds that of a choice. -/
  | missingEndIf {before after : List Attribute} {given : Attribute}
      (hsplit : production.attributes = before ++ given :: after)
      (hbefore : ∀ other ∈ before, other.Closed) (hchoice : given.Opens .choice) :
      Blames (.missingEndIf given.property production.name given.line)
  /-- It holds that of a loop, and none of a choice. -/
  | loopInProperty {before after : List Attribute} {given : Attribute}
      (hsplit : production.attributes = before ++ given :: after)
      (hbefore : ∀ other ∈ before, other.Closed) (hloop : given.Opens .loop)
      (hchoice : ¬given.Opens .choice) :
      Blames (.loopInProperty given.property production.name given.line)
  /-- No attribute holds an opening, and one has the name of the inner markup that is there. -/
  | childrenCollision {given : Attribute}
      (hclosed : ∀ given ∈ production.attributes, given.Closed)
      (hinner : production.innerMarkup ≠ []) (hgiven : given ∈ production.attributes)
      (hname : given.property = childrenProperty) :
      Blames (.childrenCollision production.name production.line)

/-- No attribute holds an opening, and none has the name of inner markup that is there. -/
def Acceptable : Prop :=
  (∀ given ∈ production.attributes, given.Closed) ∧
    (production.innerMarkup = [] ∨
      ∀ given ∈ production.attributes, given.property ≠ childrenProperty)

variable {production}

theorem compileAttributes_of_closed (h : ∀ given ∈ production.attributes, given.Closed) :
    compileAttributes production.name production.attributes =
      .ok (Bindings.ofList (production.attributes.map Attribute.block)) := by
  obtain ⟨properties, hproperties⟩ := foldlM_of_closed production.name h []
  have hok : compileAttributes production.name production.attributes = .ok properties := hproperties
  rw [hok, compileAttributes_eq_ok hok]

theorem mem_propertyNames (name : String) :
    name ∈ production.propertyNames ↔ ∃ given ∈ production.attributes, given.property = name := by
  rw [propertyNames, List.mem_eraseDups, List.mem_map]

theorem compile_of_blames {error : CompileError} (h : production.Blames error) :
    production.compile = .error error := by
  unfold compile
  cases h with
  | missingEndIf hsplit hbefore hchoice =>
      rw [hsplit, compileAttributes_of_refused hbefore (assembleProperty_of_choice hchoice)]
      rfl
  | loopInProperty hsplit hbefore hloop hchoice =>
      rw [hsplit, compileAttributes_of_refused hbefore (assembleProperty_of_loop hloop hchoice)]
      rfl
  | childrenCollision hclosed hinner hgiven hname =>
      have hcontains := (production.contains_ofList_blocks childrenProperty).2
        ((mem_propertyNames childrenProperty).2 ⟨_, hgiven, hname⟩)
      rw [compileAttributes_of_closed hclosed, ok_bind, addChildren_eq, if_neg hinner,
        if_pos hcontains]
      rfl

theorem compile_of_acceptable (h : production.Acceptable) :
    ∃ invocation, production.compile = .ok invocation := by
  obtain ⟨hclosed, hfree⟩ := h
  rw [compile, compileAttributes_of_closed hclosed, ok_bind, addChildren_eq]
  by_cases hinner : production.innerMarkup = []
  · rw [if_pos hinner]
    exact ⟨_, rfl⟩
  · have hcontains : ¬Bindings.contains
        (Bindings.ofList (production.attributes.map Attribute.block)) childrenProperty = true := by
      rw [contains_ofList_blocks, mem_propertyNames]
      rintro ⟨given, hgiven, hname⟩
      exact hfree.resolve_left hinner given hgiven hname
    rw [if_neg hinner, if_neg hcontains]
    exact ⟨_, rfl⟩

/-- Either all attributes are closed or there is a first one that is not. -/
theorem closed_or_opens (attributes : List Attribute) :
    (∀ given ∈ attributes, given.Closed) ∨ ∃ before given after,
      attributes = before ++ given :: after ∧ (∀ other ∈ before, other.Closed) ∧ ¬given.Closed := by
  induction attributes with
  | nil => exact .inl (List.forall_mem_nil _)
  | cons first rest ih =>
      by_cases hfirst : first.Closed
      · rcases ih with hrest | ⟨before, given, after, rfl, hbefore, hgiven⟩
        · exact .inl (List.forall_mem_cons.2 ⟨hfirst, hrest⟩)
        · exact .inr ⟨first :: before, given, after, rfl, List.forall_mem_cons.2 ⟨hfirst, hbefore⟩,
            hgiven⟩
      · exact .inr ⟨[], first, rest, rfl, List.forall_mem_nil _, hfirst⟩

/-- Every tag is acceptable or to blame for an error. -/
theorem acceptable_or_blames (production : Production) :
    production.Acceptable ∨ ∃ error, production.Blames error := by
  rcases closed_or_opens production.attributes with
    hclosed | ⟨before, given, after, hsplit, hbefore, hgiven⟩
  · by_cases hfree : production.innerMarkup = [] ∨
        ∀ given ∈ production.attributes, given.property ≠ childrenProperty
    · exact .inl ⟨hclosed, hfree⟩
    · obtain ⟨hinner, hnames⟩ := not_or.1 hfree
      obtain ⟨given, hgiven, hname⟩ :
          ∃ given ∈ production.attributes, given.property = childrenProperty := by
        by_contra hnone
        exact hnames fun given hgiven hname => hnone ⟨given, hgiven, hname⟩
      exact .inr ⟨_, .childrenCollision hclosed hinner hgiven hname⟩
  · by_cases hchoice : given.Opens .choice
    · exact .inr ⟨_, .missingEndIf hsplit hbefore hchoice⟩
    · have hloop : given.Opens .loop := by
        by_contra hloop
        exact hgiven (given.closed_iff.2 ⟨hchoice, hloop⟩)
      exact .inr ⟨_, .loopInProperty hsplit hbefore hloop hchoice⟩

/-- Exactly the acceptable tags are compiled. -/
theorem compile_ok_iff :
    (∃ invocation, production.compile = .ok invocation) ↔ production.Acceptable := by
  refine ⟨?_, compile_of_acceptable⟩
  rintro ⟨invocation, hok⟩
  rcases acceptable_or_blames production with hacceptable | ⟨error, hblames⟩
  · exact hacceptable
  · exact absurd (hok.symm.trans (compile_of_blames hblames)) nofun

end Production

end ComponentTemplates

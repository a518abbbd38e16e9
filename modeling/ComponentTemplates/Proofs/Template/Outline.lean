/-
Module: ComponentTemplates.Proofs.Template.Outline
Purpose: The outline of a program is what a reader meets in it from top to bottom: text, insertions, and
  where blocks open, go on and close, with what each of them asks for. The parser neither adds to the
  outline of a template nor leaves anything out, so each tag that asks for something is found in the
  program at its place.
Main exports: Event, Statement.outlineAll, Token.event?, outlineAll_of_parseTokens
-/
import ComponentTemplates.Proofs.Template.Balance

namespace ComponentTemplates

namespace Template

/-- What a reader of a template meets. -/
inductive Event where
  | text (content : String)
  | insertion (lookup : Lookup)
  | opening (block : Block) (subject : Lookup)
  /-- A choice goes on with its next condition. -/
  | nextBranch (condition : Lookup)
  | otherwise
  | closing (block : Block)
deriving DecidableEq, Repr

/-- The text of an event, if it has one. -/
def Event.text? : Event → Option String
  | .text content => some content
  | _ => none

end Template

namespace Statement

open Template

mutual

/-- The events of a statement, those of its bodies in their places. -/
def outline : Statement → List Event
  | .append _ (.literal text) => [.text text]
  | .append _ (.value lookup) => [.insertion lookup]
  | .choose branches none => outlineBranches (.opening .choice) branches ++ [.closing .choice]
  | .choose branches (some body) =>
      outlineBranches (.opening .choice) branches ++ .otherwise :: outlineAll body ++
        [.closing .choice]
  | .loop subject body => .opening .loop subject :: outlineAll body ++ [.closing .loop]
  | .within scope body => .opening .within scope :: outlineAll body ++ [.closing .within]
  | .beginProps => []
  | .initProperty _ => []
  | .createProperty _ => []
  | .initChildren => []
  | .sealChildren => []
  | .renderComponent _ _ => []
termination_by structural statement => statement

/-- The events of a program, in order. -/
def outlineAll : List Statement → List Event
  | [] => []
  | statement :: rest => statement.outline ++ outlineAll rest
termination_by structural body => body

/-- The events of branches. The first condition is met as `first` says, any other as the next one. -/
def outlineBranches (first : Lookup → Event) : List Branch → List Event
  | [] => []
  | ⟨condition, body⟩ :: rest => first condition :: outlineAll body ++ outlineBranches .nextBranch rest
termination_by structural branches => branches

end

theorem outlineAll_append (first second : List Statement) :
    outlineAll (first ++ second) = outlineAll first ++ outlineAll second := by
  induction first with
  | nil => rfl
  | cons statement rest ih => rw [List.cons_append, outlineAll, outlineAll, ih, List.append_assoc]

theorem outlineAll_singleton (statement : Statement) : outlineAll [statement] = statement.outline :=
  List.append_nil _

variable {first : Lookup → Event} {condition following : Lookup} {body : List Statement}

/-- The body of the last branch comes last. -/
theorem outlineBranches_body (finished : List Branch) :
    outlineBranches first (finished ++ [⟨condition, body⟩]) =
      outlineBranches first (finished ++ [⟨condition, []⟩]) ++ outlineAll body := by
  induction finished generalizing first with
  | nil => simp [outlineBranches, outlineAll]
  | cons branch rest ih =>
      obtain ⟨condition, body⟩ := branch
      simp [outlineBranches, ih]

/-- A further condition behind finished branches is met behind them. -/
theorem outlineBranches_nextBranch (finished : List Branch) :
    outlineBranches first (finished ++ [⟨condition, body⟩, ⟨following, []⟩]) =
      outlineBranches first (finished ++ [⟨condition, body⟩]) ++ [.nextBranch following] := by
  induction finished generalizing first with
  | nil => simp [outlineBranches, outlineAll]
  | cons branch rest ih =>
      obtain ⟨condition, body⟩ := branch
      simp [outlineBranches, ih]

end Statement

namespace Template

open Statement

/-! ## Where the parser is -/

/-- The events of a block up to the body that is being read. -/
def OpenBlock.outline : OpenBlock → List Event
  | .branch finished condition =>
      outlineBranches (.opening .choice) (finished.reverse ++ [⟨condition, []⟩])
  | .otherwise branches => outlineBranches (.opening .choice) branches ++ [.otherwise]
  | .loop subject => [.opening .loop subject]
  | .within scope => [.opening .within scope]

/-- The events up to the innermost body. -/
def outlineLevels : List Level → List Event
  | [] => []
  | level :: outer =>
      outlineLevels outer ++ outlineAll level.before.reverse ++ level.openBlock.outline

/-- The events of what has been read so far. -/
def ParserState.outline (state : ParserState) : List Event :=
  outlineLevels state.levels ++ outlineAll state.body.reverse

namespace OpenBlock

theorem outline_opened (block : Block) (lookup : Lookup) :
    (opened block lookup).outline = [.opening block lookup] := by
  cases block <;> rfl

/-- A closed block is met as what was open, its last body and its closing. -/
theorem outline_close (openBlock : OpenBlock) (body : List Statement) :
    (openBlock.close body).outline =
      openBlock.outline ++ outlineAll body ++ [.closing openBlock.block] := by
  cases openBlock with
  | branch finished condition =>
      rw [close, List.reverse_cons, Statement.outline, outlineBranches_body]
      rfl
  | otherwise branches =>
      rw [close, Statement.outline, outline, List.append_assoc _ [_]]
      rfl
  | loop subject => rfl
  | within scope => rfl

variable {finished : List Branch} {condition : Lookup} {body : List Statement}

/-- A further condition is met behind the body of the branch before. -/
theorem outline_nextBranch (following : Lookup) :
    (branch (⟨condition, body⟩ :: finished) following).outline =
      (branch finished condition).outline ++ outlineAll body ++ [.nextBranch following] := by
  rw [outline, outline, List.reverse_cons, List.append_assoc finished.reverse, List.singleton_append,
    outlineBranches_nextBranch, outlineBranches_body]

/-- An else part is met behind the body of the branch before. -/
theorem outline_otherwise :
    (otherwise (⟨condition, body⟩ :: finished).reverse).outline =
      (branch finished condition).outline ++ outlineAll body ++ [.otherwise] := by
  rw [outline, outline, List.reverse_cons, outlineBranches_body]

end OpenBlock

namespace ParserState

variable {state : ParserState} {level : Level} {outer : List Level}

theorem outline_add (statement : Statement) :
    (state.add statement).outline = state.outline ++ statement.outline := by
  rw [outline, outline, add, List.reverse_cons, outlineAll_append, outlineAll_singleton,
    List.append_assoc]

theorem outline_enter (openBlock : OpenBlock) (line : Nat) :
    (state.enter openBlock line).outline = state.outline ++ openBlock.outline :=
  List.append_nil _

theorem outline_of_levels (hlevels : state.levels = level :: outer) :
    state.outline = outlineLevels outer ++ outlineAll level.before.reverse ++
      (level.openBlock.outline ++ outlineAll state.body.reverse) := by
  rw [outline, hlevels, outlineLevels, List.append_assoc _ _ (outlineAll state.body.reverse)]

/-- Closing a block adds its closing. -/
theorem outline_leave (hlevels : state.levels = level :: outer) :
    (state.leave level outer).outline =
      state.outline ++ [.closing level.openBlock.block] := by
  rw [outline_of_levels hlevels, outline, leave, List.reverse_cons, outlineAll_append,
    outlineAll_singleton, OpenBlock.outline_close]
  simp only [List.append_assoc]

/-- Going on to the next body adds what tells that body from the one before. -/
theorem outline_turn (hlevels : state.levels = level :: outer) {openBlock : OpenBlock}
    {event : Event}
    (hevent : openBlock.outline =
      level.openBlock.outline ++ outlineAll state.body.reverse ++ [event]) :
    (state.turn level outer openBlock).outline = state.outline ++ [event] := by
  rw [outline_of_levels hlevels, outline, turn, outlineLevels, hevent]
  simp only [List.append_assoc]
  rfl

end ParserState

/-! ## What a token adds -/

/-- The event that a tag is, if there is one with its keyword and its argument. -/
def tagEvent? (keyword argument : String) : Option Event :=
  match keyword with
  | "if" => (Lookup.parse? argument .object).map (.opening .choice)
  | "loop" => (Lookup.parse? argument .object).map (.opening .loop)
  | "with" => (Lookup.parse? argument .object).map (.opening .within)
  | "else_if" => (Lookup.parse? argument .object).map .nextBranch
  | "else" => some .otherwise
  | "end_if" => some (.closing .choice)
  | "end_loop" => some (.closing .loop)
  | "end_with" => some (.closing .within)
  | _ => none

/-- The event that a token is, if it is one. -/
def Token.event? : Token → Option Event
  | .text content => some (.text content)
  | .insertion lookup => some (.insertion lookup)
  | .block keyword argument _ => tagEvent? keyword argument

/-- An argument that is accepted as a subject is a lookup. -/
theorem parse?_of_subject {keyword argument : String} {line : Nat} {lookup : Lookup}
    (h : subject keyword argument line = .ok lookup) :
    Lookup.parse? argument .object = some lookup := by
  unfold subject at h
  split at h
  · rename_i hparse
    cases h
    exact hparse
  · cases h

/-- An opening tag is met as an opening if its argument is a lookup. -/
theorem tagEvent?_opening (block : Block) (argument : String) :
    tagEvent? block.keyword argument =
      (Lookup.parse? argument .object).map (.opening block) := by
  cases block <;> rfl

theorem tagEvent?_closing (block : Block) (argument : String) :
    tagEvent? block.endKeyword argument = some (.closing block) := by
  cases block <;> rfl

namespace ParserState

variable {state next : ParserState}

/-- A block tag that is accepted adds the event that it is. -/
theorem outline_blockTag {keyword argument : String} {line : Nat}
    (h : state.blockTag keyword argument line = .ok next) :
    ∃ event, tagEvent? keyword argument = some event ∧ next.outline = state.outline ++ [event] := by
  rcases blockTag_cases h with
    ⟨block, lookup, rfl, hsubject, rfl⟩ | ⟨level, outer, hlevels, hcase⟩
  · refine ⟨.opening block lookup, ?_, ?_⟩
    · rw [tagEvent?_opening, parse?_of_subject hsubject, Option.map_some]
    · rw [outline_enter, OpenBlock.outline_opened]
  · rcases hcase with ⟨rfl, rfl⟩ | ⟨finished, condition, hopen, hcase⟩
    · exact ⟨.closing level.openBlock.block, tagEvent?_closing _ argument, outline_leave hlevels⟩
    · rcases hcase with ⟨following, rfl, hsubject, rfl⟩ | ⟨rfl, rfl⟩
      · refine ⟨.nextBranch following, ?_, outline_turn hlevels ?_⟩
        · rw [tagEvent?, parse?_of_subject hsubject, Option.map_some]
        · rw [hopen, OpenBlock.outline_nextBranch]
      · refine ⟨.otherwise, rfl, outline_turn hlevels ?_⟩
        rw [hopen, OpenBlock.outline_otherwise]

/-- A token is one event, and it is met after all others. -/
theorem outline_step {token : Token} (h : state.step token = .ok next) :
    ∃ event, token.event? = some event ∧ next.outline = state.outline ++ [event] := by
  cases token with
  | text content =>
      cases h
      exact ⟨.text content, rfl, outline_add _⟩
  | insertion lookup =>
      cases h
      exact ⟨.insertion lookup, rfl, outline_add _⟩
  | block keyword argument line => exact outline_blockTag h

/-- Tokens that are accepted add the events that they are, in order. -/
theorem outline_foldlM {tokens : List Token} (h : tokens.foldlM step state = .ok next) :
    ∃ events, tokens.map Token.event? = events.map some ∧
      next.outline = state.outline ++ events := by
  induction tokens generalizing state with
  | nil =>
      cases h
      exact ⟨[], rfl, (List.append_nil _).symm⟩
  | cons token rest ih =>
      rw [List.foldlM_cons] at h
      obtain ⟨between, hstep, hrest⟩ := bind_eq_ok.1 h
      obtain ⟨event, hevent, hbetween⟩ := outline_step hstep
      obtain ⟨events, hevents, hnext⟩ := ih hrest
      refine ⟨event :: events, ?_, ?_⟩
      · rw [List.map_cons, List.map_cons, hevent, hevents]
      · rw [hnext, hbetween, List.append_assoc, List.singleton_append]

end ParserState

/-- The outline of a program is what its tokens are, one by one. -/
theorem outlineAll_of_parseTokens {tokens : List Token} {statements : List Statement}
    (h : parseTokens tokens = .ok statements) :
    tokens.map Token.event? = (outlineAll statements).map some := by
  rw [parseTokens_eq_run] at h
  obtain ⟨⟨levels, body⟩, hrun, hfinish⟩ := bind_eq_ok.1 h
  obtain ⟨events, hevents, houtline⟩ := ParserState.outline_foldlM hrun
  cases levels with
  | nil =>
      cases hfinish
      obtain rfl : outlineAll body.reverse = events := houtline
      exact hevents
  | cons level outer => cases hfinish

end Template

end ComponentTemplates

/-
Module: ComponentTemplates.Proofs.Template.ReadBack
Purpose: Templates read back. From any state of the parser, in front of any mark, the written form of a
  tree leads to the state with the tree's statements added. Main statement: parsing what was written
  gives the program that the tree stands for (`parseTemplate_writtenAll`).
Main exports: readFrom, Reads, reads_writtenAll, parseTemplate_writtenAll
-/
import ComponentTemplates.Proofs.Except
import ComponentTemplates.Proofs.Template.Node
import ComponentTemplates.Proofs.Template.Parser

namespace ComponentTemplates.Template

open Lookup

/-- Reads a text that begins on the given line to its end, from a state that was reached already. -/
def readFrom (line : Nat) (cs : List Char) (state : ParserState) :
    Except CompileError ParserState := do
  let tokens ← Token.ofPieces line (split cs)
  tokens.foldlM ParserState.step state

/-- A template is read from its first line and from no open block. -/
theorem parseTemplate_eq (source : String) :
    parseTemplate source = readFrom 1 source.toList {} >>= ParserState.finish := by
  rw [parseTemplate_eq_run, readFrom, bind_assoc]
  rfl

section Pieces

variable {line : Nat} {state after : ParserState} {rest : List Char}

theorem readFrom_nil : readFrom line [] state = .ok state := by
  unfold readFrom
  rw [split]
  rfl

/-- A plain text in front of a mark is read as an append. -/
theorem readFrom_text {text : List Char} (hne : text ≠ []) (hplain : PlainText text)
    (hrest : AtMark rest) :
    ∃ next, readFrom line (text ++ rest) state =
      readFrom next rest (state.add (.append .page (.literal (String.ofList text)))) := by
  refine ⟨lineAfter line text, ?_⟩
  unfold readFrom
  rw [split_text hne hplain hrest, Token.ofPieces, bind_assoc]
  rfl

/-- A mark is one token, which may be known from its line only. -/
theorem readFrom_mark {cs : List Char} {mark : Mark} {token : Token}
    (hread : Mark.read? cs = some (mark, rest)) (htoken : Token.ofMark line mark = .ok (some token))
    (hstep : state.step token = .ok after) :
    ∃ next, readFrom line cs state = readFrom next rest after := by
  refine ⟨lineAfter line (cs.take (cs.length - rest.length)), ?_⟩
  unfold readFrom
  rw [split_of_read? hread, Token.ofPieces, htoken, ok_bind, bind_assoc]
  congr 1
  funext tokens
  change (state.step token >>= fun state => tokens.foldlM ParserState.step state) = _
  rw [hstep, ok_bind]

/-- An insertion is read as an append of its lookup. -/
theorem readFrom_insertion {path : Path} (hpath : path.WellFormed) :
    ∃ next, readFrom line (insertion path ++ rest) state =
      readFrom next rest (state.add (.append .page (.value { steps := path, mode := .render }))) := by
  have htoken : Token.ofMark line (.lookup path.written) =
      .ok (some (.insertion { steps := path, mode := .render })) := by
    rw [Token.ofMark, (parse?_written hpath .render).1]
  exact readFrom_mark (read?_insertion hpath rest) htoken rfl

/-- A tag is read with the line it stands on. -/
theorem readFrom_tag {keyword : String} (hkeyword : IsKeyword keyword) {subject : Option Path}
    (hsubject : ∀ path ∈ subject, path.WellFormed)
    (hstep : state.blockTag keyword (String.ofList (tagArgument subject)) line = .ok after) :
    ∃ next, readFrom line (tag keyword subject ++ rest) state = readFrom next rest after := by
  apply readFrom_mark (read?_tag hkeyword hsubject rest) rfl
  rw [String.ofList_toList]
  exact hstep

end Pieces

section BlockTag

variable {state : ParserState} {line : Nat}

theorem subject_written {path : Path} (hpath : path.WellFormed) (keyword : String) :
    subject keyword (String.ofList (tagArgument (some path))) line =
      .ok { steps := path, mode := .object } := by
  have hargument : tagArgument (some path) = '$' :: path.written := rfl
  unfold subject
  rw [hargument, (parse?_written hpath .object).2]

/-- An opening tag with a written path opens its block. -/
theorem blockTag_written (block : Block) {path : Path} (hpath : path.WellFormed) :
    state.blockTag block.keyword (String.ofList (tagArgument (some path))) line =
      .ok (state.enter (.opened block { steps := path, mode := .object }) line) := by
  rw [ParserState.blockTag_opening, subject_written hpath]
  rfl

variable {level : Level} {outer : List Level} {finished : List Branch} {condition : Lookup}

/-- A further condition with a written path begins the next branch. -/
theorem blockTag_else_if {path : Path} (hpath : path.WellFormed)
    (hlevels : state.levels = level :: outer)
    (hopen : level.openBlock = .branch finished condition) :
    state.blockTag "else_if" (String.ofList (tagArgument (some path))) line =
      .ok (state.turn level outer (.branch (⟨condition, state.body.reverse⟩ :: finished)
        { steps := path, mode := .object })) := by
  rw [ParserState.blockTag_nextBranch hlevels hopen, subject_written hpath]
  rfl

end BlockTag

section Keywords

theorem isKeyword_if : IsKeyword "if" := ⟨by decide, by decide⟩
theorem isKeyword_else_if : IsKeyword "else_if" := ⟨by decide, by decide⟩
theorem isKeyword_else : IsKeyword "else" := ⟨by decide, by decide⟩
theorem isKeyword_loop : IsKeyword "loop" := ⟨by decide, by decide⟩
theorem isKeyword_with : IsKeyword "with" := ⟨by decide, by decide⟩
theorem isKeyword_end (block : Block) : IsKeyword block.endKeyword := by
  cases block <;> exact ⟨by decide, by decide⟩

end Keywords

section AtMark

variable {rest : List Char}

theorem wellFormed_of_mem_some {path : Path} (hpath : path.WellFormed) :
    ∀ other ∈ some path, Path.WellFormed other := by
  rintro other ⟨⟩
  exact hpath

theorem wellFormed_of_mem_none : ∀ other ∈ (none : Option Path), Path.WellFormed other := by
  rintro other ⟨⟩

/-- A node that is not text begins with a mark. -/
theorem atMark_written {node : Node} (hnode : node.WellFormed) (hmark : node.isText = false) :
    AtMark (node.written ++ rest) := by
  cases node with
  | text content => cases hmark
  | insertion path => exact atMark_insertion hnode rest
  | choice condition body more otherwise =>
      cases otherwise with
      | none =>
          simp only [Node.written, List.append_assoc]
          exact atMark_tag isKeyword_if (wellFormed_of_mem_some hnode.1) _
      | some otherwise =>
          simp only [Node.written, List.append_assoc]
          exact atMark_tag isKeyword_if (wellFormed_of_mem_some hnode.1) _
  | loop subject body =>
      simp only [Node.written, List.append_assoc]
      exact atMark_tag isKeyword_loop (wellFormed_of_mem_some hnode.1) _
  | within scope body =>
      simp only [Node.written, List.append_assoc]
      exact atMark_tag isKeyword_with (wellFormed_of_mem_some hnode.1) _

theorem atMark_writtenAll {nodes : List Node} (hnodes : Node.WellFormedAll nodes)
    (hmark : ∀ next ∈ nodes.head?, next.isText = false) (hrest : AtMark rest) :
    AtMark (Node.writtenAll nodes ++ rest) := by
  cases nodes with
  | nil => exact hrest
  | cons node others =>
      rw [Node.writtenAll, List.append_assoc]
      exact atMark_written hnodes.1 (hmark node rfl)

theorem atMark_writtenMore {more : List Alternative} (hmore : Node.WellFormedMore more)
    (hrest : AtMark rest) : AtMark (Node.writtenMore more ++ rest) := by
  cases more with
  | nil => exact hrest
  | cons alternative others =>
      obtain ⟨condition, body⟩ := alternative
      rw [Node.writtenMore, List.append_assoc, List.append_assoc]
      exact atMark_tag isKeyword_else_if (wellFormed_of_mem_some hmore.1) _

end AtMark

/-! ## Bodies and blocks -/

/-- Adds statements to the innermost body, the first one first. -/
def ParserState.addAll (state : ParserState) (statements : List Statement) : ParserState :=
  { state with body := statements.reverse ++ state.body }

theorem addAll_addAll (state : ParserState) (first second : List Statement) :
    (state.addAll first).addAll second = state.addAll (first ++ second) := by
  simp [ParserState.addAll]

/-- In front of what `before` holds of, the text is read as the statements, wherever that is. -/
def Reads (before : List Char → Prop) (written : List Char) (statements : List Statement) : Prop :=
  ∀ rest, before rest → ∀ line state, ∃ next,
    readFrom line (written ++ rest) state = readFrom next rest (state.addAll statements)

/-- Behind a body of a choice the text is read as further branches. The last of them stays open. -/
def ReadsBranches (written : List Char) (branches : List Branch) : Prop :=
  ∀ rest, AtMark rest → ∀ (line opened : Nat) (state : ParserState) (finished : List Branch)
    (condition : Lookup) (body : List Statement), ∃ next finished' condition' body',
      (⟨condition', body'⟩ :: finished').reverse =
          (⟨condition, body⟩ :: finished).reverse ++ branches ∧
        readFrom line (written ++ rest)
            (ParserState.addAll (state.enter (.branch finished condition) opened) body) =
          readFrom next rest
            (ParserState.addAll (state.enter (.branch finished' condition') opened) body')

section Tags

variable (line opened : Nat) (state : ParserState) (body : List Statement) (rest : List Char)

/-- A block that is left adds one statement to the body around it. -/
theorem readFrom_end (openBlock : OpenBlock) :
    ∃ next, readFrom line (tag openBlock.block.endKeyword none ++ rest)
        ((state.enter openBlock opened).addAll body) =
      readFrom next rest (state.addAll [openBlock.close body]) := by
  have hleave : ((state.enter openBlock opened).addAll body).leave
      { openBlock, line := opened, before := state.body } state.levels =
        state.addAll [openBlock.close body] := by
    simp [ParserState.leave, ParserState.addAll, ParserState.enter]
  rw [← hleave]
  let level : Level := { openBlock, line := opened, before := state.body }
  have hlevels : ((state.enter openBlock opened).addAll body).levels = level :: state.levels := rfl
  exact readFrom_tag (isKeyword_end _) wellFormed_of_mem_none (ParserState.blockTag_close hlevels _)

variable (finished : List Branch) (condition : Lookup)

/-- A further condition completes the branch before it. -/
theorem readFrom_else_if {path : Path} (hpath : path.WellFormed) :
    ∃ next, readFrom line (tag "else_if" (some path) ++ rest)
        ((state.enter (.branch finished condition) opened).addAll body) =
      readFrom next rest (state.enter (.branch (⟨condition, body⟩ :: finished)
        { steps := path, mode := .object }) opened) := by
  apply readFrom_tag isKeyword_else_if (wellFormed_of_mem_some hpath)
  rw [blockTag_else_if hpath rfl rfl]
  simp [ParserState.turn, ParserState.addAll, ParserState.enter]

/-- An else part is read behind the body of a branch. -/
theorem readFrom_else :
    ∃ next, readFrom line (tag "else" none ++ rest)
        ((state.enter (.branch finished condition) opened).addAll body) =
      readFrom next rest
        (state.enter (.otherwise (⟨condition, body⟩ :: finished).reverse) opened) := by
  apply readFrom_tag isKeyword_else wellFormed_of_mem_none
  rw [ParserState.blockTag_otherwise rfl rfl]
  simp [ParserState.turn, ParserState.addAll, ParserState.enter]

end Tags

section Blocks

variable {path : Path} (hpath : path.WellFormed) {written more : List Char} {body : List Statement}
  (hbody : Reads AtMark written body)

include hpath hbody

/-- A block with one body, in front of anything. -/
theorem reads_block {keyword : String} (hkeyword : IsKeyword keyword) {openBlock : OpenBlock}
    (hopen : ∀ state line, ParserState.blockTag state keyword
      (String.ofList (tagArgument (some path))) line = .ok (state.enter openBlock line)) :
    Reads (fun _ => True)
      (tag keyword (some path) ++ written ++ tag openBlock.block.endKeyword none)
      [openBlock.close body] := by
  intro rest _ line state
  have hend := atMark_tag (isKeyword_end openBlock.block) wellFormed_of_mem_none rest
  rw [List.append_assoc, List.append_assoc]
  obtain ⟨first, hfirst⟩ := readFrom_tag hkeyword (wellFormed_of_mem_some hpath) (hopen state line)
  obtain ⟨second, hsecond⟩ := hbody _ hend first (state.enter openBlock line)
  obtain ⟨next, hnext⟩ := readFrom_end second line state body rest openBlock
  exact ⟨next, hfirst.trans (hsecond.trans hnext)⟩

variable {branches : List Branch} (hmore : ReadsBranches more branches)
  (hmark : ∀ rest, AtMark rest → AtMark (more ++ rest))

include hmore hmark

/-- The bodies of a choice behind its conditions. All branches but the last are complete then. -/
theorem readFrom_branches {rest : List Char} (hrest : AtMark rest) (line : Nat)
    (state : ParserState) :
    ∃ next finished last statements,
      (⟨last, statements⟩ :: finished).reverse =
          ⟨{ steps := path, mode := .object }, body⟩ :: branches ∧
        readFrom line (tag "if" (some path) ++ (written ++ (more ++ rest))) state =
          readFrom next rest ((state.enter (.branch finished last) line).addAll statements) := by
  obtain ⟨first, hfirst⟩ := readFrom_tag isKeyword_if (wellFormed_of_mem_some hpath)
    (blockTag_written .choice hpath)
  obtain ⟨second, hsecond⟩ := hbody _ (hmark rest hrest) first
    (state.enter (.branch [] { steps := path, mode := .object }) line)
  obtain ⟨next, finished, last, statements, hcomplete, hnext⟩ := hmore rest hrest second line state
    [] { steps := path, mode := .object } body
  exact ⟨next, finished, last, statements, hcomplete, hfirst.trans (hsecond.trans hnext)⟩

/-- A choice that has a body for the case that no condition holds, or has none. -/
theorem reads_choice :
    Reads (fun _ => True) (tag "if" (some path) ++ written ++ more ++ tag "end_if" none)
      [.choose (⟨{ steps := path, mode := .object }, body⟩ :: branches) none] := by
  intro rest _ line state
  have hend := atMark_tag (isKeyword_end .choice) wellFormed_of_mem_none rest
  obtain ⟨first, finished, last, statements, hcomplete, hfirst⟩ :=
    readFrom_branches hpath hbody hmore hmark hend line state
  obtain ⟨next, hnext⟩ := readFrom_end first line state statements rest (.branch finished last)
  rw [OpenBlock.close, hcomplete] at hnext
  simp only [List.append_assoc]
  exact ⟨next, hfirst.trans hnext⟩

/-- A choice with an else part is read as the choice, if its bodies are. -/
theorem reads_choice_otherwise {last : List Char} {otherwise : List Statement}
    (hotherwise : Reads AtMark last otherwise) :
    Reads (fun _ => True)
      (tag "if" (some path) ++ written ++ more ++ tag "else" none ++ last ++ tag "end_if" none)
      [.choose (⟨{ steps := path, mode := .object }, body⟩ :: branches) (some otherwise)] := by
  intro rest _ line state
  have hend := atMark_tag (isKeyword_end .choice) wellFormed_of_mem_none rest
  have helse := atMark_tag isKeyword_else wellFormed_of_mem_none
    (last ++ (tag Block.choice.endKeyword none ++ rest))
  obtain ⟨first, finished, condition, statements, hcomplete, hfirst⟩ :=
    readFrom_branches hpath hbody hmore hmark helse line state
  obtain ⟨second, hsecond⟩ := readFrom_else first line state statements
    (last ++ (tag Block.choice.endKeyword none ++ rest)) finished condition
  rw [hcomplete] at hsecond
  obtain ⟨third, hthird⟩ := hotherwise _ hend second
    (state.enter (.otherwise (⟨{ steps := path, mode := .object }, body⟩ :: branches)) line)
  obtain ⟨next, hnext⟩ := readFrom_end third line state otherwise rest
    (.otherwise (⟨{ steps := path, mode := .object }, body⟩ :: branches))
  simp only [List.append_assoc]
  exact ⟨next, hfirst.trans (hsecond.trans (hthird.trans hnext))⟩

/-- One further condition in front of others. -/
theorem readsBranches_cons :
    ReadsBranches (tag "else_if" (some path) ++ written ++ more)
      (⟨{ steps := path, mode := .object }, body⟩ :: branches) := by
  intro rest hrest line opened state finished condition statements
  obtain ⟨first, hfirst⟩ := readFrom_else_if line opened state statements
    (written ++ (more ++ rest)) finished condition hpath
  obtain ⟨second, hsecond⟩ := hbody _ (hmark rest hrest) first
    (state.enter (.branch (⟨condition, statements⟩ :: finished) { steps := path, mode := .object })
      opened)
  obtain ⟨next, finished', condition', body', hcomplete, hnext⟩ := hmore rest hrest second opened
    state (⟨condition, statements⟩ :: finished) { steps := path, mode := .object } body
  refine ⟨next, finished', condition', body', ?_, ?_⟩
  · rw [hcomplete]
    simp
  · simp only [List.append_assoc]
    exact hfirst.trans (hsecond.trans hnext)

end Blocks

mutual

/-- A node is read as its statement. Text needs a mark behind it, or it would go on. -/
theorem reads_written (node : Node) (hnode : node.WellFormed) :
    Reads (fun rest => node.isText = true → AtMark rest) node.written [node.statement] := by
  cases node with
  | text content =>
      intro rest hrest line state
      obtain ⟨hne, hplain⟩ := hnode
      have hchars : content.toList ≠ [] := by simpa using hne
      obtain ⟨next, hnext⟩ := readFrom_text hchars hplain (hrest rfl)
      rw [String.ofList_toList] at hnext
      exact ⟨next, hnext⟩
  | insertion path =>
      intro rest _ line state
      exact readFrom_insertion hnode
  | choice condition body more otherwise =>
      intro rest _
      cases otherwise with
      | none =>
          obtain ⟨hcondition, hbody, hmore⟩ := hnode
          exact reads_choice hcondition (reads_writtenAll body hbody)
            (readsBranches_writtenMore more hmore) (fun _ => atMark_writtenMore hmore) rest trivial
      | some otherwise =>
          obtain ⟨hcondition, hbody, hmore, hotherwise⟩ := hnode
          exact reads_choice_otherwise hcondition (reads_writtenAll body hbody)
            (readsBranches_writtenMore more hmore) (fun _ => atMark_writtenMore hmore)
            (reads_writtenAll otherwise hotherwise) rest trivial
  | loop subject body =>
      intro rest _
      obtain ⟨hsubject, hbody⟩ := hnode
      exact reads_block hsubject (reads_writtenAll body hbody) isKeyword_loop
        (fun _ _ => blockTag_written .loop hsubject) rest trivial
  | within scope body =>
      intro rest _
      obtain ⟨hscope, hbody⟩ := hnode
      exact reads_block hscope (reads_writtenAll body hbody) isKeyword_with
        (fun _ _ => blockTag_written .within hscope) rest trivial

/-- Nodes in front of a mark are read as their program. -/
theorem reads_writtenAll (nodes : List Node) (hnodes : Node.WellFormedAll nodes) :
    Reads AtMark (Node.writtenAll nodes) (Node.statementAll nodes) := by
  cases nodes with
  | nil => exact fun rest _ line state => ⟨line, rfl⟩
  | cons node others =>
      intro rest hrest line state
      obtain ⟨hnode, hapart, hothers⟩ := hnodes
      obtain ⟨first, hfirst⟩ := reads_written node hnode (Node.writtenAll others ++ rest)
        (fun htext => atMark_writtenAll hothers (hapart htext) hrest) line state
      obtain ⟨next, hnext⟩ := reads_writtenAll others hothers rest hrest first
        (state.addAll [node.statement])
      refine ⟨next, ?_⟩
      rw [Node.writtenAll, List.append_assoc, hfirst, hnext, addAll_addAll]
      rfl

/-- Further branches are read as written. -/
theorem readsBranches_writtenMore (more : List Alternative) (hmore : Node.WellFormedMore more) :
    ReadsBranches (Node.writtenMore more) (Node.branches more) := by
  cases more with
  | nil =>
      intro rest _ line opened state finished condition body
      exact ⟨line, finished, condition, body, by simp [Node.branches], rfl⟩
  | cons alternative others =>
      obtain ⟨path, nodes⟩ := alternative
      obtain ⟨hpath, hnodes, hothers⟩ := hmore
      exact readsBranches_cons hpath (reads_writtenAll nodes hnodes)
        (readsBranches_writtenMore others hothers) fun _ => atMark_writtenMore hothers

end

/-- What a tree of nodes is written as is read as the program that the tree stands for. -/
theorem parseTemplate_writtenAll {nodes : List Node} (hnodes : Node.WellFormedAll nodes) :
    parseTemplate (String.ofList (Node.writtenAll nodes)) = .ok (Node.statementAll nodes) := by
  obtain ⟨last, hread⟩ := reads_writtenAll nodes hnodes [] (.inl rfl) 1 {}
  rw [List.append_nil, readFrom_nil] at hread
  rw [parseTemplate_eq, String.toList_ofList, hread, ok_bind]
  simp [ParserState.finish, ParserState.addAll]

open Node in
/-- An invoice with a choice and a scope block inside a loop, and with texts that look like marks. -/
theorem parseTemplate_writtenAll_invoice :
    let items : Path := [{ name := "Items", args := ["open", "b, c.d"] }, { name := "Rows" }]
    let nodes : List Node :=
      [.text "Due: $9 <\x7b",
        .loop items
          [.choice [{ name := "First" }] [.insertion [{ name := "Total" }]]
            [⟨[{ name := "Last" }], [.text "%> $"]⟩]
            (some [.within [{ name := "Owner" }] [.insertion [{ name := "Name" }], .text ", "]])]]
    let source := "Due: $9 <\x7b<% loop $Items(\"open\", \"b, c.d\").Rows %>" ++
      "<% if $First %>\x7b$Total\x7d<% else_if $Last %>%> $<% else %>" ++
      "<% with $Owner %>\x7b$Name\x7d, <% end_with %><% end_if %><% end_loop %>"
    WellFormedAll nodes ∧ parseTemplate source = .ok (statementAll nodes) := by
  intro items nodes source
  have hnodes : WellFormedAll nodes := by
    simp only [nodes, items, WellFormedAll, WellFormed, WellFormedMore]
    decide +kernel
  have hsource : source = String.ofList (writtenAll nodes) := by decide +kernel
  rw [hsource]
  exact ⟨hnodes, parseTemplate_writtenAll hnodes⟩

end ComponentTemplates.Template

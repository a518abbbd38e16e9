/-
Module: ComponentTemplates.Proofs.Template.Variables
Purpose: The variables of a template. What stands behind the dollar sign of a variable is a path, whose
  argument texts end at the first closing parenthesis (`isVariable_of_mem_split`). Where an argument text
  holds an opening one and a dot follows, such a path is no lookup, and the first variable of that kind
  is an error of the template; if there is none, only block tags can be wrong (`parseTemplate_variables`).
Main exports: VariablesClosed, FirstUnclosed, parseTemplate_variables
-/
import ComponentTemplates.Proofs.Lookup.Raw
import ComponentTemplates.Proofs.Template.Balance

namespace ComponentTemplates.Template

open Lookup Text

/-! ## What is taken for a path -/

/-- What is taken for arguments is a text in parentheses or nothing. -/
theorem raw_of_splitArguments (cs : List Char) :
    ∃ arguments : Option (List Char), (∀ text ∈ arguments, ')' ∉ text) ∧
      ∀ name, name ++ (splitArguments cs).1 = ({ name, arguments } : RawStep).written := by
  have hnone : ∃ arguments : Option (List Char), (∀ text ∈ arguments, ')' ∉ text) ∧
      ∀ name, name ++ [] = ({ name, arguments } : RawStep).written :=
    ⟨none, nofun, fun name => List.append_nil name⟩
  unfold splitArguments
  split
  · split
    · rename_i inner after hcut
      refine ⟨some inner, ?_, fun name => rfl⟩
      rintro text ⟨⟩
      exact not_mem_of_cut? hcut
    · exact hnone
  · exact hnone

/-- A step that is split off is a well-formed one. -/
theorem raw_of_splitStep? {cs written rest : List Char} (h : splitStep? cs = some (written, rest)) :
    ∃ step : RawStep, step.WellFormed ∧ step.written = written := by
  obtain ⟨⟨name, tail⟩, hname, heq⟩ := Option.map_eq_some_iff.1 h
  cases heq
  obtain ⟨arguments, harguments, hwritten⟩ := raw_of_splitArguments tail
  exact ⟨{ name, arguments }, ⟨Identifier.isIdentifier_of_split? hname, harguments⟩,
    (hwritten name).symm⟩

theorem raw_of_splitSteps (cs : List Char) :
    ∃ steps : List RawStep, (∀ step ∈ steps, step.WellFormed) ∧
      (splitSteps cs).1 = steps.flatMap fun step => '.' :: step.written := by
  fun_induction splitSteps cs with
  | case1 rest step after h _ ih =>
      obtain ⟨raw, hraw, rfl⟩ := raw_of_splitStep? h
      obtain ⟨steps, hsteps, hwritten⟩ := ih
      refine ⟨raw :: steps, List.forall_mem_cons.2 ⟨hraw, hsteps⟩, ?_⟩
      rw [hwritten, List.flatMap_cons]
  | case2 rest h => exact ⟨[], List.forall_mem_nil _, rfl⟩
  | case3 cs h => exact ⟨[], List.forall_mem_nil _, rfl⟩

theorem isPath_of_splitPath? {cs path rest : List Char} (h : splitPath? cs = some (path, rest)) :
    IsPath path := by
  obtain ⟨⟨first, tail⟩, hstep, heq⟩ := Option.map_eq_some_iff.1 h
  cases heq
  obtain ⟨raw, hraw, rfl⟩ := raw_of_splitStep? hstep
  obtain ⟨steps, hsteps, hwritten⟩ := raw_of_splitSteps tail
  refine ⟨raw :: steps, ⟨List.cons_ne_nil _ _, List.forall_mem_cons.2 ⟨hraw, hsteps⟩⟩, ?_⟩
  rw [hwritten]
  exact intercalate_map_cons ['.'] raw steps

/-- How a variable is written: a path behind a dollar sign, in braces or not. -/
def IsVariable (written path : List Char) : Prop :=
  IsPath path ∧ (written = '$' :: path ∨ written = '\x7b' :: '$' :: (path ++ ['\x7d']))

/-- A lookup that is read is written as a variable. -/
theorem isVariable_of_read? {cs path after : List Char}
    (h : Mark.read? cs = some (.lookup path, after)) :
    ∃ written, IsVariable written path ∧ cs = written ++ after := by
  simp only [Mark.read?, Option.orElse_eq_orElse, Option.orElse_eq_or, Option.or_eq_some_iff] at h
  rcases h with h | ⟨_, h | ⟨_, h | ⟨_, h⟩⟩⟩
  · unfold Mark.readComment? at h
    split at h
    · obtain ⟨_, _, heq⟩ := Option.map_eq_some_iff.1 h
      cases heq
    · cases h
  · unfold Mark.readBlock? at h
    split at h
    · dsimp only at h
      split at h
      · cases h
      · obtain ⟨_, _, heq⟩ := Option.map_eq_some_iff.1 h
        cases heq
    · cases h
  · unfold Mark.readBraced? at h
    split at h
    · split at h
      · rename_i found rest hpath
        cases h
        refine ⟨_, ⟨isPath_of_splitPath? hpath, .inr rfl⟩, ?_⟩
        rw [← append_of_splitPath? hpath]
        simp
      · cases h
    · cases h
  · unfold Mark.readBare? at h
    split at h
    · obtain ⟨⟨found, rest⟩, hpath, heq⟩ := Option.map_eq_some_iff.1 h
      cases heq
      refine ⟨_, ⟨isPath_of_splitPath? hpath, .inl rfl⟩, ?_⟩
      rw [← append_of_splitPath? hpath]
      rfl
    · cases h

/-- Every variable of a template is written as one. -/
theorem isVariable_of_mem_split {cs written path : List Char}
    (h : .mark written (.lookup path) ∈ split cs) : IsVariable written path := by
  fun_induction split cs with
  | case1 => cases h
  | case2 c rest mark after hread _ ih =>
      rcases List.mem_cons.1 h with heq | hmem
      · cases heq
        obtain ⟨found, hfound, hsplit⟩ := isVariable_of_read? hread
        rw [hsplit]
        simpa using hfound
      · exact ih hmem
  | case3 c rest _ ih => exact ih (mem_consText h)

/-! ## Which paths are lookups -/

/-- No variable among the pieces leaves a parenthesis open in front of a dot. -/
def VariablesClosed (pieces : List Piece) : Prop :=
  ∀ written path, .mark written (.lookup path) ∈ pieces → ¬Unclosed path

/-- The first variable that leaves a parenthesis open in front of a dot has this path, and begins on this
line: one more than there are line ends before it. -/
def FirstUnclosed (pieces : List Piece) (path : List Char) (line : Nat) : Prop :=
  ∃ before written after, pieces = before ++ .mark written (.lookup path) :: after ∧
    VariablesClosed before ∧ Unclosed path ∧
    line = 1 + (before.flatMap Piece.written).count '\n'

theorem VariablesClosed.tail {piece : Piece} {rest : List Piece}
    (h : VariablesClosed (piece :: rest)) : VariablesClosed rest :=
  fun written path hmem => h written path (List.mem_cons_of_mem _ hmem)

/-- Either all variables are closed or there is a first one that is not. -/
theorem closed_or_unclosed (pieces : List Piece) :
    VariablesClosed pieces ∨ ∃ path line, FirstUnclosed pieces path line := by
  induction pieces with
  | nil => exact .inl nofun
  | cons piece rest ih =>
      by_cases hpiece : ∃ written path, piece = .mark written (.lookup path) ∧ Unclosed path
      · obtain ⟨written, path, rfl, hpath⟩ := hpiece
        exact .inr ⟨path, _, [], written, rest, rfl, nofun, hpath, rfl⟩
      · have hclosed : ∀ {front : List Piece}, VariablesClosed front →
            VariablesClosed (piece :: front) := by
          intro front hfront written path hmem hpath
          rcases List.mem_cons.1 hmem with rfl | hmem
          · exact hpiece ⟨written, path, rfl, hpath⟩
          · exact hfront written path hmem hpath
        rcases ih with hrest | ⟨path, line, before, written, after, rfl, hbefore, hpath, _⟩
        · exact .inl (hclosed hrest)
        · exact .inr ⟨path, _, piece :: before, written, after, rfl, hclosed hbefore, hpath, rfl⟩

section Tokens

variable {line : Nat} {pieces : List Piece}

/-- A mark is a token if its path, should it have one, is closed. -/
theorem ofMark_of_isPath {mark : Mark} (hpath : ∀ path, mark = .lookup path → IsPath path)
    (hclosed : ∀ path, mark = .lookup path → ¬Unclosed path) :
    ∃ token, Token.ofMark line mark = .ok token := by
  cases mark with
  | comment => exact ⟨none, rfl⟩
  | block keyword argument => exact ⟨_, rfl⟩
  | lookup path =>
      obtain ⟨lookup, hlookup⟩ := parse?_of_not_unclosed (hpath path rfl) (hclosed path rfl)
      exact ⟨_, by rw [Token.ofMark, hlookup]⟩

/-- A variable that is not closed is refused at its line. -/
theorem ofMark_of_unclosed {path : List Char} (h : Unclosed path) :
    Token.ofMark line (.lookup path) =
      .error (.template (.malformedVariable (String.ofList path)) line) := by
  rw [Token.ofMark, parse?_of_unclosed h]

/-- Pieces whose variables are paths have tokens if all parentheses are closed in time. -/
theorem ofPieces_of_closed (hpaths : ∀ written path, .mark written (.lookup path) ∈ pieces →
    IsPath path) (hclosed : VariablesClosed pieces) :
    ∃ tokens, Token.ofPieces line pieces = .ok tokens := by
  induction pieces generalizing line with
  | nil => exact ⟨[], rfl⟩
  | cons piece rest ih =>
      have hrest : ∀ line, ∃ tokens, Token.ofPieces line rest = .ok tokens := fun line =>
        ih (fun written path hmem => hpaths written path (List.mem_cons_of_mem _ hmem)) hclosed.tail
      cases piece with
      | text content =>
          obtain ⟨tokens, htokens⟩ := hrest (lineAfter line content)
          exact ⟨_, by rw [Token.ofPieces, htokens]; rfl⟩
      | mark written mark =>
          obtain ⟨token, htoken⟩ : ∃ token, Token.ofMark line mark = .ok token := by
            apply ofMark_of_isPath
            · rintro path rfl
              exact hpaths written path (List.mem_cons_self ..)
            · rintro path rfl
              exact hclosed written path (List.mem_cons_self ..)
          obtain ⟨tokens, htokens⟩ := hrest (lineAfter line written)
          exact ⟨_, by rw [Token.ofPieces, htoken, ok_bind, htokens]; rfl⟩

/-- Pieces are read up to the first fault. -/
theorem ofPieces_of_fault {before after : List Piece} {written : List Char} {mark : Mark}
    {tokens : List Token} {error : CompileError} (hbefore : Token.ofPieces line before = .ok tokens)
    (hmark : Token.ofMark (lineAfter line (before.flatMap Piece.written)) mark = .error error) :
    Token.ofPieces line (before ++ .mark written mark :: after) = .error error := by
  induction before generalizing line tokens with
  | nil =>
      have hmark : Token.ofMark line mark = .error error := hmark
      rw [List.nil_append, Token.ofPieces, hmark, error_bind]
  | cons piece rest ih =>
      rw [List.flatMap_cons, lineAfter_append] at hmark
      cases piece with
      | text content =>
          obtain ⟨others, hothers, _⟩ := bind_eq_ok.1 hbefore
          rw [List.cons_append, Token.ofPieces, ih hothers hmark, error_bind]
      | mark first other =>
          obtain ⟨token, htoken, hrun⟩ := bind_eq_ok.1 hbefore
          obtain ⟨others, hothers, _⟩ := bind_eq_ok.1 hrun
          rw [List.cons_append, Token.ofPieces, htoken, ok_bind, ih hothers hmark, error_bind]

end Tokens

section Source

variable {source : String}

theorem ofSource_of_closed (h : VariablesClosed (split source.toList)) :
    ∃ tokens, Token.ofSource source = .ok tokens :=
  ofPieces_of_closed (fun _ _ hmem => (isVariable_of_mem_split hmem).1) h

theorem ofSource_of_unclosed {path : List Char} {line : Nat}
    (h : FirstUnclosed (split source.toList) path line) :
    Token.ofSource source =
      .error (.template (.malformedVariable (String.ofList path)) line) := by
  obtain ⟨before, written, after, hsplit, hbefore, hpath, rfl⟩ := h
  have hpaths : ∀ written path, .mark written (.lookup path) ∈ before → IsPath path := by
    intro written path hmem
    have hmem : Piece.mark written (.lookup path) ∈ split source.toList := by
      rw [hsplit]
      exact List.mem_append_left _ hmem
    exact (isVariable_of_mem_split hmem).1
  obtain ⟨tokens, htokens⟩ : ∃ tokens, Token.ofPieces 1 before = .ok tokens :=
    ofPieces_of_closed hpaths hbefore
  rw [Token.ofSource, hsplit]
  exact ofPieces_of_fault htokens (ofMark_of_unclosed hpath)

/-- Exactly the templates whose variables are closed have tokens. -/
theorem ofSource_eq_ok_iff :
    (∃ tokens, Token.ofSource source = .ok tokens) ↔ VariablesClosed (split source.toList) := by
  refine ⟨?_, ofSource_of_closed⟩
  rintro ⟨tokens, htokens⟩
  rcases closed_or_unclosed (split source.toList) with hclosed | ⟨path, line, hfirst⟩
  · exact hclosed
  · exact absurd ((ofSource_of_unclosed hfirst).symm.trans htokens) nofun

/-- No template with a variable that is not closed is accepted: the first one is reported. -/
theorem parseTemplate_of_unclosed_variable {path : List Char} {line : Nat}
    (h : FirstUnclosed (split source.toList) path line) :
    parseTemplate source =
      .error (.template (.malformedVariable (String.ofList path)) line) := by
  rw [parseTemplate, ofSource_of_unclosed h, error_bind]

/-- **Variables**: what is taken for a variable is a path behind a dollar sign, in braces or not. It is
read as one step for each of its names, unless an argument text holds an opening parenthesis and a dot
follows. The first variable of this kind is the error of a template; if there is none, a template has
tokens, and it fails only for its block tags. -/
theorem parseTemplate_variables (source : String) :
    (∀ written path, .mark written (.lookup path) ∈ split source.toList →
      (written = '$' :: path ∨ written = '\x7b' :: '$' :: (path ++ ['\x7d'])) ∧
        ∃ raw : RawPath, raw.WellFormed ∧ raw.written = path ∧ ∀ mode,
          Lookup.parse? (String.ofList path) mode =
            if raw.Closed then some { steps := raw.map RawStep.step, mode } else none) ∧
      ((∃ tokens, Token.ofSource source = .ok tokens) ↔
        VariablesClosed (split source.toList)) ∧
      ∀ error, parseTemplate source = .error error ↔
        (∃ path line, FirstUnclosed (split source.toList) path line ∧
          error = .template (.malformedVariable (String.ofList path)) line) ∨
        VariablesClosed (split source.toList) ∧
          ∃ fault line, error = .template fault line ∧ Blames (blockTags source) fault line := by
  refine ⟨?_, ofSource_eq_ok_iff, fun error => ⟨?_, ?_⟩⟩
  · intro written path hmem
    obtain ⟨⟨raw, hraw, rfl⟩, hwritten⟩ := isVariable_of_mem_split hmem
    exact ⟨hwritten, raw, hraw, rfl, fun mode => (parse?_raw hraw mode).1⟩
  · intro herror
    rcases closed_or_unclosed (split source.toList) with hclosed | ⟨path, line, hfirst⟩
    · obtain ⟨tokens, htokens⟩ := ofSource_of_closed hclosed
      exact .inr ⟨hclosed, (parseTemplate_eq_error_iff htokens).1 herror⟩
    · cases (parseTemplate_of_unclosed_variable hfirst).symm.trans herror
      exact .inl ⟨path, line, hfirst, rfl⟩
  · rintro (⟨path, line, hfirst, rfl⟩ | ⟨hclosed, hblames⟩)
    · exact parseTemplate_of_unclosed_variable hfirst
    · obtain ⟨tokens, htokens⟩ := ofSource_of_closed hclosed
      exact (parseTemplate_eq_error_iff htokens).2 hblames

end Source

/-- A parenthesis in quotes is enough: the path is taken for one of a variable, and it is no lookup. -/
theorem parseTemplate_openParenthesis :
    let source := "$Get(\"(\").Title"
    split source.toList = [.mark source.toList (.lookup "Get(\"(\").Title".toList)] ∧
      Lookup.parse? "Get(\"(\").Title" .render = none ∧
      Token.ofSource source =
        .error (.template (.malformedVariable "Get(\"(\").Title") 1) := by
  decide +kernel

end ComponentTemplates.Template

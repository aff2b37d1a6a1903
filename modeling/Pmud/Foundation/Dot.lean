import Mathlib.Data.List.TakeWhile
import Pmud.Foundation.Lists
import Pmud.Foundation.Transition

/-! # The DOT language

Graphs in the DOT language, with names and attributes but without subgraphs,
ports, comments and default attributes.
-/

namespace Pmud.Foundation.Dot

abbrev Name := List Char

/-! ## Tokens -/

inductive Keyword
  | strict
  | graph
  | digraph
  | node
  | edge
  | subgraph
  deriving DecidableEq, Repr

inductive Token
  | keyword (keyword : Keyword)
  | name (name : Name)
  | arrow
  | line
  | openBrace
  | closeBrace
  | openBracket
  | closeBracket
  | equals
  | semicolon
  | comma
  deriving DecidableEq, Repr

/-- Upper and lower case are the same in a keyword. -/
def Keyword.ofWord (word : List Char) : Option Keyword :=
  match String.ofList (word.map Char.toLower) with
  | "strict" => some .strict
  | "graph" => some .graph
  | "digraph" => some .digraph
  | "node" => some .node
  | "edge" => some .edge
  | "subgraph" => some .subgraph
  | _ => none

def isWordChar (c : Char) : Bool := c.isAlphanum || c = '_' || c = '.'

/-- A character that means itself in quotes. -/
def isPlain (c : Char) : Bool := c ≠ '"' && c ≠ '\\'

def isIdentifier : List Char → Bool
  | [] => false
  | c :: rest => (c.isAlpha || c = '_') && rest.all fun c => c.isAlphanum || c = '_'

/-- Digits with a point among them or not. -/
def isNumeral (word : List Char) : Bool :=
  match word.dropWhile Char.isDigit with
  | [] => !word.isEmpty
  | '.' :: fraction => fraction.all Char.isDigit && word.length != 1
  | _ => false

def Token.ofWord (word : List Char) : Option Token :=
  match Keyword.ofWord word with
  | some known => some (.keyword known)
  | none =>
      if isIdentifier word || isNumeral word ||
          (word.head? = some '-' && isNumeral word.tail) then
        some (.name word)
      else none

def Token.ofSymbol : Char → Option Token
  | '{' => some .openBrace
  | '}' => some .closeBrace
  | '[' => some .openBracket
  | ']' => some .closeBracket
  | '=' => some .equals
  | ';' => some .semicolon
  | ',' => some .comma
  | _ => none

/-- What has been read of a token. -/
inductive Reading
  | between
  | word (begun : List Char)
  | dash
  | quoted (begun : List Char)
  | escaped (begun : List Char)
  deriving DecidableEq, Repr

structure Lexing where
  tokens : List Token
  reading : Reading
  deriving DecidableEq, Repr

namespace Lexing

def between (tokens : List Token) : Lexing where
  tokens := tokens
  reading := .between

/-- A character that does not continue a token. -/
def start (tokens : List Token) (c : Char) : Option Lexing :=
  if isWordChar c then some { tokens := tokens, reading := .word [c] }
  else if c.isWhitespace then some (.between tokens)
  else if c = '"' then some { tokens := tokens, reading := .quoted [] }
  else if c = '-' then some { tokens := tokens, reading := .dash }
  else (Token.ofSymbol c).map fun token => .between (tokens ++ [token])

/-- A dash begins an operator or a negative number. In quotes, a backslash in front
of a quote or of the end of a line is left out. -/
def step : StepFunction Lexing Char := fun state c =>
  match state.reading with
  | .between => start state.tokens c
  | .word begun =>
      if isWordChar c then some { state with reading := .word (begun ++ [c]) }
      else (Token.ofWord begun).bind fun token => start (state.tokens ++ [token]) c
  | .dash =>
      if c = '>' then some (.between (state.tokens ++ [.arrow]))
      else if c = '-' then some (.between (state.tokens ++ [.line]))
      else if c.isDigit || c = '.' then some { state with reading := .word ['-', c] }
      else none
  | .quoted begun =>
      if c = '"' then some (.between (state.tokens ++ [.name begun]))
      else if c = '\\' then some { state with reading := .escaped begun }
      else some { state with reading := .quoted (begun ++ [c]) }
  | .escaped begun =>
      if c = '"' then some { state with reading := .quoted (begun ++ [c]) }
      else if c = '\n' then some { state with reading := .quoted begun }
      else some { state with reading := .quoted (begun ++ ['\\', c]) }

/-- The tokens at the end of the text. -/
def finish (state : Lexing) : Option (List Token) :=
  match state.reading with
  | .between => some state.tokens
  | .word begun => (Token.ofWord begun).map fun token => state.tokens ++ [token]
  | _ => none

end Lexing

def tokenize (chars : List Char) : Option (List Token) :=
  (Lexing.step.execute (.between []) chars).bind Lexing.finish

/-! ## Graphs -/

/-- The statements of a graph: the names that are declared and the edges. -/
structure Document where
  strict : Bool
  directed : Bool
  declared : List Name
  edges : List (Name × Name)
  deriving DecidableEq, Repr

namespace Document

def nodes (document : Document) : List Name :=
  document.declared ++ document.edges.flatMap fun edge => [edge.1, edge.2]

/-- How many statements join `u` to `v`. -/
def statements (document : Document) (u v : Name) : Nat :=
  document.edges.count (u, v) +
    if document.directed = true ∨ u = v then 0 else document.edges.count (v, u)

/-- How many edges there are: a strict graph merges repeated ones. -/
def multiplicity (document : Document) (u v : Name) : Nat :=
  if document.strict = true then min 1 (document.statements u v) else document.statements u v

end Document

/-- What has been read of a statement. -/
inductive Place
  | statement
  | behindName (name : Name)
  | behindOperator (left : Name)
  | behindEdge (right : Name)
  | attributeName
  | attributeEquals
  | attributeValue
  | attributeEnd
  | behindAttributes
  | closed
  deriving DecidableEq, Repr

structure Parsing where
  declared : List Name
  edges : List (Name × Name)
  place : Place
  deriving DecidableEq, Repr

namespace Parsing

/-- The first token of a statement, or the end of the graph. -/
def start (state : Parsing) : Token → Option Parsing
  | .name name => some { state with place := .behindName name }
  | .closeBrace => some { state with place := .closed }
  | _ => none

/-- A token behind a statement. -/
def next (state : Parsing) : Token → Option Parsing
  | .semicolon => some { state with place := .statement }
  | .openBracket => some { state with place := .attributeName }
  | token => state.start token

/-- A token of a list of attributes that may end here. -/
def nextAttribute (state : Parsing) : Token → Option Parsing
  | .name _ => some { state with place := .attributeEquals }
  | .closeBracket => some { state with place := .behindAttributes }
  | _ => none

def step (operator : Token) : StepFunction Parsing Token := fun state token =>
  match state.place with
  | .statement => state.start token
  | .behindName name =>
      if token = operator then some { state with place := .behindOperator name }
      else next { state with declared := state.declared ++ [name] } token
  | .behindOperator left =>
      match token with
      | .name right =>
          some { state with edges := state.edges ++ [(left, right)], place := .behindEdge right }
      | _ => none
  | .behindEdge right =>
      if token = operator then some { state with place := .behindOperator right }
      else state.next token
  | .attributeName => state.nextAttribute token
  | .attributeEquals =>
      if token = .equals then some { state with place := .attributeValue } else none
  | .attributeValue =>
      match token with
      | .name _ => some { state with place := .attributeEnd }
      | _ => none
  | .attributeEnd =>
      if token = .comma ∨ token = .semicolon then some { state with place := .attributeName }
      else state.nextAttribute token
  | .behindAttributes => state.next token
  | .closed => none

end Parsing

def operator (directed : Bool) : Token := if directed then .arrow else .line

/-- The statements up to the closing brace. -/
def parseBody (strict directed : Bool) (tokens : List Token) : Option Document :=
  ((Parsing.step (operator directed)).execute
      { declared := [], edges := [], place := .statement } tokens).bind fun state =>
    if state.place = .closed then
      some
        { strict := strict
          directed := directed
          declared := state.declared
          edges := state.edges }
    else none

/-- The name of a graph may be left out. -/
def parseGraph (strict : Bool) : List Token → Option Document
  | .keyword .graph :: .openBrace :: rest => parseBody strict false rest
  | .keyword .graph :: .name _ :: .openBrace :: rest => parseBody strict false rest
  | .keyword .digraph :: .openBrace :: rest => parseBody strict true rest
  | .keyword .digraph :: .name _ :: .openBrace :: rest => parseBody strict true rest
  | _ => none

def parse : List Token → Option Document
  | .keyword .strict :: rest => parseGraph true rest
  | tokens => parseGraph false tokens

def read (source : String) : Option Document := (tokenize source.toList).bind parse

/-! ## Numbers as names -/

theorem toLower_of_isDigit {c : Char} (digit : c.isDigit = true) : c.toLower = c := by
  have bounds := Char.isDigit_iff_toNat.mp digit
  have nine : '9'.toNat = 57 := rfl
  apply dif_neg
  intro upper
  have low : 65 ≤ c.toNat := UInt32.le_iff_toNat_le.mp upper.1
  omega

section Digits

variable {word : List Char} (digits : ∀ c ∈ word, c.isDigit = true)
include digits

theorem keyword_ofWord_of_digits : Keyword.ofWord word = none := by
  have lower : word.map Char.toLower = word :=
    List.map_eq_self fun c member => toLower_of_isDigit (digits c member)
  have letters : ∀ known : String, known.toList.all Char.isDigit = false →
      String.ofList word ≠ known := by
    rintro known letter rfl
    rw [String.toList_ofList, List.all_eq_true.mpr digits] at letter
    cases letter
  rw [Keyword.ofWord, lower]
  split
  all_goals first
    | rfl
    | next same => exact absurd same (letters _ rfl)

theorem token_ofWord_of_digits (nonempty : word ≠ []) :
    Token.ofWord word = some (.name word) := by
  have numeral : isNumeral word = true := by
    rw [isNumeral, List.dropWhile_eq_nil_iff.mpr digits]
    simpa using nonempty
  rw [Token.ofWord, keyword_ofWord_of_digits digits]
  simp [numeral]

end Digits

/-! ## Texts of tokens -/

/-- Behind the characters just these tokens have been read, and nothing is begun. -/
def Lexes (chars : List Char) (tokens : List Token) : Prop :=
  ∀ before, Lexing.step.execute (.between before) chars = some (.between (before ++ tokens))

theorem Lexes.nil : Lexes [] [] := by
  intro before
  rw [List.append_nil]
  rfl

theorem Lexes.append {first later : List Char} {tokens more : List Token}
    (lexes : Lexes first tokens) (behind : Lexes later more) :
    Lexes (first ++ later) (tokens ++ more) := by
  intro before
  rw [StepFunction.execute_append, lexes before, Option.bind_some, behind, List.append_assoc]

theorem Lexes.flatMap {α : Type} {chars : α → List Char} {tokens : α → List Token}
    {items : List α} (each : ∀ item ∈ items, Lexes (chars item) (tokens item)) :
    Lexes (items.flatMap chars) (items.flatMap tokens) := by
  induction items with
  | nil => exact .nil
  | cons item rest induction =>
      rw [List.forall_mem_cons] at each
      exact each.1.append (induction each.2)

theorem Lexes.space : Lexes [' '] [] := by
  intro before
  rw [List.append_nil]
  rfl

theorem Lexes.newline : Lexes ['\n'] [] := by
  intro before
  rw [List.append_nil]
  rfl

theorem Lexes.tokenize {chars : List Char} {tokens : List Token} (lexes : Lexes chars tokens) :
    tokenize chars = some tokens := by
  rw [Dot.tokenize, lexes []]
  rfl

section Word

variable {c : Char} {tokens : List Token}

/-- One character that does not continue a token. -/
theorem Lexes.start_eq (lexes : Lexes [c] tokens) (before : List Token) :
    Lexing.start before c = some (.between (before ++ tokens)) := by
  have executed := lexes before
  rw [StepFunction.execute_cons] at executed
  rcases executed with ⟨next, taken, ends⟩
  rw [StepFunction.execute_nil, Option.some.injEq] at ends
  exact ends ▸ taken

theorem execute_word (before : List Token) {begun word : List Char}
    (chars : word.all isWordChar = true) :
    Lexing.step.execute { tokens := before, reading := .word begun } word =
      some { tokens := before, reading := .word (begun ++ word) } := by
  induction word generalizing begun with
  | nil => simp
  | cons c rest induction =>
      rw [List.all_cons, Bool.and_eq_true] at chars
      rw [StepFunction.execute_cons]
      refine ⟨{ tokens := before, reading := .word (begun ++ [c]) }, ?_, ?_⟩
      · simp [Lexing.step, chars.1]
      · rw [induction chars.2, List.append_assoc, List.singleton_append]

/-- A word ends in front of a character that is not part of it. -/
theorem Lexes.word {word : List Char} {token : Token} (nonempty : word ≠ [])
    (chars : word.all isWordChar = true) (known : Token.ofWord word = some token)
    (ends : isWordChar c = false) (lexes : Lexes [c] tokens) :
    Lexes (word ++ [c]) (token :: tokens) := by
  intro before
  cases word with
  | nil => exact absurd rfl nonempty
  | cons first rest =>
      rw [List.all_cons, Bool.and_eq_true] at chars
      have begins : Lexing.step (.between before) first =
          some { tokens := before, reading := .word [first] } := by
        simp [Lexing.step, Lexing.between, Lexing.start, chars.1]
      have last : Lexing.step { tokens := before, reading := .word (first :: rest) } c =
          some (.between (before ++ token :: tokens)) := by
        simp [Lexing.step, ends, known, lexes.start_eq]
      rw [List.cons_append, StepFunction.execute_cons]
      refine ⟨_, begins, ?_⟩
      rw [StepFunction.execute_append, execute_word before chars.2, Option.bind_some,
        StepFunction.execute_cons]
      exact ⟨_, last, rfl⟩

end Word

/-- A string without a quote or a backslash. -/
theorem Lexes.quoted {chars : List Char} (plain : chars.all isPlain = true) :
    Lexes ('"' :: (chars ++ ['"'])) [.name chars] := by
  have inside : ∀ before begun,
      Lexing.step.execute { tokens := before, reading := .quoted begun } chars =
        some { tokens := before, reading := .quoted (begun ++ chars) } := by
    intro before
    induction chars with
    | nil => simp
    | cons c rest induction =>
        intro begun
        rw [List.all_cons, Bool.and_eq_true] at plain
        have symbol : c ≠ '"' ∧ c ≠ '\\' := by simpa [isPlain] using plain.1
        rw [StepFunction.execute_cons]
        refine ⟨{ tokens := before, reading := .quoted (begun ++ [c]) }, ?_, ?_⟩
        · simp [Lexing.step, symbol]
        · rw [induction plain.2, List.append_assoc, List.singleton_append]
  intro before
  rw [StepFunction.execute_cons]
  refine ⟨{ tokens := before, reading := .quoted [] }, rfl, ?_⟩
  rw [StepFunction.execute_append, inside, Option.bind_some]
  rfl

/-! ## Tokens of graphs -/

def header (strict directed : Bool) : List Token :=
  (if strict then [.keyword .strict] else []) ++
    [.keyword (if directed then .digraph else .graph), .openBrace]

def edgeTokens (directed : Bool) (edge : Name × Name) : List Token :=
  [.name edge.1, operator directed, .name edge.2]

def attributeTokens (pair : Name × Name) : List Token := [.name pair.1, .equals, .name pair.2]

theorem Lexes.pair {name value : Name} (nonempty : name ≠ [])
    (chars : name.all isWordChar = true) (known : Token.ofWord name = some (.name name))
    (plain : value.all isPlain = true) :
    Lexes (name ++ ['='] ++ '"' :: (value ++ ['"'])) (attributeTokens (name, value)) := by
  have sign : Lexes ['='] [.equals] := fun _ => rfl
  exact (Lexes.word nonempty chars known rfl sign).append (Lexes.quoted plain)

/-- A name is declared with its attributes. -/
def nodeTokens (node : Name × List (Name × Name)) : List Token :=
  .name node.1 :: .openBracket :: (node.2.flatMap attributeTokens ++ [.closeBracket])

/-- The last statement has ended. -/
structure Parsing.Ended (declared : List Name) (edges : List (Name × Name)) (state : Parsing) :
    Prop where
  declared : state.declared = declared
  edges : state.edges = edges
  place : state.place = .statement ∨ (∃ right, state.place = .behindEdge right) ∨
    state.place = .behindAttributes

section Statements

variable {directed : Bool} {declared : List Name} {edges : List (Name × Name)} {state : Parsing}

theorem Parsing.Ended.start_eq (ended : state.Ended declared edges) {token : Token}
    (different : token ≠ operator directed)
    (notNext : token ≠ .semicolon ∧ token ≠ .openBracket) :
    Parsing.step (operator directed) state token = state.start token := by
  have next : state.next token = state.start token := by
    cases token with
    | semicolon => exact absurd rfl notNext.1
    | openBracket => exact absurd rfl notNext.2
    | _ => rfl
  rcases ended.place with here | ⟨right, here⟩ | here
  · simp only [Parsing.step, here]
  · simp only [Parsing.step, here, different, if_false, next]
  · simp only [Parsing.step, here, next]

theorem name_ne_operator (name : Name) (directed : Bool) : .name name ≠ operator directed := by
  cases directed <;> simp [operator]

theorem Parsing.Ended.name (ended : state.Ended declared edges) (name : Name) :
    Parsing.step (operator directed) state (.name name) =
      some { declared := declared, edges := edges, place := .behindName name } := by
  rw [ended.start_eq (name_ne_operator name directed) (by simp), Parsing.start, ended.declared,
    ended.edges]

theorem Parsing.Ended.edge (ended : state.Ended declared edges) (edge : Name × Name) :
    ∃ after, (Parsing.step (operator directed)).execute state (edgeTokens directed edge) =
      some after ∧ after.Ended declared (edges ++ [edge]) := by
  have joined : Parsing.step (operator directed)
      { declared := declared, edges := edges, place := .behindName edge.1 } (operator directed) =
        some { declared := declared, edges := edges, place := .behindOperator edge.1 } :=
    if_pos rfl
  refine ⟨{ declared := declared, edges := edges ++ [edge], place := .behindEdge edge.2 }, ?_,
    ⟨rfl, rfl, .inr (.inl ⟨edge.2, rfl⟩)⟩⟩
  simp only [edgeTokens, StepFunction.execute, ended.name, joined, Option.bind_some]
  rfl

theorem execute_attributes (attributes : List (Name × Name)) {place : Place}
    (unclosed : place = .attributeName ∨ place = .attributeEnd) :
    (Parsing.step (operator directed)).execute
        { declared := declared, edges := edges, place := place }
        (attributes.flatMap attributeTokens ++ [.closeBracket]) =
      some { declared := declared, edges := edges, place := .behindAttributes } := by
  induction attributes generalizing place with
  | nil => rcases unclosed with rfl | rfl <;> rfl
  | cons pair rest induction =>
      have later := induction (.inr rfl)
      rw [List.flatMap_cons, List.append_assoc, StepFunction.execute_append]
      rcases unclosed with rfl | rfl
      · exact later
      · exact later

theorem Parsing.Ended.node (ended : state.Ended declared edges)
    (node : Name × List (Name × Name)) :
    ∃ after, (Parsing.step (operator directed)).execute state (nodeTokens node) =
      some after ∧ after.Ended (declared ++ [node.1]) edges := by
  have opened : Parsing.step (operator directed)
      { declared := declared, edges := edges, place := .behindName node.1 } .openBracket =
        some { declared := declared ++ [node.1], edges := edges, place := .attributeName } := by
    cases directed <;> rfl
  refine ⟨{ declared := declared ++ [node.1], edges := edges, place := .behindAttributes }, ?_,
    ⟨rfl, rfl, .inr (.inr rfl)⟩⟩
  simp only [nodeTokens, StepFunction.execute, ended.name, opened, Option.bind_some]
  exact execute_attributes node.2 (.inl rfl)

end Statements

/-- A graph is read back: nodes with attributes, and then edges. -/
theorem parse_header (strict directed : Bool) (nodes : List (Name × List (Name × Name)))
    (edges : List (Name × Name)) :
    parse (header strict directed ++ (nodes.flatMap nodeTokens ++
        (edges.flatMap (edgeTokens directed) ++ [.closeBrace]))) =
      some
        { strict := strict
          directed := directed
          declared := nodes.map Prod.fst
          edges := edges } := by
  have initial : Parsing.Ended [] []
      { declared := [], edges := [], place := .statement } := ⟨rfl, rfl, .inl rfl⟩
  rcases StepFunction.execute_flatMap (Parsing.step (operator directed))
      (fun seen state => state.Ended (seen.map Prod.fst) [])
      (fun seen node state ended => by simpa using ended.node node) nodes initial with
    ⟨middle, declared, declaredEnded⟩
  rcases StepFunction.execute_flatMap (Parsing.step (operator directed))
      (fun seen state => state.Ended (nodes.map Prod.fst) seen)
      (fun seen edge state ended => ended.edge edge) edges declaredEnded with
    ⟨last, joined, ended⟩
  have closed : Parsing.step (operator directed) last .closeBrace =
      some { last with place := .closed } :=
    ended.start_eq (by cases directed <;> simp [operator]) (by simp)
  have body : parseBody strict directed (nodes.flatMap nodeTokens ++
      (edges.flatMap (edgeTokens directed) ++ [.closeBrace])) =
      some
        { strict := strict
          directed := directed
          declared := nodes.map Prod.fst
          edges := edges } := by
    rw [parseBody, StepFunction.execute_append, declared, Option.bind_some,
      StepFunction.execute_append, joined, Option.bind_some, StepFunction.execute, closed]
    simp [ended.declared, ended.edges]
  cases strict <;> cases directed <;> exact body

end Pmud.Foundation.Dot

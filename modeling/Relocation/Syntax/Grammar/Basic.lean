import Relocation.Syntax.Reader

/-!
# The parts of a grammar

The grammar of source files is recursive: expressions hold functions, functions hold statements,
statements hold expressions. Each reader here is written against a `Grammar`, a record of the
readers that it needs inside itself, and so is not recursive. `Syntax.Source` closes the circle.

Also here: reading an expression again as a pattern, which is how the left side of an assignment
and the parameters of an arrow function are found.
-/

namespace Relocation.Syntax

/-- The readers that other readers need inside themselves. -/
structure Grammar where
  /-- An expression, with commas. -/
  expression : Reader Node
  /-- An expression without commas. -/
  assignment : Reader Node
  /-- An expression of binary operators and what binds more strongly. -/
  binary : Reader Node
  /-- An operand of a binary operator, with the operators before and behind it. -/
  operand : Reader Node
  /-- An expression without operators. -/
  leftHand : Reader Node
  /-- What `new` constructs. -/
  constructed : Reader Node
  /-- A statement or declaration among others. -/
  statement : Reader Node
  /-- A statement that is part of another, where variables of a block cannot be declared. -/
  nested : Reader Node
  /-- A declaration or statement at the top of a file or namespace. -/
  item : Reader Node
  /-- A pattern, with its default. -/
  pattern : Reader Node
  /-- A type. -/
  type : Reader Node
  /-- An element or fragment of markup. -/
  element : Reader Node

/-- The grammar that reads nothing. -/
def Grammar.refusing : Grammar :=
  ⟨Reader.refuse, Reader.refuse, Reader.refuse, Reader.refuse, Reader.refuse, Reader.refuse,
    Reader.refuse, Reader.refuse, Reader.refuse, Reader.refuse, Reader.refuse, Reader.refuse⟩

namespace Node

/-- The elements of an array without the holes at its end. -/
def withoutLastHoles (elements : List Node) : List Node :=
  (elements.reverse.dropWhile (!·.isPresent)).reverse

/-- Tests whether the node is a rest pattern. -/
def isRest (n : Node) : Bool := n.kind matches .rest

/-- The elements of a pattern that was read as an expression: holes at its end are no elements,
and a rest pattern is one only at the very end. -/
def settled (elements : List Node) : List Node :=
  match elements.reverse with
  | last :: before =>
    if last.isPresent then before.reverse.filter (!isRest ·) ++ [last]
    else (withoutLastHoles elements).filter (!isRest ·)
  | [] => []

mutual

/-- Reads an expression again as a pattern. In a binding all variables must be names; in an
assignment any other expression stands for itself. -/
def toPattern (binding : Bool) : Node → Option Node
  | .node kind span children =>
    match kind with
    | .identifier _ _ | .arrayPattern _ | .objectPattern _ | .assignPattern | .rest =>
      some (.node kind span children)
    | .array => (toElements binding children).map fun items ↦
      .node (.arrayPattern false) span [many (settled items), absent]
    | .object => (toProperties binding children).map fun items ↦
      .node (.objectPattern false) span [many items, absent]
    | .assign "=" => some (.node .assignPattern span children)
    | _ => if binding then none else some (.node kind span children)

/-- Reads the elements of an array or of an argument list again as patterns. -/
def toElements (binding : Bool) : List Node → Option (List Node)
  | [] => some []
  | .node kind span children :: more => do
    let rest ← toElements binding more
    match kind with
    | .absent | .identifier _ _ | .arrayPattern _ | .objectPattern _ | .assignPattern | .rest =>
      return .node kind span children :: rest
    | .argument spread =>
      match children with
      | [value] =>
        let pattern ← toPattern binding value
        return (if spread then .node .rest value.span [pattern, absent] else pattern) :: rest
      | _ => none
    | _ => none

/-- Reads the properties of an object again as property patterns. -/
def toProperties (binding : Bool) : List Node → Option (List Node)
  | [] => some []
  | .node kind span children :: more => do
    let rest ← toProperties binding more
    match kind with
    | .property =>
      match children with
      | [key, value] =>
        return .node .propertyPattern span [key, ← toPattern binding value] :: rest
      | _ => none
    | .shorthand =>
      match children with
      | [name] => return .node .shorthandPattern span [name, absent] :: rest
      | _ => none
    | .shorthandDefault =>
      match children with
      | [name, value] => return .node .shorthandPattern span [name, value] :: rest
      | _ => none
    | .spreadProperty =>
      match children with
      | [value] => return .node .rest span [← toPattern binding value, absent] :: rest
      | _ => none
    | _ => none

end

/-- Tests whether an expression can be the left side of any assignment. -/
def isTarget (n : Node) : Bool :=
  match n.kind with
  | .identifier _ _ | .member _ | .index _ | .optionalCall | .chainedCall | .parens | .cast _
  | .assertion | .nonNull | .instantiation | .missing => true
  | _ => false

/-- Reads an expression again as the left side of an assignment with the given operator. Arrays
and objects are taken apart by a plain assignment. -/
def toTarget? (operator : String) (n : Node) : Option Node :=
  match n.kind with
  | .array | .object => if operator = "=" then toPattern false n else none
  | _ => if isTarget n then some n else none

/-- Reads what stands in parentheses again as the parameters of an arrow function. -/
def toParameters? (items : List Node) : Option (List Node) :=
  (toElements true items).map settled

/-- Gives a pattern a type and says whether it is optional. A name always reaches to the end of
its type; other patterns do if `reaches` says so. -/
def ascribe (pattern ascription : Node) (isOptional reaches : Bool) : Node :=
  let whole : Span :=
    if ascription.isPresent then ⟨pattern.span.lo, ascription.span.hi⟩ else pattern.span
  let span := if reaches then whole else pattern.span
  match pattern.kind, pattern.children with
  | .identifier name _, _ =>
    .node (.identifier name isOptional) whole (if ascription.isPresent then [ascription] else [])
  | .arrayPattern _, [elements, _] =>
    .node (.arrayPattern isOptional) span [elements, ascription]
  | .objectPattern _, [properties, _] =>
    .node (.objectPattern isOptional) span [properties, ascription]
  | .rest, [inner, _] => .node .rest span [inner, ascription]
  | _, _ => pattern

end Node

namespace Grammar

open Reader

/-- The settings inside brackets, whatever stands outside. -/
def inside {α : Type} (p : Reader α) : Reader α :=
  within (fun s ↦ { s with
    inOperator := true
    colonFollows := false
    conditionalTypes := true
    bracketsFollow := true
    elseTaken := false }) p

/-- Reads where `in` is an operator, whatever stands outside. -/
def withIn {α : Type} (p : Reader α) : Reader α :=
  within (fun s ↦ { s with inOperator := true }) p

/-- The elements of an array or array pattern up to the closing bracket; a comma where an
element could stand makes a hole. -/
def elements (item : Reader Node) : Reader (List Node) := do
  let items ← iterate (fun (acc : List Node) ↦ do
    if ← eatMark "]" then return .inr acc
    if ← eatMark "," then return .inl (Node.absent :: acc)
    let x ← item
    if ← eatMark "]" then return .inr (x :: acc)
    expectMark ","
    return .inl (x :: acc)) []
  return items.reverse

/-- An expression without commas, in an argument list or array, where it may be spread. -/
def argument (g : Grammar) : Reader Node := do
  let lo ← here
  let spread ← eatMark "..."
  let value ← withIn g.assignment
  node (.argument spread) lo [value]

/-- Arguments up to the closing parenthesis, after the opening one. -/
def arguments (g : Grammar) : Reader Node := inside do
  expectMark "("
  return Node.many (← commaList ")" (argument g))

/-- A decorator: a name with properties and calls behind it, or an expression in parentheses with
arguments behind it. -/
def decorator (g : Grammar) : Reader Node := do
  let lo ← here
  expectMark "@"
  let value ← if ← eatMark "(" then do
      let value ← inside g.expression
      expectMark ")"
      if ← atMark "(" then node .call value.span.lo [value, ← arguments g, Node.absent]
      else pure value
    else do
      require (← peek).kind.isPlainWord
      within (fun s ↦ { s with bracketsFollow := false }) g.leftHand
  node .decorator lo [value]

/-- The decorators before a declaration, member or parameter. -/
def decorators (g : Grammar) : Reader (List Node) := do
  let items ← iterate (fun (acc : List Node) ↦ do
    if ← atMark "@" then return .inl ((← decorator g) :: acc)
    return .inr acc) []
  return items.reverse

/-- A number. -/
def numberLiteral : Reader Node := do
  let t ← peek
  match t.kind with
  | .number raw =>
    let _ ← advance
    return .node (.number raw) t.span []
  | _ => refuse

/-- Expressions between brackets, as one. -/
def bracketed (g : Grammar) : Reader Node := inside do
  expectMark "["
  let value ← g.expression
  expectMark "]"
  return value

/-- The key of a property: a name, a string, a number or an expression in brackets. Where types
may be written the expression may have commas. -/
def propertyKey (g : Grammar) : Reader Node := do
  let t ← peek
  match t.kind with
  | .word _ _ => anyName
  | .text _ _ => stringLiteral
  | .number _ => numberLiteral
  | .mark "[" =>
    let value ← bracketed g
    require ((← setting).types || !(value.kind matches .sequence))
    node .computed t.span.lo [value]
  | _ => refuse

/-- The key of a member of a class, which may be private. -/
def memberKey (g : Grammar) : Reader Node := do
  let t ← peek
  match t.kind with
  | .privateWord name =>
    let _ ← advance
    return .node (.privateName name) t.span []
  | _ => propertyKey g

/-- The name of a property after a point. -/
def memberName : Reader Node := do
  let t ← peek
  match t.kind with
  | .privateWord name =>
    let _ ← advance
    return .node (.privateName name) t.span []
  | _ => anyName

/-- The text of a template with its line ends made plain. -/
def plainLineEnds : List Char → List Char
  | [] => []
  | '\r' :: '\n' :: r => '\n' :: plainLineEnds r
  | '\r' :: r => '\n' :: plainLineEnds r
  | c :: r => c :: plainLineEnds r

/-- The pieces of a template after its opening backtick, up to and with the closing one. Each
substitution is read by `value`. Only a tagged template may hold escapes that stand for nothing,
and keeps its line ends as they are. -/
def templateParts (tagged : Bool) (value : Reader Node) : Reader (List Node × List Node) := do
  let text ← textHere
  let (values, pieces, _) ← iterate
    (fun (state : List Node × List Node × List Char) ↦ do
      let (values, pieces, text) := state
      match Lexeme.templatePiece false (text.drop 1) with
      | none => refuse
      | some (raw, continues, rest) =>
        require (tagged || Lexeme.wellEscaped (raw.length + 1) raw)
        let kind : TokenKind := .mark (if continues then "$\x7b" else "\x60")
        let opening := text.take 1
        let closing := if continues then ['$', '\x7b'] else ['\x60']
        let span ← retake kind (opening ++ raw ++ closing) rest
        let spelled := String.ofList (if tagged then raw else plainLineEnds raw)
        let piece : Node := .node (.templatePiece spelled)
          ⟨span.lo + 1, span.hi - closing.length⟩ []
        if continues then
          let v ← value
          require (← atMark "\x7d")
          return .inl (v :: values, piece :: pieces, ← textHere)
        else return .inr (values, piece :: pieces, []))
    ([], [], text)
  return (values.reverse, pieces.reverse)

/-- A template. -/
def template (g : Grammar) (tagged : Bool) : Reader Node := do
  let lo ← here
  let (values, pieces) ← templateParts tagged (inside g.expression)
  node .template lo [Node.many values, Node.many pieces]

end Grammar

end Relocation.Syntax

import Relocation.Syntax.Grammar.Expression
import Relocation.Syntax.Numeral

/-!
# Statements and declarations
-/

namespace Relocation.Syntax.Grammar

open Reader

/-! ### Variables -/

/-- A variable with its type and value. A pattern has a value, except in the head of a loop over
keys or values, in a constant and in what exists elsewhere. -/
def declarator (g : Grammar) (keyword : String) (inHead : Bool) : Reader Node := do
  let lo ← here
  let types := (← setting).types
  let target ← bindingTarget g (keyword = "var")
  let isName := target.kind matches .identifier _ _
  let isDefinite ← if types && isName then eatMark "!" else pure false
  let type ← ascription g
  let pattern := target.ascribe type false false
  if inHead && ((← atWord "of") || (← atWord "in")) then
    node (.declarator isDefinite) lo [pattern, Node.absent]
  else if ← eatMark "=" then
    let value ← g.assignment
    node (.declarator isDefinite) lo [pattern, value]
  else
    require ((← setting).ambient || keyword = "const" || isName)
    node (.declarator isDefinite) lo [pattern, Node.absent]

/-- Variables from their keyword on, up to the end of the statement. After a comma the statement
may end. -/
def declarators (g : Grammar) (keyword : String) (inHead : Bool) : Reader (List Node) := do
  let one := declarator g keyword inHead
  let item := if inHead && keyword = "var" then one else withIn one
  let items ← iterate (fun (acc : List Node) ↦ do
    if (← atMark ";") || (← peek).kind = .ending then return .inr acc
    let x ← item
    if ← eatMark "," then return .inl (x :: acc)
    return .inr (x :: acc)) []
  return items.reverse

/-- Variables as a statement. What stands between them and its end is passed over. -/
def variableStatement (g : Grammar) (lo : Nat) (isDeclare : Bool) : Reader Node := do
  match (← advance).kind with
  | .word keyword _ =>
    let items ← declarators g keyword false
    if !(← eatSemicolon) then
      let _ ← recover g.expression
      iterate (fun (_ : Unit) ↦ do
        if ← eatSemicolon then return .inr ()
        let t ← peek
        if t.kind = .unknown then return .inr ()
        let _ ← advance
        return .inl ()) ()
    node (.variableList keyword isDeclare) lo items
  | _ => refuse

/-- Tests whether variables are declared here. -/
def atVariables : Reader Bool := do
  let second ← peekSecond
  match (← peek).kind with
  | .word "var" false | .word "const" false => return true
  | .word "let" false =>
    match second.kind with
    | .word w _ => return second.kind.isPlainWord || ["let", "yield", "await"].contains w
    | .mark m => return m = "[" || m = "\x7b"
    | _ => return false
  | _ => return false

/-! ### Loops, choices and jumps -/

/-- An expression in parentheses. -/
def condition (g : Grammar) : Reader Node := do
  expectMark "("
  let test ← inside g.expression
  expectMark ")"
  return test

/-- A loop from after its first part on: over keys, over values, or counting. -/
def loopTail (g : Grammar) (lo : Nat) (isAwait : Bool) (first : Node) (head : Option Node) :
    Reader Node := do
  match ← atWord "of", ← atWord "in", head with
  | true, _, some left =>
    let _ ← advance
    let right ← inside g.assignment
    expectMark ")"
    let body ← g.nested
    node (.forOf isAwait) lo [left, right, body]
  | _, true, some left =>
    let _ ← advance
    let right ← inside g.expression
    expectMark ")"
    let body ← g.nested
    require !isAwait
    node .forIn lo [left, right, body]
  | _, _, _ =>
    expectMark ";"
    let test ← if ← atMark ";" then pure Node.absent else inside g.expression
    expectMark ";"
    let update ← if ← atMark ")" then pure Node.absent else inside g.expression
    expectMark ")"
    let body ← g.nested
    require !isAwait
    node .forStatement lo [first, test, update, body]

/-- The variables in the head of a loop. A keyword with no name behind it declares none. -/
def headVariables (g : Grammar) : Reader Node := inside do
  let lo ← here
  match (← advance).kind with
  | .word keyword _ =>
    let empty ← if (← setting).types then wouldSucceed do
        require ((← eatWord "of") || (← eatWord "in"))
        let _ ← g.assignment
        expectMark ")"
      else pure false
    let items ← if empty then pure []
      else within (fun s ↦ { s with inOperator := false }) (declarators g keyword true)
    node (.variableList keyword false) lo items
  | _ => refuse

/-- A `for` loop. -/
def forLoop (g : Grammar) : Reader Node := do
  let lo ← here
  expectWord "for"
  let isAwait ← eatWord "await"
  expectMark "("
  if ← atMark ";" then loopTail g lo isAwait Node.absent none
  else if ← atVariables then
    let v ← headVariables g
    loopTail g lo isAwait v (some v)
  else
    let e ← inside (within (fun s ↦ { s with inOperator := false }) g.expression)
    loopTail g lo isAwait e (Node.toPattern false e)

/-- Gives a conditional without an alternative one. -/
def withAlternative (conditional alternative : Node) : Node :=
  match conditional.kind, conditional.children with
  | .ifStatement, [test, consequence, _] =>
    .node .ifStatement conditional.span [test, consequence, alternative]
  | _, _ => conditional

/-- A conditional. The conditionals that are alternatives of it are read one after another, each
without its own alternative, and joined in the end. -/
def ifReader (g : Grammar) : Reader Node := do
  let lo ← here
  expectWord "if"
  let test ← condition g
  let plain {α : Type} (p : Reader α) : Reader α := within (fun s ↦ { s with elseTaken := false }) p
  let consequence ← plain g.nested
  let alternative ← if (← setting).elseTaken then pure Node.absent else do
    let (conditionals, last) ← iterate (fun (state : List Node × Node) ↦ do
      let (conditionals, _) := state
      if !(← eatWord "else") then return .inr state
      if ← atWord "if" then
        let next ← within (fun s ↦ { s with elseTaken := true }) g.nested
        return .inl (next :: conditionals, Node.absent)
      else return .inr (conditionals, ← plain g.nested)) ([], Node.absent)
    pure (conditionals.foldl (fun alternative c ↦ withAlternative c alternative) last)
  node .ifStatement lo [test, consequence, alternative]

/-- The cases of a switch, of which one is the default at most. -/
def switchCases (g : Grammar) : Reader (List Node) := do
  let (cases, _) ← iterate (fun (state : List Node × Bool) ↦ do
    let (cases, hasDefault) := state
    let lo ← here
    let isCase ← eatWord "case"
    let isDefault ← if isCase then pure false else eatWord "default"
    if !isCase && !isDefault then return .inr state
    require !(isDefault && hasDefault)
    let test ← if isCase then inside g.expression else pure Node.absent
    expectMark ":"
    let statements ← iterate (fun (acc : List Node) ↦ do
      if (← atWord "case") || (← atWord "default") || (← atMark "\x7d") ||
          (← peek).kind = .ending then return .inr acc
      return .inl ((← g.statement) :: acc)) []
    let c ← node .switchCase lo [test, Node.many statements.reverse]
    return .inl (c :: cases, hasDefault || isDefault)) ([], false)
  return cases.reverse

/-- A handler of a `try` statement, if one is there. -/
def handler? (g : Grammar) : Reader Node := do
  let lo ← here
  if ← eatWord "catch" then
    let parameter ← if ← eatMark "(" then do
        let target ← bindingTarget g true
        let type ← ascription g
        expectMark ")"
        pure (target.ascribe type false false)
      else pure Node.absent
    let body ← block g
    node .catchClause lo [parameter, body]
  else return Node.absent

/-- The final block of a `try` statement, if one is there. -/
def finalizer? (g : Grammar) : Reader Node := do
  if ← eatWord "finally" then block g else return Node.absent

/-- A handler or final block with nothing to guard, in whose place an expression is missing. -/
def strayHandler (g : Grammar) : Reader Node := do
  let span := (← peek).span
  let _ ← recover (handler? g)
  let _ ← recover (finalizer? g)
  return .node .expressionStatement span [.node .missing span []]

/-- A statement that jumps to a label. -/
def jump (kind : Kind) : Reader Node := do
  let lo ← here
  let _ ← advance
  if ← eatSemicolon then node kind lo [Node.absent]
  else
    let label ← variableName (!(← setting).inGenerator)
    semicolon
    node kind lo [label]

/-! ### Declarations -/

/-- A class as a statement. -/
def classStatement (g : Grammar) (lo : Nat) (isDeclare isAbstract : Bool)
    (decorations : List Node) : Reader Node := do
  let (name, parts) ← classParts g lo isAbstract true decorations
  node (.classDeclaration isDeclare) lo [name, parts]

/-- A function as a statement. -/
def functionStatement (g : Grammar) (lo : Nat) (isDeclare : Bool) : Reader Node := do
  let isAsync ← eatWord "async"
  let (name, parts) ← namedFunction g lo isAsync fun _ ↦ bindingName true
  node (.functionDeclaration isDeclare) lo [name, parts]

/-- An interface from its name on. Of several lists of what it extends only the first counts. -/
def interfaceTail (g : Grammar) (lo : Nat) (isDeclare : Bool) : Reader Node := do
  let name ← anyName
  let typeParams ← typeParameters? g
  let extended ← if ← eatWord "extends" then heritageList g else pure []
  if ← atWord "extends" then
    iterate (fun (_ : Unit) ↦ do
      if (← atMark "\x7b") || (← peek).kind = .ending then return .inr ()
      let _ ← advance
      return .inl ()) ()
  let members ← typeMembers g
  node (.interface isDeclare) lo [name, typeParams, Node.many extended, Node.many members]

/-- A type alias from its name on. -/
def typeAliasTail (g : Grammar) (lo : Nat) (isDeclare : Bool) : Reader Node := do
  let name ← anyName
  let typeParams ← typeParameters? g
  expectMark "="
  let type ← insideType g.type
  semicolon
  node (.typeAlias isDeclare) lo [name, typeParams, type]

/-- The name of a member of an enumeration. A number names it by its value, and an expression
not at all. -/
def enumMemberName (g : Grammar) : Reader Node := do
  let t ← peek
  match t.kind with
  | .text _ _ => stringLiteral
  | .number raw =>
    require !(raw.endsWith "n")
    let _ ← advance
    return .node (.text (Numeral.text raw) none) t.span []
  | .mark "[" =>
    let _ ← bracketed g
    node (.identifier "" false) t.span.lo []
  | _ => anyName

/-- A member of an enumeration. One token behind it that is no value is passed over. -/
def enumMember (g : Grammar) : Reader Node := do
  let lo ← here
  let name ← enumMemberName g
  let value ← if ← eatMark "=" then g.assignment
    else do
      if !((← atMark ",") || (← atMark "\x7d")) then
        let _ ← advance
      pure Node.absent
  node .enumMember lo [name, value]

/-- An enumeration from its name on. A comma between its members may be missing. -/
def enumerationTail (g : Grammar) (lo : Nat) (isDeclare isConst : Bool) : Reader Node := do
  let name ← anyName
  expectMark "\x7b"
  let members ← inside (iterate (fun (acc : List Node) ↦ do
    if ← eatMark "\x7d" then return .inr acc
    let member ← enumMember g
    let _ ← eatMark ","
    return .inl (member :: acc)) [])
  node (.enumeration isDeclare isConst) lo [name, Node.many members.reverse]

/-- The items of a namespace, with their braces. -/
def namespaceBody (g : Grammar) : Reader Node := inside do
  let lo ← here
  expectMark "\x7b"
  let items ← untilMarkOrEnd "\x7d" g.item
  node .moduleBlock lo items

/-- A namespace from its name on, which may be dotted. -/
def namespaceTail (g : Grammar) (lo : Nat) (isDeclare : Bool) : Reader Node := do
  let first ← anyName
  let inner ← iterate (fun (acc : List (Nat × Node)) ↦ do
    if ← eatMark "." then
      let start ← here
      return .inl ((start, ← anyName) :: acc)
    return .inr acc) []
  let body ← namespaceBody g
  let hi ← previousEnd
  let nested := inner.foldl (fun body (start, name) ↦
    .node .innerNamespace ⟨start, hi⟩ [name, body]) body
  node (.namespaceBlock isDeclare false) lo [first, nested]

/-- A module named by a string, from its name on. -/
def quotedModule (g : Grammar) (lo : Nat) (isDeclare : Bool) : Reader Node := do
  let name ← stringLiteral
  let body ← if ← atMark "\x7b" then namespaceBody g else do
    semicolon
    pure Node.absent
  node (.namespaceBlock isDeclare false) lo [name, body]

/-- The global scope, extended: from its name on, or from its body on if that was read. -/
def globalBlock (g : Grammar) (lo : Nat) (isDeclare : Bool) (name : Node) : Reader Node := do
  let body ← namespaceBody g
  node (.namespaceBlock isDeclare true) lo [name, body]

/-- A declaration of types or namespaces after its first word. If `surely` says so it is one
whatever follows. -/
def typedTail? (g : Grammar) (lo : Nat) (isDeclare surely : Bool) (decorations : List Node)
    (word : String) : Reader (Option Node) := do
  let t ← peek
  let named := surely || t.kind.isName
  let namedHere := surely || t.kind.isName && !t.afterBreak
  match word with
  | "abstract" =>
    if surely || t.kind = .word "class" false && !t.afterBreak then
      return some (← classStatement g lo isDeclare true decorations)
  | "enum" => if named then return some (← enumerationTail g lo isDeclare false)
  | "interface" => if named then return some (← interfaceTail g lo isDeclare)
  | "module" =>
    if t.kind.isText && (surely || !t.afterBreak) then
      return some (← quotedModule g lo isDeclare)
    else if namedHere then return some (← namespaceTail g lo isDeclare)
  | "namespace" => if named then return some (← namespaceTail g lo isDeclare)
  | "type" => if namedHere then return some (← typeAliasTail g lo isDeclare)
  | _ => pure ()
  return none

/-- A declaration of types or namespaces, whatever follows its first word. -/
def typedDeclaration? (g : Grammar) (lo : Nat) (isDeclare : Bool) (decorations : List Node) :
    Reader (Option Node) := do
  match (← peek).kind with
  | .word w _ =>
    if ["abstract", "enum", "interface", "module", "namespace", "type"].contains w then
      let _ ← advance
      typedTail? g lo isDeclare true decorations w
    else return none
  | _ => return none

/-- Takes the two words that begin a constant enumeration, if they are there. -/
def eatConstEnum : Reader Bool := do
  let second ← peekSecond
  if (← atWord "const") && second.kind = .word "enum" false then
    let _ ← advance
    let _ ← advance
    return true
  else return false

/-- A declaration of something that exists elsewhere, after `declare`. -/
def declared? (g : Grammar) (lo : Nat) (decorations : List Node) : Reader (Option Node) :=
  within (fun s ↦ { s with ambient := true }) do
    if ← atWord "function" then return some (← functionStatement g lo true)
    else if ← atWord "class" then return some (← classStatement g lo true false decorations)
    else if ← eatConstEnum then return some (← enumerationTail g lo true true)
    else if (← atWord "const") || (← atWord "var") || (← atWord "let") then
      return some (← variableStatement g lo true)
    else if ← atWord "global" then
      let name ← anyName
      return some (← globalBlock g lo true name)
    else typedDeclaration? g lo true decorations

/-! ### Statements -/

/-- A statement that begins with a keyword. Variables of a block are declared only if `declares`
says so. -/
def keywordStatement? (g : Grammar) (lo : Nat) (declares : Bool) (decorations : List Node)
    (word : String) : Reader (Option Node) := do
  match word with
  | "break" => return some (← jump .breakStatement)
  | "continue" => return some (← jump .continueStatement)
  | "debugger" =>
    let _ ← advance
    semicolon
    return some (← node .debugger lo [])
  | "do" =>
    let _ ← advance
    let body ← g.nested
    expectWord "while"
    let test ← condition g
    let _ ← eatSemicolon
    return some (← node .doWhile lo [test, body])
  | "for" => return some (← forLoop g)
  | "function" => return some (← functionStatement g lo false)
  | "class" => return some (← classStatement g lo false false decorations)
  | "if" => return some (← ifReader g)
  | "return" =>
    let _ ← advance
    let value ← if (← atMark ";") || (← endsStatement) then pure Node.absent
      else inside g.expression
    semicolon
    return some (← node .returnStatement lo [value])
  | "switch" =>
    let _ ← advance
    let subject ← condition g
    expectMark "\x7b"
    let cases ← inside (switchCases g)
    expectMark "\x7d"
    return some (← node .switchStatement lo [subject, Node.many cases])
  | "throw" =>
    let _ ← advance
    require !(← afterBreak)
    let value ← inside g.expression
    semicolon
    return some (← node .throwStatement lo [value])
  | "catch" | "finally" => return some (← strayHandler g)
  | "try" =>
    let _ ← advance
    let body ← block g
    let handler ← handler? g
    let finalizer ← finalizer? g
    return some (← node .tryStatement lo [body, handler, finalizer])
  | "with" =>
    let _ ← advance
    let object ← condition g
    let body ← g.nested
    return some (← node .withStatement lo [object, body])
  | "while" =>
    let _ ← advance
    let test ← condition g
    let body ← g.nested
    return some (← node .whileStatement lo [test, body])
  | "var" => return some (← variableStatement g lo false)
  | "const" | "let" =>
    if declares && (← atVariables) then return some (← variableStatement g lo false)
    else return none
  | "async" =>
    let second ← peekSecond
    if second.kind = .word "function" false && !second.afterBreak then
      return some (← functionStatement g lo false)
    else return none
  | _ => return none

/-- A declaration of types that its first two words show, if they do. -/
def typesStatement? (g : Grammar) (lo : Nat) : Reader (Option Node) := do
  if !(← setting).types then return none
  let second ← peekSecond
  if second.afterBreak then return none
  else if (← atWord "interface") && second.kind.isWord then
    let _ ← advance
    return some (← interfaceTail g lo false)
  else if (← atWord "type") && second.kind.isName then
    let _ ← advance
    return some (← typeAliasTail g lo false)
  else if (← atWord "enum") && second.kind.isWord then
    let _ ← advance
    return some (← enumerationTail g lo false false)
  else return none

/-- A declaration whose first word was read as an expression, if it is one. -/
def wordStatement? (g : Grammar) (lo : Nat) (decorations : List Node) (name : Node)
    (word : String) : Reader (Option Node) := do
  if !(← setting).types then return none
  let found ← match word with
    | "declare" => declared? g name.span.lo decorations
    | "global" =>
      if ← atMark "\x7b" then pure (some (← globalBlock g name.span.lo false name)) else pure none
    | _ => typedTail? g name.span.lo false false decorations word
  match found with
  | some d => return some d
  | none =>
    if ["public", "static", "abstract"].contains word && (← eatWord "interface") then
      return some (← interfaceTail g lo false)
    else return none

/-- The end of an expression statement. In place of a semicolon a binary operator may follow what
cannot be its operand. -/
def expressionEnd (g : Grammar) (lo : Nat) (value : Node) : Reader Node := do
  if ← eatSemicolon then node .expressionStatement lo [value]
  else
    require (← operatorAfterBody)
    let value ← inside (withOperators g (operandExpression g) value)
    node .expressionStatement lo [value]

/-- A statement that begins with an expression: a label, a declaration whose first word looked
like a name, or the expression itself. -/
def expressionStatement (g : Grammar) (lo : Nat) (decorations : List Node) : Reader Node := do
  let value ← inside g.expression
  match value.kind with
  | .identifier word _ =>
    if ← eatMark ":" then
      let body ← g.nested
      let generator := match body.kind, body.children with
        | .functionDeclaration _, [_, parts] => (parts.kind matches .functionParts _ true)
        | _, _ => false
      require !generator
      node .labeled lo [value, body]
    else
      match ← wordStatement? g lo decorations value word with
      | some d => return d
      | none => expressionEnd g lo value
  | _ => expressionEnd g lo value

/-- A statement after the decorators before it. -/
def statementAfter (g : Grammar) (lo : Nat) (declares : Bool) (decorations : List Node) :
    Reader Node := do
  let t ← peek
  let constEnum ← if (← setting).types then eatConstEnum else pure false
  if constEnum then enumerationTail g lo false true
  else if t.kind = .mark "\x7b" then block g
  else if t.kind = .mark ";" then
    let _ ← advance
    node .emptyStatement lo []
  else
    let keyword ← match t.kind with
      | .word w false => keywordStatement? g lo declares decorations w
      | _ => pure none
    match keyword with
    | some s => return s
    | none =>
      match ← typesStatement? g lo with
      | some d => return d
      | none => expressionStatement g lo decorations

/-- A statement that begins with the call of a dynamic import or with what describes the file,
after which no semicolon is needed. -/
def importStatement (g : Grammar) (lo : Nat) : Reader Node := do
  let second ← peekSecond
  require (second.kind = .mark "(" || second.kind = .mark ".")
  let value ← inside g.expression
  let _ ← eatSemicolon
  node .expressionStatement lo [value]

/-- A statement of a block, or part of another statement. -/
def plainStatement (g : Grammar) (declares : Bool) : Reader Node := do
  let lo ← here
  let decorations ← decorators g
  if ← atWord "import" then importStatement g lo
  else
    require !(← atWord "export")
    statementAfter g lo declares decorations

end Relocation.Syntax.Grammar

import Relocation.Syntax.Grammar.Statement

/-!
# Imports and exports
-/

namespace Relocation.Syntax.Grammar

open Reader

/-- A name outside the file: a word or a string. -/
def outsideName : Reader Node := do
  if (← peek).kind.isText then stringLiteral else anyName

/-- The attributes of an import, where types may be written. -/
def importAttributes (g : Grammar) : Reader Node := do
  let given := (← setting).types && !(← afterBreak)
  if given && ((← eatWord "assert") || (← eatWord "with")) then
    let lo ← here
    expectMark "\x7b"
    let properties ← inside (commaList "\x7d" (objectProperty g))
    node .object lo properties
  else return Node.absent

/-- Tests whether the node is the given word. -/
def isWordNode (n : Node) (word : String) : Bool :=
  match n.kind with
  | .identifier w _ => w = word
  | _ => false

/-- A specifier that begins with the word `type` and another word: whether the word means a type,
the name, and the other name if there is one. The word `as` may be a name here too. -/
def typeSpecifier (first : Node) (other : Reader Node) : Reader (Bool × Node × Node) := do
  let name ← anyName
  if !isWordNode name "as" then
    let other ← if ← eatWord "as" then other else pure Node.absent
    return (true, name, other)
  else if !(← peek).kind.isWord then return (true, name, Node.absent)
  else
    let second ← other
    if isWordNode second "as" && (← peek).kind.isWord then return (true, name, ← other)
    else return (false, first, second)

/-- Tests whether a specifier has begun with the word `type` before its name. -/
def beginsTypeSpecifier (first : Node) : Reader Bool := do
  return (← setting).types && isWordNode first "type" && (← peek).kind.isWord

/-- An imported name in braces. -/
def importSpecifier : Reader Node := do
  let lo ← here
  let first ← outsideName
  if ← beginsTypeSpecifier first then
    match ← typeSpecifier first (bindingName true) with
    | (typeOnly, name, other) =>
      if Node.isPresent other then node (.importName typeOnly) lo [other, name]
      else node (.importName typeOnly) lo [name, Node.absent]
  else if ← eatWord "as" then
    let name ← bindingName true
    node (.importName false) lo [name, first]
  else
    require !(first.kind matches .text _ _)
    node (.importName false) lo [first, Node.absent]

/-- An exported name in braces. -/
def exportSpecifier : Reader Node := do
  let lo ← here
  let first ← outsideName
  if ← beginsTypeSpecifier first then
    match ← typeSpecifier first outsideName with
    | (typeOnly, name, other) => node (.exportName typeOnly) lo [name, other]
  else
    let outside ← if ← eatWord "as" then outsideName else pure Node.absent
    node (.exportName false) lo [first, outside]

/-- The assignment of a module or namespace to a name, from the equals sign on. -/
def importAssignment (lo : Nat) (exported typeOnly : Bool) (name : Node) : Reader Node := do
  expectMark "="
  let second ← peekSecond
  let reference ← if (← atWord "require") && second.kind = .mark "(" then do
      let start ← here
      let _ ← advance
      expectMark "("
      let source ← stringLiteral
      expectMark ")"
      node .externalReference start [source]
    else entityName
  semicolon
  node (.importEquals exported typeOnly) lo [name, reference]

/-- The end of an import or re-export: its source and attributes. -/
def sourceTail (g : Grammar) : Reader (Node × Node) := do
  let source ← stringLiteral
  let attributes ← importAttributes g
  semicolon
  return (source, attributes)

/-- Tests whether the current token is the word `from` with nothing like it behind it, so that no
name stands here. -/
def atSourceWord : Reader Bool := do
  let second ← peekSecond
  return (← atWord "from") && second.kind ≠ .word "from" false

/-- The words before what an import names: whether it imports types alone, how much it takes in,
and the name of its default import, if there is one. -/
def importHead : Reader (Bool × ImportPhase × Option Node) := do
  if !(← peek).kind.isName then return (false, .evaluation, none)
  let first ← bindingName true
  let opens := (← atMark "*") || (← atMark "\x7b")
  let types := (← setting).types
  let isType := types && isWordNode first "type"
  if isType && opens then return (true, .evaluation, none)
  let second ← peekSecond
  let assigned := (← atWord "from") && second.kind = .mark "="
  let typeOnly := isType && (← peek).kind.isName && (!(← atSourceWord) || assigned)
  let name ← if typeOnly then bindingName true else pure first
  let phase := if isWordNode name "source" then ImportPhase.source
    else if isWordNode name "defer" then ImportPhase.defer else ImportPhase.evaluation
  if phase = .evaluation then return (typeOnly, .evaluation, some name)
  else if types && (← atMark "=") then return (typeOnly, .evaluation, some name)
  else if (← atMark "*") || (← atMark "\x7b") then return (typeOnly, phase, none)
  else
    let second ← peekSecond
    let named := (← peek).kind.isName && !(← atWord "from") || second.kind = .word "from" false
    if named then return (typeOnly, phase, some (← bindingName true))
    else return (typeOnly, .evaluation, some name)

/-- What an import names besides its default import. -/
def importedNames (phase : ImportPhase) : Reader (List Node) := do
  let lo ← here
  if phase ≠ .source && (← eatMark "*") then
    expectWord "as"
    let name ← bindingName true
    return [← node .importNamespace lo [name]]
  else if phase = .evaluation && (← eatMark "\x7b") then commaList "\x7d" importSpecifier
  else return []

/-- An import, from the keyword on. -/
def importDeclaration (g : Grammar) : Reader Node := do
  let lo ← here
  expectWord "import"
  if (← peek).kind.isText then
    let (source, attributes) ← sourceTail g
    node (.importFrom false .evaluation) lo [source, Node.many [], attributes]
  else
    let (typeOnly, phase, default) ← importHead
    match default with
    | some name =>
      if (← setting).types && (← atMark "=") then importAssignment lo false typeOnly name
      else
        if !(← atWord "from") then expectMark ","
        let more ← importedNames phase
        expectWord "from"
        let (source, attributes) ← sourceTail g
        let first : Node := .node .importDefault name.span [name]
        node (.importFrom typeOnly phase) lo [source, Node.many (first :: more), attributes]
    | none =>
      let names ← importedNames phase
      expectWord "from"
      let (source, attributes) ← sourceTail g
      node (.importFrom typeOnly phase) lo [source, Node.many names, attributes]

/-- A class, function or interface that is exported by default, if one begins here. -/
def defaultDeclaration? (g : Grammar) (decorations : List Node) : Reader (Option Node) := do
  let lo ← here
  let types := (← setting).types
  let second ← peekSecond
  if types && (← atWord "abstract") && second.kind = .word "class" false && !second.afterBreak then
    let _ ← advance
    return some (← classExpression g lo true decorations)
  if types && (← atWord "abstract") && second.kind = .word "interface" false then
    let _ ← advance
  let lo ← here
  let second ← peekSecond
  if types && (← eatWord "interface") then return some (← interfaceTail g lo false)
  else if ← atWord "class" then return some (← classExpression g lo false decorations)
  else
    let isAsync := (← atWord "async") && second.kind = .word "function" false &&
      !second.afterBreak
    if isAsync then
      let _ ← advance
    if isAsync || (← atWord "function") then
      let (name, parts) ← namedFunction g lo isAsync fun _ ↦ optionalName
      return some (← node .functionExpression lo [name, parts])
    else return none

/-- A default export, from after `default` on. -/
def exportDefault (g : Grammar) (lo : Nat) (decorations : List Node) : Reader Node := do
  let inner ← decorators g
  require (inner.isEmpty || decorations.isEmpty)
  match ← defaultDeclaration? g (decorations ++ inner) with
  | some d => node .exportDefaultDeclaration lo [d]
  | none =>
    let value ← inside g.assignment
    semicolon
    node .exportDefaultExpression lo [value]

/-- Exported names in braces, with their source if there is one. -/
def exportBraces (g : Grammar) (lo : Nat) (typeOnly : Bool) : Reader Node := do
  expectMark "\x7b"
  let (specifiers, trailingComma) ← iterate (fun (state : List Node × Bool) ↦ do
    let (acc, comma) := state
    if ← atMark "\x7d" then return .inr (acc, comma)
    let x ← exportSpecifier
    if ← eatMark "," then return .inl (x :: acc, true)
    require (← atMark "\x7d")
    return .inr (x :: acc, false)) ([], false)
  let adjoining ← onlyBlanksBefore
  expectMark "\x7d"
  let specifiers := specifiers.reverse
  if ← eatWord "from" then
    let (source, attributes) ← sourceTail g
    node (.exportFrom typeOnly) lo [source, Node.many specifiers, attributes]
  else
    let ended ← eatMark ";"
    node (.exportList typeOnly (trailingComma && adjoining && !ended)) lo specifiers

/-- An export of everything, from the star on. -/
def exportStar (g : Grammar) (lo start : Nat) (typeOnly : Bool) : Reader Node := do
  expectMark "*"
  if ← eatWord "as" then
    let name ← outsideName
    let specifier ← node .exportNamespace start [name]
    expectWord "from"
    let (source, attributes) ← sourceTail g
    node (.exportFrom typeOnly) lo [source, Node.many [specifier], attributes]
  else
    expectWord "from"
    let (source, attributes) ← sourceTail g
    node (.exportAll typeOnly) lo [source, attributes]

/-- An export that only a file with types has, if one begins here. -/
def typedExport? (g : Grammar) (lo : Nat) (decorations : List Node) : Reader (Option Node) := do
  if !(← setting).types then return none
  let start ← here
  let declares ← eatWord "declare"
  match ← if declares then declared? g start decorations else pure none with
  | some d => return some (← node .exportDeclaration lo [d])
  | none =>
    let found ← attempt do
      match ← typedDeclaration? g (← here) false decorations with
      | some d => return d
      | none => refuse
    match found with
    | some d => return some (← node .exportDeclaration lo [d])
    | none =>
      if ← eatWord "import" then
        let second ← peekSecond
        let typeOnly ← if second.kind.isName then eatWord "type" else pure false
        let name ← anyName
        return some (← importAssignment lo true typeOnly name)
      else if ← eatMark "=" then
        let value ← inside g.expression
        semicolon
        return some (← node .exportAssignment lo [value])
      else if ← eatWord "as" then
        expectWord "namespace"
        let name ← variableName false
        semicolon
        return some (← node .namespaceExport lo [name])
      else return none

/-- A declaration that is exported by its name. -/
def exportedDeclaration (g : Grammar) (decorations : List Node) : Reader Node := do
  let lo ← here
  let second ← peekSecond
  let isAsync := (← atWord "async") && second.kind = .word "function" false && !second.afterBreak
  if ← atWord "class" then classStatement g lo false false decorations
  else if isAsync || (← atWord "function") then functionStatement g lo false
  else if (← setting).types && (← eatConstEnum) then enumerationTail g lo false true
  else
    require (← atVariables)
    variableStatement g lo false

/-- An export, from the keyword on, with the decorators before it. -/
def exportDeclaration (g : Grammar) (decorations : List Node) : Reader Node := do
  let lo ← here
  expectWord "export"
  match ← typedExport? g lo decorations with
  | some e => return e
  | none =>
    let start ← here
    let typeOnly ← if (← setting).types then eatWord "type" else pure false
    if !typeOnly && (← eatWord "default") then exportDefault g lo decorations
    else
      let inner ← decorators g
      require (inner.isEmpty || decorations.isEmpty)
      if ← atMark "\x7b" then exportBraces g lo typeOnly
      else if ← atMark "*" then exportStar g lo start typeOnly
      else
        require !typeOnly
        let d ← exportedDeclaration g (decorations ++ inner)
        node .exportDeclaration lo [d]

/-- An import, export, declaration or statement. Outside of functions an `await` that begins a
statement takes only binary operators, and needs no semicolon. -/
def anyItem (g : Grammar) : Reader Node := do
  let lo ← here
  let decorations ← decorators g
  match (← peek).kind with
  | .word "import" false =>
    match (← peekSecond).kind with
    | .mark "(" | .mark "." => importStatement g lo
    | _ => importDeclaration g
  | .word "export" false =>
    require ((← setting).types || decorations.isEmpty)
    exportDeclaration g decorations
  | .word "await" false =>
    let value ← inside do
      withOperators g (operandExpression g) (← awaitExpression g)
    let _ ← eatSemicolon
    node .expressionStatement lo [value]
  | _ => statementAfter g lo true decorations

end Relocation.Syntax.Grammar

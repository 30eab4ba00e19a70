import Relocation.Syntax.Grammar.Function
import Relocation.Syntax.Grammar.Markup

/-!
# Expressions

What stands in parentheses is read as arguments and, once an arrow follows, read again as
parameters. Operators are read with a stack: `Pending.fold` joins operands by the strength of the
operators between them. Where the left operand of a binary operator or the operand of a prefix
operator cannot be read, a node for what is missing stands in its place.
-/

namespace Relocation.Syntax.Grammar

open Reader

/-- Tests whether the expression is an arrow function, which nothing can follow. -/
def isArrow (n : Node) : Bool := n.kind matches .arrow _

/-- Tests whether the expression is a chain that may end early. -/
def isChain (n : Node) : Bool :=
  match n.kind with
  | .member access | .index access => access ≠ .plain
  | .optionalCall | .chainedCall => true
  | _ => false

/-- The access to a property of a value by a point or brackets. -/
def accessTo (value : Node) : Access := if isChain value then .chained else .plain

/-- Operators of assignment. -/
def assignmentOperators : List String :=
  ["=", "+=", "-=", "*=", "/=", "%=", "**=", "<<=", ">>=", ">>>=", "&=", "|=", "^=", "&&=", "||=",
   "??="]

/-- Follows an expression with the rest of an assignment, if an operator is there. -/
def withAssignment (g : Grammar) (lo : Nat) (left : Node) : Reader Node := do
  match (← peek).kind with
  | .mark m =>
    if assignmentOperators.contains m then
      match Node.toTarget? m left with
      | none => refuse
      | some target =>
        let _ ← advance
        let value ← g.assignment
        node (.assign m) lo [target, value]
    else return left
  | _ => return left

/-! ### Binary operators -/

/-- How strongly a binary operator binds. -/
def strength (operator : String) : Option Nat :=
  match operator with
  | "??" | "||" => some 1
  | "&&" => some 2
  | "|" => some 3
  | "^" => some 4
  | "&" => some 5
  | "==" | "!=" | "===" | "!==" => some 6
  | "<" | ">" | "<=" | ">=" | "in" | "instanceof" => some 7
  | "<<" | ">>" | ">>>" => some 8
  | "+" | "-" => some 9
  | "*" | "/" | "%" => some 10
  | "**" => some 11
  | _ => none

/-- Operands that wait for the right side of their operator, the innermost first. -/
abbrev Pending := List (Node × String)

/-- Joins waiting operands whose operators bind at least as strongly as asked. A power waits for
the power behind it. -/
def Pending.fold (least : Nat) : Pending → Node → Pending × Node
  | [], right => ([], right)
  | (left, operator) :: outer, right =>
    let binds := (strength operator).getD 0
    if least ≤ binds && !(least = 11 && binds = 11) then
      Pending.fold least outer
        (.node (.binary operator) ⟨left.span.lo, right.span.hi⟩ [left, right])
    else ((left, operator) :: outer, right)

/-- The binary operator at the front. -/
def binaryOperator? : Reader (Option String) := do
  match (← peek).kind with
  | .mark m => return if (strength m).isSome then some m else none
  | .word "instanceof" false => return some "instanceof"
  | .word "in" false => return if (← setting).inOperator then some "in" else none
  | _ => return none

/-- Follows an expression with a cast, whose word is the current token. -/
def withCast (g : Grammar) (value : Node) : Reader Node := do
  let lo := value.span.lo
  let satisfies_ ← atWord "satisfies"
  let _ ← advance
  if !satisfies_ && (← eatWord "const") then node .constCast lo [value]
  else
    let type ← insideType g.type
    node (.cast (if satisfies_ then "satisfies" else "as")) lo [value, type]

/-- Follows an operand with the binary operators and casts behind it. What has an operator before
it is no base of a power. -/
def withOperators (g : Grammar) (operand : Reader Node) (first : Node) : Reader Node := do
  let (pending, last) ← iterate (fun (state : Pending × Node) ↦ do
    let (pending, right) := state
    let isCast := ((← atWord "as") || (← atWord "satisfies")) && (← setting).types &&
      !(← afterBreak)
    if isCast then
      let (pending, value) := pending.fold 7 right
      return .inl (pending, ← withCast g value)
    else
      match ← binaryOperator? with
      | none => return .inr (pending, right)
      | some operator =>
        let (pending, left) := pending.fold ((strength operator).getD 0) right
        require (operator ≠ "**" || !(left.kind matches .unary _ | .await))
        let _ ← advance
        let next ← operand
        return .inl ((left, operator) :: pending, next)) ([], first)
  return (pending.fold 0 last).2

/-- A node for the expression that is missing here. -/
def missing (position : Nat) : Node := .node .missing ⟨position, position⟩ []

/-- An expression of binary operators, given how to read an operand. -/
def binaryBy (g : Grammar) (operand : Reader Node) : Reader Node := do
  match ← recover operand with
  | some first => if isArrow first then return first else withOperators g operand first
  | none =>
    require (← binaryOperator?).isSome
    withOperators g operand (missing (← here))

/-! ### Arrow functions and parentheses -/

/-- The body of an arrow function: a block or an expression. -/
def arrowBody (g : Grammar) (isAsync : Bool) : Reader Node := do
  if ← atMark "\x7b" then insideFunction isAsync false (block g)
  else
    within (fun s ↦ { s with inAsync := isAsync, inGenerator := false, inParameters := false })
      g.assignment

/-- An arrow function whose parameters have been read, from the arrow on. -/
def arrowTail (g : Grammar) (lo : Nat) (isAsync : Bool) (params : List Node)
    (typeParams result : Node) : Reader Node := do
  expectMark "=>"
  let body ← arrowBody g isAsync
  node (.arrow isAsync) lo [Node.many params, body, typeParams, result]

/-- An asynchronous arrow function with type parameters, from them on. -/
def genericAsyncArrow (g : Grammar) (lo : Nat) : Reader Node := do
  let typeParams ← typeParameters g
  let params ← parameters g
  let result ← resultAscription g
  let patterns := params.children.map fun p ↦ p.children.getLast?.getD p
  arrowTail g lo true patterns typeParams result

/-- Reads with the given place as one where an arrow function may begin. -/
def arrowsFrom {α : Type} (place : Option Nat) (p : Reader α) : Reader α :=
  within (fun s ↦ { s with arrowStart := place }) p

/-- Something in parentheses that turns out to be a parameter, since it has a type or is
optional. -/
def typedItem (g : Grammar) (lo : Nat) (spread isOptional : Bool) (value : Node) :
    Reader Node := do
  match Node.toPattern true value with
  | none => refuse
  | some inner =>
    require !(inner.kind matches .assignPattern)
    let pattern ← if spread then node .rest lo [inner, Node.absent] else pure inner
    let type ← ascription g
    withDefault g lo (pattern.ascribe type isOptional true)

/-- One of the things in parentheses, before it is known whether an arrow follows: an argument,
or a parameter that is no argument. -/
def parenItem (g : Grammar) : Reader Node := do
  let start ← here
  arrowsFrom (some start) do
    skipModifier
    let lo ← here
    let types := (← setting).types
    let named := (← peek).kind.isName ||
      (← atMark "...") && (← peekSecond).kind.isName
    let spread ← eatMark "..."
    let value ← if !(types && named) then g.assignment else g.binary
    let value ← if types && named && !spread then withAssignment g start value else pure value
    let second ← peekSecond
    let mayEnd := [",", ":", ")", "="].any fun m ↦ second.kind = .mark m
    let asked := types && (← atMark "?")
    if asked && mayEnd then
      require (value.kind matches .identifier _ _)
      let _ ← advance
      typedItem g lo spread true value
    else if asked && !spread then
      let _ ← advance
      let consequence ← within (fun s ↦ { s with colonFollows := true }) g.assignment
      expectMark ":"
      let alternative ← within (fun s ↦ { s with colonFollows := false }) g.assignment
      let whole ← node .conditional start [value, consequence, alternative]
      if ← atMark ":" then typedItem g lo false false whole else node (.argument false) lo [whole]
    else if types && (← atMark ":") then typedItem g lo spread false value
    else node (.argument spread) lo [value]

/-- An arrow function from its arrow on, if the things in parentheses can be its parameters. -/
def arrowOf (g : Grammar) (lo : Nat) (isAsync : Bool) (items : List Node) (result : Node) :
    Reader Node := do
  match Node.toParameters? items with
  | none => refuse
  | some params => arrowTail g lo isAsync params Node.absent result

/-- Things in parentheses as an expression: the arguments of a call of `async`, or one value or
sequence in parentheses. -/
def parensOf (lo : Nat) (async : Option Node) (items : List Node) : Reader Node := do
  let values := items.mapM fun i ↦
    match i.kind, i.children with
    | .argument false, [value] => some value
    | _, _ => none
  match async, values with
  | some name, _ =>
    require (items.all (·.kind matches .argument _))
    node .call lo [name, Node.many items, Node.absent]
  | none, some [value] => node .parens lo [value]
  | none, some (first :: more) =>
    let last := (more.getLast?.getD first).span.hi
    node .parens lo [.node .sequence ⟨first.span.lo, last⟩ (first :: more)]
  | none, _ => refuse

/-- Tests whether a binary operator stands where the body of an arrow function has ended. -/
def operatorAfterBody : Reader Bool := do
  let markup := (← setting).markup && (← atMark "<")
  match (← peek).kind with
  | .mark m => return (strength m).isSome && m ≠ "/" && !markup
  | _ => return false

/-- Parentheses, from the opening one on: an arrow function, a call of `async`, an expression or a
sequence. Where a colon must follow the expression, a colon begins a result type only if another
one follows the function. -/
def parens (g : Grammar) (lo : Nat) (async : Option Node) (canBeArrow : Bool) : Reader Node := do
  let items ← inside do
    expectMark "("
    commaList ")" (parenItem g)
  let colonFollows := (← setting).colonFollows
  let typed := (← setting).types && (← atMark ":")
  let guarded ← if typed && colonFollows then attempt do
      let result ← resultAscription g
      let f ← arrowOf g lo async.isSome items result
      require (← atMark ":")
      return f
    else pure none
  match guarded with
  | some f => return f
  | none =>
    let result ← if typed && !colonFollows then attempt do
        let result ← resultAscription g
        require (← atMark "=>")
        return result
      else pure none
    let isArrow := result.isSome || items.any (!·.kind matches .argument _)
    if isArrow || (← atMark "=>") then
      require (!(← afterBreak) && canBeArrow)
      let f ← arrowOf g lo async.isSome items (result.getD Node.absent)
      let bodied := match f.children with
        | [_, body, _, _] => (body.kind matches .block)
        | _ => false
      if bodied && (← operatorAfterBody) then withOperators g g.operand f else return f
    else parensOf lo async items

/-! ### Primary expressions -/

/-- A function of an object, in which `super` has properties. -/
def objectFunction (g : Grammar) (lo : Nat) (isAsync isGenerator : Bool) : Reader Node :=
  within (fun s ↦ { s with superAllowed := true }) (functionParts g lo isAsync isGenerator [])

/-- A getter, setter or asynchronous method of an object, after the given word. -/
def accessorProperty (g : Grammar) (lo : Nat) (word : String) : Reader Node := do
  let isGenerator ← if word = "async" then eatMark "*" else pure false
  let key ← propertyKey g
  let parts ← objectFunction g lo (word = "async") isGenerator
  match word, parts.children with
  | "async", _ => node .objectMethod lo [key, parts]
  | "get", [_, _, body, _, result] => node .objectGetter lo [key, result, body]
  | "set", [params, _, body, _, _] =>
    match params.children.map (fun p ↦ p.children.getLast?.getD p) with
    | [parameter] => node .objectSetter lo [key, Node.absent, parameter, body]
    | this :: parameter :: _ => node .objectSetter lo [key, this, parameter, body]
    | [] => refuse
  | _, _ => refuse

/-- Tests whether something can follow the key of a property. Where types may be written a
property whose key ends it has no value. -/
def followsKey (key : Node) : Reader Bool := do
  match (← peek).kind with
  | .word _ _ | .text _ _ | .number _ | .privateWord _ => return true
  | .mark "\x7d" => return (key.kind matches .identifier _ _)
  | .mark m => return ["(", "[", ":", ",", "?", "=", "*", "<"].contains m
  | _ => return false

/-- A property of an object. -/
def objectProperty (g : Grammar) : Reader Node := do
  let lo ← here
  if ← eatMark "..." then
    let value ← g.assignment
    node .spreadProperty lo [value]
  else if ← eatMark "*" then
    let key ← propertyKey g
    let parts ← objectFunction g lo false true
    node .objectMethod lo [key, parts]
  else
    skipModifier
    let key ← propertyKey g
    let types := (← setting).types
    let follows ← followsKey key
    if types && !follows then
      let hi ← previousEnd
      return .node .property ⟨lo, hi⟩ [key, .node .missing ⟨lo, hi⟩ []]
    if ← eatMark ":" then
      let value ← g.assignment
      node .property lo [key, value]
    else if ← atParameters then
      let parts ← objectFunction g lo false false
      node .objectMethod lo [key, parts]
    else
      match key.kind with
      | .identifier word _ =>
        let _ ← eatMark "?"
        if ← eatMark "=" then
          let value ← g.assignment
          node .shorthandDefault lo [key, value]
        else if (← atMark ",") || (← atMark "\x7d") then node .shorthand lo [key]
        else accessorProperty g lo word
      | _ => refuse

/-- A regular expression, read again from the slash that is the current token. One that does not
end takes the rest of its line. -/
def regexLiteral : Reader Node := do
  let text ← textHere
  match Lexeme.regex (← limit) text with
  | some (raw, plain, rest) =>
    let span ← retake (.mark (String.ofList raw)) raw rest
    return .node (.regex (String.ofList plain)) span []
  | none =>
    let raw := text.takeWhile (!Character.isLineTerminator ·)
    let _ ← retake (.mark (String.ofList raw)) raw (text.drop raw.length)
    refuse

/-- A name, or an arrow function that begins with one. -/
def nameOrArrow (g : Grammar) (canBeArrow : Bool) : Reader Node := do
  let t ← peek
  let lo := t.span.lo
  require (t.kind.isName || t.kind = .word "let" false)
  let name ← anyName
  let async := t.kind = .word "async" false && !(← afterBreak) && (← peek).kind.isName
  if canBeArrow && async then
    let parameter ← bindingName true
    let isCast := (parameter.kind matches .identifier "as" _) && (← setting).types &&
      !(← atMark "=>")
    if isCast then
      let type ← insideType g.type
      node (.cast "as") lo [name, type]
    else arrowTail g lo true [parameter] Node.absent Node.absent
  else if canBeArrow && (← atMark "=>") && !(← afterBreak) then
    arrowTail g lo false [name] Node.absent Node.absent
  else return name

/-- An expression that begins with `async`. -/
def asyncExpression (g : Grammar) (canBeArrow : Bool) : Reader Node := do
  let lo ← here
  let second ← peekSecond
  if second.kind = .word "function" false && !second.afterBreak then
    let _ ← advance
    functionExpression g lo true
  else
    let generic ← if canBeArrow && (← setting).types && second.kind = .mark "<" then attempt do
        let _ ← advance
        genericAsyncArrow g lo
      else pure none
    match generic with
    | some f => return f
    | none =>
      if canBeArrow && second.kind = .mark "(" && !second.afterBreak then
        let name ← anyName
        parens g lo (some name) true
      else nameOrArrow g canBeArrow

/-- A class, private name or name, before which decorators may stand. -/
def namedPrimary (g : Grammar) (canBeArrow : Bool) : Reader Node := do
  let lo ← here
  let decorations ← decorators g
  let t ← peek
  match t.kind with
  | .word "class" false => classExpression g lo false decorations
  | .privateWord name =>
    let _ ← advance
    return .node (.privateName name) t.span []
  | _ => nameOrArrow g canBeArrow

/-- An expression without operators, properties and calls around it. -/
def primary (g : Grammar) : Reader Node := do
  let t ← peek
  let lo := t.span.lo
  let canBeArrow := (← setting).arrowStart = some lo
  match t.kind with
  | .number _ => numberLiteral
  | .text _ _ => stringLiteral
  | .mark "(" => parens g lo none canBeArrow
  | .mark "[" =>
    let _ ← advance
    let items ← inside (elements (argument g))
    node .array lo items
  | .mark "\x7b" =>
    let _ ← advance
    let properties ← inside (commaList "\x7d" (objectProperty g))
    node .object lo properties
  | .mark "/" | .mark "/=" => regexLiteral
  | .mark "\x60" => template g false
  | .word "this" false =>
    let _ ← advance
    node .this lo []
  | .word "null" false =>
    let _ ← advance
    node .null lo []
  | .word "true" false =>
    let _ ← advance
    node (.boolean true) lo []
  | .word "false" false =>
    let _ ← advance
    node (.boolean false) lo []
  | .word "function" false => functionExpression g lo false
  | .word "async" false => asyncExpression g canBeArrow
  | _ => namedPrimary g canBeArrow

/-! ### Properties and calls -/

/-- Tests whether the current token could begin an expression. -/
def beginsExpression : Reader Bool := do
  let t ← peek
  let second ← peekSecond
  match t.kind with
  | .number _ | .text _ _ | .privateWord _ => return true
  | .word "import" false => return ["(", "<", "."].any fun m ↦ second.kind = .mark m
  | .word w _ =>
    return t.kind.isName || ["this", "super", "null", "true", "false", "function", "class", "new",
      "delete", "typeof", "void", "await", "yield"].contains w
  | .mark m =>
    return ["(", "[", "\x7b", "\x60", "!", "~", "++", "--", "/", "/="].contains m
  | _ => return false

/-- Follows an expression with type arguments that stand by themselves, if they do. -/
def instantiated (g : Grammar) (lo : Nat) (value : Node) : Reader Node := do
  if !(← setting).types || !(← atMark "<") then return value
  let found ← attempt do
    let types ← typeArguments g
    require !(["<", ">", "+", "-", "(", "\x60"].contains (match (← peek).kind with
      | .mark m => m
      | _ => ""))
    let ends := !(← beginsExpression)
    let operator := (← peek).kind.isBinaryOperator
    require ((← afterBreak) || operator || ends)
    node .instantiation lo [value, types]
  return found.getD value

/-- Follows an expression with type arguments and what makes use of them: a call, a template, or
the value of an assignment. Tells whether more can follow. -/
def applied? (g : Grammar) (lo : Nat) (value : Node) (calls : Bool) :
    Reader (Option (Node × Bool)) := attempt do
  let types ← typeArguments g
  if calls && (← atMark "(") then
    let args ← arguments g
    let label := if isChain value then .chainedCall else .call
    return (← node label lo [value, args, types], true)
  else if ← atMark "\x60" then
    let piece ← template g true
    return (← node .tagged lo [value, types, piece], true)
  else
    require ((← atMark "=") || (← atWord "as") || (← atWord "satisfies"))
    return (← node .instantiation lo [value, types], false)

/-- What follows a question mark and point: a call or a property. -/
def optionalSuffix (g : Grammar) (lo : Nat) (value : Node) : Reader Node := do
  let typed := (← setting).types && (← atMark "<")
  if typed || (← atMark "(") then
    let types ← if typed then typeArguments g else pure Node.absent
    let args ← arguments g
    node .optionalCall lo [value, args, types]
  else if (← setting).bracketsFollow && (← atMark "[") then
    let key ← bracketed g
    node (.index .optional) lo [value, key]
  else
    let name ← memberName
    instantiated g lo (← node (.member .optional) lo [value, name])

/-- Follows an expression with the properties, calls and templates behind it. -/
def suffixes (g : Grammar) (calls : Bool) (lo : Nat) (first : Node) : Reader Node :=
  iterate (fun (value : Node) ↦ do
    let t ← peek
    let types := (← setting).types
    match t.kind with
    | .mark "!" =>
      if !types || t.afterBreak then return .inr value
      let _ ← advance
      return .inl (← node .nonNull lo [value])
    | .mark "<" =>
      if !types then return .inr value
      match ← applied? g lo value calls with
      | some (applied, true) => return .inl applied
      | some (applied, false) => return .inr applied
      | none => return .inr value
    | .mark "?." =>
      let _ ← advance
      return .inl (← optionalSuffix g lo value)
    | .mark "[" =>
      if !(← setting).bracketsFollow then return .inr value
      let key ← bracketed g
      return .inl (← node (.index (accessTo value)) lo [value, key])
    | .mark "(" =>
      if !calls then return .inr value
      let args ← arguments g
      let label := if isChain value then .chainedCall else .call
      return .inl (← node label lo [value, args, Node.absent])
    | .mark "." =>
      let _ ← advance
      let name ← memberName
      let whole ← node (.member (accessTo value)) lo [value, name]
      return .inl (← instantiated g lo whole)
    | .mark "\x60" =>
      let piece ← template g true
      return .inl (← node .tagged lo [value, Node.absent, piece])
    | _ => return .inr value) first

/-- An expression that begins with `super`: a call, or a property where `super` has some. -/
def superExpression (g : Grammar) (calls : Bool) : Reader Node := do
  let t ← peek
  let lo := t.span.lo
  expectWord "super"
  let super : Node := .node .super t.span []
  let first ← match (← peek).kind with
    | .mark "(" => do
      require calls
      let args ← arguments g
      node .call lo [super, args, Node.absent]
    | .mark "." => do
      require (← setting).superAllowed
      let _ ← advance
      let name ← anyName
      node (.member .plain) lo [super, name]
    | .mark "[" => do
      require (← setting).superAllowed
      let key ← bracketed g
      node (.index .plain) lo [super, key]
    | _ => refuse
  suffixes g calls lo first

/-- A call of a dynamic import, from its arguments on. Only where types may be written can a
comma end them. -/
def importCall (g : Grammar) (lo : Nat) (phase : ImportPhase) : Reader Node := do
  let keyword ← node (.importKeyword phase) lo []
  let args ← inside do
    expectMark "("
    let items ← iterate (fun (acc : List Node) ↦ do
      if ← eatMark ")" then return .inr acc
      let x ← argument g
      if ← eatMark ")" then return .inr (x :: acc)
      expectMark ","
      require ((← setting).types || !(← atMark ")"))
      return .inl (x :: acc)) []
    return Node.many items.reverse
  node .call lo [keyword, args, Node.absent]

/-- An expression that begins with `import`: a dynamic import or what describes the file. -/
def importExpression (g : Grammar) (calls : Bool) : Reader Node := do
  let lo ← here
  expectWord "import"
  let first ← if ← eatMark "." then
      match (← anyName).kind with
      | .identifier "meta" _ => node (.metaProperty "import" "meta") lo []
      | .identifier "defer" _ => do
        require calls
        importCall g lo .defer
      | .identifier "source" _ => do
        require calls
        importCall g lo .source
      | _ => refuse
    else do
      require calls
      importCall g lo .evaluation
  suffixes g calls lo first

/-- Type arguments right before the arguments of a call. -/
def callTypes? (g : Grammar) : Reader Node := do
  if !(← setting).types || !(← atOpenAngle) then return Node.absent
  let found ← attempt do
    let types ← typeArguments g
    require (← atMark "(")
    return types
  return found.getD Node.absent

/-- A construction. What may end early cannot be constructed. -/
def construction (g : Grammar) : Reader Node := do
  let lo ← here
  expectWord "new"
  if ← eatMark "." then
    expectWord "target"
    suffixes g false lo (← node (.metaProperty "new" "target") lo [])
  else
    let callee ← g.constructed
    if isArrow callee then return callee
    let chained := isChain callee || match callee.kind, callee.children with
      | .member _, object :: _ | .index _, object :: _ => isChain object
      | _, _ => false
    require !chained
    let types ← callTypes? g
    if ← atMark "(" then
      let args ← arguments g
      suffixes g false lo (← node .new lo [callee, args, types])
    else node .new lo [callee, Node.absent, Node.absent]

/-- An expression without calls, as `new` constructs it. -/
def constructedExpression (g : Grammar) : Reader Node := do
  let lo ← here
  if ← atWord "new" then construction g
  else if ← atWord "super" then superExpression g false
  else if ← atWord "import" then importExpression g false
  else
    let first ← primary g
    if isArrow first then return first
    suffixes g false lo (← instantiated g lo first)

/-- An expression without operators. Nothing follows an element of markup. -/
def leftHandExpression (g : Grammar) : Reader Node := do
  let lo ← here
  if (← setting).markup && (← atMark "<") then g.element
  else if ← atWord "super" then superExpression g true
  else if ← atWord "import" then importExpression g true
  else
    let callee ← constructedExpression g
    if isArrow callee then return callee
    let types ← callTypes? g
    if ← atMark "(" then
      let args ← arguments g
      let label := if isChain callee then .chainedCall else .call
      suffixes g true lo (← node label lo [callee, args, types])
    else return callee

/-! ### Operators with one operand -/

/-- An `await` with its operand. It is a name before a closing bracket, outside asynchronous
functions. -/
def awaitExpression (g : Grammar) : Reader Node := do
  let t ← peek
  expectWord "await"
  require !(← atMark "*")
  let closes := (← atMark ")") || (← atMark "]")
  if closes && !(← setting).inAsync then
    return .node (.identifier "await" false) t.span []
  else
    let operand ← g.operand
    node .await t.span.lo [operand]

/-- An operand with a cast before it. -/
def assertionExpression (g : Grammar) : Reader Node := do
  let lo ← here
  openAngle
  if ← eatWord "const" then
    closeAngle
    let operand ← g.operand
    node .constCast lo [operand]
  else
    let type ← insideType g.type
    closeAngle
    let operand ← g.operand
    node .assertion lo [operand, type]

/-- An operand with an increment or decrement behind it on the same line, if one is there. -/
def steppedExpression (g : Grammar) : Reader Node := do
  let value ← leftHandExpression g
  if isArrow value || (← afterBreak) then return value
  match (← peek).kind with
  | .mark m =>
    if m = "++" || m = "--" then
      let _ ← advance
      node (.update false m) value.span.lo [value]
    else return value
  | _ => return value

/-- An operand of a binary operator, with the operators of one operand around it. -/
def operandExpression (g : Grammar) : Reader Node := do
  let t ← peek
  let lo := t.span.lo
  let signed (operator : String) : Reader Node := do
    let _ ← advance
    let start ← here
    let operand := (← recover g.operand).getD (missing (start - 1))
    return .node (.unary operator) ⟨lo, operand.span.hi⟩ [operand]
  match t.kind with
  | .mark m =>
    if m = "<" && (← setting).types && !(← setting).markup then assertionExpression g
    else if m = "++" || m = "--" then
      let _ ← advance
      let operand ← g.operand
      return .node (.update true m) ⟨lo, operand.span.hi⟩ [operand]
    else if ["+", "-", "~", "!"].contains m then signed m
    else steppedExpression g
  | .word "await" false => awaitExpression g
  | .word w false =>
    if ["delete", "void", "typeof"].contains w then signed w else steppedExpression g
  | _ => steppedExpression g

/-- An expression of binary operators and casts. -/
def binaryExpression (g : Grammar) : Reader Node := binaryBy g (operandExpression g)

/-! ### Whole expressions -/

/-- Tests whether a `yield` hands out a value. -/
def yieldsValue : Reader Bool := do
  let t ← peek
  let begins := match t.kind with
    | .number _ | .text _ _ | .privateWord _ => true
    | .word w _ => t.kind.isPlainWord || isValue w || ["await", "class", "delete", "function",
        "import", "new", "super", "this", "typeof", "void", "yield"].contains w
    | .mark m => ["*", "/", "/=", "(", "[", "\x7b", "\x60", "++", "--", "!", "~", "+",
        "-"].contains m
    | _ => false
  let markup := (← setting).markup && (← atMark "<")
  return !(← atMark ";") && !(← endsStatement) && (begins || markup)
where
  /-- Tests whether the word is a value by itself. -/
  isValue (word : String) : Bool := valueWords.contains word

/-- A `yield` with what it hands out. -/
def yieldExpression (g : Grammar) : Reader Node := do
  let lo ← here
  expectWord "yield"
  require !(← setting).inParameters
  if ← yieldsValue then
    let delegate ← eatMark "*"
    let value ← g.assignment
    node (.yield delegate) lo [value]
  else node (.yield false) lo [Node.absent]

/-- An expression of operators, without assignment: a conditional or less. -/
def conditionalExpression (g : Grammar) : Reader Node := do
  let lo ← here
  let test ← binaryExpression g
  if isArrow test then return test
  if ← eatMark "?" then
    let consequence ← within (fun s ↦ { s with inOperator := true, colonFollows := true })
      g.assignment
    expectMark ":"
    let alternative ← within (fun s ↦ { s with colonFollows := false }) g.assignment
    node .conditional lo [test, consequence, alternative]
  else return test

/-- An expression without commas and without type parameters before it. -/
def plainAssignment (g : Grammar) : Reader Node := do
  let t ← peek
  if (← setting).inGenerator && (← atWord "yield") then yieldExpression g
  else
    let mayBeArrow := t.kind.isPlainWord || t.kind = .mark "(" || t.kind = .word "yield" false
    let left ← arrowsFrom (if mayBeArrow then some t.span.lo else none) (conditionalExpression g)
    match left.kind with
    | .arrow _ | .conditional | .binary _ | .unary _ | .update _ _ => return left
    | _ => withAssignment g t.span.lo left

/-- An arrow function with type parameters. -/
def genericArrow (g : Grammar) : Reader Node := do
  let typeParams ← typeParameters g
  let f ← within (fun s ↦ { s with colonFollows := false }) (plainAssignment g)
  match f.kind, f.children with
  | .arrow isAsync, [params, body, _, result] =>
    return .node (.arrow isAsync) ⟨typeParams.span.lo, f.span.hi⟩ [params, body, typeParams, result]
  | _, _ => refuse

/-- An expression without commas. -/
def anyAssignment (g : Grammar) : Reader Node := do
  if !((← setting).types && (← atMark "<")) then plainAssignment g
  else if (← setting).markup then
    match ← attempt (plainAssignment g) with
    | some e => return e
    | none => genericArrow g
  else
    match ← attempt (genericArrow g) with
    | some f => return f
    | none => plainAssignment g

/-- An expression, with commas. -/
def anyExpression (g : Grammar) : Reader Node := do
  match ← commaSequence g.assignment with
  | [only] => return only
  | first :: more =>
    let last := (more.getLast?.getD first).span.hi
    return .node .sequence ⟨first.span.lo, last⟩ (first :: more)
  | [] => refuse

end Relocation.Syntax.Grammar

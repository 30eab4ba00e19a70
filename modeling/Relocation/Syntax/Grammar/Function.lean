import Relocation.Syntax.Grammar.Type

/-!
# Functions and classes
-/

namespace Relocation.Syntax.Grammar

open Reader

/-- The settings inside a function of its own kind. -/
def insideFunction {α : Type} (isAsync isGenerator : Bool) (p : Reader α) : Reader α :=
  inside (within (fun s ↦ { s with
    inAsync := isAsync
    inGenerator := isGenerator
    inParameters := false }) p)

/-- A block of statements, which the end of the source closes too. -/
def block (g : Grammar) : Reader Node := inside do
  let lo ← here
  expectMark "\x7b"
  let statements ← untilMarkOrEnd "\x7d" g.statement
  node .block lo statements

/-- A parameter of a function, with its decorators. -/
def parameter (g : Grammar) : Reader Node := do
  let lo ← here
  let decorations ← decorators g
  let pattern ← if ← atMark "..." then restParameter g true else parameterPattern g
  node .parameter lo [Node.many decorations, pattern]

/-- The parameters of a function, with their parentheses. -/
def parameters (g : Grammar) : Reader Node := inside do
  expectMark "("
  return Node.many (← within (fun s ↦ { s with inParameters := true })
    (commaList ")" (parameter g)))

/-- A parameter of a constructor. Modifiers make it a property too; then it is a name, with or
without a default. -/
def constructorParameter (g : Grammar) : Reader Node := do
  let lo ← here
  let decorations ← decorators g
  if ← atMark "..." then
    let pattern ← restParameter g false
    node .parameter lo [Node.many decorations, pattern]
  else
    let types := (← setting).types
    let accessibility ← if types then eatModifier ["public", "protected", "private"]
      else pure none
    let overrides ← if types then eatModifier ["override"] else pure none
    let isReadonly ← if types then eatModifier ["readonly"] else pure none
    let m : Modifiers := {
      accessibility := accessibility
      isOverride := overrides.isSome
      isReadonly := isReadonly.isSome }
    let pattern ← parameterPattern g
    if m = {} then node .parameter lo [Node.many decorations, pattern]
    else
      require (pattern.kind matches .identifier _ _ | .assignPattern)
      node (.parameterProperty m) lo [Node.many decorations, pattern]

/-- The parameters of a constructor, with their parentheses. -/
def constructorParameters (g : Grammar) : Reader Node := inside do
  expectMark "("
  return Node.many (← commaList ")" (constructorParameter g))

/-- The body of a function. Where types may be written the end of a statement can stand in its
place. -/
def functionBody (g : Grammar) : Reader Node := do
  let missing ← if (← setting).types && !(← atMark "\x7b") then eatSemicolon else pure false
  if missing then return Node.absent else block g

/-- A function from its type parameters on. -/
def functionParts (g : Grammar) (lo : Nat) (isAsync isGenerator : Bool) (decorations : List Node) :
    Reader Node := insideFunction isAsync isGenerator do
  let typeParams ← typeParameters? g
  let params ← parameters g
  let result ← resultAscription g
  let body ← functionBody g
  node (.functionParts isAsync isGenerator) lo
    [params, Node.many decorations, body, typeParams, result]

/-- The name of a function or class that need not have one. -/
def optionalName : Reader Node := do
  if (← peek).kind.isName then bindingName true else return Node.absent

/-- A function from its keyword on: its name and its parts. -/
def namedFunction (g : Grammar) (lo : Nat) (isAsync : Bool) (name : Bool → Reader Node) :
    Reader (Node × Node) := do
  expectWord "function"
  within (fun s ↦ { s with superAllowed := false }) do
    let isGenerator ← eatMark "*"
    let name ← name isGenerator
    let parts ← functionParts g lo isAsync isGenerator []
    return (name, parts)

/-- A function expression from its keyword on. It has a body, and its name is bound inside it. -/
def functionExpression (g : Grammar) (lo : Nat) (isAsync : Bool) : Reader Node := do
  let (name, parts) ← namedFunction g lo isAsync fun isGenerator ↦
    within (fun s ↦ { s with inAsync := isAsync, inGenerator := isGenerator }) optionalName
  match parts.children with
  | [_, _, body, _, _] => require (Node.isPresent body)
  | _ => refuse
  node .functionExpression lo [name, parts]

/-- Tests whether a key names the constructor of a class. -/
def isConstructorKey (key : Node) : Bool :=
  match key.kind with
  | .identifier "constructor" _ | .text "constructor" _ => true
  | _ => false

/-- Tests whether the parameters of a method begin here. -/
def atParameters : Reader Bool := do
  return (← atMark "(") || (← setting).types && (← atMark "<")

/-- Tests whether what was read is the whole name of a field. If `lineEnds` says so, the end of a
statement shows it too. -/
def endsFieldName (lineEnds : Bool) : Reader Bool := do
  let typed := (← setting).types && ((← atMark "!") || (← atMark ":"))
  let valued := (← atMark "=") || (← atMark "\x7d") || (← atMark ";")
  return typed || valued || lineEnds && (← endsStatement)

/-- What stands before the name of a class member. -/
structure MemberHead where
  /-- The start of the member. -/
  lo : Nat
  decorations : List Node
  modifiers : Modifiers

/-- A method from its parameters on. -/
def method (g : Grammar) (head : MemberHead) (kind : MethodKind) (isAsync isGenerator : Bool)
    (key : Node) : Reader Node := do
  let parts ← functionParts g head.lo isAsync isGenerator head.decorations
  node (.method kind head.modifiers) head.lo [key, parts]

/-- A constructor from its type parameters, which mean nothing, on. -/
def constructorMember (g : Grammar) (head : MemberHead) : Reader Node :=
    insideFunction false false do
  let second ← peekSecond
  if (← atMark "<") && second.kind = .mark ">" then
    let _ ← advance
    let _ ← advance
  else
    let _ ← typeParameters? g
  let params ← constructorParameters g
  if (← setting).types && (← atMark ":") then
    let _ ← annotation g ":"
  let body ← functionBody g
  node (.constructorMember head.modifiers.accessibility) head.lo [params, body]

/-- A field from its type on. -/
def field (g : Grammar) (head : MemberHead) (key : Node) : Reader Node := do
  require !(isConstructorKey key)
  let m := head.modifiers
  let isDefinite ← if (← setting).types && !m.isOptional then eatMark "!" else pure false
  let type ← ascription g
  let value ← if ← eatMark "=" then inside g.assignment else pure Node.absent
  let _ ← eatSemicolon
  node (.field { m with isDefinite := isDefinite }) head.lo
    [key, value, type, Node.many head.decorations]

/-- A method or field whose name is a word that could have been a modifier, if it is one. -/
def memberNamed? (g : Grammar) (head : MemberHead) (word : Token) (lineEnds : Bool) :
    Reader (Option Node) := do
  let key : Node := match word.kind with
    | .word w _ => .node (.identifier w false) word.span []
    | _ => Node.absent
  let atMethod ← atParameters
  let atField ← endsFieldName lineEnds
  if atMethod then return some (← method g head .method false false key)
  else if atField then return some (← field g head key)
  else return none

/-- A method, field or constructor from its key on. The word `static` right before the modifiers
is given apart, since only it makes a method static. -/
def keyedMember (g : Grammar) (head : MemberHead) (isStatic : Bool) (readonlyWord : Option Token) :
    Reader Node := do
  let types := (← setting).types
  let bare := (← atMark "!") || (← atMark ":")
  let key ← match readonlyWord with
    | some t => if bare then pure (.node (.identifier "readonly" false) t.span []) else memberKey g
    | none => memberKey g
  let isOptional ← if types then eatMark "?" else pure false
  let m := { head.modifiers with isOptional := isOptional }
  let methodHead := { head with modifiers := m }
  let fieldHead := { head with modifiers := { m with isStatic := isStatic } }
  if ← atParameters then
    require readonlyWord.isNone
    if isConstructorKey key then constructorMember g methodHead
    else method g methodHead .method false false key
  else
    let nextLine := (← afterBreak) && (← atMark "*")
    let named ← endsFieldName false
    let kind : MethodKind := match key.kind with
      | .identifier "get" _ => if named || nextLine then .method else .getter
      | .identifier "set" _ => if named || nextLine then .method else .setter
      | _ => .method
    if ← endsFieldName (kind = .method) then field g fieldHead key
    else if kind ≠ .method then
      let key ← memberKey g
      method g methodHead kind false false key
    else
      require ((key.kind matches .identifier "async" _) && !(← afterBreak))
      let isGenerator ← eatMark "*"
      let key ← memberKey g
      require (!(isConstructorKey key) && readonlyWord.isNone)
      let isOptional ← if types && !isOptional then eatMark "?" else pure isOptional
      method g { head with modifiers := { m with isOptional := isOptional } } .method true
        isGenerator key

/-- A member of a class after its first modifiers. -/
def modifiedMember (g : Grammar) (head : MemberHead) : Reader Node := do
  let types := (← setting).types
  let (m, isStatic, readonlyWord) ← iterate
    (fun (state : Modifiers × Bool × Option Token) ↦ do
      let (m, isStatic, readonlyWord) := state
      let t ← peek
      let second ← peekSecond
      let opensBlock := (← atWord "static") && second.kind = .mark "\x7b"
      let word ← if types && !opensBlock then
          eatModifier ["abstract", "readonly", "override", "static"]
        else pure none
      match word with
      | some "abstract" => return .inl ({ m with isAbstract := true }, isStatic, readonlyWord)
      | some "override" => return .inl ({ m with isOverride := true }, isStatic, readonlyWord)
      | some "readonly" =>
        return .inl ({ m with isReadonly := true }, isStatic, readonlyWord <|> some t)
      | some _ => return .inl (m, true, readonlyWord)
      | none => return .inr (m, isStatic, readonlyWord))
    (head.modifiers, head.modifiers.isStatic, none)
  let head := { head with modifiers := m }
  if isStatic && (← atMark "\x7b") then
    let body ← insideFunction false false (block g)
    node .staticBlock head.lo [body]
  else
    let index ← if types && !m.isAbstract && !m.isOverride && m.accessibility.isNone then
        indexSignature? g head.lo m.isReadonly
      else pure none
    match index with
    | some signature => return signature
    | none =>
      if ← eatMark "*" then
        let key ← memberKey g
        method g head .method false true key
      else keyedMember g head isStatic readonlyWord

/-- A member of a class. -/
def classMember (g : Grammar) : Reader Node := do
  let lo ← here
  if ← eatMark ";" then node .emptyMember lo []
  else
    let decorations ← decorators g
    let types := (← setting).types
    let first ← peek
    let declares ← if types then eatWord "declare" else pure false
    let accessibility ← if types then eatModifier ["public", "protected", "private"]
      else pure none
    let late ← peek
    let declaresLate ← if types && !declares then eatWord "declare" else pure false
    let head : MemberHead := ⟨lo, decorations, { accessibility := accessibility }⟩
    let named ← if declares then memberNamed? g head first true
      else if declaresLate then memberNamed? g head late true
      else pure none
    match named with
    | some member => return member
    | none =>
      let declared := { head with modifiers :=
        { head.modifiers with isDeclare := declares || declaresLate } }
      let word ← peek
      let isStatic ← eatWord "static"
      let fixed := { declared with modifiers := { declared.modifiers with isStatic := isStatic } }
      match ← if isStatic then memberNamed? g head word false else pure none with
      | some member => return member
      | none =>
        let word ← peek
        let isAccessor ← if types then eatWord "accessor" else pure false
        match ← if isAccessor then memberNamed? g fixed word false else pure none with
        | some member => return member
        | none => modifiedMember g { fixed with modifiers :=
            { fixed.modifiers with isAccessor := isAccessor } }

/-- A superclass with its type arguments. -/
def superclass (g : Grammar) : Reader (Node × Node) := do
  let value ← g.leftHand
  match value.kind, value.children with
  | .instantiation, [inner, arguments] => return (inner, arguments)
  | _, _ =>
    let arguments ← if (← setting).types then typeArguments? g else pure Node.absent
    return (value, arguments)

/-- The interfaces after a word, if types may be written and the word is there. -/
def heritageAfter? (g : Grammar) (atStart : Reader Bool) : Reader (Option (List Node)) := do
  if (← setting).types && (← atStart) then return some (← heritageList g) else return none

/-- What a class extends and implements: its superclass, the superclass's type arguments and the
interfaces. Of several lists of one kind only the first counts, but a superclass may stand behind
the interfaces. -/
def classHeritage (g : Grammar) : Reader (Node × Node × List Node) := do
  let nothing := (Node.absent, Node.absent)
  let (extended, arguments) ← if ← eatWord "extends" then superclass g else pure nothing
  if extended.isPresent then
    let _ ← heritageAfter? g (eatMark ",")
  if ← eatWord "extends" then
    let _ ← superclass g
  let implemented ← heritageAfter? g (eatWord "implements")
  let _ ← heritageAfter? g (eatWord "implements")
  let late ← if (← setting).types && (← atWord "extends") then do
      let _ ← advance
      superclass g
    else pure nothing
  if extended.isPresent then return (extended, arguments, implemented.getD [])
  else return (late.1, late.2, implemented.getD [])

/-- A class from its keyword on: its name and its parts. -/
def classParts (g : Grammar) (lo : Nat) (isAbstract nameRequired : Bool)
    (decorations : List Node) : Reader (Node × Node) := do
  expectWord "class"
  let name ← if nameRequired then bindingName true else optionalName
  let typeParams ← typeParameters? g
  let (extended, arguments, implemented) ← classHeritage g
  expectMark "\x7b"
  let members ← inside (within (fun s ↦ { s with superAllowed := true })
    (untilMarkOrEnd "\x7d" (classMember g)))
  let parts ← node (.classParts isAbstract) lo
    [Node.many decorations, Node.many members, extended, typeParams, arguments,
      Node.many implemented]
  return (name, parts)

/-- A class expression from its keyword on. -/
def classExpression (g : Grammar) (lo : Nat) (isAbstract : Bool) (decorations : List Node) :
    Reader Node := do
  let (name, parts) ← classParts g lo isAbstract false decorations
  node .classExpression lo [name, parts]

end Relocation.Syntax.Grammar

import Relocation.Syntax.Grammar.Basic

/-!
# Types

Type expressions, type parameters and arguments, the members of interfaces, and the patterns of
parameters, which may have types.
-/

namespace Relocation.Syntax.Grammar

open Reader

/-- The settings inside the brackets of a type. -/
def insideType {α : Type} (p : Reader α) : Reader α :=
  within (fun s ↦ { s with conditionalTypes := true }) p

/-- A type of which the word `extends` behind it is no part. -/
def boundType (g : Grammar) : Reader Node :=
  within (fun s ↦ { s with conditionalTypes := false }) g.type

/-- A type with the mark before it, as an annotation. -/
def annotation (g : Grammar) (opening : String) : Reader Node := do
  let lo ← here
  expectMark opening
  let type ← insideType g.type
  node .ascription lo [type]

/-- The type after a colon, if types may be written and a colon is there. -/
def ascription (g : Grammar) : Reader Node := do
  if (← setting).types && (← atMark ":") then annotation g ":" else return Node.absent

/-- Type arguments in angle brackets. -/
def typeArguments (g : Grammar) : Reader Node := do
  let lo ← here
  openAngle
  let types ← delimited atCloseAngle (insideType g.type)
  closeAngle
  node .typeArguments lo types

/-- Type arguments, if any. -/
def typeArguments? (g : Grammar) : Reader Node := do
  if ← atOpenAngle then typeArguments g else return Node.absent

/-- Tests whether a token can follow a word that is then a modifier and no name. -/
def followsModifier (t : Token) : Bool :=
  !t.afterBreak && match t.kind with
    | .word _ _ | .text _ _ | .number _ | .privateWord _ => true
    | .mark m => ["[", "\x7b", "*", "..."].contains m
    | _ => false

/-- Takes a modifier, one of the given words, if something that can bear it follows. -/
def eatModifier (words : List String) : Reader (Option String) := do
  match (← peek).kind with
  | .word w false =>
    if words.contains w && followsModifier (← peekSecond) then
      let _ ← advance
      return some w
    else return none
  | _ => return none

/-- Takes a modifier of a parameter property where it means nothing. -/
def skipModifier : Reader Unit := do
  let carries := match (← peekSecond).kind with
    | .word _ _ | .mark "\x7b" | .mark "[" => true
    | _ => false
  if (← setting).types && carries then
    let _ ← eatModifier ["public", "protected", "private", "readonly"]

/-- Takes a type after the given word, if the word is there. -/
def typeAfterWord (g : Grammar) (word : String) : Reader Node := do
  if ← eatWord word then insideType g.type else return Node.absent

/-- One type parameter, with its bound and default. -/
def typeParameter (g : Grammar) : Reader Node := do
  let lo ← here
  let words ← iterate (fun (acc : List String) ↦ do
    match ← eatModifier ["public", "private", "protected", "readonly", "abstract", "const",
        "override", "in", "out"] with
    | some w => return .inl (w :: acc)
    | none => return .inr acc) []
  let name ← anyName
  let bound ← typeAfterWord g "extends"
  let fallback ← if ← eatMark "=" then insideType g.type else pure Node.absent
  node (.typeParameter (words.contains "const") (words.contains "in") (words.contains "out")) lo
    [name, bound, fallback]

/-- Type parameters in angle brackets. -/
def typeParameters (g : Grammar) : Reader Node := do
  let lo ← here
  expectMark "<"
  let items ← delimited atCloseAngle (typeParameter g)
  closeAngle
  node .typeParameters lo items

/-- Type parameters, if types may be written and an angle bracket is there. -/
def typeParameters? (g : Grammar) : Reader Node := do
  if (← setting).types && (← atMark "<") then typeParameters g else return Node.absent

/-- A rest element of an array pattern. -/
def restElement (target : Reader Node) : Reader Node := do
  let lo ← here
  expectMark "..."
  let inner ← target
  node .rest lo [inner, Node.absent]

/-- A property of an object pattern. -/
def patternProperty (g : Grammar) (target : Reader Node) : Reader Node := do
  let lo ← here
  if ← atMark "..." then restElement target
  else
    let key ← propertyKey g
    if ← eatMark ":" then
      let inner ← g.pattern
      node .propertyPattern lo [key, inner]
    else
      require (key.kind matches .identifier _ _)
      let fallback ← if ← eatMark "=" then withIn g.assignment else pure Node.absent
      node .shorthandPattern lo [key, fallback]

/-- Tests whether the properties of an object pattern end in the rest of something other than a
name. -/
def endsInRestOfPattern (properties : List Node) : Bool :=
  match properties.getLast? with
  | some (.node .rest _ (inner :: _)) => !(inner.kind matches .identifier _ _)
  | _ => false

/-- A pattern inside another, which has no default. -/
def plainPattern (g : Grammar) : Reader Node := do
  let p ← g.pattern
  require !(p.kind matches .assignPattern)
  return p

/-- What a variable is bound to: a name, or a pattern of an array or object. -/
def bindingTarget (g : Grammar) (letAllowed : Bool) : Reader Node := do
  let lo ← here
  if ← eatMark "[" then
    let items ← inside (elements do
      if ← atMark "..." then restElement (plainPattern g) else g.pattern)
    node (.arrayPattern false) lo [Node.many (Node.withoutLastHoles items), Node.absent]
  else if ← eatMark "\x7b" then
    let properties ← inside (commaList "\x7d" (patternProperty g (plainPattern g)))
    require !(endsInRestOfPattern properties)
    node (.objectPattern false) lo [Node.many properties, Node.absent]
  else bindingName letAllowed

/-- Follows a pattern with its default, if there is one. -/
def withDefault (g : Grammar) (lo : Nat) (pattern : Node) : Reader Node := do
  if ← eatMark "=" then
    let value ← g.assignment
    node .assignPattern lo [pattern, value]
  else return pattern

/-- A pattern inside another, with its default. -/
def innerPattern (g : Grammar) : Reader Node := withIn do
  let lo ← here
  withDefault g lo (← bindingTarget g true)

/-- A parameter: a pattern with its type and default. -/
def parameterPattern (g : Grammar) : Reader Node := do
  skipModifier
  let lo ← here
  let target ← bindingTarget g true
  let isOptional ← if (← setting).types then eatMark "?" else pure false
  let type ← ascription g
  withDefault g lo (target.ascribe type isOptional true)

/-- A rest parameter: a pattern with its type. If `defaults` says so, it may have a default, which
stands before the type. -/
def restParameter (g : Grammar) (defaults : Bool) : Reader Node := do
  let lo ← here
  expectMark "..."
  let target ← bindingTarget g true
  let inner ← if defaults then withDefault g lo target else pure target
  let type ← ascription g
  let rest ← node .rest lo [inner, type]
  if (← setting).types && defaults then
    let _ ← eatMark "?"
  return rest

/-- A type where a type predicate may stand. -/
def resultType (g : Grammar) : Reader Node := insideType do
  let lo ← here
  let second ← peekSecond
  let asserts := (← atWord "asserts") && second.kind.isName
  if asserts then
    let _ ← advance
  let t ← peek
  let second ← peekSecond
  let tests := t.kind.isName && second.kind = .word "is" false && !second.afterBreak
  if asserts || tests then
    let name ← anyName
    let type ← if tests then do
        let _ ← advance
        let typeLo ← here
        let type ← g.type
        node .ascription typeLo [type]
      else pure Node.absent
    node (.predicate asserts) lo [name, type]
  else g.type

/-- The result type after a mark, as an annotation. -/
def resultAnnotation (g : Grammar) (opening : String) : Reader Node := do
  let lo ← here
  expectMark opening
  let type ← resultType g
  node .ascription lo [type]

/-- The result type after a colon, if types may be written and a colon is there. -/
def resultAscription (g : Grammar) : Reader Node := do
  if (← setting).types && (← atMark ":") then resultAnnotation g ":" else return Node.absent

/-- The parameters of a signature, with their parentheses; none has a default. -/
def signatureParameters (g : Grammar) : Reader Node := inside do
  expectMark "("
  let items ← commaList ")" do
    let _ ← decorators g
    if ← atMark "..." then restParameter g true else parameterPattern g
  require (items.all fun p ↦ !(p.kind matches .assignPattern))
  return Node.many items

/-- A function type. -/
def functionType (g : Grammar) : Reader Node := do
  let lo ← here
  let typeParams ← typeParameters? g
  let params ← signatureParameters g
  let result ← resultAnnotation g "=>"
  node .functionType lo [params, typeParams, result]

/-- A constructor type. -/
def constructorType (g : Grammar) : Reader Node := do
  let lo ← here
  let isAbstract ← eatWord "abstract"
  expectWord "new"
  let typeParams ← typeParameters? g
  let params ← signatureParameters g
  let result ← resultAnnotation g "=>"
  node (.constructorType isAbstract) lo [params, typeParams, result]

/-- Tests whether a parenthesis opens the parameters of a function type. -/
def atFunctionType (g : Grammar) : Reader Bool := do
  if ← atMark "<" then return true
  else if !(← atMark "(") then return false
  else
    wouldSucceed do
      let _ ← advance
      if (← atMark ")") || (← atMark "...") then return ()
      skipModifier
      match (← peek).kind with
      | .word _ _ =>
        let _ ← advance
      | .mark "[" | .mark "\x7b" =>
        let _ ← bindingTarget g true
      | _ => refuse
      match (← peek).kind with
      | .mark ":" | .mark "," | .mark "?" | .mark "=" => return ()
      | _ =>
        expectMark ")"
        require (← atMark "=>")

/-- A dotted name, joined by the given label. A point with no name behind it ends it. -/
def dottedName (label : Kind) : Reader Node := do
  let lo ← here
  let first ← anyName
  iterate (fun (left : Node) ↦ do
    if ← eatMark "." then
      match (← peek).kind with
      | .word _ _ =>
        let right ← anyName
        return .inl (← node label lo [left, right])
      | .privateWord _ => refuse
      | _ => return .inr left
    else return .inr left) first

/-- A dotted name of a type. -/
def entityName : Reader Node := dottedName .qualified

/-- An interface or class that is extended or implemented. -/
def heritage (g : Grammar) : Reader Node := do
  let lo ← here
  let name ← dottedName (.member .plain)
  let arguments ← typeArguments? g
  node .heritage lo [name, arguments]

/-- The interfaces and classes after `extends` or `implements`. -/
def heritageList (g : Grammar) : Reader (List Node) :=
  delimited (do
    return (← atMark "\x7b") || (← atWord "implements") || (← atWord "extends")) (heritage g)

/-- Ends a member of an interface or object type. -/
def memberEnd : Reader Unit := do
  if ← eatMark "," then return ()
  semicolon

/-- The parameters, result and type parameters that call and method signatures share. -/
def signature (g : Grammar) : Reader (List Node) := do
  let typeParams ← typeParameters? g
  let params ← signatureParameters g
  let result ← resultAscription g
  return [params, result, typeParams]

/-- An index signature, from its bracket on, if one is there. -/
def indexSignature? (g : Grammar) (lo : Nat) (isReadonly : Bool) : Reader (Option Node) := do
  let isIndex ← wouldSucceed do
    expectMark "["
    require (← peek).kind.isName
    let _ ← advance
    require ((← atMark ":") || (← atMark ","))
  if !isIndex then return none
  let _ ← advance
  let name ← anyName
  let type ← annotation g (if ← atMark "," then "," else ":")
  let parameter := name.ascribe type false true
  expectMark "]"
  let result ← ascription g
  memberEnd
  return some (← node (.indexSignature isReadonly) lo [Node.many [parameter], result])

/-- The name of a member of an interface or object type. -/
def typeMemberName (g : Grammar) : Reader Node := do
  match (← peek).kind with
  | .mark "[" =>
    let lo ← here
    let value ← inside do
      expectMark "["
      let value ← g.assignment
      expectMark "]"
      return value
    node .computed lo [value]
  | .text _ _ | .number _ => g.constructed
  | _ => memberName

/-- A getter or setter of an interface or object type. -/
def typeAccessor (g : Grammar) : Reader Node := do
  let lo ← here
  if ← eatWord "get" then
    let key ← typeMemberName g
    expectMark "("
    expectMark ")"
    let result ← ascription g
    memberEnd
    node .getterSignature lo [key, result]
  else
    expectWord "set"
    let key ← typeMemberName g
    let params ← signatureParameters g
    memberEnd
    match params.children with
    | parameter :: _ => node .setterSignature lo [key, parameter]
    | [] => refuse

/-- A property or method of an interface or object type. -/
def namedTypeMember (g : Grammar) (lo : Nat) (isReadonly : Bool) : Reader Node := do
  let key ← typeMemberName g
  let isOptional ← eatMark "?"
  if (← atMark "(") || (← atMark "<") then
    require !isReadonly
    let parts ← signature g
    memberEnd
    node (.methodSignature isOptional) lo (key :: parts)
  else
    let type ← ascription g
    memberEnd
    node (.propertySignature isReadonly isOptional) lo [key, type]

/-- A member of an interface or object type. -/
def typeMember (g : Grammar) : Reader Node := do
  let lo ← here
  let second ← peekSecond
  if (← atMark "(") || (← atMark "<") then
    let parts ← signature g
    memberEnd
    node .callSignature lo parts
  else if (← atWord "new") && (second.kind = .mark "(" || second.kind = .mark "<") then
    let _ ← advance
    let parts ← signature g
    memberEnd
    node .constructSignature lo parts
  else
    let isReadonly := (← eatModifier ["readonly"]).isSome
    match ← indexSignature? g lo isReadonly with
    | some signature => return signature
    | none =>
      match ← if isReadonly then pure none else attempt (typeAccessor g) with
      | some accessor => return accessor
      | none => namedTypeMember g lo isReadonly

/-- The members of an interface or object type, with their braces. -/
def typeMembers (g : Grammar) : Reader (List Node) := inside do
  expectMark "\x7b"
  untilMark "\x7d" (typeMember g)

/-- A mark before `readonly` or `?` in a mapped type, or the bare word or mark. -/
def mappedModifier (bare : Reader Bool) : Reader MappedModifier := do
  if ← eatMark "+" then
    require (← bare)
    return .plus
  else if ← eatMark "-" then
    require (← bare)
    return .minus
  else if ← bare then return .add
  else return .keep

/-- Tests whether a brace opens a mapped type. -/
def atMappedType : Reader Bool := wouldSucceed do
  let _ ← advance
  if (← eatMark "+") || (← eatMark "-") then expectWord "readonly"
  else
    let _ ← eatWord "readonly"
    expectMark "["
    require (← peek).kind.isName
    let _ ← advance
    expectWord "in"

/-- A mapped type. -/
def mappedType (g : Grammar) : Reader Node := inside do
  let lo ← here
  expectMark "\x7b"
  let readonlyMark ← mappedModifier (eatWord "readonly")
  expectMark "["
  let name ← anyName
  expectWord "in"
  let bound ← g.type
  let nameType ← typeAfterWord g "as"
  expectMark "]"
  let optionalMark ← mappedModifier (eatMark "?")
  let type ← if ← eatMark ":" then g.type else pure Node.absent
  semicolon
  expectMark "\x7d"
  node (.mappedType readonlyMark optionalMark) lo [name, bound, nameType, type]

/-- The label of an element of a tuple type, with the colon behind it. -/
def tupleLabel : Reader Node := do
  let lo ← here
  let isRest ← eatMark "..."
  let name ← anyName
  let isOptional ← eatMark "?"
  let label ← node (.identifier (match name.kind with
    | .identifier text _ => text
    | _ => "") isOptional) name.span.lo []
  let label ← if isRest then node .rest lo [label, Node.absent] else pure label
  expectMark ":"
  return label

/-- An element of a tuple type. -/
def tupleElement (g : Grammar) : Reader Node := do
  let lo ← here
  let label ← attempt tupleLabel
  let type ← if ← eatMark "..." then do
      let type ← g.type
      node .restType lo [type]
    else do
      let type ← g.type
      if ← eatMark "?" then node .optionalType lo [type] else pure type
  node .tupleElement lo [label.getD Node.absent, type]

/-- Words that are types by themselves. -/
def typeWords : List String :=
  ["any", "unknown", "number", "object", "boolean", "bigint", "string", "symbol", "void",
   "undefined", "never", "intrinsic", "null"]

/-- A type from a module. What is no string in its place is taken for an empty one. -/
def importType (g : Grammar) : Reader Node := do
  let lo ← here
  expectWord "import"
  expectMark "("
  let source ← match (← peek).kind with
    | .text _ _ => stringLiteral
    | _ => do
      let t ← advance
      pure (.node (.text "" (some "\"\"")) t.span [])
  expectMark ")"
  let qualifier ← if ← eatMark "." then entityName else pure Node.absent
  let arguments ← typeArguments? g
  node .importType lo [source, qualifier, arguments]

/-- Type arguments on the same line, if any. -/
def typeArgumentsHere? (g : Grammar) : Reader Node := do
  if ← afterBreak then return Node.absent else typeArguments? g

/-- A type named by a word. -/
def namedType (g : Grammar) : Reader Node := do
  let lo ← here
  let second ← peekSecond
  match (← peek).kind with
  | .word w _ =>
    if typeWords.contains w && second.kind ≠ .mark "." then
      let _ ← advance
      node (.typeKeyword w) lo []
    else
      skipModifier
      let name ← entityName
      let arguments ← typeArgumentsHere? g
      node .typeReference lo [name, arguments]
  | _ => refuse

/-- The type `this`, or a predicate about it. -/
def thisType (g : Grammar) (asserts : Bool) (lo : Nat) : Reader Node := do
  let t ← peek
  expectWord "this"
  let this : Node := .node .this t.span []
  if asserts || (← atWord "is") && !(← afterBreak) then
    let type ← if ← eatWord "is" then do
        let typeLo ← here
        let type ← g.type
        node .ascription typeLo [type]
      else pure Node.absent
    node (.predicate asserts) lo [this, type]
  else return this

/-- A type without operators. -/
def plainType (g : Grammar) : Reader Node := do
  let lo ← here
  let t ← peek
  match t.kind with
  | .mark "(" =>
    let _ ← advance
    let type ← inside g.type
    expectMark ")"
    node .parensType lo [type]
  | .mark "[" =>
    let _ ← advance
    let items ← inside (commaList "]" (tupleElement g))
    node .tupleType lo items
  | .mark "\x7b" =>
    if ← atMappedType then mappedType g
    else
      let members ← typeMembers g
      node .typeLiteral lo members
  | .text _ _ =>
    let value ← stringLiteral
    node .literalType lo [value]
  | .number _ =>
    let value ← numberLiteral
    node .literalType lo [value]
  | .mark "-" =>
    let _ ← advance
    match (← numberLiteral).kind with
    | .number raw =>
      let value ← node (.number ("-" ++ raw)) lo []
      node .literalType lo [value]
    | _ => refuse
  | .mark "\x60" =>
    let (types, pieces) ← templateParts false (inside g.type)
    let value ← node .template lo [Node.many types, Node.many pieces]
    node .literalType lo [value]
  | .word "true" false =>
    let _ ← advance
    node .literalType lo [.node (.boolean true) t.span []]
  | .word "false" false =>
    let _ ← advance
    node .literalType lo [.node (.boolean false) t.span []]
  | .word "this" false => thisType g false lo
  | .word "typeof" false =>
    let _ ← advance
    let name ← if ← atWord "import" then importType g else entityName
    let arguments ← typeArgumentsHere? g
    node .typeQuery lo [name, arguments]
  | .word "import" false => importType g
  | .word "asserts" false =>
    let second ← peekSecond
    if second.kind = .word "this" false then
      let _ ← advance
      thisType g true lo
    else namedType g
  | .word w _ =>
    require (t.kind.isPlainWord || ["void", "yield", "null", "await", "break"].contains w)
    namedType g
  | _ => refuse

/-- A type with brackets behind it. -/
def postfixType (g : Grammar) : Reader Node := do
  let lo ← here
  let first ← plainType g
  iterate (fun (type : Node) ↦ do
    if (← atMark "[") && !(← afterBreak) then
      let _ ← advance
      if ← eatMark "]" then return .inl (← node .arrayType lo [type])
      let key ← inside g.type
      expectMark "]"
      return .inl (← node .indexedType lo [type, key])
    return .inr type) first

/-- A type to be inferred, with its bound. A question mark behind the bound shows that it is the
test of a conditional type instead. -/
def inferredType (g : Grammar) : Reader Node := do
  let lo ← here
  expectWord "infer"
  let name ← anyName
  let bound ← attempt do
    expectWord "extends"
    let bound ← boundType g
    require (!(← setting).conditionalTypes || !(← atMark "?"))
    return bound
  let parameter : Node :=
    .node (.typeParameter false false false) name.span [name, bound.getD Node.absent, Node.absent]
  node .inferType lo [parameter]

/-- A type with operators before it. -/
def operatorType (g : Grammar) : Reader Node := do
  let operators ← iterate (fun (acc : List (Nat × String)) ↦ do
    let t ← peek
    match t.kind with
    | .word w false =>
      if ["keyof", "unique", "readonly"].contains w then
        let _ ← advance
        return .inl ((t.span.lo, w) :: acc)
      else return .inr acc
    | _ => return .inr acc) []
  let base ← if ← atWord "infer" then inferredType g else postfixType g
  let hi ← previousEnd
  return operators.foldl (fun type (lo, w) ↦ .node (.typeOperator w) ⟨lo, hi⟩ [type]) base

/-- Types with a mark between them, as one type of the given kind if there are several. The mark
may also stand before the first. -/
def typeSequence (separator : String) (kind : Kind) (item : Reader Node) : Reader Node := do
  let lo ← here
  let _ ← eatMark separator
  let first ← item
  let items ← iterate (fun (acc : List Node) ↦ do
    if ← eatMark separator then return .inl ((← item) :: acc)
    return .inr acc) [first]
  match items with
  | [only] => return only
  | _ => node kind lo items.reverse

/-- A union of types. -/
def unionType (g : Grammar) : Reader Node :=
  typeSequence "|" .unionType (typeSequence "&" .intersectionType (operatorType g))

/-- A type that is not conditional. -/
def unconditionalType (g : Grammar) : Reader Node := do
  let second ← peekSecond
  if ← atFunctionType g then functionType g
  else if (← atWord "new") || (← atWord "abstract") && second.kind = .word "new" false then
    constructorType g
  else unionType g

/-- A type. -/
def anyType (g : Grammar) : Reader Node := do
  let lo ← here
  let checked ← unconditionalType g
  if (← setting).conditionalTypes && (← atWord "extends") && !(← afterBreak) then
    let _ ← advance
    let bound ← boundType g
    expectMark "?"
    let consequence ← insideType g.type
    expectMark ":"
    let alternative ← insideType g.type
    node .conditionalType lo [checked, bound, consequence, alternative]
  else return checked

end Relocation.Syntax.Grammar

import Relocation.Syntax.Layout.Type

/-!
# Layout of expressions, patterns and markup
-/

namespace Relocation.Syntax.Layout

/-- Writes a statement with the comments behind it and ends the line. A block ends no line. -/
def statement (p : Piece) : Writing := do
  match p.kind with
  | .block => p.write
  | .variableList _ _ => do
    p.write
    put ";"
    trailingComments p.span.hi
    newLine
  | _ => do
    p.write
    trailingComments p.span.hi
    newLine

/-- Writes statements between braces. Comments before the closing brace stand outside the
indentation. -/
def blockLayout (span : Span) (ps : List Piece) : Writing := do
  put "\x7b"
  if !ps.isEmpty || (← hasLeading (span.hi - 1)) then
    lines ps statement
    leadingComments (span.hi - 1)
  put "\x7d"

/-- Writes a function from its type parameters to its result type. -/
def functionHead (p : Piece) : Writing := do
  match p.parts with
  | [params, _, _, typeParams, result] =>
    typeParams.write
    put "("
    commaNames p.span.hi params.parts
    put ")"
    typed result
  | _ => pure ()

/-- Writes a function from its type parameters on, with a space before its body. -/
def functionTail (p : Piece) : Writing := do
  functionHead p
  match p.parts with
  | [_, _, body, _, _] =>
    if body.isPresent then body.writeAfter " " else put ";"
  | _ => pure ()

/-- Whether a function is asynchronous and whether it is a generator. -/
def functionMarks (p : Piece) : Bool × Bool :=
  match p.kind with
  | .functionParts isAsync isGenerator => (isAsync, isGenerator)
  | _ => (false, false)

/-- Writes a function after its keyword, with its name if it has one. -/
def functionHeading (name parts : Piece) : Writing := do
  let (isAsync, isGenerator) := functionMarks parts
  modifier isAsync "async"
  put "function"
  if isGenerator then put "*"
  name.writeAfter " "
  functionTail parts

/-- The decorators of a function, class or field, given the place of their list. -/
def decoratorsAt (index : Nat) (p : Piece) : List Piece :=
  match p.parts[index]? with
  | some decorations => decorations.parts
  | none => []

/-- Writes the word for who may reach a member. -/
def accessibility (m : Modifiers) : Writing :=
  match m.accessibility with
  | some word => put (word ++ " ")
  | none => pure ()

/-- Writes a class from its superclass on. -/
def classTail (parts : Piece) : Writing := do
  match parts.parts with
  | [_, members, superclass, _, superArgs, implemented] =>
    superclass.after " extends "
    superArgs.write
    if !implemented.parts.isEmpty then
      put " implements "
      commaNames parts.span.hi implemented.parts
    put " \x7b"
    lines members.parts Piece.write
    put "\x7d"
  | _ => pure ()

/-- Writes a declared class from its keyword on. -/
def classHeading (name parts : Piece) : Writing := do
  modifier (parts.kind matches .classParts true) "abstract"
  put "class"
  name.writeAfter " "
  match parts.parts[3]? with
  | some typeParams => typeParams.write
  | none => pure ()
  classTail parts

/-- Writes a class expression. Only with a name has it type parameters. -/
def classExpression (name parts : Piece) : Writing := do
  for d in decoratorsAt 0 parts do
    d.write
  put "class"
  if name.isPresent then
    name.writeAfter " "
    match parts.parts[3]? with
    | some typeParams => typeParams.write
    | none => pure ()
  classTail parts

/-- Tests whether an operator before an operand needs a space to stay apart from it. -/
def needsSpace (operator : String) (operand : Kind) : Bool :=
  operator.length > 1 || match operand with
    | .unary inner => inner = operator && (operator = "+" || operator = "-")
    | .update true inner => inner = operator ++ operator
    | _ => false

/-- Writes a method of a class. The comments before its name come first. -/
def methodLayout (kind : MethodKind) (m : Modifiers) (key parts : Piece) : Writing := do
  leadingComments key.span.lo
  if !(key.kind matches .privateName _) then
    for d in decoratorsAt 1 parts do
      d.write
  accessibility m
  modifier m.isStatic "static"
  modifier m.isAbstract "abstract"
  modifier m.isOverride "override"
  let (isAsync, isGenerator) := functionMarks parts
  modifier isAsync "async"
  modifier (kind matches .getter) "get"
  modifier (kind matches .setter) "set"
  if isGenerator then put "*"
  key.write
  if m.isOptional then put "?"
  functionTail parts

/-- Writes the words before the name of a field. -/
def fieldModifiers (m : Modifiers) (isPrivate : Bool) : Writing := do
  modifier (m.isDeclare && !isPrivate && !m.isAccessor) "declare"
  accessibility m
  modifier m.isStatic "static"
  if m.isAccessor then put "accessor "
  else
    modifier (m.isAbstract && !isPrivate) "abstract"
    modifier m.isOverride "override"
    modifier m.isReadonly "readonly"

/-- Layout of members of classes. -/
def memberLayout (k : Kind) (span : Span) (ps : List Piece) : Writing :=
  match k, ps with
  | .decorator, [e] => do
    put "@"
    e.value
    newLine
  | .parameter, [decorations, p] => do
    if !decorations.parts.isEmpty then newLine
    for d in decorations.parts do
      d.write
    p.value
  | .parameterProperty m, [decorations, p] => do
    accessibility m
    modifier m.isOverride "override"
    modifier m.isReadonly "readonly"
    for d in decorations.parts do
      d.write
    p.write
  | .constructorMember word, [params, body] => do
    match word with
    | some word => put (word ++ " ")
    | none => pure ()
    put "constructor("
    commaNames span.hi params.parts
    put ")"
    if body.isPresent then body.write else put ";"
  | .method kind m, [key, parts] => methodLayout kind m key parts
  | .field m, [key, value, type, decorations] => do
    for d in decorations.parts do
      d.write
    fieldModifiers m (key.kind matches .privateName _)
    key.write
    if m.isOptional then put "?"
    if m.isDefinite && type.isPresent then put "!"
    typed type
    value.after " = "
    put ";"
  | .staticBlock, [b] => do
    put "static"
    b.write
  | .emptyMember, _ => put ";"
  | _, _ => typeLayout k span ps

/-- Layout of patterns. -/
def patternLayout (k : Kind) (span : Span) (ps : List Piece) : Writing :=
  match k, ps with
  | .arrayPattern isOptional, [items, type] => do
    put "["
    commaLine span.hi items.parts
    put "]"
    if isOptional then put "?"
    typed type
  | .objectPattern isOptional, [properties, type] => do
    if properties.parts.isEmpty then put "\x7b\x7d"
    else
      put "\x7b "
      commaNames span.hi properties.parts
      put " \x7d"
    if isOptional then put "?"
    typed type
  | .propertyPattern, [key, p] => do
    key.write
    put ": "
    p.value
  | .shorthandPattern, [name, fallback] => do
    name.write
    fallback.after " = "
  | .rest, [p, type] => do
    put "..."
    p.value
    typed type
  | .assignPattern, [p, v] => do
    p.value
    put " = "
    v.value
  | _, _ => memberLayout k span ps

/-- Layout of markup. -/
def markupLayout (k : Kind) (span : Span) (ps : List Piece) : Writing :=
  match k, ps with
  | .element, [o, items, c] => do
    o.write
    for i in items.parts do
      i.write
    c.write
  | .fragment, items => do
    put "<>"
    for i in items do
      i.write
    put "</>"
  | .opening selfClosing, [name, attributes, args] => do
    put "<"
    name.write
    args.write
    for a in attributes.parts do
      put " "
      a.write
    put (if selfClosing then "/>" else ">")
  | .closing, [name] => do
    put "</"
    name.write
    put ">"
  | .markupName name, _ => put name
  | .tagAttribute, [name, v] => do
    name.write
    v.writeAfter "="
  | .spreadAttribute, [e] => do
    put "\x7b"
    leadingComments span.lo
    put "..."
    e.value
    put "\x7d"
  | .container, [e] => do
    put "\x7b"
    e.value
    put "\x7d"
  | .spreadChild, [e] => do
    put "\x7b..."
    e.value
    put "\x7d"
  | .markupText text, _ => put text
  | _, _ => patternLayout k span ps

/-- Layout of objects and their properties. -/
def objectLayout (k : Kind) (span : Span) (ps : List Piece) : Writing :=
  match k, ps with
  | .object, properties => do
    put "\x7b"
    if !properties.isEmpty then commaLines span.hi properties
    else if ← hasLeading (span.hi - 1) then newLine
    put "\x7d"
  | .property, [key, v] => do
    key.write
    put ": "
    v.value
  | .shorthand, [name] => name.write
  | .shorthandDefault, [name, v] => do
    name.write
    v.after "="
  | .computed, [e] => do
    put "["
    e.value
    put "]"
  | .objectGetter, [key, _, body] => do
    put "get "
    key.write
    put " ()"
    body.writeAfter " "
  | .objectSetter, [key, this, p, body] => do
    put "set "
    key.write
    put " ("
    if this.isPresent then
      this.value
      put ", "
    p.value
    put ")"
    body.write
  | .objectMethod, [key, parts] => do
    let (isAsync, isGenerator) := functionMarks parts
    modifier isAsync "async"
    if isGenerator then put "*"
    key.write
    put " "
    functionTail parts
  | .spreadProperty, [e] => do
    put "..."
    e.value
  | _, _ => markupLayout k span ps

/-- Writes the arguments of a call or construction in their parentheses. -/
def arguments (hi : Nat) (args : Piece) : Writing := do
  put "("
  commaLine hi args.parts
  put ")"

/-- Writes the operand of a word. Parentheses keep it on the same line when a comment before it
would end the line. -/
def handedOut (p : Piece) : Writing := do
  if p.isPresent then
    if ← hasBreakingLeading p.span.lo then
      put "("
      p.value
      put ")"
    else p.after " "

/-- Tests whether a numeral is a plain row of digits, to which a point would belong. -/
def takesPoint (raw : String) : Bool :=
  let digits := raw.toList.filter (· ≠ '_')
  digits.all Char.isDigit && !(digits.length ≥ 2 && digits.head? = some '0')

/-- Writes an object before its property. -/
def object (o : Piece) : Writing :=
  match o.kind with
  | .number _ => o.write
  | _ => o.value

/-- Writes a property reached by a point, with the comments before the point. -/
def pointed (o name : Piece) : Writing := do
  object o
  match o.kind with
  | .number raw =>
    if takesPoint raw then
      leadingComments (name.span.lo - 2)
      put "."
  | _ => pure ()
  leadingComments (name.span.lo - 1)
  put "."
  name.write

/-- Layout of operators. -/
def operatorLayout (k : Kind) (span : Span) (ps : List Piece) : Writing :=
  match k, ps with
  | .unary operator, [e] => do
    put operator
    if needsSpace operator e.kind then put " "
    e.value
  | .update isPrefix operator, [e] => do
    if isPrefix then
      put operator
      e.value
    else
      e.value
      put operator
  | .binary operator, [l, r] => do
    l.value
    put (" " ++ operator ++ " ")
    r.value
  | .assign operator, [l, r] => do
    l.write
    put (" " ++ operator ++ " ")
    r.value
  | .conditional, [t, c, a] => do
    t.value
    put " ? "
    c.value
    put " : "
    a.value
  | .yield delegate, [e] => do
    put (if delegate then "yield*" else "yield")
    handedOut e
  | .await, [e] => do
    put "await "
    e.value
  | .cast operator, [e, type] => do
    e.value
    put (" " ++ operator ++ " ")
    type.write
  | .constCast, [e] => do
    e.value
    put " as const"
  | .assertion, [e, type] => do
    put "<"
    type.write
    put ">"
    e.value
  | .nonNull, [e] => do
    e.value
    put "!"
  | .instantiation, [e, args] => do
    e.value
    args.write
  | _, _ => objectLayout k span ps

/-- Layout of calls, constructions and properties. In a chain that may end early, calls have no
type arguments. -/
def callLayout (k : Kind) (span : Span) (ps : List Piece) : Writing :=
  match k, ps with
  | .call, [f, args, types] => do
    f.value
    types.write
    arguments span.hi args
  | .optionalCall, [f, args, _] => do
    f.value
    put "?."
    arguments span.hi args
  | .chainedCall, [f, args, _] => do
    f.value
    arguments span.hi args
  | .new, [f, args, types] => do
    put "new "
    f.value
    types.write
    if args.isPresent then arguments span.hi args
  | .member .plain, [o, name] => pointed o name
  | .member .optional, [o, name] => do
    o.value
    name.writeAfter "?."
  | .member .chained, [o, name] => do
    o.value
    name.writeAfter "."
  | .index access, [o, key] => do
    match access with
    | .optional => do
      o.value
      put "?."
    | .chained => o.value
    | .plain => object o
    put "["
    key.value
    put "]"
  | _, _ => operatorLayout k span ps

/-- Layout of expressions. -/
def expressionLayout (k : Kind) (span : Span) (ps : List Piece) : Writing :=
  match k, ps with
  | .this, _ => put "this"
  | .super, _ => put "super"
  | .importKeyword phase, _ => put (match phase with
    | .evaluation => "import"
    | .source => "import.source"
    | .defer => "import.defer")
  | .missing, _ => put "<invalid>"
  | .identifier name isOptional, ps => do
    put name
    if isOptional then put "?"
    for type in ps do
      typed type
  | .privateName name, _ => put ("#" ++ name)
  | .null, _ => put "null"
  | .boolean b, _ => put (if b then "true" else "false")
  | .number raw, _ => put raw
  | .text value raw, _ => put (raw.getD (Literal.ofString value))
  | .regex raw, _ => put raw
  | .template, [values, pieces] => do
    put "\x60"
    templateParts pieces.parts values.parts
    put "\x60"
  | .templatePiece raw, _ => put raw
  | .tagged, [tag, args, t] => do
    tag.value
    args.write
    t.write
  | .array, items => do
    if items.isEmpty then put "[]"
    else
      put "["
      commaLines span.hi items
      put "]"
  | .argument spread, [e] => do
    if spread then put "..."
    e.value
  | .functionExpression, [name, parts] => functionHeading name parts
  | .classExpression, [name, parts] => classExpression name parts
  | .arrow isAsync, [params, body, typeParams, result] => do
    modifier isAsync "async"
    typeParams.write
    put "("
    commaLine span.hi params.parts
    put ")"
    if result.isPresent then
      typed result
      put " "
    put "=>"
    match body.kind with
    | .block => body.write
    | _ => indented body.value
  | .sequence, es => sequence es
  | .parens, [e] => do
    put "("
    e.value
    put ")"
  | .metaProperty object property, _ => put (object ++ "." ++ property)
  | _, _ => callLayout k span ps

end Relocation.Syntax.Layout

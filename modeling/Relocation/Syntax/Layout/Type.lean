import Relocation.Syntax.Layout.Sheet
import Relocation.Syntax.Literal

/-!
# Layout of types
-/

namespace Relocation.Syntax.Layout

/-- Writes a modifier if it is set. -/
def modifier (isSet : Bool) (word : String) : Writing :=
  if isSet then put (word ++ " ") else pure ()

/-- Writes the type that a name or parameter list is given. -/
def typed (p : Piece) : Writing := p.writeAfter ": "

/-- Writes the parameters of a signature with their parentheses. -/
def signatureParameters (hi : Nat) (params : Piece) : Writing := do
  put "("
  commaNames hi params.parts
  put ")"

/-- Writes a function type from its parameters on. -/
def functionType (hi : Nat) (params typeParams result : Piece) : Writing := do
  typeParams.write
  signatureParameters hi params
  put " => "
  result.write

/-- Writes the mark of a mapped type's modifier with its word or mark. -/
def mapped (m : MappedModifier) (word : String) : Writing :=
  match m with
  | .keep => pure ()
  | .add => put word
  | .plus => put ("+" ++ word)
  | .minus => put ("-" ++ word)

/-- Writes the pieces of a template with the values between them. -/
def templateParts : List Piece → List Piece → Writing
  | [], _ => pure ()
  | piece :: pieces, [] => do
    piece.write
    templateParts pieces []
  | piece :: pieces, v :: values => do
    piece.write
    put "$\x7b"
    v.value
    put "\x7d"
    templateParts pieces values

/-- Layout of types and of the members of interfaces. -/
def typeLayout (k : Kind) (span : Span) (ps : List Piece) : Writing :=
  match k, ps with
  | .ascription, [t] => t.write
  | .typeKeyword w, _ => put w
  | .typeReference, [name, args] => do
    name.write
    args.write
  | .qualified, [l, r] => do
    l.write
    put "."
    r.write
  | .typeQuery, [name, args] => do
    put "typeof "
    name.write
    args.write
  | .importType, [source, qualifier, args] => do
    put "import("
    source.write
    put ")"
    qualifier.writeAfter "."
    args.write
  | .typeLiteral, ms => do
    put "\x7b"
    lines ms fun p ↦ do
      p.write
      put ";"
    put "\x7d"
  | .arrayType, [t] => do
    t.write
    put "[]"
  | .tupleType, ts => do
    put "["
    commaNames span.hi ts
    put "]"
  | .tupleElement, [label, t] => do
    if label.isPresent then
      label.value
      put ": "
    t.write
  | .optionalType, [t] => do
    t.write
    put "?"
  | .restType, [t] => do
    put "..."
    t.write
  | .unionType, ts => delimited " |" span.hi Piece.write ts
  | .intersectionType, ts => delimited " &" span.hi Piece.write ts
  | .conditionalType, [c, e, t, f] => do
    c.write
    put " extends "
    e.write
    put " ? "
    t.write
    put " : "
    f.write
  | .inferType, [p] => do
    put "infer "
    p.write
  | .parensType, [t] => do
    put "("
    t.write
    put ")"
  | .typeOperator operator, [t] => do
    put (operator ++ " ")
    t.write
  | .indexedType, [o, i] => do
    o.write
    put "["
    i.write
    put "]"
  | .mappedType readonlyMark optionalMark, [name, bound, nameType, t] => do
    put "\x7b"
    newLine
    indented do
      mapped readonlyMark "readonly"
      if readonlyMark ≠ .keep then put " "
      put "["
      name.write
      put " in "
      bound.write
      nameType.writeAfter " as "
      put "]"
      mapped optionalMark "?"
      typed t
      put ";"
    newLine
    put "\x7d"
  | .literalType, [t] => t.write
  | .predicate asserts, [name, t] => do
    modifier asserts "asserts"
    name.write
    t.writeAfter " is "
  | .functionType, [params, typeParams, result] => functionType span.hi params typeParams result
  | .constructorType isAbstract, [params, typeParams, result] => do
    modifier isAbstract "abstract"
    put "new "
    functionType span.hi params typeParams result
  | .typeParameters, ts => do
    put "<"
    commaNames span.hi ts
    put ">"
  | .typeParameter isConst isIn isOut, [name, bound, fallback] => do
    modifier isConst "const"
    modifier isIn "in"
    modifier isOut "out"
    name.write
    bound.writeAfter " extends "
    fallback.writeAfter " = "
  | .typeArguments, ts => do
    put "<"
    commaNames span.hi ts
    put ">"
  | .heritage, [e, args] => do
    e.value
    args.write
  | .propertySignature isReadonly isOptional, [key, t] => do
    modifier isReadonly "readonly"
    key.value
    if isOptional then put "?"
    typed t
  | .methodSignature isOptional, [key, params, result, typeParams] => do
    key.value
    if isOptional then put "?"
    typeParams.write
    signatureParameters span.hi params
    typed result
  | .getterSignature, [key, result] => do
    put "get "
    key.value
    put "()"
    typed result
  | .setterSignature, [key, parameter] => do
    put "set "
    key.value
    put "("
    parameter.write
    put ")"
  | .callSignature, [params, result, typeParams] => do
    typeParams.write
    signatureParameters span.hi params
    result.writeAfter " : "
  | .constructSignature, [params, result, typeParams] => do
    put "new"
    typeParams.writeAfter " "
    signatureParameters span.hi params
    typed result
  | .indexSignature isReadonly, [params, t] => do
    modifier isReadonly "readonly"
    put "["
    commaNames span.hi params.parts
    put "]"
    typed t
  | _, _ => pure ()

end Relocation.Syntax.Layout

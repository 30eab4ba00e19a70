import Relocation.Json.Document
import Relocation.Syntax.Dialect

/-!
# Trees in JSON form

Trees as they are exchanged between tools: each node is an object whose `type` says what it is.
What is no node, such as names, flags and spans, belongs to a node's label, so that a tree can be
written out again as it was read.
-/

namespace Relocation.Syntax.Exchange

open Json (Document Members)

/-- Labels of trees in JSON form. -/
inductive Label where
  /-- A value that holds no node. -/
  | value (document : Document)
  /-- An array; children: its elements. -/
  | list (isItems : Bool)
  /-- An object: what it is, its members that hold no node, and the names of those that do;
  children: the values of the latter. -/
  | record (role : Role) (attributes : Members) (names : List String)
  /-- A string literal without a spelling of its own. -/
  | text (value : String)
  /-- The literal `null`. -/
  | null

/-- What a label is. -/
def Label.role : Label → Role
  | value _ => .plain
  | list isItems => if isItems then .items else .plain
  | record role _ _ => role
  | text v => .text v
  | null => .plain

instance : Dialect Label where
  role := Label.role
  literal := .text
  null := .null

instance : LawfulDialect Label where
  role_literal _ := rfl
  role_null := rfl

/-- Where a value stands, if that matters for what it is. -/
inductive Place where
  /-- It is the list of items of a file or a namespace. -/
  | items
  /-- It is the chain that an optional access is made to; a call there is no call expression. -/
  | base
  | elsewhere
  deriving DecidableEq, Repr

/-- The place of a member's value. -/
def placeOf (type : Option String) (name : String) : Place :=
  if name = "body" ∧ (type = some "Module" ∨ type = some "TsModuleBlock") then .items
  else if name = "base" ∧ type = some "OptionalChainingExpression" then .base
  else .elsewhere

/-- The order in which the members of most nodes are traversed. -/
def usualOrder : List String :=
  ["source", "label", "id", "identifier", "key", "tag", "callee", "opening", "name", "left",
   "right", "object", "obj", "property", "discriminant", "block", "handler", "finalizer", "init",
   "value", "test", "consequent", "alternate", "update", "cases", "thisParam", "params",
   "arguments", "expression", "expressions", "quasis", "elements", "properties", "argument",
   "attributes", "typeAnnotation", "typeAnn", "decorators", "pat", "param", "body", "children",
   "closing", "superClass", "typeArguments", "typeParameters", "template", "typeParams",
   "superTypeParams", "implements", "extends", "members", "returnType"]

/-- The order in which the members of a node of a type are traversed. Types that are built from
others have orders of their own: there type parameters come before the types that they stand in.
Members that are not named come behind the others, as they are written. -/
def order : Option String → List String
  | some "TsTypeAliasDeclaration" => ["id", "typeParams", "typeAnnotation"]
  | some "TsInterfaceDeclaration" => ["id", "typeParams", "extends", "body"]
  | some "TsFunctionType" | some "TsConstructorType" => ["params", "typeParams", "typeAnnotation"]
  | some "TsMappedType" => ["typeParam", "nameType", "typeAnnotation"]
  | some "TsConditionalType" => ["checkType", "extendsType", "trueType", "falseType"]
  | some "TsIndexedAccessType" => ["objectType", "indexType"]
  | some "TsTypeReference" => ["typeName", "typeParams"]
  | some "TsTypePredicate" => ["paramName", "typeAnnotation"]
  | some "TsTypeQuery" => ["exprName", "typeArguments"]
  | some "TsImportType" => ["argument", "qualifier", "typeArguments"]
  | some "TsTypeParameter" => ["name", "constraint", "default"]
  | some "TemplateLiteral" => ["expressions", "types", "quasis"]
  | _ => usualOrder

/-- Named values of a node of a type in the order of traversal. -/
def arrange {α : Type} (type : Option String) (members : List (String × α)) :
    List (String × α) :=
  (order type).flatMap (fun name ↦ members.filter (·.1 = name)) ++
    members.filter fun m ↦ !(order type).contains m.1

/-- Tests whether a value is a span: an object of nothing but numbers. -/
def isSpan : Document → Bool
  | .object members => members.all (·.2.isNumber)
  | _ => false

/-- Tests whether a value can hold nodes. -/
def holdsNodes : Document → Bool
  | .array _ => true
  | .object members => !isSpan (.object members)
  | _ => false

/-- The span of a node by its members. -/
def spanOf (members : Members) : Span :=
  match members.lookup "span" with
  | some s => ⟨((s.member? "start").bind Document.nat?).getD 0,
      ((s.member? "end").bind Document.nat?).getD 0⟩
  | none => ⟨0, 0⟩

/-- What an object is, by its place, its members without nodes and the names of the others. -/
def roleOf (place : Place) (attributes : Members) (names : List String) : Role :=
  let value := ((attributes.lookup "value").bind Document.string?).getD ""
  match (attributes.lookup "type").bind Document.string? with
  | none =>
    match attributes.lookup "spread", names with
    | some spread, ["expression"] => .argument !spread.isNull
    | _, _ => .plain
  | some "CallExpression" => if place = .base then .plain else .call
  | some "Identifier" => .name value
  | some "ParenthesisExpression" => .parens
  | some "StringLiteral" => .text value
  | some "ImportDeclaration" | some "ExportAllDeclaration" | some "ExportNamedDeclaration" =>
    if names.head? = some "source" then .sourced else .plain
  | some _ => .plain

mutual

/-- Reads a tree. -/
def read (place : Place) : Document → Tree Label
  | .array items => .node (.list (place = .items)) ⟨0, 0⟩ (readAll items)
  | .object members =>
    let type := (members.lookup "type").bind Document.string?
    let attributes := members.filter fun m ↦ !holdsNodes m.2
    let nodes := arrange type (readMembers type members)
    let names := nodes.map (·.1)
    .node (.record (roleOf place attributes names) attributes names) (spanOf attributes)
      (nodes.map (·.2))
  | d => .node (.value d) ⟨0, 0⟩ []

/-- Reads the elements of an array. -/
def readAll : List Document → List (Tree Label)
  | [] => []
  | d :: ds => read .elsewhere d :: readAll ds

/-- Reads the members of an object that can hold nodes. -/
def readMembers (type : Option String) : List (String × Document) → List (String × Tree Label)
  | [] => []
  | (name, d) :: rest =>
    if holdsNodes d then (name, read (placeOf type name) d) :: readMembers type rest
    else readMembers type rest

end

/-- A span as it is written. -/
def writeSpan (s : Span) : Document :=
  .object [("start", .ofNat s.lo), ("end", .ofNat s.hi)]

mutual

/-- Writes a tree. -/
def write : Tree Label → Document
  | .node label span children =>
    match label with
    | .value d => d
    | .list _ => .array (writeAll children)
    | .record _ attributes names => .object (attributes ++ names.zip (writeAll children))
    | .text value => .object
      [("type", .string "StringLiteral"), ("span", writeSpan span), ("value", .string value),
       ("raw", .null)]
    | .null => .object [("type", .string "NullLiteral"), ("span", writeSpan span)]

/-- Writes trees that stand beside each other. -/
def writeAll : List (Tree Label) → List Document
  | [] => []
  | t :: ts => write t :: writeAll ts

end

end Relocation.Syntax.Exchange

import Relocation.Syntax.Layout.Expression

/-!
# Layout of statements, declarations and files

`Node.write` writes a tree by the layout of its label, which is given the actions that write
the children; `Source.print` writes a file.
-/

namespace Relocation.Syntax.Layout

/-- Layout of declarations. -/
def declarationLayout (k : Kind) (span : Span) (ps : List Piece) : Writing :=
  match k, ps with
  | .variableList keyword isDeclare, ds => do
    modifier isDeclare "declare"
    put (keyword ++ " ")
    commaLine span.hi ds
  | .declarator _, [p, v] => do
    p.value
    v.after " = "
  | .functionDeclaration isDeclare, [name, parts] => do
    modifier isDeclare "declare"
    functionHeading name parts
  | .classDeclaration isDeclare, [name, parts] => do
    modifier isDeclare "declare"
    for d in decoratorsAt 0 parts do
      d.write
    classHeading name parts
  | .interface isDeclare, [name, typeParams, extended, members] => do
    modifier isDeclare "declare"
    put "interface "
    name.write
    typeParams.write
    if !extended.parts.isEmpty then
      put " extends "
      commaNames span.hi extended.parts
    put " \x7b"
    lines members.parts fun p ↦ do
      p.write
      put ";"
    put "\x7d"
  | .typeAlias isDeclare, [name, typeParams, type] => do
    modifier isDeclare "declare"
    put "type "
    name.write
    typeParams.write
    put " = "
    type.write
    put ";"
  | .enumeration isDeclare isConst, [name, members] => do
    modifier isDeclare "declare"
    modifier isConst "const"
    put "enum "
    name.write
    put " \x7b"
    if members.parts.isEmpty then newLine
    else commaLines span.hi members.parts
    put "\x7d"
  | .enumMember, [name, v] => do
    name.write
    v.after " = "
  | .namespaceBlock isDeclare isGlobal, [name, body] => do
    modifier isDeclare "declare"
    if !isGlobal then
      put (match name.kind with
        | .text _ _ => "module "
        | _ => "namespace ")
    name.write
    if body.isPresent && !(body.kind matches .innerNamespace) then put " "
    body.write
  | .innerNamespace, [name, body] => do
    put "."
    name.write
    if !(body.kind matches .innerNamespace) then put " "
    body.write
  | _, _ => expressionLayout k span ps

/-- Layout of statements. -/
def statementLayout (k : Kind) (span : Span) (ps : List Piece) : Writing :=
  match k, ps with
  | .block, ss => blockLayout span ss
  | .emptyStatement, _ => put ";"
  | .debugger, _ => put "debugger;"
  | .expressionStatement, [e] => do
    e.value
    put ";"
  | .ifStatement, [test, c, a] => do
    put "if ("
    test.value
    put ") "
    statement c
    if a.isPresent then
      if c.kind matches .block then put " "
      put "else "
      statement a
  | .forStatement, [i, test, u, body] => do
    put "for("
    i.value
    put ";"
    test.after " "
    put ";"
    u.after " "
    put ")"
    statement body
  | .forIn, [l, r, body] => do
    put "for("
    l.value
    put " in "
    r.value
    put ")"
    statement body
  | .forOf isAwait, [l, r, body] => do
    put (if isAwait then "for await (" else "for (")
    l.value
    put " of "
    r.value
    put ")"
    statement body
  | .whileStatement, [test, body] => do
    put "while("
    test.value
    put ")"
    statement body
  | .doWhile, [test, body] => do
    put "do "
    statement body
    put "while ("
    test.value
    put ")"
  | .switchStatement, [e, cases] => do
    put "switch("
    e.value
    put ")\x7b"
    lines cases.parts Piece.write
    put "\x7d"
  | .switchCase, [test, ss] => do
    if test.isPresent then
      put "case "
      test.value
    else put "default"
    put ":"
    if !ss.parts.isEmpty then lines ss.parts statement
  | .tryStatement, [body, handler, finalizer] => do
    put "try "
    body.write
    handler.writeAfter " "
    finalizer.writeAfter " finally"
  | .catchClause, [param, body] => do
    put "catch "
    if param.isPresent then
      put "("
      param.value
      put ")"
    put " "
    body.write
  | .labeled, [label, body] => do
    label.write
    put ": "
    statement body
  | .breakStatement, [label] => do
    put "break"
    label.writeAfter " "
    put ";"
  | .continueStatement, [label] => do
    put "continue"
    label.writeAfter " "
    put ";"
  | .returnStatement, [e] => do
    put "return"
    handedOut e
    put ";"
  | .throwStatement, [e] => do
    put "throw"
    handedOut e
    put ";"
  | .withStatement, [o, body] => do
    put "with("
    o.value
    put ")"
    statement body
  | _, _ => declarationLayout k span ps

/-- Writes the end of an import or export: its attributes and a semicolon. -/
def attributesTail (attributes : Piece) : Writing := do
  attributes.writeAfter " with "
  put ";"

/-- Writes specifiers in braces. -/
def braced (hi : Nat) (ps : List Piece) : Writing := do
  put "\x7b "
  commaNames hi ps
  put (if ps.isEmpty then "\x7d" else " \x7d")

/-- Writes specifiers that stand outside braces. -/
def unbraced : List Piece → Writing
  | [] => pure ()
  | [p] => p.write
  | p :: more => do
    p.write
    put ", "
    unbraced more

/-- Writes the specifiers of an import and the word before its source. -/
def importHead (hi : Nat) (specifiers : List Piece) : Writing := do
  let named := specifiers.filter (·.kind matches .importName _)
  let others := specifiers.filter (!·.kind matches .importName _)
  unbraced others
  if !named.isEmpty then
    if !others.isEmpty then put ", "
    braced hi named
  if !specifiers.isEmpty then put " from "

/-- Layout of imports and exports. -/
def moduleLayout (k : Kind) (span : Span) (ps : List Piece) : Writing :=
  match k, ps with
  | .importFrom typeOnly phase, [source, specifiers, attributes] => do
    put "import "
    modifier typeOnly "type"
    match phase with
    | .evaluation => pure ()
    | .source => put "source "
    | .defer => put "defer "
    importHead span.hi specifiers.parts
    source.write
    attributesTail attributes
  | .importDefault, [name] => name.write
  | .importNamespace, [name] => do
    put "* as "
    name.write
  | .importName typeOnly, [name, imported] => do
    modifier typeOnly "type"
    imported.write
    if imported.isPresent then put " as "
    name.write
  | .exportAll typeOnly, [source, attributes] => do
    put "export "
    modifier typeOnly "type"
    put "* from "
    source.write
    attributesTail attributes
  | .exportFrom typeOnly, [source, specifiers, attributes] => do
    put "export "
    modifier typeOnly "type"
    let all := specifiers.parts.filter (·.kind matches .exportNamespace)
    let named := specifiers.parts.filter (!·.kind matches .exportNamespace)
    unbraced all
    if !named.isEmpty && !all.isEmpty then put ", "
    if !named.isEmpty || all.isEmpty then braced span.hi named
    put " from "
    source.write
    attributesTail attributes
  | .exportList typeOnly trailingComma, specifiers => do
    put "export "
    modifier typeOnly "type"
    if trailingComma then
      put "\x7b "
      commaNames span.hi specifiers
      put ",  \x7d"
    else braced span.hi specifiers
    put ";"
  | .exportName typeOnly, [name, outside] => do
    modifier typeOnly "type"
    name.write
    outside.writeAfter " as "
  | .exportNamespace, [name] => do
    put "* as "
    name.write
  | .exportDeclaration, [d] => do
    match d.kind, d.parts with
    | .classDeclaration isDeclare, [name, parts] => do
      for decoration in decoratorsAt 0 parts do
        decoration.write
      put "export "
      leadingComments d.span.lo
      modifier isDeclare "declare"
      classHeading name parts
    | .variableList _ _, _ => do
      put "export "
      d.write
      put ";"
    | _, _ => do
      put "export "
      d.write
  | .exportDefaultDeclaration, [d] => do
    put "export default "
    d.write
  | .exportDefaultExpression, [e] => do
    put "export default "
    e.value
    put ";"
  | .importEquals exported typeOnly, [name, reference] => do
    modifier exported "export"
    put "import "
    modifier typeOnly "type"
    name.write
    put " = "
    reference.write
    put ";"
  | .externalReference, [source] => do
    put "require("
    source.write
    put ")"
  | .exportAssignment, [e] => do
    put "export = "
    e.value
  | .namespaceExport, [name] => do
    put "export = "
    name.write
  | _, _ => statementLayout k span ps

/-- Declarations of imports and exports, which are no statements. -/
def isModuleDeclaration (k : Kind) : Bool :=
  match k with
  | .importFrom _ _ | .exportAll _ | .exportFrom _ | .exportList _ _ | .exportDeclaration
  | .exportDefaultDeclaration | .exportDefaultExpression | .importEquals _ _
  | .exportAssignment | .namespaceExport => true
  | _ => false

/-- Writes an item of a file or namespace, with the comments behind it. -/
def item (p : Piece) : Writing := do
  if isModuleDeclaration p.kind then
    p.write
    trailingComments p.span.hi
    newLine
  else
    statement p
    trailingComments p.span.hi

/-- Tests whether a label takes the comments before it. In markup and before computed keys only
the parts take comments, and an argument leaves them to its expression. -/
def hasComments (k : Kind) : Bool :=
  match k with
  | .absent | .many | .moduleBlock | .importNamespace | .argument false | .computed | .element
  | .fragment | .opening _ | .closing | .tagAttribute | .spreadAttribute | .container
  | .spreadChild | .markupText _ => false
  | _ => true

/-- Layout of any label. -/
def layout (k : Kind) (span : Span) (ps : List Piece) : Writing := do
  if hasComments k then leadingComments span.lo
  match k with
  | .absent | .many => pure ()
  | .file hashbang => do
    match hashbang with
    | some line => do
      put ("#!" ++ line)
      newLine
    | none => pure ()
    for p in ps do
      leadingComments p.span.lo
      item p
    trailingComments span.hi
  | .moduleBlock => do
    put "\x7b"
    newLine
    indented do
      for p in ps do
        leadingComments p.span.lo
        item p
    put "\x7d"
  | _ => moduleLayout k span ps

mutual

/-- A tree with the action that writes it. -/
def piece : Node → Piece
  | .node kind span children =>
    let parts := pieces children
    .mk (.node kind span children) (layout kind span parts) parts

/-- Trees with the actions that write them. -/
def pieces : List Node → List Piece
  | [] => []
  | n :: more => piece n :: pieces more

end

/-- The text of a tree, with the comments that stand among its tokens. -/
def print (tree : Node) (comments : Comments) : String :=
  let sheet : Sheet := { comments := comments }
  ((piece tree).write.run sheet).2.text

end Relocation.Syntax.Layout

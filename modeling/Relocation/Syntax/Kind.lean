import Relocation.Syntax.Dialect

/-!
# Labels of source trees

The labels of trees read from source text. The children of each label are given beside it, in
traversal order: `?` marks a child that may be `absent`, `[x]` is a `many` node whose children
are the `x` of a list, and `x…` stands for a list that is all the children there are.
-/

namespace Relocation.Syntax

/-- How a property is reached. -/
inductive Access where
  /-- By a point or brackets alone. -/
  | plain
  /-- Only if the object is there. -/
  | optional
  /-- By a point or brackets further along a chain that may end early. -/
  | chained
  deriving DecidableEq, Repr

/-- How much of a module an import takes in. -/
inductive ImportPhase where
  | evaluation
  | source
  | defer
  deriving DecidableEq, Repr

/-- What may stand before the name of a class member or a declaration. -/
structure Modifiers where
  isDeclare : Bool := false
  accessibility : Option String := none
  isStatic : Bool := false
  isAbstract : Bool := false
  isOverride : Bool := false
  isReadonly : Bool := false
  isAccessor : Bool := false
  isOptional : Bool := false
  isDefinite : Bool := false
  deriving DecidableEq, Inhabited, Repr

/-- How a method is called: plainly, by reading or by writing a property. -/
inductive MethodKind where
  | method
  | getter
  | setter
  deriving DecidableEq, Repr

/-- How a mapped type treats a modifier of each property. -/
inductive MappedModifier where
  | keep
  | add
  | plus
  | minus
  deriving DecidableEq, Repr

/-- Labels of source trees. -/
inductive Kind where
  /-- No node at all. -/
  | absent
  /-- A list of nodes. -/
  | many
  /-- A file: item…. -/
  | file (hashbang : Option String)
  -- Module declarations
  /-- An import: source, [specifier], attributes?. -/
  | importFrom (typeOnly : Bool) (phase : ImportPhase)
  /-- The default import: name. -/
  | importDefault
  /-- The import of everything: name. -/
  | importNamespace
  /-- The import of one name: name, imported name?. -/
  | importName (typeOnly : Bool)
  /-- An export of everything: source, attributes?. -/
  | exportAll (typeOnly : Bool)
  /-- A re-export: source, [specifier], attributes?. -/
  | exportFrom (typeOnly : Bool)
  /-- A list of exports: specifier…. -/
  | exportList (typeOnly trailingComma : Bool)
  /-- An exported name: name, outside name?. -/
  | exportName (typeOnly : Bool)
  /-- The export of everything under a name: name. -/
  | exportNamespace
  /-- An exported declaration: declaration. -/
  | exportDeclaration
  /-- A default export of a declaration: class, function or interface. -/
  | exportDefaultDeclaration
  /-- A default export of a value: expression. -/
  | exportDefaultExpression
  /-- An import assignment: name, reference. -/
  | importEquals (exported typeOnly : Bool)
  /-- The reference of an import assignment to another module: string. -/
  | externalReference
  /-- An export assignment: expression. -/
  | exportAssignment
  /-- An export of the file's names as a namespace: name. -/
  | namespaceExport
  -- Statements
  /-- A block: statement…. -/
  | block
  | emptyStatement
  | debugger
  /-- An expression statement: expression. -/
  | expressionStatement
  /-- A conditional: test, consequence, alternative?. -/
  | ifStatement
  /-- A counting loop: initialiser?, test?, update?, body. -/
  | forStatement
  /-- A loop over keys: left, right, body. -/
  | forIn
  /-- A loop over values: left, right, body. -/
  | forOf (isAwait : Bool)
  /-- A loop: test, body. -/
  | whileStatement
  /-- A loop tested at its end: test, body. -/
  | doWhile
  /-- A switch: discriminant, [case]. -/
  | switchStatement
  /-- A case of a switch: test?, [statement]. -/
  | switchCase
  /-- A guarded block: block, handler?, final block?. -/
  | tryStatement
  /-- A handler: parameter?, block. -/
  | catchClause
  /-- A labelled statement: label, statement. -/
  | labeled
  /-- A jump out: label?. -/
  | breakStatement
  /-- A jump to the next round: label?. -/
  | continueStatement
  /-- A return: expression?. -/
  | returnStatement
  /-- A throw: expression. -/
  | throwStatement
  /-- A `with` statement: object, body. -/
  | withStatement
  -- Declarations
  /-- Variables: declarator…. -/
  | variableList (keyword : String) (isDeclare : Bool)
  /-- One variable: pattern, value?. -/
  | declarator (isDefinite : Bool)
  /-- A named function: name, function. -/
  | functionDeclaration (isDeclare : Bool)
  /-- A named class: name, class. -/
  | classDeclaration (isDeclare : Bool)
  /-- The parts of a function: [parameter], [decorator], body?, type parameters?, result type?. -/
  | functionParts (isAsync isGenerator : Bool)
  /-- A parameter: [decorator], pattern. -/
  | parameter
  /-- A parameter that declares a property: [decorator], pattern. -/
  | parameterProperty (modifiers : Modifiers)
  /-- The parts of a class: [decorator], [member], superclass?, type parameters?, superclass
  arguments?, [implemented]. -/
  | classParts (isAbstract : Bool)
  /-- A decorator: expression. -/
  | decorator
  /-- A constructor: [parameter], body?. -/
  | constructorMember (accessibility : Option String)
  /-- A method: key, function. -/
  | method (kind : MethodKind) (modifiers : Modifiers)
  /-- A field: key, value?, type?, [decorator]. -/
  | field (modifiers : Modifiers)
  /-- A static block: block. -/
  | staticBlock
  /-- A lone semicolon among class members. -/
  | emptyMember
  /-- A private name. -/
  | privateName (text : String)
  -- Expressions
  | this
  | super
  /-- The callee of a dynamic import. -/
  | importKeyword (phase : ImportPhase)
  /-- What stands where an expression is missing. -/
  | missing
  /-- An identifier; in a binding its only child is type?. -/
  | identifier (text : String) (isOptional : Bool)
  | null
  | boolean (value : Bool)
  | number (raw : String)
  /-- A string literal, with its spelling if it was read. -/
  | text (value : String) (raw : Option String)
  | regex (raw : String)
  /-- A template: [expression], [piece]. -/
  | template
  | templatePiece (raw : String)
  /-- A tagged template: tag, type arguments?, template. -/
  | tagged
  /-- An array: argument or absent…. -/
  | array
  /-- An object: property…. -/
  | object
  /-- A property with a value: key, value. -/
  | property
  /-- A property named as its value: identifier. -/
  | shorthand
  /-- A shorthand with a default: identifier, value. -/
  | shorthandDefault
  /-- A computed key: expression. -/
  | computed
  /-- A getter of an object: key, result type?, body. -/
  | objectGetter
  /-- A setter of an object: key, parameter for `this`?, parameter, body. -/
  | objectSetter
  /-- A method of an object: key, function. -/
  | objectMethod
  /-- A spread property: expression. -/
  | spreadProperty
  /-- An argument or element: expression. -/
  | argument (spread : Bool)
  /-- A function expression: name?, function. -/
  | functionExpression
  /-- A class expression: name?, class. -/
  | classExpression
  /-- An arrow function: [pattern], body, type parameters?, result type?. -/
  | arrow (isAsync : Bool)
  /-- A prefix operator: operand. -/
  | unary (operator : String)
  /-- An increment or decrement: operand. -/
  | update (isPrefix : Bool) (operator : String)
  /-- A binary operator: left, right. -/
  | binary (operator : String)
  /-- An assignment: target, value. -/
  | assign (operator : String)
  /-- A conditional expression: test, consequence, alternative. -/
  | conditional
  /-- A call: callee, [argument], type arguments?. -/
  | call
  /-- A call made only if the callee is there: callee, [argument], type arguments?. -/
  | optionalCall
  /-- A call further along a chain that may end early: callee, [argument], type arguments?. -/
  | chainedCall
  /-- A construction: callee, [argument]?, type arguments?. -/
  | new
  /-- A property by name: object, name. -/
  | member (access : Access)
  /-- A property by value: object, expression. -/
  | index (access : Access)
  /-- A sequence: expression…. -/
  | sequence
  /-- A parenthesised expression: expression. -/
  | parens
  /-- A `yield`: expression?. -/
  | yield (delegate : Bool)
  /-- An `await`: expression. -/
  | await
  /-- A meta property. -/
  | metaProperty (object property : String)
  -- Patterns
  /-- An array pattern: [pattern or absent], type?. -/
  | arrayPattern (isOptional : Bool)
  /-- An object pattern: [property pattern], type?. -/
  | objectPattern (isOptional : Bool)
  /-- A property pattern: key, pattern. -/
  | propertyPattern
  /-- A property pattern named as its variable: identifier, default?. -/
  | shorthandPattern
  /-- A rest pattern: pattern, type?. -/
  | rest
  /-- A pattern with a default: pattern, value. -/
  | assignPattern
  -- Markup
  /-- An element: opening, [child], closing?. -/
  | element
  /-- An opening tag: name, [attribute], type arguments?. -/
  | opening (selfClosing : Bool)
  /-- A closing tag: name. -/
  | closing
  /-- A nameless element: child…. -/
  | fragment
  /-- A name of a tag or attribute. -/
  | markupName (text : String)
  /-- An attribute: name, value?. -/
  | tagAttribute
  /-- Spread attributes: expression. -/
  | spreadAttribute
  /-- An expression among markup: expression?. -/
  | container
  /-- Spread children: expression. -/
  | spreadChild
  | markupText (text : String)
  -- Types
  /-- A type after a colon: type. -/
  | ascription
  | typeKeyword (text : String)
  /-- A named type: name, arguments?. -/
  | typeReference
  /-- A dotted name: left, right. -/
  | qualified
  /-- The type of a value: name, arguments?. -/
  | typeQuery
  /-- A type from a module: string, qualifier?, arguments?. -/
  | importType
  /-- An object type: member…. -/
  | typeLiteral
  /-- An array type: type. -/
  | arrayType
  /-- A tuple type: element…. -/
  | tupleType
  /-- A labelled element: label, type. -/
  | tupleElement
  /-- An optional element: type. -/
  | optionalType
  /-- A rest element: type. -/
  | restType
  /-- A union: type…. -/
  | unionType
  /-- An intersection: type…. -/
  | intersectionType
  /-- A conditional type: checked, bound, consequence, alternative. -/
  | conditionalType
  /-- An inferred type: type parameter. -/
  | inferType
  /-- A parenthesised type: type. -/
  | parensType
  /-- A type operator: type. -/
  | typeOperator (operator : String)
  /-- A type by key: object, key. -/
  | indexedType
  /-- A mapped type: parameter name, bound, key type?, type?. -/
  | mappedType (readonly optional : MappedModifier)
  /-- A literal type: literal. -/
  | literalType
  /-- A type predicate: name, type?. -/
  | predicate (asserts : Bool)
  /-- A function type: [parameter], type parameters?, result. -/
  | functionType
  /-- A constructor type: [parameter], type parameters?, result. -/
  | constructorType (isAbstract : Bool)
  /-- Type parameters: parameter…. -/
  | typeParameters
  /-- A type parameter: name, bound?, default?. -/
  | typeParameter (isConst isIn isOut : Bool)
  /-- Type arguments: type…. -/
  | typeArguments
  /-- An implemented or extended type: expression, arguments?. -/
  | heritage
  /-- A property of a type: key, type?. -/
  | propertySignature (isReadonly isOptional : Bool)
  /-- A method of a type: key, [parameter], result?, type parameters?. -/
  | methodSignature (isOptional : Bool)
  /-- A getter of a type: key, result?. -/
  | getterSignature
  /-- A setter of a type: key, parameter. -/
  | setterSignature
  /-- A call of a type: [parameter], result?, type parameters?. -/
  | callSignature
  /-- A construction of a type: [parameter], result?, type parameters?. -/
  | constructSignature
  /-- An index of a type: [parameter], type?. -/
  | indexSignature (isReadonly : Bool)
  /-- An interface: name, type parameters?, [extended], [member]. -/
  | interface (isDeclare : Bool)
  /-- A type alias: name, type parameters?, type. -/
  | typeAlias (isDeclare : Bool)
  /-- An enumeration: name, [member]. -/
  | enumeration (isDeclare isConst : Bool)
  /-- A member of an enumeration: name, value?. -/
  | enumMember
  /-- A namespace: name, body?. -/
  | namespaceBlock (isDeclare isGlobal : Bool)
  /-- A namespace within a dotted one: name, body. -/
  | innerNamespace
  /-- The body of a namespace: item…. -/
  | moduleBlock
  /-- A cast: expression, type. -/
  | cast (operator : String)
  /-- A cast to the literal's own type: expression. -/
  | constCast
  /-- A cast written in front: expression, type. -/
  | assertion
  /-- A value that is there: expression. -/
  | nonNull
  /-- A value with type arguments: expression, arguments. -/
  | instantiation

instance : Inhabited Kind := ⟨.absent⟩

/-- A source tree. -/
abbrev Node := Tree Kind

namespace Kind

/-- The part that a label plays in the relocation of specifiers. -/
def role : Kind → Role
  | call => .call
  | identifier spelling _ => .name spelling
  | argument spread => .argument spread
  | parens => .parens
  | text value _ => .text value
  | file _ | moduleBlock => .items
  | importFrom _ _ | exportAll _ | exportFrom _ => .sourced
  | _ => .plain

end Kind

instance : Dialect Kind where
  role := Kind.role
  literal v := .text v none
  null := .null

instance : LawfulDialect Kind where
  role_literal _ := rfl
  role_null := rfl

namespace Node

/-- The node that stands for nothing. -/
def absent : Node := .node .absent ⟨0, 0⟩ []

/-- A list of nodes as one node. -/
def many (nodes : List Node) : Node := .node .many ⟨0, 0⟩ nodes

/-- Tests whether the node stands for something. -/
def isPresent (n : Node) : Bool :=
  match n.kind with
  | .absent => false
  | _ => true

end Node

end Relocation.Syntax

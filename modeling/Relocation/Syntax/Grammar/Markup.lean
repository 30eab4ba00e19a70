import Relocation.Syntax.Entity
import Relocation.Syntax.Grammar.Type

/-!
# Markup

Elements written in source text: tags with attributes, and text and expressions between them.
-/

namespace Relocation.Syntax.Grammar

open Reader

/-- One word of a tag or attribute name, in which hyphens may stand. -/
def markupWord : Reader String := do
  let (raw, rest) := Lexeme.markupName (← textHere)
  require !raw.isEmpty
  let word := String.ofList raw
  let _ ← retake (.markupWord word) raw rest
  return word

/-- The name of an attribute, or of a tag up to its first point. -/
def attributeName : Reader String := do
  let first ← markupWord
  if ← eatMark ":" then return first ++ ":" ++ (← markupWord)
  else return first

/-- The name of a tag, with points or a colon in it. -/
def tagName : Reader Node := do
  let lo ← here
  let first ← attributeName
  let name ← iterate (fun (name : String) ↦ do
    if ← eatMark "." then return .inl (name ++ "." ++ (← markupWord))
    return .inr name) first
  node (.markupName name) lo []

/-- The value of an attribute written as a string, in which no backslash escapes. -/
def attributeText : Reader Node := do
  match ← textHere with
  | quote :: r =>
    require (quote = '"' || quote = '\x27')
    let inner := r.takeWhile (· ≠ quote)
    match r.dropWhile (· ≠ quote) with
    | _ :: rest =>
      let raw := quote :: inner ++ [quote]
      let value := String.ofList inner
      let span ← retake (.text value (String.ofList raw)) raw rest
      return .node (.text value (some (String.ofList raw))) span []
    | [] => refuse
  | [] => refuse

/-- An expression in braces as the value of an attribute. Points that would spread it mean
nothing. -/
def attributeContainer (g : Grammar) : Reader Node := do
  let lo ← here
  expectMark "\x7b"
  let _ ← eatMark "..."
  let value ← inside g.expression
  expectMark "\x7d"
  node .container lo [value]

/-- An attribute, or an object whose properties are attributes. -/
def tagAttribute (g : Grammar) : Reader Node := do
  let lo ← here
  if ← eatMark "\x7b" then
    let dots ← here
    expectMark "..."
    let value ← inside g.assignment
    let hi ← previousEnd
    expectMark "\x7d"
    return .node .spreadAttribute ⟨dots, hi⟩ [value]
  else
    let name ← attributeName
    let nameNode ← node (.markupName name) lo []
    let value ← if ← eatMark "=" then
        match (← peek).kind with
        | .mark "\x7b" => attributeContainer g
        | .mark "<" => g.element
        | _ => attributeText
      else pure Node.absent
    node .tagAttribute lo [nameNode, value]

/-- A child in braces, after the opening one. -/
def braceChild (g : Grammar) (lo : Nat) : Reader Node := do
  if ← eatMark "\x7d" then node .container lo [Node.absent]
  else
    let spread ← eatMark "..."
    let value ← inside g.expression
    expectMark "\x7d"
    node (if spread then .spreadChild else .container) lo [value]

/-- The children of an element, up to and with the opening of its closing tag. -/
def markupChildren (g : Grammar) : Reader (List Node) := do
  let items ← iterate (fun (acc : List Node) ↦ do
    let text ← textAfterPrevious
    let raw := text.takeWhile fun c ↦ c ≠ '<' && c ≠ '\x7b'
    if !raw.isEmpty then
      let value := String.ofList (Entity.decode (raw.length + 1) raw)
      let span ← takeRaw (.text value (String.ofList raw)) raw (text.drop raw.length)
      return .inl (.node (.markupText value) span [] :: acc)
    match text with
    | '<' :: '/' :: rest =>
      let _ ← takeRaw (.mark "</") ['<', '/'] rest
      return .inr acc
    | '<' :: _ => return .inl ((← g.element) :: acc)
    | '\x7b' :: rest =>
      let span ← takeRaw (.mark "\x7b") ['\x7b'] rest
      return .inl ((← braceChild g span.lo) :: acc)
    | _ => refuse) []
  return items.reverse

/-- An element or a fragment. -/
def markupElement (g : Grammar) : Reader Node := do
  let lo ← here
  expectMark "<"
  if ← atCloseAngle then
    closeAngle
    let children ← markupChildren g
    closeAngle
    node .fragment lo children
  else
    let name ← tagName
    let arguments ← if (← setting).types && (← atMark "<") then
        pure ((← attempt (typeArguments g)).getD Node.absent)
      else pure Node.absent
    let attributes ← iterate (fun (acc : List Node) ↦ do
      if (← atMark "/") || (← atCloseAngle) then return .inr acc
      return .inl ((← tagAttribute g) :: acc)) []
    let attrs := Node.many attributes.reverse
    if ← eatMark "/" then
      closeAngle
      let opening ← node (.opening true) lo [name, attrs, arguments]
      node .element lo [opening, Node.many [], Node.absent]
    else
      closeAngle
      let opening ← node (.opening false) lo [name, attrs, arguments]
      let children ← markupChildren g
      let closeLo ← previousEnd
      let closeName ← tagName
      let same := match name.kind, closeName.kind with
        | .markupName a, .markupName b => a = b
        | _, _ => false
      require same
      closeAngle
      let closing ← node .closing (closeLo - 2) [closeName]
      node .element lo [opening, Node.many children, closing]

end Relocation.Syntax.Grammar

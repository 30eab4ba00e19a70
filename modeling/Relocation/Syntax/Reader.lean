import Relocation.Syntax.Kind
import Relocation.Syntax.Lexeme

/-!
# Reading tokens

The state in which a source is read: the current token, the text after it, and the comments met
so far. A reader answers with a value and a later state, or fails in the state that it came to.
Since states are values, another reader can be tried from where the failed one began, or reading
can go on from where it failed.

Tokens are read with one token of look-ahead. Where the meaning of a character depends on the
grammar (regular expressions, templates, markup, closing angle brackets), the current token is
read again from its start with the lexeme that the grammar asks for.
-/

namespace Relocation.Syntax

/-- Where reading stands. -/
structure Scan where
  /-- The current token. -/
  token : Token
  /-- The text from the start of the current token. -/
  atToken : List Char
  /-- The text after the current token. -/
  rest : List Char
  /-- What stands between the token before and the current one. -/
  trivia : List Trivium
  /-- The token before, if any. -/
  previous : Option TokenKind
  /-- The end of the token before. -/
  previousEnd : Nat
  /-- The text from the end of the token before. -/
  afterPrevious : List Char
  /-- Comments up to the token before. -/
  comments : Comments
  /-- The comments of readings that were given up at the end of the source. -/
  given : Comments := {}

/-- What the grammar depends on. -/
structure Setting where
  /-- Whether types may be written. -/
  types : Bool
  /-- Whether markup may be written. -/
  markup : Bool
  /-- A bound on the number of rounds of any loop: the length of the source. -/
  limit : Nat
  /-- Whether `in` is an operator here. -/
  inOperator : Bool := true
  /-- Whether `yield` is an operator here. -/
  inGenerator : Bool := false
  /-- Whether this is among the parameters of a function, where `yield` cannot be. -/
  inParameters : Bool := false
  /-- Whether `await` is an operator even before a closing bracket. -/
  inAsync : Bool := false
  /-- Whether a colon must follow the expression being read. -/
  colonFollows : Bool := false
  /-- Whether what is declared here exists elsewhere. -/
  ambient : Bool := false
  /-- Whether a conditional type may be read here. -/
  conditionalTypes : Bool := true
  /-- Whether `super` has properties here. -/
  superAllowed : Bool := false
  /-- Whether brackets behind an expression reach into it. -/
  bracketsFollow : Bool := true
  /-- Whether an `else` belongs to a conditional further out. -/
  elseTaken : Bool := false
  /-- Where an arrow function may begin: at the start of an expression without commas. -/
  arrowStart : Option Nat := none

/-- A reader of `α` from source text. -/
abbrev Reader (α : Type) := ReaderT Setting (EStateM Unit Scan) α

namespace Reader

/-- The state before a token, given what was taken before it. Before the first token a line is
taken to have ended. -/
def next (limit : Nat) (previous : Option TokenKind) (position : Nat) (text : List Char)
    (comments : Comments) : Scan :=
  let (trivia, broken, taken, atToken) := Lexeme.trivia limit previous.isNone 0 text
  let lo := position + taken
  let (kind, lexeme, rest) := Lexeme.read limit atToken
  { token := ⟨kind, ⟨lo, lo + Lexeme.byteLength lexeme⟩, broken⟩, atToken, rest, trivia, previous
    previousEnd := position, afterPrevious := text, comments }

/-- Gives each comment between two tokens to one of them. What stands before the end of the
source belongs to the last token, if there is one. -/
def attach (scan : Scan) : Comments :=
  let trailing := fun (t : Trivium) ↦
    t.isTrailing scan.previous || scan.token.kind = .ending && scan.previous.isSome
  let at_ (position : Nat) (ts : List Trivium) := ts.map fun t ↦ (position, t.comment)
  ⟨scan.comments.leading ++ at_ scan.token.span.lo (scan.trivia.filter (!trailing ·)),
    scan.comments.trailing ++ at_ scan.previousEnd (scan.trivia.filter trailing)⟩

/-- The state to read on from when a reading from it is given up. At the end of the source the
comments are given out, and what is given out stays so: they are met once more. -/
def resume (scan reached : Scan) : Scan :=
  if reached.token.kind = .ending && scan.token.kind ≠ .ending then
    { scan with given := reached.given.append (attach reached) }
  else { scan with given := reached.given }

/-- Fails. -/
def refuse {α : Type} : Reader α := throw ()

/-- The state. -/
def scan : Reader Scan := get

/-- The current token. -/
def peek : Reader Token := do return (← scan).token

/-- Takes the current token. -/
def advance : Reader Token := do
  let s ← scan
  match s.token.kind with
  | .unknown => refuse
  | .ending => set { s with comments := attach s, trivia := [] }
  | k => set { next (← read).limit (some k) s.token.span.hi s.rest (attach s) with
      given := s.given }
  return s.token

/-- Reads the current token again as another lexeme from the same place, and takes it. -/
def retake (kind : TokenKind) (lexeme rest : List Char) : Reader Span := do
  let s ← scan
  let span : Span := ⟨s.token.span.lo, s.token.span.lo + Lexeme.byteLength lexeme⟩
  set { next (← read).limit (some kind) span.hi rest (attach s) with given := s.given }
  return span

/-- Takes raw text that begins right after the token before, comments and all. -/
def takeRaw (kind : TokenKind) (lexeme rest : List Char) : Reader Span := do
  let s ← scan
  let span : Span := ⟨s.previousEnd, s.previousEnd + Lexeme.byteLength lexeme⟩
  set { next (← read).limit (some kind) span.hi rest s.comments with given := s.given }
  return span

/-- The text from the start of the current token. -/
def textHere : Reader (List Char) := do return (← scan).atToken

/-- The text from the end of the token before. -/
def textAfterPrevious : Reader (List Char) := do return (← scan).afterPrevious

/-- The start of the current token. -/
def here : Reader Nat := do return (← scan).token.span.lo

/-- The end of the token before. -/
def previousEnd : Reader Nat := do return (← scan).previousEnd

/-- The setting. -/
def setting : Reader Setting := read

/-- The bound on the rounds of a loop. -/
def limit : Reader Nat := do return (← setting).limit

/-- Reads in another setting. -/
def within {α : Type} (change : Setting → Setting) (p : Reader α) : Reader α :=
  fun c ↦ p (change c)

/-- Tries a reader; if it fails nothing is taken. -/
def attempt {α : Type} (p : Reader α) : Reader (Option α) := fun c s ↦
  match p c s with
  | .ok a s' => .ok (some a) s'
  | .error _ s' => .ok none (resume s s')

/-- Tries a reader; if it fails reading goes on from where it failed. -/
def recover {α : Type} (p : Reader α) : Reader (Option α) := fun c s ↦
  match p c s with
  | .ok a s' => .ok (some a) s'
  | .error _ s' => .ok none s'

/-- Tests whether a reader would succeed, taking nothing. -/
def wouldSucceed {α : Type} (p : Reader α) : Reader Bool := fun c s ↦
  match p c s with
  | .ok _ s' => .ok true (resume s s')
  | .error _ s' => .ok false (resume s s')

/-- Fails unless the condition holds. -/
def require (b : Bool) : Reader Unit := if b then pure () else refuse

/-- Tests whether the current token is the given operator or separator. -/
def atMark (m : String) : Reader Bool := do return (← peek).kind = .mark m

/-- Tests whether the current token is the given word, spelled plainly. -/
def atWord (w : String) : Reader Bool := do return (← peek).kind = .word w false

/-- Takes the given operator or separator if it is there. -/
def eatMark (m : String) : Reader Bool := do
  if ← atMark m then
    let _ ← advance
    return true
  return false

/-- Takes the given word if it is there. -/
def eatWord (w : String) : Reader Bool := do
  if ← atWord w then
    let _ ← advance
    return true
  return false

/-- Takes the given operator or separator. -/
def expectMark (m : String) : Reader Unit := do require (← eatMark m)

/-- Takes the given word. -/
def expectWord (w : String) : Reader Unit := do require (← eatWord w)

/-- Tests whether no comment stands between the token before and the current one. -/
def onlyBlanksBefore : Reader Bool := do return (← scan).trivia.isEmpty

/-- Whether a line ends before the current token. -/
def afterBreak : Reader Bool := do return (← peek).afterBreak

/-- The token after the current one. -/
def peekSecond : Reader Token := fun c s ↦
  match advance c s with
  | .ok _ s' => .ok s'.token s
  | .error _ _ => .ok s.token s

/-- A node from a position to the end of the token before. -/
def node (kind : Kind) (lo : Nat) (children : List Node) : Reader Node := do
  return .node kind ⟨lo, ← previousEnd⟩ children

/-- Reads while the loop asks for more, at most as often as the source has characters. -/
def loop {α : Type} (step : α → Reader (α ⊕ α)) : Nat → α → Reader α
  | 0, _ => refuse
  | n + 1, a => do
    match ← step a with
    | .inl a' => loop step n a'
    | .inr a' => return a'

/-- Repeats a step until it answers on the right. -/
def iterate {α : Type} (step : α → Reader (α ⊕ α)) (a : α) : Reader α := do
  loop step ((← limit) + 1) a

/-- Reads items until the closing mark, which it takes. -/
def untilMark {α : Type} (close : String) (item : Reader α) : Reader (List α) := do
  let items ← iterate (fun (acc : List α) ↦ do
    if ← eatMark close then return .inr acc
    return .inl ((← item) :: acc)) []
  return items.reverse

/-- Reads items until the closing mark, which it takes, or until the end of the source. -/
def untilMarkOrEnd {α : Type} (close : String) (item : Reader α) : Reader (List α) := do
  let items ← iterate (fun (acc : List α) ↦ do
    if (← eatMark close) || (← peek).kind = .ending then return .inr acc
    return .inl ((← item) :: acc)) []
  return items.reverse

/-- Reads items with commas between them until the closing mark, which it takes. A comma may
stand before the closing mark. -/
def commaList {α : Type} (close : String) (item : Reader α) : Reader (List α) := do
  let items ← iterate (fun (acc : List α) ↦ do
    if ← eatMark close then return .inr acc
    let x ← item
    if ← eatMark close then return .inr (x :: acc)
    expectMark ","
    return .inl (x :: acc)) []
  return items.reverse

/-- Reads items with commas between them up to where a list of their kind ends. A comma may
stand before the end. -/
def delimited {α : Type} (ends : Reader Bool) (item : Reader α) : Reader (List α) := do
  let items ← iterate (fun (acc : List α) ↦ do
    if ← ends then return .inr acc
    let x ← item
    if ← eatMark "," then return .inl (x :: acc)
    require (← ends)
    return .inr (x :: acc)) []
  return items.reverse

/-- Reads items with commas between them, at least one. -/
def commaSequence {α : Type} (item : Reader α) : Reader (List α) := do
  let first ← item
  let items ← iterate (fun (acc : List α) ↦ do
    if ← eatMark "," then return .inl ((← item) :: acc)
    return .inr acc) [first]
  return items.reverse

/-- Tests whether a statement may end here without a semicolon: before a closing brace, at the
end of the source, or at the start of a line. -/
def endsStatement : Reader Bool := do
  let t ← peek
  return t.kind = .mark "\x7d" || t.kind = .ending || t.afterBreak

/-- Takes the semicolon that ends a statement, or finds that none is needed. -/
def eatSemicolon : Reader Bool := do
  if ← eatMark ";" then return true
  endsStatement

/-- Ends a statement. -/
def semicolon : Reader Unit := do require (← eatSemicolon)

/-- Any word, keyword or not, as an identifier node. -/
def anyName : Reader Node := do
  let t ← peek
  match t.kind with
  | .word w _ =>
    let _ ← advance
    return .node (.identifier w false) t.span []
  | _ => refuse

/-- The name of a variable that is used: any word but the keywords. A few keywords are names
where nothing gives them a meaning. -/
def variableName (yieldAllowed : Bool) : Reader Node := do
  let t ← peek
  let c ← setting
  require <| t.kind.isPlainWord || t.kind = .word "let" false ||
    t.kind = .word "this" false && c.types ||
    t.kind = .word "yield" false && yieldAllowed ||
    t.kind = .word "await" false && c.ambient
  anyName

/-- The name of a variable that is bound. -/
def bindingName (letAllowed : Bool) : Reader Node := do
  let t ← peek
  let c ← setting
  require (letAllowed || t.kind ≠ .word "let" false)
  match t.kind with
  | .word w _ => require (!(c.inGenerator && w = "yield") && !(c.inAsync && w = "await"))
  | _ => refuse
  variableName true

/-- A quoted string. -/
def stringLiteral : Reader Node := do
  let t ← peek
  match t.kind with
  | .text value raw =>
    let _ ← advance
    return .node (.text value (some raw)) t.span []
  | _ => refuse

/-- Takes one angle bracket, also from the front of a longer operator. -/
def angle (bracket : Char) : Reader Unit := do
  match ← textHere with
  | c :: r =>
    require (c = bracket)
    let _ ← retake (.mark bracket.toString) [bracket] r
  | [] => refuse

/-- Takes one opening angle bracket. -/
def openAngle : Reader Unit := angle '<'

/-- Takes one closing angle bracket. -/
def closeAngle : Reader Unit := angle '>'

/-- Tests whether the current token begins with the given bracket. -/
def atAngle (bracket : String) : Reader Bool := do
  match (← peek).kind with
  | .mark m => return m.startsWith bracket
  | _ => return false

/-- Tests whether the current token begins with an opening angle bracket and is no comparison. -/
def atOpenAngle : Reader Bool := do return (← atMark "<") || (← atMark "<<")

/-- Tests whether the current token begins with a closing angle bracket. -/
def atCloseAngle : Reader Bool := atAngle ">"

end Reader

end Relocation.Syntax

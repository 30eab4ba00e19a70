import Relocation.Syntax.Character
import Relocation.Syntax.Token

/-!
# Lexemes

Readers of single tokens from the front of a text. Each reader answers with the lexeme it took
and the text after it, so lexeme and rest together are the text it was given.
-/

namespace Relocation.Syntax.Lexeme

open Character

/-- The number of bytes that a text takes. -/
def byteLength (cs : List Char) : Nat := cs.foldl (fun n c ↦ n + c.utf8Size) 0

/-- Reads hexadecimal digits into a number. -/
def hexNumber (cs : List Char) : Option Nat :=
  cs.foldlM (fun n c ↦ (hexValue? c).map (n * 16 + ·)) 0

/-- The code point of a Unicode escape after its backslash, with what it takes and the rest. -/
def unicodeEscape : List Char → Option (Nat × List Char × List Char)
  | 'u' :: '{' :: r =>
    let digits := r.takeWhile (· ≠ '}')
    match r.dropWhile (· ≠ '}'), digits.isEmpty, hexNumber digits with
    | '}' :: r', false, some n =>
      if n ≤ 0x10ffff then some (n, 'u' :: '{' :: digits ++ ['}'], r') else none
    | _, _, _ => none
  | 'u' :: a :: b :: c :: d :: r =>
    (hexNumber [a, b, c, d]).map fun n ↦ (n, ['u', a, b, c, d], r)
  | _ => none

/-- Code points that stand for half a character. -/
def isSurrogate (n : Nat) : Bool := 0xd800 ≤ n && n ≤ 0xdfff

/-- The longest name at the front: its spelling, its text, whether it has escapes, the rest. An
escape stands for any character but half of one. -/
def name : Nat → List Char → List Char × List Char × Bool × List Char
  | 0, cs => ([], [], false, cs)
  | limit + 1, cs =>
    let plain := cs.takeWhile isNamePart
    match cs.dropWhile isNamePart with
    | '\\' :: r =>
      match unicodeEscape r with
      | some (n, taken, r') =>
        if isSurrogate n then (plain, plain, false, '\\' :: r)
        else
          let (raw, text, _, rest) := name limit r'
          (plain ++ '\\' :: taken ++ raw, plain ++ Char.ofNat n :: text, true, rest)
      | none => (plain, plain, false, '\\' :: r)
    | rest => (plain, plain, false, rest)

/-- The value of the escape after a backslash, with what it takes and the rest. -/
def escape : List Char → Option (List Char × List Char × List Char)
  | [] => none
  | 'n' :: r => some (['\n'], ['n'], r)
  | 'r' :: r => some (['\r'], ['r'], r)
  | 't' :: r => some (['\t'], ['t'], r)
  | 'b' :: r => some (['\x08'], ['b'], r)
  | 'v' :: r => some (['\x0b'], ['v'], r)
  | 'f' :: r => some (['\x0c'], ['f'], r)
  | '\r' :: '\n' :: r => some ([], ['\r', '\n'], r)
  | 'x' :: a :: b :: r => (hexNumber [a, b]).map fun n ↦ ([Char.ofNat n], ['x', a, b], r)
  | 'x' :: _ => none
  | 'u' :: r =>
    (unicodeEscape ('u' :: r)).map fun (n, taken, r') ↦
      (if isSurrogate n then '\\' :: taken else [Char.ofNat n], taken, r')
  | c :: r =>
    if isLineTerminator c then some ([], [c], r)
    else if '0' ≤ c ∧ c ≤ '7' then
      let wide := if c ≤ '3' then 2 else 1
      let more := (r.take wide).takeWhile fun d ↦ '0' ≤ d && d ≤ '7'
      let digits := c :: more
      let n := digits.foldl (fun n d ↦ n * 8 + (d.toNat - '0'.toNat)) 0
      some ([Char.ofNat n], digits, r.drop more.length)
    else some ([c], [c], r)

/-- The text after the opening quote of a string: its spelling up to and with the closing quote,
its value, and the rest. Where the line or the source ends first, so does the string. -/
def quotedBody (quote : Char) : Nat → List Char → Option (List Char × List Char × List Char)
  | 0, cs => some ([], [], cs)
  | _, [] => some ([], [], [])
  | limit + 1, c :: r =>
    if c = quote then some ([c], [], r)
    else if c = '\\' then do
      let (value, taken, r') ← escape r
      let (raw, text, rest) ← quotedBody quote limit r'
      return ('\\' :: taken ++ raw, value ++ text, rest)
    else if c = '\n' ∨ c = '\r' then some ([], [], c :: r)
    else do
      let (raw, text, rest) ← quotedBody quote limit r
      return (c :: raw, c :: text, rest)

/-- Takes the exponent of a number, if one follows. -/
def exponent (cs : List Char) : List Char × List Char :=
  match cs with
  | e :: s :: r =>
    if e = 'e' ∨ e = 'E' then
      let signed := s = '+' ∨ s = '-'
      let tail := if signed then r else s :: r
      let digits := tail.takeWhile fun c ↦ c.isDigit || c = '_'
      if digits.isEmpty then ([], cs)
      else
        (e :: (if signed then [s] else []) ++ digits, tail.dropWhile fun c ↦ c.isDigit || c = '_')
    else ([], cs)
  | _ => ([], cs)

/-- The digits that may follow a zero and a letter that names their radix. -/
def radixDigits? (letter : Char) : Option (Char → Bool) :=
  if letter = 'x' ∨ letter = 'X' then some fun c ↦ (hexValue? c).isSome
  else if letter = 'o' ∨ letter = 'O' then some fun c ↦ '0' ≤ c && c ≤ '7'
  else if letter = 'b' ∨ letter = 'B' then some fun c ↦ c = '0' || c = '1'
  else none

/-- The number at the front, which begins with a digit or with a point and a digit. -/
def number (cs : List Char) : List Char × List Char :=
  match cs with
  | '0' :: x :: r =>
    match radixDigits? x with
    | some isDigit =>
      let body := r.takeWhile fun c ↦ isDigit c || c = '_'
      match r.drop body.length with
      | 'n' :: rest => ('0' :: x :: body ++ ['n'], rest)
      | rest => ('0' :: x :: body, rest)
    | none =>
      let digits := cs.takeWhile Char.isDigit
      if 1 < digits.length && digits.all (· ≤ '7') then (digits, cs.drop digits.length)
      else decimal cs
  | _ => decimal cs
where
  /-- A number with an optional fraction and exponent, or a big integer. -/
  decimal (cs : List Char) : List Char × List Char :=
    let isDigit (c : Char) : Bool := c.isDigit || c = '_'
    let whole := cs.takeWhile isDigit
    match cs.dropWhile isDigit with
    | '.' :: r =>
      let fraction := r.takeWhile isDigit
      let (power, rest) := exponent (r.dropWhile isDigit)
      (whole ++ '.' :: fraction ++ power, rest)
    | 'n' :: r => (whole ++ ['n'], r)
    | r =>
      let (power, rest) := exponent r
      (whole ++ power, rest)

/-- Operators and separators, longer ones before their beginnings. -/
def marks : List String :=
  [">>>=", "...", "===", "!==", "**=", "<<=", ">>=", ">>>", "&&=", "||=", "??=",
   "=>", "==", "!=", "<=", ">=", "&&", "||", "??", "?.", "++", "--", "+=", "-=", "*=", "/=", "%=",
   "&=", "|=", "^=", "<<", ">>", "**",
   "\x7b", "\x7d", "(", ")", "[", "]", ";", ",", "<", ">", "+", "-", "*", "/", "%", "&", "|", "^",
   "!", "~", "?", ":", "=", ".", "@", "\x60"]

/-- The text after a given beginning. -/
def dropFront? : List Char → List Char → Option (List Char)
  | [], cs => some cs
  | _ :: _, [] => none
  | m :: ms, c :: cs => if m = c then dropFront? ms cs else none

/-- The longest operator or separator at the front. A question mark and point before a digit
are two separators. -/
def mark (cs : List Char) : Option (String × List Char) :=
  marks.findSome? fun m ↦ do
    let rest ← dropFront? m.toList cs
    if m = "?." && (rest.head?.any Char.isDigit) then none else some (m, rest)

/-- The word at the front. A keyword cannot be spelled with escapes, except that a word whose
spelling begins with one is a name, whatever its text. -/
def word (limit : Nat) (cs : List Char) : Option (TokenKind × List Char × List Char) :=
  match name limit cs with
  | ([], _, _, _) => none
  | (raw, value, escapes, rest) =>
    let text := String.ofList value
    let begins := raw.head? = some '\\'
    if escapes && !begins && isReserved text then none
    else some (.word text (begins && isKeyword text), raw, rest)

/-- Reads the token at the front: what it is, its lexeme and the text after it. -/
def read (limit : Nat) (cs : List Char) : TokenKind × List Char × List Char :=
  match cs with
  | [] => (.ending, [], [])
  | c :: r =>
    if isNameStart c || c = '\\' then (word limit cs).getD (.unknown, [c], r)
    else if c.isDigit || (c = '.' && (r.head?.any Char.isDigit)) then
      let (raw, rest) := number cs
      if rest.head?.any isNameStart then (.unknown, raw, rest)
      else (.number (String.ofList raw), raw, rest)
    else if c = '"' || c = '\x27' then
      match quotedBody c limit r with
      | some (raw, value, rest) =>
        let lexeme := c :: raw
        (.text (String.ofList value) (String.ofList lexeme), lexeme, rest)
      | none => (.unknown, [c], r)
    else if c = '#' then
      match word limit r with
      | some (.word text _, raw, rest) => (.privateWord text, '#' :: raw, rest)
      | _ => (.unknown, [c], r)
    else
      match mark cs with
      | some (m, rest) => (.mark m, m.toList, rest)
      | none => (.unknown, [c], r)

/-- The inside of a block comment and the text after it. -/
def blockComment : List Char → Option (List Char × List Char)
  | [] => none
  | '*' :: '/' :: r => some ([], r)
  | c :: r => (blockComment r).map fun (inside, rest) ↦ (c :: inside, rest)

/-- The mark at the front that begins a comment up to the end of the line. An arrow is one only
at the start of a line. -/
def lineCommentMark? (atLineStart : Bool) : List Char → Option (List Char)
  | '/' :: '/' :: _ => some ['/', '/']
  | '<' :: '!' :: '-' :: '-' :: _ => some ['<', '!', '-', '-']
  | '-' :: '-' :: '>' :: _ => if atLineStart then some ['-', '-', '>'] else none
  | _ => none

/-- What stands between two tokens: the comments, whether a line ends, the bytes taken and the
text after it. A block comment that is never closed runs to the end of the source and is none. -/
def trivia : Nat → Bool → Nat → List Char → List Trivium × Bool × Nat × List Char
  | 0, broken, taken, cs => ([], broken, taken, cs)
  | limit + 1, broken, taken, cs =>
    let blanks := cs.takeWhile isBlank
    let broken := broken || blanks.any isLineTerminator
    let taken := taken + byteLength blanks
    let cs := cs.dropWhile isBlank
    match lineCommentMark? broken cs, cs with
    | some opening, _ =>
      let inside := (cs.drop opening.length).takeWhile (!isLineTerminator ·)
      let comment := ⟨⟨.line, String.ofList inside⟩, broken, false⟩
      let (more, rest) := trivia limit broken (taken + opening.length + byteLength inside)
        (cs.drop (opening.length + inside.length))
      (comment :: more, rest)
    | none, '/' :: '*' :: r =>
      match blockComment r with
      | none => ([], true, taken + byteLength cs, [])
      | some (inside, r') =>
        let next := (r'.dropWhile isBlank).head?
        let comment := ⟨⟨.block, String.ofList inside⟩, broken, next = some ';'⟩
        let (more, rest) := trivia limit (broken || inside.any isLineTerminator)
          (taken + 4 + byteLength inside) r'
        (comment :: more, rest)
    | _, _ => ([], broken, taken, cs)

/-- Reads a regular expression: its spelling, the same with plain flags, and the text after it. A
word right behind the closing slash is its flags. -/
def regex (limit : Nat) : List Char → Option (List Char × List Char × List Char)
  | '/' :: r => do
    let (body, rest) ← body false false r
    if rest.head?.any isNameStart then
      let (spelling, flags, _, rest) := name limit rest
      return ('/' :: body ++ spelling, '/' :: body ++ flags, rest)
    else return ('/' :: body, '/' :: body, rest)
  | _ => none
where
  /-- Reads up to the closing slash, which stands outside brackets and behind no backslash. -/
  body (inClass escaped : Bool) : List Char → Option (List Char × List Char)
    | [] => none
    | c :: r =>
      if isLineTerminator c then none
      else if escaped then (body inClass false r).map fun (b, rest) ↦ (c :: b, rest)
      else if c = '/' && !inClass then some (['/'], r)
      else
        (body (c = '[' || inClass && c ≠ ']') (c = '\\') r).map fun (b, rest) ↦ (c :: b, rest)

/-- Reads a piece of a template: its spelling, whether a substitution follows, and the text
after the closing backtick or the opening of the substitution. -/
def templatePiece (escaped : Bool) : List Char → Option (List Char × Bool × List Char)
  | [] => none
  | c :: r =>
    if escaped then (templatePiece false r).map fun (b, rest) ↦ (c :: b, rest)
    else if c = '\x60' then some ([], false, r)
    else
      match c, r with
      | '$', '{' :: r' => some ([], true, r')
      | _, _ => (templatePiece (c = '\\') r).map fun (b, rest) ↦ (c :: b, rest)

/-- Tests whether every escape in a piece of a template stands for a character. Octal escapes do
not. -/
def wellEscaped : Nat → List Char → Bool
  | 0, _ => true
  | _, [] => true
  | limit + 1, '\\' :: r =>
    match r with
    | '0' :: r' => !(r'.head?.any fun d ↦ '0' ≤ d && d ≤ '7') && wellEscaped limit r'
    | c :: _ =>
      !('1' ≤ c && c ≤ '7') && (escape r).any fun (_, _, rest) ↦ wellEscaped limit rest
    | [] => true
  | limit + 1, _ :: r => wellEscaped limit r

/-- Reads a name of a tag or an attribute, in which hyphens may stand. -/
def markupName (cs : List Char) : List Char × List Char :=
  if cs.head?.any isNameStart then
    cs.span fun c ↦ isNamePart c || c = '-'
  else ([], cs)

end Relocation.Syntax.Lexeme

import Relocation.Syntax.Tree

/-!
# Tokens and comments
-/

namespace Relocation.Syntax

/-- What a token is. -/
inductive TokenKind where
  /-- A name or keyword; `escaped` if it would be a keyword but for an escape at its front. -/
  | word (text : String) (escaped : Bool)
  /-- One word of a name of a tag or attribute, in which hyphens may stand. -/
  | markupWord (text : String)
  /-- A private name, without its hash. -/
  | privateWord (text : String)
  /-- A number or big integer. -/
  | number (raw : String)
  /-- A quoted string: its value and its spelling. -/
  | text (value raw : String)
  /-- An operator or separator. -/
  | mark (text : String)
  /-- The end of the source. -/
  | ending
  /-- Text that starts no token. -/
  | unknown
  deriving DecidableEq, Inhabited, Repr

/-- A token in its place. -/
structure Token where
  kind : TokenKind
  span : Span
  /-- Whether a line ends between the token before and this one. -/
  afterBreak : Bool
  deriving Inhabited, Repr

/-- The two ways to write a comment. -/
inductive CommentStyle where
  | line
  | block
  deriving DecidableEq, Repr

/-- A comment, without its marks. -/
structure Comment where
  style : CommentStyle
  text : String
  deriving Repr

/-- A comment as met between two tokens. -/
structure Trivium where
  comment : Comment
  /-- Whether a line ended before it. -/
  afterBreak : Bool
  /-- Whether the next token is a semicolon, blanks aside. -/
  beforeSemicolon : Bool
  deriving Repr

/-- Words of the language, which name no variable but in a few places. -/
def keywords : List String :=
  ["await", "break", "case", "catch", "class", "const", "continue", "debugger", "default",
   "delete", "do", "else", "export", "extends", "finally", "for", "function", "if", "import",
   "in", "instanceof", "let", "new", "return", "super", "switch", "this", "throw", "try",
   "typeof", "var", "void", "while", "with", "yield"]

/-- Words that are values by themselves. -/
def valueWords : List String := ["null", "true", "false"]

/-- Words that are set aside for later versions of the language. -/
def futureWords : List String :=
  ["enum", "implements", "interface", "package", "private", "protected", "public"]

/-- Tests whether a word is a keyword or a value. -/
def isKeyword (word : String) : Bool := keywords.contains word || valueWords.contains word

/-- Tests whether a word may not name a variable. -/
def isReserved (word : String) : Bool := isKeyword word || futureWords.contains word

namespace TokenKind

/-- Operator marks with two operands: a line comment after one belongs to what follows. -/
def isBinaryOperator : TokenKind → Bool
  | mark s => ["==", "!=", "===", "!==", "<", "<=", ">", ">=", "<<", ">>", ">>>", "+", "-", "*",
      "/", "%", "|", "^", "&", "||", "&&", "**", "??"].contains s
  | _ => false

/-- Tests whether the token is a word that may name a variable. -/
def isName : TokenKind → Bool
  | word w escaped => escaped || !isReserved w
  | _ => false

/-- Tests whether the token is a word of any kind. -/
def isWord : TokenKind → Bool
  | word _ _ => true
  | _ => false

/-- Tests whether the token is a word other than the keywords and values. -/
def isPlainWord : TokenKind → Bool
  | word w escaped => escaped || !isKeyword w
  | _ => false

/-- Tests whether the token is a quoted string. -/
def isText : TokenKind → Bool
  | text _ _ => true
  | _ => false

/-- Tokens after which a block comment on the same line belongs to them. -/
def keepsBlockComment : TokenKind → Bool
  | word w escaped => escaped || !isKeyword w
  | number _ | text _ _ => true
  | mark s => [";", "\x7b", "\x7d"].contains s || s.startsWith "/" && 1 < s.length ||
      s.startsWith "$"
  | _ => false

end TokenKind

/-- Comments by the position that they belong to. -/
structure Comments where
  /-- Comments before the token that starts at a position. -/
  leading : List (Nat × Comment) := []
  /-- Comments after the token that ends at a position. -/
  trailing : List (Nat × Comment) := []
  deriving Inhabited, Repr

/-- The comments of one source and then of another. -/
def Comments.append (first second : Comments) : Comments :=
  ⟨first.leading ++ second.leading, first.trailing ++ second.trailing⟩

namespace Trivium

/-- Tests whether the comment belongs to the token before it rather than to the next one. -/
def isTrailing (t : Trivium) (previous : Option TokenKind) : Bool :=
  previous.any fun k ↦
    match t.comment.style with
    | .line => !t.afterBreak && !k.isBinaryOperator
    | .block => t.beforeSemicolon || !t.afterBreak && k.keepsBlockComment

end Trivium

end Relocation.Syntax

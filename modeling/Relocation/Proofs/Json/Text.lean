import Mathlib.Data.List.Forall2
import Relocation.Json.Record

/-!
# What JSON texts mean

The grammar of JSON, given without a reader: how strings are written, which texts are values, and
which of them are values of a type. Only strings are given a meaning where any value may stand,
and a string without meaning may still be written there: one half of a surrogate pair is no
character, but as an escape it is as good as another.
-/

namespace Relocation.Json

/-! ### Blanks and lists -/

/-- White space between the parts of a text. -/
def Blanks (cs : List Char) : Prop := ∀ c ∈ cs, c = ' ' ∨ c = '\n' ∨ c = '\t' ∨ c = '\r'

instance : DecidablePred Blanks := fun cs ↦ List.decidableBAll _ cs

/-- Where nothing stands, there are only blanks. -/
theorem blanks_nil : Blanks [] := List.forall_mem_nil _

/-- What stands in front of an item of a list: blanks in front of the first one, and a comma
among blanks in front of every other one. -/
inductive Leads : Bool → List Char → Prop where
  | first {bs : List Char} (hb : Blanks bs) : Leads true bs
  | comma {as bs : List Char} (ha : Blanks as) (hb : Blanks bs) : Leads false (as ++ ',' :: bs)

/-- The items of a list with what stands between and around them, from the first one on or
behind another one. -/
inductive Listed : Bool → List (List Char) → List Char → Prop where
  | done {first : Bool} {bs : List Char} (hb : Blanks bs) : Listed first [] bs
  | item {first : Bool} {lead item rest : List Char} {items : List (List Char)}
      (hl : Leads first lead) (h : Listed false items rest) :
      Listed first (item :: items) (lead ++ (item ++ rest))

/-- A list of one item is written as the item. -/
theorem listed_singleton (item : List Char) : Listed true [item] item := by
  simpa using Listed.item (.first blanks_nil) (.done blanks_nil)

/-! ### Strings -/

/-- A hexadecimal digit, in lower or upper case, and its value. -/
def HexDigit (c : Char) (n : Nat) : Prop :=
  n < 16 ∧ (c = Nat.digitChar n ∨ c = (Nat.digitChar n).toUpper)

/-- Four hexadecimal digits and the number that they write. -/
inductive HexCode : List Char → Nat → Prop where
  | digits {a b c d : Char} {i j k l : Nat} (ha : HexDigit a i) (hb : HexDigit b j)
      (hc : HexDigit c k) (hd : HexDigit d l) :
      HexCode [a, b, c, d] (((i * 16 + j) * 16 + k) * 16 + l)

/-- The letters that are escaped with a backslash, and what they stand for then. -/
def shortEscapes : List (Char × Char) :=
  [('"', '"'), ('\\', '\\'), ('/', '/'), ('b', '\x08'), ('f', '\x0c'), ('n', '\n'),
    ('r', '\r'), ('t', '\t')]

/-- A character that stands for itself in a string. -/
def IsPlain (c : Char) : Prop := c ≠ '"' ∧ c ≠ '\\' ∧ 0x20 ≤ c.toNat

instance : DecidablePred IsPlain := fun _ ↦ inferInstanceAs (Decidable (_ ∧ _ ∧ _))

/-- The ways to write a character in a string. -/
inductive Letter : List Char → Char → Prop where
  | plain {c : Char} (hc : IsPlain c) : Letter [c] c
  | short {e c : Char} (h : (e, c) ∈ shortEscapes) : Letter ['\\', e] c
  | code {w : List Char} {c : Char} (h : HexCode w c.toNat) : Letter ('\\' :: 'u' :: w) c
  /-- A surrogate pair. -/
  | pair {v w : List Char} {c : Char} {m n : Nat} (hv : HexCode v (0xd800 + m))
      (hw : HexCode w (0xdc00 + n)) (hm : m < 1024) (hn : n < 1024)
      (hc : c.toNat = m * 1024 + n + 0x10000) :
      Letter ('\\' :: 'u' :: (v ++ '\\' :: 'u' :: w)) c

/-- A text between quotes. -/
def quote (body : List Char) : List Char := '"' :: (body ++ ['"'])

/-- The ways to write a string. -/
def StringText (text : List Char) (s : String) : Prop :=
  ∃ letters, List.Forall₂ Letter letters s.toList ∧ text = quote letters.flatten

/-- A string without characters that have to be escaped is written as it is. -/
theorem stringText_quote {s : String} (h : s.toList.all IsPlain) :
    StringText (quote s.toList) s := by
  have h : ∀ c ∈ s.toList, IsPlain c := by simpa using h
  refine ⟨s.toList.map fun c ↦ [c], ?_, ?_⟩
  · rw [List.forall₂_map_left_iff, List.forall₂_same]
    exact fun c hc ↦ .plain (h c hc)
  · rw [← List.flatMap_def, List.flatMap_singleton']

/-- What may stand in a string, whether or not it means a character. -/
inductive IsLetter : List Char → Prop where
  | plain {c : Char} (hc : IsPlain c) : IsLetter [c]
  | short {e c : Char} (h : (e, c) ∈ shortEscapes) : IsLetter ['\\', e]
  | code {w : List Char} {n : Nat} (h : HexCode w n) : IsLetter ('\\' :: 'u' :: w)

/-- A string, whether or not it means a text. -/
def IsString (text : List Char) : Prop :=
  ∃ letters : List (List Char), (∀ w ∈ letters, IsLetter w) ∧ text = quote letters.flatten

/-! ### Numbers -/

/-- Digits, of which there may be none. -/
def Digits (cs : List Char) : Prop := ∀ c ∈ cs, c.isDigit

/-- The digits in front of the point: no superfluous zero begins them. -/
inductive IsInteger : List Char → Prop where
  | zero : IsInteger ['0']
  | other {c : Char} {cs : List Char} (hc : c.isDigit) (h0 : c ≠ '0') (hcs : Digits cs) :
      IsInteger (c :: cs)

/-- A point with the digits behind it, or nothing. -/
inductive IsFraction : List Char → Prop where
  | none : IsFraction []
  | some {c : Char} {cs : List Char} (hc : c.isDigit) (hcs : Digits cs) :
      IsFraction ('.' :: c :: cs)

/-- An exponent, or nothing. -/
inductive IsExponent : List Char → Prop where
  | none : IsExponent []
  | some {e c : Char} {sign cs : List Char} (he : e = 'e' ∨ e = 'E')
      (hs : sign = [] ∨ sign = ['+'] ∨ sign = ['-']) (hc : c.isDigit) (hcs : Digits cs) :
      IsExponent (e :: (sign ++ c :: cs))

/-- A number. -/
inductive IsNumber : List Char → Prop where
  | intro {sign is fs es : List Char} (hs : sign = [] ∨ sign = ['-']) (hi : IsInteger is)
      (hf : IsFraction fs) (he : IsExponent es) : IsNumber (sign ++ (is ++ (fs ++ es)))

/-! ### Values -/

/-- The words that are values. -/
def words : List (List Char) := [['n', 'u', 'l', 'l'], ['t', 'r', 'u', 'e'],
  ['f', 'a', 'l', 's', 'e']]

/-- A name with a value, as a member of an object is written. -/
inductive MemberText (name value : List Char) : List Char → Prop where
  | intro {as bs : List Char} (ha : Blanks as) (hb : Blanks bs) :
      MemberText name value (name ++ (as ++ ':' :: (bs ++ value)))

/-- A value. -/
inductive IsValue : List Char → Prop where
  | word {w : List Char} (h : w ∈ words) : IsValue w
  | number {w : List Char} (h : IsNumber w) : IsValue w
  | string {w : List Char} (h : IsString w) : IsValue w
  | array {items : List (List Char)} {cs : List Char} (h : ∀ v ∈ items, IsValue v)
      (hl : Listed true items cs) : IsValue ('[' :: (cs ++ [']']))
  | object {members : List (List Char × List Char)} {items : List (List Char)} {cs : List Char}
      (hn : ∀ m ∈ members, IsString m.1) (h : ∀ m ∈ members, IsValue m.2)
      (hm : List.Forall₂ (fun m ↦ MemberText m.1 m.2) members items)
      (hl : Listed true items cs) : IsValue ('\x7b' :: (cs ++ ['\x7d']))

/-- The ways to write a value of a type. -/
inductive ValueText : MemberType → List Char → MemberValue → Prop where
  | string {w : List Char} {s : String} (h : StringText w s) : ValueText .string w (.string s)
  | null : ValueText .optionalString ['n', 'u', 'l', 'l'] .none
  | optional {w : List Char} {s : String} (h : StringText w s) :
      ValueText .optionalString w (.string s)
  | strings {items : List (List Char)} {ss : List String} {cs : List Char}
      (hi : List.Forall₂ StringText items ss) (hl : Listed true items cs) :
      ValueText .strings ('[' :: (cs ++ [']'])) (.strings ss)
  | true : ValueText .flag ['t', 'r', 'u', 'e'] (.flag true)
  | false : ValueText .flag ['f', 'a', 'l', 's', 'e'] (.flag false)
  | variant {names : List String} {w : List Char} {s : String} (h : StringText w s)
      (hs : s ∈ names) : ValueText (.variant names) w (.string s)

/-- The ways to write an object, given its members' names and the texts of their values. -/
inductive ObjectText (members : List (String × List Char)) : List Char → Prop where
  | intro {items : List (List Char)} {as cs bs : List Char} (ha : Blanks as) (hb : Blanks bs)
      (hm : List.Forall₂ (fun m item ↦ ∃ name, StringText name m.1 ∧ MemberText name m.2 item)
        members items)
      (hl : Listed true items cs) : ObjectText members (as ++ '\x7b' :: (cs ++ '\x7d' :: bs))

end Relocation.Json

import Relocation.Proofs.Json.Text
import Relocation.Proofs.Text.Utf8

/-!
# What readers take

A reader that succeeds takes the front of what is left of a text. The readers of white space, of
words and of what stands between the parts of a text are described here once; every other
reader is put together from them.
-/

namespace Relocation.Json

open Text.Utf8 (encode)

/-! ### Bytes of characters -/

/-- The bytes of characters. -/
def bytesOf (cs : List Char) : List UInt8 := cs.flatMap String.utf8EncodeChar

/-- The bytes of the characters of a text are those of the text. -/
theorem bytesOf_toList (s : String) : bytesOf s.toList = encode s :=
  (Text.Utf8.encode_eq_flatMap s).symm

/-- No characters have no bytes. -/
@[simp] theorem bytesOf_nil : bytesOf [] = [] := rfl

/-- The bytes of the first character stand in front of those of the others. -/
theorem bytesOf_cons (c : Char) (cs : List Char) :
    bytesOf (c :: cs) = String.utf8EncodeChar c ++ bytesOf cs := List.flatMap_cons

/-- The bytes of characters put together are put together. -/
@[simp] theorem bytesOf_append (as bs : List Char) :
    bytesOf (as ++ bs) = bytesOf as ++ bytesOf bs := List.flatMap_append

/-- An ASCII character is one byte. -/
theorem encodeChar_of_lt {c : Char} (hc : c.toNat < 0x80) :
    String.utf8EncodeChar c = [byteOf c] := by
  have hs : c.utf8Size = 1 := by
    rw [Char.utf8Size_eq_one_iff, UInt32.le_iff_toNat_le]
    exact Nat.le_of_lt_succ hc
  exact String.utf8EncodeChar_eq_singleton hs

/-- An ASCII character is one byte. -/
@[simp] theorem bytesOf_cons_of_lt {c : Char} (hc : c.toNat < 0x80) (cs : List Char) :
    bytesOf (c :: cs) = byteOf c :: bytesOf cs := by
  rw [bytesOf_cons, encodeChar_of_lt hc]
  rfl

/-- Between two ASCII characters the bytes stand between two bytes. -/
theorem bytesOf_enclosed {l r : Char} (hl : l.toNat < 0x80) (hr : r.toNat < 0x80)
    (cs : List Char) : bytesOf (l :: (cs ++ [r])) = byteOf l :: (bytesOf cs ++ [byteOf r]) := by
  rw [bytesOf_cons_of_lt hl, bytesOf_append, bytesOf_cons_of_lt hr, bytesOf_nil]

/-- The byte of an ASCII character has its number. -/
theorem toNat_byteOf {c : Char} (hc : c.toNat < 0x80) : (byteOf c).toNat = c.toNat := by
  rw [byteOf, Nat.toUInt8_eq, UInt8.toNat_ofNat']
  omega

/-- A byte below 128 is that of an ASCII character. -/
theorem toNat_of_mem_encodeChar {c : Char} {b : UInt8} (hb : b.toNat < 0x80)
    (h : b ∈ String.utf8EncodeChar c) : c.toNat = b.toNat := by
  have hs := Text.Utf8.spells_encodeChar c
  rw [Text.Utf8.encodeChar_of_mem hb h] at hs
  generalize hv : c.val.toNat = v at hs
  cases hs with
  | single => exact hv
  | several hn => exact absurd (UInt8.lt_iff_toNat_lt.mpr hb) hn

/-! ### Readers -/

/-- The reader answers with `a`, and takes what was left from `before` to `after`. -/
def Reads {α : Type} (r : Reading α) (before : List UInt8) (a : α) (after : List UInt8) : Prop :=
  ∀ c : Cursor, c.rest = before → ∃ c' : Cursor, r.run c = (.ok a, c') ∧ c'.rest = after

section
variable {α β : Type} {r : Reading α} {before mid after : List UInt8} {a : α} {d : β}

/-- Readers one after the other take what both take. -/
theorem Reads.bind {f : α → Reading β} (hr : Reads r before a mid)
    (hf : Reads (f a) mid d after) : Reads (r >>= f) before d after := by
  intro c hc
  obtain ⟨c', hr', hc'⟩ := hr c hc
  obtain ⟨c'', hf', hc''⟩ := hf c' hc'
  refine ⟨c'', ?_, hc''⟩
  rw [ExceptT.run_bind]
  show (StateT.bind r.run _ : StateT Cursor Id _) c = _
  unfold StateT.bind
  rw [hr']
  exact hf'

/-- The state may be looked at: it is one with the bytes that are left. -/
theorem Reads.get {f : Cursor → Reading α}
    (h : ∀ c : Cursor, c.rest = before → Reads (f c) before a after) :
    Reads (get >>= f) before a after :=
  fun c hc ↦ h c hc c hc

/-- A handler of errors does nothing where there is none. -/
theorem Reads.tryCatch {handle : Error → Reading α} (hr : Reads r before a after) :
    Reads (tryCatch r handle) before a after := by
  intro c hc
  obtain ⟨c', hr', hc'⟩ := hr c hc
  refine ⟨c', ?_, hc'⟩
  unfold ExceptT.run at hr' ⊢
  simp only [MonadExcept.tryCatch, tryCatchThe, MonadExceptOf.tryCatch, ExceptT.tryCatch,
    ExceptT.mk, Bind.bind, StateT.bind]
  rw [hr']
  rfl

end

/-- A reader that answers at once takes nothing. -/
theorem reads_pure {α : Type} (a : α) (bs : List UInt8) : Reads (pure a) bs a bs :=
  fun c hc ↦ ⟨c, rfl, hc⟩

private theorem Cursor.rest_advance (c : Cursor) : c.advance.rest = c.rest.tail := by
  unfold advance
  split
  · next h => simp [h]
  · next h =>
    rw [h]
    split <;> rfl

namespace Reading

/-- Looking ahead takes nothing. -/
theorem reads_peek (bs : List UInt8) : Reads peek bs bs.head? bs := by
  rintro c rfl
  exact ⟨{ c with looked := !c.rest.isEmpty }, rfl, rfl⟩

/-- The next byte is taken. -/
theorem reads_next (b : UInt8) (bs : List UInt8) : Reads next (b :: bs) (some b) bs := by
  intro c hc
  refine ⟨c.advance, ?_, by rw [c.rest_advance, hc, List.tail_cons]⟩
  show (Except.ok c.rest.head?, c.advance) = _
  rw [hc, List.head?_cons]

/-- A byte that is discarded is taken. -/
theorem reads_discard (b : UInt8) (bs : List UInt8) : Reads discard (b :: bs) () bs :=
  fun c hc ↦ ⟨c.advance, rfl, by rw [c.rest_advance, hc, List.tail_cons]⟩

/-- The bound on steps exceeds what is left by one. -/
theorem reads_bound (bs : List UInt8) : Reads bound bs (bs.length + 1) bs := by
  rintro c rfl
  exact ⟨c, rfl, rfl⟩

/-- All bytes of a kind are taken, up to the first of another kind. -/
theorem reads_skipWhile {kind : UInt8 → Bool} {as bs : List UInt8} {n : Nat}
    (ha : ∀ a ∈ as, kind a) (hb : ∀ b ∈ bs.head?, kind b = false) (hn : as.length ≤ n) :
    Reads (skipWhile kind n) (as ++ bs) () bs := by
  induction n generalizing as with
  | zero =>
    obtain rfl := List.eq_nil_of_length_eq_zero (Nat.le_zero.mp hn)
    exact reads_pure () bs
  | succ n ih =>
    refine (reads_peek _).bind ?_
    cases as with
    | nil =>
      cases bs with
      | nil => exact reads_pure () []
      | cons b bs =>
        have hk : kind b = false := hb b rfl
        simp only [List.nil_append, List.head?_cons, hk]
        exact reads_pure () _
    | cons a as =>
      rw [List.forall_mem_cons] at ha
      simp only [List.cons_append, List.head?_cons, ha.1]
      exact (reads_discard a _).bind (ih ha.2 (Nat.le_of_succ_le_succ hn))

/-- The bytes of blanks are white space. -/
theorem isSpace_of_mem {cs : List Char} (h : Blanks cs) : ∀ b ∈ bytesOf cs, isSpace b := by
  have hblank : ∀ c : Char, c = ' ' ∨ c = '\n' ∨ c = '\t' ∨ c = '\r' →
      c.toNat < 0x80 ∧ isSpace (byteOf c) := by
    rintro c (rfl | rfl | rfl | rfl) <;> decide
  intro b hb
  obtain ⟨c, hc, hb⟩ := List.mem_flatMap.mp hb
  obtain ⟨hl, hs⟩ := hblank c (h c hc)
  rw [encodeChar_of_lt hl, List.mem_singleton] at hb
  rwa [hb]

/-- White space is a blank, a line feed, a tab or a carriage return. -/
theorem eq_of_isSpace {b : UInt8} (h : isSpace b) : b = 32 ∨ b = 10 ∨ b = 9 ∨ b = 13 := by
  simpa only [isSpace, Bool.or_eq_true, decide_eq_true_eq, or_assoc] using h

/-- Blanks are taken up to what is none. -/
theorem reads_afterSpace {cs : List Char} {bs : List UInt8} (h : Blanks cs)
    (hb : ∀ b ∈ bs.head?, isSpace b = false) :
    Reads afterSpace (bytesOf cs ++ bs) bs.head? bs := by
  refine (reads_bound _).bind ?_
  refine (reads_skipWhile (isSpace_of_mem h) hb ?_).bind (reads_peek bs)
  rw [List.length_append]
  omega

variable {cs : List Char} {b : UInt8} {bs : List UInt8}

/-- Blanks are taken up to a byte that is none. -/
theorem reads_afterSpace_cons (h : Blanks cs) (hb : isSpace b = false) :
    Reads afterSpace (bytesOf cs ++ b :: bs) (some b) (b :: bs) :=
  reads_afterSpace h (by simpa using hb)

/-- The beginning of a value is found behind blanks. -/
theorem reads_beginning (h : Blanks cs) (hb : isSpace b = false) :
    Reads beginning (bytesOf cs ++ b :: bs) b (b :: bs) :=
  (reads_afterSpace_cons h hb).bind (reads_pure b _)

/-- A colon is taken with the blanks in front of it. -/
theorem reads_colon (h : Blanks cs) :
    Reads colon (bytesOf cs ++ byteOf ':' :: bs) () bs :=
  (reads_afterSpace_cons h rfl).bind (reads_discard _ bs)

/-- The end of an array is taken with the blanks in front of it. -/
theorem reads_endArray (h : Blanks cs) :
    Reads endArray (bytesOf cs ++ byteOf ']' :: bs) () bs :=
  (reads_afterSpace_cons h rfl).bind (reads_discard _ bs)

/-- The end of an object is taken with the blanks in front of it. -/
theorem reads_endObject (h : Blanks cs) :
    Reads endObject (bytesOf cs ++ byteOf '\x7d' :: bs) () bs :=
  (reads_afterSpace_cons h rfl).bind (reads_discard _ bs)

/-- A word is taken byte by byte. -/
theorem reads_word {w : List Char} (hw : w.all (·.toNat < 0x80)) :
    Reads (word w) (bytesOf w ++ bs) () bs := by
  induction w with
  | nil => exact reads_pure () bs
  | cons c w ih =>
    rw [List.all_cons, Bool.and_eq_true, decide_eq_true_eq] at hw
    rw [bytesOf_cons_of_lt hw.1]
    refine (reads_next _ _).bind ?_
    simp only [if_pos]
    exact ih hw.2

/-! ### The next item of a list -/

variable {first : Bool} {lead : List Char}

/-- Another element is there if one begins behind what stands in front of it. -/
theorem reads_hasElement (hl : Leads first lead) (hb : isSpace b = false)
    (he : b ≠ byteOf ']') : Reads (hasElement first) (bytesOf lead ++ b :: bs) true (b :: bs) := by
  cases hl with
  | first h =>
    refine (reads_afterSpace_cons h hb).bind ?_
    simp only [if_neg he]
    exact reads_pure true _
  | comma h h' =>
    rw [bytesOf_append, List.append_assoc, bytesOf_cons_of_lt (by decide)]
    refine (reads_afterSpace_cons h rfl).bind ?_
    refine (reads_discard _ _).bind ((reads_afterSpace_cons h' hb).bind ?_)
    simp only [if_neg he]
    exact reads_pure true _

/-- No other element is there if the array ends behind blanks. -/
theorem reads_hasElement_done (h : Blanks cs) :
    Reads (hasElement first) (bytesOf cs ++ byteOf ']' :: bs) false (byteOf ']' :: bs) :=
  (reads_afterSpace_cons h rfl).bind (reads_pure false _)

/-- Another member is there if its name begins behind what stands in front of it. -/
theorem reads_hasKey (hl : Leads first lead) :
    Reads (hasKey first) (bytesOf lead ++ byteOf '"' :: bs) true (byteOf '"' :: bs) := by
  cases hl with
  | first h => exact (reads_afterSpace_cons h rfl).bind (reads_pure true _)
  | comma h h' =>
    rw [bytesOf_append, List.append_assoc, bytesOf_cons_of_lt (by decide)]
    refine (reads_afterSpace_cons h rfl).bind ?_
    exact (reads_discard _ _).bind ((reads_afterSpace_cons h' rfl).bind (reads_pure true _))

/-- No other member is there if the object ends behind blanks. -/
theorem reads_hasKey_done (h : Blanks cs) :
    Reads (hasKey first) (bytesOf cs ++ byteOf '\x7d' :: bs) false (byteOf '\x7d' :: bs) :=
  (reads_afterSpace_cons h rfl).bind (reads_pure false _)

end Reading

end Relocation.Json

import Relocation.Proofs.Json.Reads

/-!
# Strings of JSON texts

A string is read as what it says, however its characters are written, and it is taken whole where
it need not say anything. A character that stands for itself may have several bytes; none of them
is mistaken for a quote, a backslash or a control character.
-/

namespace Relocation.Json.Reading

variable {bs : List UInt8}

/-! ### Escapes -/

private theorem reads_stringByte (b : UInt8) (bs : List UInt8) : Reads stringByte (b :: bs) b bs :=
  (reads_next b bs).bind (reads_pure b bs)

private theorem reads_stringPeek (b : UInt8) (bs : List UInt8) :
    Reads stringPeek (b :: bs) b (b :: bs) :=
  (reads_peek (b :: bs)).bind (reads_pure b _)

private theorem hexValue?_of_hexDigit {c : Char} {n : Nat} (h : HexDigit c n) :
    c.toNat < 0x80 ∧ hexValue? (byteOf c) = some n := by
  have hlower : ∀ n < 16, (Nat.digitChar n).toNat < 0x80 ∧
      hexValue? (byteOf (Nat.digitChar n)) = some n := by decide
  have hupper : ∀ n < 16, (Nat.digitChar n).toUpper.toNat < 0x80 ∧
      hexValue? (byteOf (Nat.digitChar n).toUpper) = some n := by decide
  obtain ⟨hn, rfl | rfl⟩ := h
  · exact hlower n hn
  · exact hupper n hn

private theorem reads_hexEscape {w : List Char} {n : Nat} (h : HexCode w n) :
    Reads hexEscape (bytesOf w ++ bs) n bs := by
  obtain ⟨ha, hb, hc, hd⟩ := h
  obtain ⟨la, ha⟩ := hexValue?_of_hexDigit ha
  obtain ⟨lb, hb⟩ := hexValue?_of_hexDigit hb
  obtain ⟨lc, hc⟩ := hexValue?_of_hexDigit hc
  obtain ⟨ld, hd⟩ := hexValue?_of_hexDigit hd
  rw [bytesOf_cons_of_lt la, bytesOf_cons_of_lt lb, bytesOf_cons_of_lt lc, bytesOf_cons_of_lt ld]
  refine Reads.get fun c hr ↦ ?_
  have hl : (!c.streamed && decide (c.rest.length < 4)) = false := by simp [hr]
  simp only [hl]
  refine (reads_stringByte _ _).bind ((reads_stringByte _ _).bind ?_)
  refine (reads_stringByte _ _).bind ((reads_stringByte _ _).bind ?_)
  simp only [ha, hb, hc, hd]
  exact reads_pure _ bs

/-- The bytes of a code point that is a character's. -/
theorem codePointBytes_toNat (c : Char) : codePointBytes c.toNat = String.utf8EncodeChar c := by
  rw [codePointBytes, Char.ofNat_toNat, Text.Utf8.encode_eq_flatMap, String.toList_singleton]
  exact List.flatMap_singleton _ _

/-- The code of a character is none of a half of a surrogate pair. -/
theorem reads_unicodeEscape_code {w : List Char} {c : Char} (h : HexCode w c.toNat) :
    Reads unicodeEscape (bytesOf w ++ bs) (String.utf8EncodeChar c) bs := by
  have hv : c.toNat < 0xd800 ∨ 0xdfff < c.toNat := c.valid.imp id And.left
  have hlow : ¬(0xdc00 ≤ c.toNat ∧ c.toNat ≤ 0xdfff) := by omega
  have hhigh : c.toNat < 0xd800 ∨ 0xdbff < c.toNat := by omega
  refine (reads_hexEscape h).bind ?_
  simp only [Bool.and_eq_true, Bool.or_eq_true, decide_eq_true_eq, if_neg hlow, if_pos hhigh,
    codePointBytes_toNat]
  exact reads_pure _ bs

private theorem reads_unicodeEscape_pair {v w : List Char} {c : Char} {m n : Nat}
    (hv : HexCode v (0xd800 + m)) (hw : HexCode w (0xdc00 + n)) (hm : m < 1024) (hn : n < 1024)
    (hc : c.toNat = m * 1024 + n + 0x10000) :
    Reads unicodeEscape (bytesOf (v ++ '\\' :: 'u' :: w) ++ bs) (String.utf8EncodeChar c) bs := by
  have hlow : ¬(0xdc00 ≤ 0xd800 + m ∧ 0xd800 + m ≤ 0xdfff) := by omega
  have hhigh : ¬(0xd800 + m < 0xd800 ∨ 0xdbff < 0xd800 + m) := by omega
  have hsecond : ¬(0xdc00 + n < 0xdc00 ∨ 0xdfff < 0xdc00 + n) := by omega
  have hcode : (0xd800 + m - 0xd800) * 1024 + (0xdc00 + n - 0xdc00) + 0x10000 = c.toNat := by
    omega
  rw [bytesOf_append, bytesOf_cons_of_lt (by decide), bytesOf_cons_of_lt (by decide),
    List.append_assoc]
  refine (reads_hexEscape hv).bind ?_
  simp only [Bool.and_eq_true, Bool.or_eq_true, decide_eq_true_eq, if_neg hlow, if_neg hhigh]
  refine (reads_stringPeek _ _).bind ((reads_discard _ _).bind ?_)
  refine (reads_stringPeek _ _).bind ((reads_discard _ _).bind ?_)
  refine (reads_hexEscape hw).bind ?_
  simp only [if_neg hsecond, hcode, codePointBytes_toNat]
  exact reads_pure _ bs

/-- What a letter stands for behind a backslash. -/
theorem simpleEscape?_of_mem {e c : Char} (h : (e, c) ∈ shortEscapes) :
    e.toNat < 0x80 ∧ simpleEscape? (byteOf e) = some (byteOf c) ∧
      String.utf8EncodeChar c = [byteOf c] := by
  simp only [shortEscapes, List.mem_cons, Prod.mk.injEq, List.not_mem_nil, or_false] at h
  obtain ⟨rfl, rfl⟩ | ⟨rfl, rfl⟩ | ⟨rfl, rfl⟩ | ⟨rfl, rfl⟩ | ⟨rfl, rfl⟩ | ⟨rfl, rfl⟩ |
    ⟨rfl, rfl⟩ | ⟨rfl, rfl⟩ := h <;> decide

private theorem reads_escape_short {e c : Char} (h : (e, c) ∈ shortEscapes) :
    Reads escape (bytesOf [e] ++ bs) (String.utf8EncodeChar c) bs := by
  obtain ⟨he, hs, hc⟩ := simpleEscape?_of_mem h
  rw [bytesOf_cons_of_lt he, hc]
  refine (reads_stringByte _ _).bind ?_
  simp only [hs]
  exact reads_pure _ bs

/-- Behind the letter of a Unicode escape its digits are read. -/
theorem reads_escape_unicode {as out : List UInt8} (h : Reads unicodeEscape as out bs) :
    Reads escape (byteOf 'u' :: as) out bs :=
  (reads_stringByte _ _).bind h

/-! ### The body of a string

A string is read in as many steps as it has bytes, at most. What is said about a part of it leaves
the steps that the part does not need to what follows. -/

/-- A byte that stands for itself in a string. -/
def IsPlainByte (b : UInt8) : Prop := b ≠ byteOf '"' ∧ b ≠ byteOf '\\' ∧ ¬b < 32

/-- A character that stands for itself is written with bytes that do. -/
theorem isPlainByte_of_mem {c : Char} (hc : IsPlain c) {b : UInt8}
    (hb : b ∈ String.utf8EncodeChar c) : IsPlainByte b := by
  obtain ⟨hquote, hbackslash, hcontrol⟩ := hc
  refine ⟨?_, ?_, fun hlt ↦ ?_⟩
  · rintro rfl
    exact hquote (Char.toNat_inj.mp (toNat_of_mem_encodeChar (by decide) hb))
  · rintro rfl
    exact hbackslash (Char.toNat_inj.mp (toNat_of_mem_encodeChar (by decide) hb))
  · have hlt : b.toNat < 32 := UInt8.lt_iff_toNat_lt.mp hlt
    have he := toNat_of_mem_encodeChar (by omega) hb
    omega

/-- A reader that takes one plain byte takes as many as there are. What it keeps of them is in
its second argument. -/
theorem reads_plainBytes {α : Type} (r : Nat → List UInt8 → Reading α) {rest : List UInt8}
    {out : α} (hr : ∀ n acc b as, IsPlainByte b → Reads (r n (b :: acc)) as out bs →
      Reads (r (n + 1) acc) (b :: as) out bs)
    {as : List UInt8} (ha : ∀ a ∈ as, IsPlainByte a) {n : Nat} (acc : List UInt8)
    (hn : as.length ≤ n)
    (h : ∀ m, n ≤ m + as.length → Reads (r m (as.reverse ++ acc)) rest out bs) :
    Reads (r n acc) (as ++ rest) out bs := by
  induction as generalizing n acc with
  | nil => exact h n (Nat.le_refl n)
  | cons a as ih =>
    obtain ⟨ha, has⟩ := List.forall_mem_cons.mp ha
    cases n with
    | zero => simp at hn
    | succ n =>
      refine hr _ _ _ _ ha (ih has _ (Nat.le_of_succ_le_succ hn) fun m hm ↦ ?_)
      simpa using h m (Nat.succ_le_succ hm)

private theorem reads_stringBytes_plain {n : Nat} {acc as out : List UInt8} {b : UInt8}
    (hb : IsPlainByte b) (h : Reads (stringBytes n (b :: acc)) as out bs) :
    Reads (stringBytes (n + 1) acc) (b :: as) out bs := by
  obtain ⟨hquote, hbackslash, hcontrol⟩ := hb
  refine (reads_stringByte _ _).bind ?_
  simpa only [if_neg hquote, if_neg hbackslash, if_neg hcontrol] using h

/-- An escape is read as the bytes of what it stands for. -/
theorem reads_stringBytes_escape {v : List Char} {c : Char} {n : Nat} {acc rest out : List UInt8}
    (he : Reads escape (bytesOf v ++ rest) (String.utf8EncodeChar c) rest)
    (hn : (bytesOf ('\\' :: v)).length ≤ n)
    (h : ∀ m, n ≤ m + (bytesOf ('\\' :: v)).length →
      Reads (stringBytes m ((String.utf8EncodeChar c).reverse ++ acc)) rest out bs) :
    Reads (stringBytes n acc) (bytesOf ('\\' :: v) ++ rest) out bs := by
  rw [bytesOf_cons_of_lt (by decide)] at hn h ⊢
  cases n with
  | zero => simp at hn
  | succ n =>
    refine (reads_stringByte _ _).bind (he.bind (h n ?_))
    rw [List.length_cons]
    omega

/-- A character is read as its bytes, however it is written. -/
theorem reads_stringBytes_letter {w : List Char} {c : Char} (hw : Letter w c) {n : Nat}
    {acc rest out : List UInt8} (hn : (bytesOf w).length ≤ n)
    (h : ∀ m, n ≤ m + (bytesOf w).length →
      Reads (stringBytes m ((String.utf8EncodeChar c).reverse ++ acc)) rest out bs) :
    Reads (stringBytes n acc) (bytesOf w ++ rest) out bs := by
  cases hw with
  | plain hc =>
    have he : bytesOf [c] = String.utf8EncodeChar c := List.flatMap_singleton _ _
    rw [he] at hn h ⊢
    exact reads_plainBytes stringBytes (fun _ _ _ _ ↦ reads_stringBytes_plain)
      (fun b hb ↦ isPlainByte_of_mem hc hb) acc hn h
  | short hs => exact reads_stringBytes_escape (reads_escape_short hs) hn h
  | code hw =>
    exact reads_stringBytes_escape (reads_escape_unicode (reads_unicodeEscape_code hw)) hn h
  | pair hv hw hm hn' hc =>
    exact reads_stringBytes_escape
      (reads_escape_unicode (reads_unicodeEscape_pair hv hw hm hn' hc)) hn h

private theorem reads_stringBytes {letters : List (List Char)} {cs : List Char}
    (h : List.Forall₂ Letter letters cs) {n : Nat} {acc : List UInt8}
    (hn : (bytesOf letters.flatten).length < n) :
    Reads (stringBytes n acc) (bytesOf letters.flatten ++ byteOf '"' :: bs)
      (acc.reverse ++ bytesOf cs) bs := by
  induction h generalizing n acc with
  | nil =>
    cases n with
    | zero => simp at hn
    | succ n =>
      refine (reads_stringByte _ _).bind ?_
      simpa using reads_pure acc.reverse bs
  | @cons w c letters cs hw _ ih =>
    rw [List.flatten_cons, bytesOf_append, List.length_append] at hn
    rw [List.flatten_cons, bytesOf_append, List.append_assoc]
    refine reads_stringBytes_letter hw (by omega) fun m hm ↦ ?_
    have hb := @ih m ((String.utf8EncodeChar c).reverse ++ acc) (by omega)
    simpa [bytesOf_cons] using hb

/-- A string is read as what it says. -/
theorem reads_string {text : List Char} {s : String} (h : StringText text s) :
    ∃ body, bytesOf text = byteOf '"' :: body ∧ ∀ bs, Reads string (body ++ bs) s bs := by
  obtain ⟨letters, hl, rfl⟩ := h
  refine ⟨_, bytesOf_enclosed (by decide) (by decide) _, fun bs ↦ ?_⟩
  rw [List.append_assoc]
  refine (reads_bound _).bind ((reads_stringBytes hl ?_).bind ?_)
  · rw [List.length_append]
    omega
  · simp only [List.reverse_nil, List.nil_append, bytesOf_toList, Text.Utf8.decode?_encode]
    exact reads_pure s bs

/-! ### Strings that are not read -/

private theorem reads_skipString_plain {n : Nat} {as : List UInt8} {b : UInt8} (hb : IsPlainByte b)
    (h : Reads (skipString n) as () bs) : Reads (skipString (n + 1)) (b :: as) () bs := by
  obtain ⟨hquote, hbackslash, hcontrol⟩ := hb
  refine Reads.get fun c _ ↦ (reads_stringByte _ _).bind ?_
  simpa only [if_neg hquote, if_neg hbackslash, if_neg hcontrol] using h

private theorem reads_skipString_letter {w : List Char} (hw : IsLetter w) {n : Nat}
    {rest : List UInt8} (hn : (bytesOf w).length ≤ n)
    (h : ∀ m, n ≤ m + (bytesOf w).length → Reads (skipString m) rest () bs) :
    Reads (skipString n) (bytesOf w ++ rest) () bs := by
  cases hw with
  | @plain c hc =>
    have he : bytesOf [c] = String.utf8EncodeChar c := List.flatMap_singleton _ _
    rw [he] at hn h ⊢
    exact reads_plainBytes (fun n _ ↦ skipString n) (fun _ _ _ _ ↦ reads_skipString_plain)
      (fun b hb ↦ isPlainByte_of_mem hc hb) [] hn h
  | short hs =>
    obtain ⟨he, hs, -⟩ := simpleEscape?_of_mem hs
    rw [bytesOf_cons_of_lt (by decide), bytesOf_cons_of_lt he] at hn h ⊢
    cases n with
    | zero => simp at hn
    | succ n =>
      refine Reads.get fun c _ ↦ (reads_stringByte _ _).bind ((reads_stringByte _ _).bind ?_)
      simp only [hs, Option.isSome_some, if_true]
      exact h n (by simp)
  | @code w k hw =>
    rw [bytesOf_cons_of_lt (by decide), bytesOf_cons_of_lt (by decide)] at hn h ⊢
    cases n with
    | zero => simp at hn
    | succ n =>
      refine Reads.get fun c _ ↦ (reads_stringByte _ _).bind ((reads_stringByte _ _).bind ?_)
      refine (reads_hexEscape hw).bind (h n ?_)
      rw [List.length_cons]
      omega

private theorem reads_skipString_letters {letters : List (List Char)}
    (h : ∀ w ∈ letters, IsLetter w) {n : Nat} (hn : (bytesOf letters.flatten).length < n) :
    Reads (skipString n) (bytesOf letters.flatten ++ byteOf '"' :: bs) () bs := by
  induction letters generalizing n with
  | nil =>
    cases n with
    | zero => simp at hn
    | succ n => exact Reads.get fun c _ ↦ (reads_stringByte _ _).bind (reads_pure () bs)
  | cons w letters ih =>
    obtain ⟨hw, h⟩ := List.forall_mem_cons.mp h
    rw [List.flatten_cons, bytesOf_append, List.length_append] at hn
    rw [List.flatten_cons, bytesOf_append, List.append_assoc]
    exact reads_skipString_letter hw (by omega) fun m hm ↦ ih h (by omega)

/-- A string is taken whether or not it means a text. -/
theorem reads_skipString {text : List Char} (h : IsString text) :
    ∃ body, bytesOf text = byteOf '"' :: body ∧
      ∀ n bs, body.length ≤ n → Reads (skipString n) (body ++ bs) () bs := by
  obtain ⟨letters, hl, rfl⟩ := h
  refine ⟨_, bytesOf_enclosed (by decide) (by decide) _, fun n bs hn ↦ ?_⟩
  rw [List.length_append] at hn
  rw [List.append_assoc]
  exact reads_skipString_letters hl hn

end Relocation.Json.Reading

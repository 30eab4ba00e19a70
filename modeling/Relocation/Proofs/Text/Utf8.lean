import Mathlib.Data.List.Basic
import Mathlib.Tactic.SplitIfs
import Relocation.Text.Utf8

/-!
# Reading text back

Bytes are read as text exactly when they are the bytes of that text. One spelling of a code point
is what the reader takes as one character (`Spells`); it is the encoding of that character and of
no other. The bytes of texts are closed under being put together, and they can be cut at every
byte that stands for a character by itself.
-/

namespace Relocation.Text.Utf8

/-! ### Encoding -/

/-- A text is written character by character. -/
theorem encode_ofList (cs : List Char) :
    encode (String.ofList cs) = cs.flatMap String.utf8EncodeChar := by
  unfold encode
  rw [String.toUTF8_eq_toByteArray, String.toByteArray_ofList]
  simp [List.utf8Encode]

/-- A text is written character by character, in the other direction. -/
theorem encode_eq_flatMap (s : String) :
    encode s = s.toList.flatMap String.utf8EncodeChar := by
  rw [← encode_ofList, String.ofList_toList]

/-- Texts put together are written one after the other. -/
@[simp] theorem encode_append (s t : String) : encode (s ++ t) = encode s ++ encode t := by
  unfold encode
  simp

/-- The empty string has no bytes. -/
@[simp] theorem encode_empty : encode "" = [] := rfl

/-! ### Spellings of one code point -/

/-- Bytes that are read as one code point: a single byte, or a first byte with as many more as it
announces. -/
inductive Spells : List UInt8 → Nat → Prop where
  | single {b : UInt8} (hb : b < 0x80) : Spells [b] b.toNat
  | several {b lo hi : UInt8} {count : Nat} {tail : List UInt8} (hb : ¬b < 0x80)
      (hl : lead b = some (count, lo, hi)) (ht : continuation count lo hi tail = tail)
      (hc : tail.length = count) :
      Spells (b :: tail) (codePoint
        (b.toNat % (if count = 1 then 32 else if count = 2 then 16 else 8)) tail)

private theorem lead_eq_nat (b : UInt8) : lead b =
    if 0xc2 ≤ b.toNat ∧ b.toNat ≤ 0xdf then some (1, 0x80, 0xbf)
    else if b.toNat = 0xe0 then some (2, 0xa0, 0xbf)
    else if b.toNat = 0xed then some (2, 0x80, 0x9f)
    else if 0xe1 ≤ b.toNat ∧ b.toNat ≤ 0xef then some (2, 0x80, 0xbf)
    else if b.toNat = 0xf0 then some (3, 0x90, 0xbf)
    else if b.toNat = 0xf4 then some (3, 0x80, 0x8f)
    else if 0xf1 ≤ b.toNat ∧ b.toNat ≤ 0xf3 then some (3, 0x80, 0xbf)
    else none := by
  simp [lead, UInt8.le_iff_toNat_le, ← UInt8.toNat_inj]

/-- The bounds that a first byte sets: nothing is spelled too long, no surrogate is spelled and
nothing beyond the last code point. -/
private theorem lead_bounds {b lo hi : UInt8} {count : Nat}
    (h : lead b = some (count, lo, hi)) :
    0x80 ≤ lo.toNat ∧ hi.toNat ≤ 0xbf ∧
      (count = 1 ∧ 0xc2 ≤ b.toNat ∧ b.toNat ≤ 0xdf ∨
        count = 2 ∧ 0xe0 ≤ b.toNat ∧ b.toNat ≤ 0xef ∧ (b.toNat = 0xe0 → 0xa0 ≤ lo.toNat) ∧
          (b.toNat = 0xed → hi.toNat ≤ 0x9f) ∨
        count = 3 ∧ 0xf0 ≤ b.toNat ∧ b.toNat ≤ 0xf4 ∧ (b.toNat = 0xf0 → 0x90 ≤ lo.toNat) ∧
          (b.toNat = 0xf4 → hi.toNat ≤ 0x8f)) := by
  rw [lead_eq_nat] at h
  split_ifs at h <;> simp only [Option.some.injEq, Prod.mk.injEq] at h <;>
    obtain ⟨rfl, rfl, rfl⟩ := h <;> simp <;> omega

private theorem exists_lead_one {x y : UInt8} (hx : 0xc2 ≤ x.toNat ∧ x.toNat ≤ 0xdf)
    (hy : 0x80 ≤ y.toNat ∧ y.toNat ≤ 0xbf) :
    ∃ lo hi, lead x = some (1, lo, hi) ∧ lo.toNat ≤ y.toNat ∧ y.toNat ≤ hi.toNat := by
  rw [lead_eq_nat, if_pos hx]
  exact ⟨_, _, rfl, hy.1, hy.2⟩

private theorem exists_lead_two {x y : UInt8} (hx : 0xe0 ≤ x.toNat ∧ x.toNat ≤ 0xef)
    (hy : 0x80 ≤ y.toNat ∧ y.toNat ≤ 0xbf) (hlo : x.toNat = 0xe0 → 0xa0 ≤ y.toNat)
    (hhi : x.toNat = 0xed → y.toNat ≤ 0x9f) :
    ∃ lo hi, lead x = some (2, lo, hi) ∧ lo.toNat ≤ y.toNat ∧ y.toNat ≤ hi.toNat := by
  rw [lead_eq_nat]
  split_ifs
  · omega
  · exact ⟨_, _, rfl, by simp; omega, by simp; omega⟩
  · exact ⟨_, _, rfl, by simp; omega, by simp; omega⟩
  · exact ⟨_, _, rfl, by simp; omega, by simp; omega⟩
  all_goals omega

private theorem exists_lead_three {x y : UInt8} (hx : 0xf0 ≤ x.toNat ∧ x.toNat ≤ 0xf4)
    (hy : 0x80 ≤ y.toNat ∧ y.toNat ≤ 0xbf) (hlo : x.toNat = 0xf0 → 0x90 ≤ y.toNat)
    (hhi : x.toNat = 0xf4 → y.toNat ≤ 0x8f) :
    ∃ lo hi, lead x = some (3, lo, hi) ∧ lo.toNat ≤ y.toNat ∧ y.toNat ≤ hi.toNat := by
  rw [lead_eq_nat]
  split_ifs
  · omega
  · omega
  · omega
  · omega
  · exact ⟨_, _, rfl, by simp; omega, by simp; omega⟩
  · exact ⟨_, _, rfl, by simp; omega, by simp; omega⟩
  · exact ⟨_, _, rfl, by simp; omega, by simp; omega⟩
  · omega

/-! ### Runs of continuing bytes -/

private theorem continuation_cons (count : Nat) (lo hi : UInt8) {b : UInt8} (tail : List UInt8)
    (hb : lo.toNat ≤ b.toNat ∧ b.toNat ≤ hi.toNat) :
    continuation (count + 1) lo hi (b :: tail) = b :: continuation count 0x80 0xbf tail := by
  simp only [continuation]
  rw [if_pos]
  simpa only [Bool.and_eq_true, decide_eq_true_eq, UInt8.le_iff_toNat_le] using hb

private theorem continuation_tail {b : UInt8} {count : Nat} {tail : List UInt8}
    (hb : 0x80 ≤ b.toNat ∧ b.toNat ≤ 0xbf) (ht : continuation count 0x80 0xbf tail = tail) :
    continuation (count + 1) 0x80 0xbf (b :: tail) = b :: tail := by
  rw [continuation_cons count 0x80 0xbf tail hb, ht]

private theorem bounds_of_continuation {count : Nat} {lo hi b : UInt8} {tail : List UInt8}
    (h : continuation (count + 1) lo hi (b :: tail) = b :: tail) :
    lo.toNat ≤ b.toNat ∧ b.toNat ≤ hi.toNat ∧ continuation count 0x80 0xbf tail = tail := by
  simp only [continuation] at h
  split at h
  · next hb =>
    simp only [Bool.and_eq_true, decide_eq_true_eq, UInt8.le_iff_toNat_le] at hb
    exact ⟨hb.1, hb.2, (List.cons.inj h).2⟩
  · cases h

private theorem continuation_append (count : Nat) (lo hi : UInt8) (tail bs : List UInt8)
    (ht : continuation count lo hi tail = tail) (hc : tail.length = count) :
    continuation count lo hi (tail ++ bs) = tail := by
  induction tail generalizing count lo hi with
  | nil =>
    subst hc
    rfl
  | cons b tail ih =>
    subst hc
    obtain ⟨hlo, hhi, ht⟩ := bounds_of_continuation ht
    rw [List.cons_append, List.length_cons, continuation_cons _ _ _ _ ⟨hlo, hhi⟩, ih _ _ _ ht rfl]

private theorem isPrefix_continuation (count : Nat) (lo hi : UInt8) (bs : List UInt8) :
    continuation count lo hi bs <+: bs := by
  fun_induction continuation with
  | case1 => exact List.nil_prefix
  | case2 => exact List.nil_prefix
  | case3 count lo hi b bs h ih => exact (List.prefix_cons_inj b).mpr ih
  | case4 => exact List.nil_prefix

private theorem continuation_idem (count : Nat) (lo hi : UInt8) (bs : List UInt8) :
    continuation count lo hi (continuation count lo hi bs) = continuation count lo hi bs := by
  fun_induction continuation count lo hi bs with
  | case1 => rfl
  | case2 => simp [continuation]
  | case3 count lo hi b bs h ih => simp only [continuation, h, if_true, ih]
  | case4 => simp [continuation]

/-! ### A spelling is the encoding of its character -/

private theorem ofNat_eq {b : UInt8} {n : Nat} (h : n = b.toNat) : UInt8.ofNat n = b := by
  rw [h, UInt8.ofNat_toNat]

private theorem toNat_ofNat {n : Nat} (h : n < 256) : (UInt8.ofNat n).toNat = n :=
  UInt8.toNat_ofNat_of_lt' h

private theorem encodeChar_two {c : Char} {x y : UInt8} (hx : 0xc2 ≤ x.toNat ∧ x.toNat ≤ 0xdf)
    (hy : 0x80 ≤ y.toNat ∧ y.toNat ≤ 0xbf)
    (hc : c.val.toNat = x.toNat % 32 * 64 + y.toNat % 64) :
    String.utf8EncodeChar c = [x, y] := by
  simp only [String.utf8EncodeChar, hc]
  rw [if_neg (by omega), if_pos (by omega), ofNat_eq (b := x) (by omega),
    ofNat_eq (b := y) (by omega)]

private theorem encodeChar_three {c : Char} {x y z : UInt8}
    (hx : 0xe0 ≤ x.toNat ∧ x.toNat ≤ 0xef) (hy : 0x80 ≤ y.toNat ∧ y.toNat ≤ 0xbf)
    (hz : 0x80 ≤ z.toNat ∧ z.toNat ≤ 0xbf) (hxy : x.toNat = 0xe0 → 0xa0 ≤ y.toNat)
    (hc : c.val.toNat = (x.toNat % 16 * 64 + y.toNat % 64) * 64 + z.toNat % 64) :
    String.utf8EncodeChar c = [x, y, z] := by
  simp only [String.utf8EncodeChar, hc]
  rw [if_neg (by omega), if_neg (by omega), if_pos (by omega), ofNat_eq (b := x) (by omega),
    ofNat_eq (b := y) (by omega), ofNat_eq (b := z) (by omega)]

private theorem encodeChar_four {c : Char} {x y z w : UInt8}
    (hx : 0xf0 ≤ x.toNat ∧ x.toNat ≤ 0xf4) (hy : 0x80 ≤ y.toNat ∧ y.toNat ≤ 0xbf)
    (hz : 0x80 ≤ z.toNat ∧ z.toNat ≤ 0xbf) (hw : 0x80 ≤ w.toNat ∧ w.toNat ≤ 0xbf)
    (hxy : x.toNat = 0xf0 → 0x90 ≤ y.toNat)
    (hc : c.val.toNat =
      ((x.toNat % 8 * 64 + y.toNat % 64) * 64 + z.toNat % 64) * 64 + w.toNat % 64) :
    String.utf8EncodeChar c = [x, y, z, w] := by
  simp only [String.utf8EncodeChar, hc]
  rw [if_neg (by omega), if_neg (by omega), if_neg (by omega), ofNat_eq (b := x) (by omega),
    ofNat_eq (b := y) (by omega), ofNat_eq (b := z) (by omega), ofNat_eq (b := w) (by omega)]

/-- What is spelled is a code point of a character, and the character is encoded so. -/
theorem Spells.isValidChar_and_encode {s : List UInt8} {v : Nat} (h : Spells s v) :
    v.isValidChar ∧ ∀ c : Char, c.val.toNat = v → String.utf8EncodeChar c = s := by
  cases h with
  | @single b hb =>
    have hn : b.toNat < 128 := UInt8.lt_iff_toNat_lt.mp hb
    refine ⟨.inl (by omega), fun c hc ↦ ?_⟩
    simp [String.utf8EncodeChar, hc, show b.toNat ≤ 127 by omega]
  | @several b lo hi count tail hb hl ht hc =>
    subst hc
    obtain ⟨hlo, hhi, hl⟩ := lead_bounds hl
    obtain - | ⟨x, - | ⟨y, - | ⟨z, - | ⟨w, rest⟩⟩⟩⟩ := tail
    · simp at hl
    · obtain ⟨h1, h2, -⟩ := bounds_of_continuation ht
      simp [codePoint, Nat.isValidChar] at hl ⊢
      exact ⟨by omega, fun c hc ↦ encodeChar_two ⟨by omega, by omega⟩ ⟨by omega, by omega⟩ hc⟩
    · obtain ⟨h1, h2, ht⟩ := bounds_of_continuation ht
      obtain ⟨h3, h4, -⟩ := bounds_of_continuation ht
      simp [codePoint, Nat.isValidChar] at hl h3 h4 ⊢
      exact ⟨by omega, fun c hc ↦ encodeChar_three ⟨by omega, by omega⟩ ⟨by omega, by omega⟩
        ⟨by omega, by omega⟩ (by omega) hc⟩
    · obtain ⟨h1, h2, ht⟩ := bounds_of_continuation ht
      obtain ⟨h3, h4, ht⟩ := bounds_of_continuation ht
      obtain ⟨h5, h6, -⟩ := bounds_of_continuation ht
      simp [codePoint, Nat.isValidChar] at hl h3 h4 h5 h6 ⊢
      exact ⟨by omega, fun c hc ↦ encodeChar_four ⟨by omega, by omega⟩ ⟨by omega, by omega⟩
        ⟨by omega, by omega⟩ ⟨by omega, by omega⟩ (by omega) hc⟩
    · simp at hl

private theorem Spells.of_lead {x y lo hi : UInt8} {count v : Nat} {tail : List UInt8}
    (hx : 0x80 ≤ x.toNat) (hl : lead x = some (count + 1, lo, hi))
    (hy : lo.toNat ≤ y.toNat ∧ y.toNat ≤ hi.toNat)
    (ht : continuation count 0x80 0xbf tail = tail) (hc : tail.length = count)
    (hv : v = codePoint (x.toNat %
      (if count + 1 = 1 then 32 else if count + 1 = 2 then 16 else 8)) (y :: tail)) :
    Spells (x :: y :: tail) v := by
  subst hv
  refine .several ?_ hl ?_ ?_
  · rw [UInt8.lt_iff_toNat_lt]
    exact Nat.not_lt.mpr hx
  · rw [continuation_cons _ _ _ _ hy, ht]
  · rw [List.length_cons, hc]

/-- Each character's encoding spells its code point. -/
theorem spells_encodeChar (c : Char) : Spells (String.utf8EncodeChar c) c.val.toNat := by
  have hv : c.val.toNat.isValidChar := c.valid
  generalize hn : c.val.toNat = v at hv
  simp only [Nat.isValidChar] at hv
  simp only [String.utf8EncodeChar, hn]
  split_ifs with h1 h2 h3
  · have hb := toNat_ofNat (n := v) (by omega)
    have h := Spells.single (b := UInt8.ofNat v) (by rw [UInt8.lt_iff_toNat_lt, hb]; simp; omega)
    rwa [hb] at h
  · have hx := toNat_ofNat (n := v / 64 % 32 + 192) (by omega)
    have hy := toNat_ofNat (n := v % 64 + 128) (by omega)
    obtain ⟨lo, hi, hl, hb⟩ := exists_lead_one (y := UInt8.ofNat (v % 64 + 128))
      (by rw [hx]; omega) (by omega)
    refine .of_lead (by omega) hl hb rfl rfl ?_
    simp [codePoint]
    omega
  · have hx := toNat_ofNat (n := v / 4096 % 16 + 224) (by omega)
    have hy := toNat_ofNat (n := v / 64 % 64 + 128) (by omega)
    have hz := toNat_ofNat (n := v % 64 + 128) (by omega)
    obtain ⟨lo, hi, hl, hb⟩ := exists_lead_two (y := UInt8.ofNat (v / 64 % 64 + 128))
      (by rw [hx]; omega) (by omega) (by omega) (by omega)
    refine .of_lead (by omega) hl hb (continuation_tail (by omega) rfl) rfl ?_
    simp [codePoint]
    omega
  · have hx := toNat_ofNat (n := v / 262144 % 8 + 240) (by omega)
    have hy := toNat_ofNat (n := v / 4096 % 64 + 128) (by omega)
    have hz := toNat_ofNat (n := v / 64 % 64 + 128) (by omega)
    have hw := toNat_ofNat (n := v % 64 + 128) (by omega)
    obtain ⟨lo, hi, hl, hb⟩ := exists_lead_three (y := UInt8.ofNat (v / 4096 % 64 + 128))
      (by rw [hx]; omega) (by omega) (by omega) (by omega)
    refine .of_lead (by omega) hl hb
      (continuation_tail (by omega) (continuation_tail (by omega) rfl)) rfl ?_
    simp [codePoint]
    omega

/-! ### Pieces -/

/-- A spelling at the front is read as one character. -/
theorem piecesUpTo_spelled {s : List UInt8} {v : Nat} (h : Spells s v) (n : Nat)
    (bs : List UInt8) :
    piecesUpTo (n + 1) (s ++ bs) = .char (Char.ofNat v) :: piecesUpTo n bs := by
  cases h with
  | single hb => simp [piecesUpTo, hb]
  | several hb hl ht hc =>
    have hr := continuation_append _ _ _ _ bs ht hc
    simp [piecesUpTo, hb, hl, hr, hc]

/-- Only a spelling at the front is read as a character. -/
theorem spelled_of_piecesUpTo {n : Nat} {bs : List UInt8} {c : Char} {ps : List Piece}
    (h : piecesUpTo n bs = .char c :: ps) :
    ∃ m s v rest, n = m + 1 ∧ bs = s ++ rest ∧ Spells s v ∧ c = Char.ofNat v ∧
      ps = piecesUpTo m rest := by
  revert h
  fun_cases piecesUpTo n bs with
  | case1 => simp
  | case2 => simp
  | case3 m b bs hb =>
    intro h
    simp only [List.cons.injEq, Piece.char.injEq] at h
    exact ⟨m, [b], _, bs, rfl, rfl, .single hb, h.1.symm, h.2.symm⟩
  | case4 => simp
  | case5 m b bs hb count lo hi hl tail rest hc payload =>
    intro h
    simp only [List.cons.injEq, Piece.char.injEq] at h
    refine ⟨m, b :: tail, _, rest, rfl, ?_, .several hb hl (continuation_idem ..) hc,
      h.1.symm, h.2.symm⟩
    exact congrArg (b :: ·)
      (List.prefix_iff_eq_append.mp (isPrefix_continuation count lo hi bs)).symm
  | case6 => simp

private theorem piecesUpTo_eq_nil {n : Nat} {bs : List UInt8} (hn : bs.length ≤ n)
    (h : piecesUpTo n bs = []) : bs = [] := by
  revert hn h
  fun_cases piecesUpTo n bs with
  | case1 => exact fun hn _ ↦ List.eq_nil_of_length_eq_zero (Nat.le_zero.mp hn)
  | case2 => exact fun _ _ ↦ rfl
  | case3 | case4 | case5 | case6 => simp

private theorem piecesUpTo_flatMap (n : Nat) (cs : List Char)
    (h : (cs.flatMap String.utf8EncodeChar).length ≤ n) :
    piecesUpTo n (cs.flatMap String.utf8EncodeChar) = cs.map .char := by
  induction cs generalizing n with
  | nil => cases n <;> rfl
  | cons c cs ih =>
    have hpos := c.utf8Size_pos
    rw [List.flatMap_cons, List.length_append, String.length_utf8EncodeChar] at h
    obtain ⟨m, rfl⟩ : ∃ m, n = m + 1 := ⟨n - 1, by omega⟩
    rw [List.flatMap_cons, piecesUpTo_spelled (spells_encodeChar c), ih m (by omega)]
    exact congrArg (Piece.char · :: cs.map .char) (Char.ofNat_toNat c)

private theorem flatMap_of_piecesUpTo (n : Nat) (bs : List UInt8) (cs : List Char)
    (hn : bs.length ≤ n) (h : piecesUpTo n bs = cs.map .char) :
    bs = cs.flatMap String.utf8EncodeChar := by
  induction cs generalizing n bs with
  | nil => exact piecesUpTo_eq_nil hn h
  | cons c cs ih =>
    obtain ⟨m, s, v, rest, rfl, rfl, hs, rfl, hp⟩ := spelled_of_piecesUpTo h
    obtain ⟨hv, he⟩ := hs.isValidChar_and_encode
    have hc := he (Char.ofNat v) (by rw [Char.ofNat, dif_pos hv]; rfl)
    have hpos := (Char.ofNat v).utf8Size_pos
    rw [← String.length_utf8EncodeChar, hc] at hpos
    rw [List.length_append] at hn
    rw [List.flatMap_cons, hc, ih m rest (by omega) hp.symm]

/-! ### Reading back -/

private theorem mapM_eq_some_iff {f : Piece → Option Char} (hc : ∀ c, f (.char c) = some c)
    (hb : ∀ bytes, f (.broken bytes) = none) (ps : List Piece) (cs : List Char) :
    ps.mapM f = some cs ↔ ps = cs.map .char := by
  induction ps generalizing cs with
  | nil => cases cs <;> simp
  | cons p ps ih =>
    cases p with
    | char c =>
      cases cs with
      | nil => simp [hc, Option.bind_eq_some_iff]
      | cons d cs => simp [hc, Option.bind_eq_some_iff, ih, and_comm]
    | broken bytes => cases cs <;> simp [hb]

/-- Bytes are read as a text exactly when they are its bytes. -/
theorem decode?_eq_some_iff {bs : List UInt8} {s : String} :
    decode? bs = some s ↔ bs = encode s := by
  unfold decode? pieces
  rw [Option.map_eq_some_iff]
  constructor
  · rintro ⟨cs, hcs, rfl⟩
    rw [mapM_eq_some_iff (fun _ ↦ rfl) (fun _ ↦ rfl)] at hcs
    rw [encode_ofList]
    exact flatMap_of_piecesUpTo _ _ _ (Nat.le_refl _) hcs
  · rintro rfl
    refine ⟨s.toList, ?_, String.ofList_toList⟩
    rw [mapM_eq_some_iff (fun _ ↦ rfl) (fun _ ↦ rfl), encode_eq_flatMap]
    exact piecesUpTo_flatMap _ _ (Nat.le_refl _)

/-- The bytes of a text are read as that text. -/
@[simp] theorem decode?_encode (s : String) : decode? (encode s) = some s :=
  decode?_eq_some_iff.mpr rfl

/-- So they are where broken sequences are replaced. -/
@[simp] theorem decodeLossy_encode (s : String) : decodeLossy (encode s) = s := by
  have hp : pieces (encode s) = s.toList.map .char := by
    rw [encode_eq_flatMap]
    exact piecesUpTo_flatMap _ _ (Nat.le_refl _)
  unfold decodeLossy
  rw [hp, List.map_map]
  exact (congrArg String.ofList (List.map_id _)).trans String.ofList_toList

/-- Different texts have different bytes. -/
theorem encode_inj {s t : String} : encode s = encode t ↔ s = t := by
  constructor
  · intro h
    have hs := decode?_encode s
    rw [h, decode?_encode] at hs
    exact (Option.some.inj hs).symm
  · exact congrArg encode

/-! ### Bytes that are text -/

/-- Bytes that are those of a text. -/
def IsText (bs : List UInt8) : Prop := ∃ s : String, bs = encode s

/-- Bytes are those of a text exactly when they can be read as one. -/
theorem isText_iff_isSome {bs : List UInt8} : IsText bs ↔ (decode? bs).isSome := by
  rw [Option.isSome_iff_exists]
  exact exists_congr fun s ↦ decode?_eq_some_iff.symm

/-- The bytes of a string are text. -/
theorem isText_encode (s : String) : IsText (encode s) := ⟨s, rfl⟩

/-- No bytes are text. -/
theorem isText_nil : IsText [] := ⟨"", rfl⟩

/-- Bytes of texts put together are those of a text. -/
theorem IsText.append {as bs : List UInt8} (ha : IsText as) (hb : IsText bs) :
    IsText (as ++ bs) := by
  obtain ⟨s, rfl⟩ := ha
  obtain ⟨t, rfl⟩ := hb
  exact ⟨s ++ t, (encode_append s t).symm⟩

/-- A byte below 128 stands for a character by itself. -/
theorem encodeChar_of_mem {c : Char} {b : UInt8} (hb : b.toNat < 0x80)
    (h : b ∈ String.utf8EncodeChar c) : String.utf8EncodeChar c = [b] := by
  simp only [String.utf8EncodeChar] at h ⊢
  split_ifs at h ⊢
  · rw [List.mem_singleton.mp h]
  all_goals
    simp only [List.mem_cons, List.not_mem_nil, or_false] at h
    rcases h with rfl | rfl | rfl | rfl <;> rw [toNat_ofNat (by omega)] at hb <;> omega

private theorem flatMap_split {cs : List Char} {as bs : List UInt8} {b : UInt8}
    (hb : b.toNat < 0x80) (h : cs.flatMap String.utf8EncodeChar = as ++ b :: bs) :
    ∃ ds es : List Char, as = ds.flatMap String.utf8EncodeChar ∧
      bs = es.flatMap String.utf8EncodeChar := by
  induction cs generalizing as with
  | nil => simp at h
  | cons c cs ih =>
    rw [List.flatMap_cons, List.append_eq_append_iff] at h
    obtain ⟨as, rfl, hr⟩ | ⟨as', hc, hr⟩ := h
    · obtain ⟨ds, es, rfl, rfl⟩ := ih hr
      exact ⟨c :: ds, es, by simp, rfl⟩
    · cases as' with
      | nil =>
        obtain ⟨ds, es, hd, rfl⟩ := @ih [] hr.symm
        exact ⟨[c], es, by simpa using hc.symm, rfl⟩
      | cons d as' =>
        obtain ⟨rfl, rfl⟩ := List.cons.inj hr
        have hs := encodeChar_of_mem hb (by rw [hc]; simp)
        rw [hs] at hc
        obtain ⟨rfl, hc⟩ : as = [] ∧ [b] = b :: as' := by
          cases as with
          | nil => exact ⟨rfl, hc⟩
          | cons a as => simp at hc
        obtain rfl : as' = [] := (List.cons.inj hc).2.symm
        exact ⟨[], cs, rfl, rfl⟩

/-- Bytes of a text can be cut at a byte that stands for a character by itself. -/
theorem IsText.split {as bs : List UInt8} {b : UInt8} (hb : b.toNat < 0x80)
    (h : IsText (as ++ b :: bs)) : IsText as ∧ IsText bs := by
  obtain ⟨s, h⟩ := h
  rw [encode_eq_flatMap] at h
  obtain ⟨ds, es, rfl, rfl⟩ := flatMap_split hb h.symm
  exact ⟨⟨String.ofList ds, (encode_ofList ds).symm⟩, ⟨String.ofList es, (encode_ofList es).symm⟩⟩

end Relocation.Text.Utf8

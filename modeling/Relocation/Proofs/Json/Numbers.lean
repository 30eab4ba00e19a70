import Relocation.Proofs.Json.Strings

/-!
# Numbers that are not read

A number is taken up to its end when its value is not asked for. It ends only where neither a
digit nor a point nor an exponent follows, and none of these stands behind a value.
-/

namespace Relocation.Json.Reading

variable {bs : List UInt8}

/-! ### Digits -/

/-- A digit is one byte, which is a digit again. -/
theorem isDigit_byteOf {c : Char} (h : c.isDigit) : c.toNat < 0x80 ∧ isDigit (byteOf c) := by
  simp only [Char.isDigit, Bool.and_eq_true, decide_eq_true_eq, ge_iff_le,
    UInt32.le_iff_toNat_le] at h
  have hlow : 48 ≤ c.toNat := h.1
  have hhigh : c.toNat ≤ 57 := h.2
  have hb : (byteOf c).toNat = c.toNat := toNat_byteOf (by omega)
  refine ⟨by omega, ?_⟩
  simp only [isDigit, Bool.and_eq_true, decide_eq_true_eq, UInt8.le_iff_toNat_le]
  rw [hb]
  exact ⟨hlow, hhigh⟩

private theorem isDigit_of_mem {cs : List Char} (h : Digits cs) : ∀ b ∈ bytesOf cs, isDigit b := by
  intro b hb
  obtain ⟨c, hc, hb⟩ := List.mem_flatMap.mp hb
  obtain ⟨hl, hd⟩ := isDigit_byteOf (h c hc)
  rw [encodeChar_of_lt hl, List.mem_singleton] at hb
  rwa [hb]

private theorem reads_countDigits {as : List UInt8} (ha : ∀ a ∈ as, isDigit a)
    (hb : ∀ b ∈ bs.head?, isDigit b = false) {n k : Nat} (hn : as.length ≤ n) :
    Reads (countDigits n k) (as ++ bs) (k + as.length) bs := by
  induction n generalizing as k with
  | zero =>
    obtain rfl := List.eq_nil_of_length_eq_zero (Nat.le_zero.mp hn)
    exact reads_pure k bs
  | succ n ih =>
    refine (reads_peek _).bind ?_
    cases as with
    | nil =>
      cases bs with
      | nil => exact reads_pure k []
      | cons b bs =>
        have hd : isDigit b = false := hb b rfl
        simp only [List.nil_append, List.head?_cons, hd]
        exact reads_pure k _
    | cons a as =>
      obtain ⟨ha, has⟩ := List.forall_mem_cons.mp ha
      simp only [List.cons_append, List.head?_cons, ha]
      refine (reads_discard a _).bind ?_
      have hr := @ih as has (k + 1) (Nat.le_of_succ_le_succ hn)
      rwa [Nat.add_assoc, Nat.add_comm 1] at hr

/-- The byte of a digit is not that of a character that is none. -/
theorem byteOf_ne_of_isDigit {c d : Char} (hc : c.isDigit) (hd : isDigit (byteOf d) = false) :
    byteOf c ≠ byteOf d := by
  intro h
  have hc := (isDigit_byteOf hc).2
  rw [h, hd] at hc
  contradiction

/-- A digit is no white space. -/
theorem isSpace_of_isDigit {b : UInt8} (h : isDigit b) : isSpace b = false := by
  rw [Bool.eq_false_iff]
  intro hs
  obtain rfl | rfl | rfl | rfl := eq_of_isSpace hs <;> exact absurd h (by decide)

/-- The digits in front of the point begin with one. -/
theorem exists_digit {is rest : List Char} (h : IsInteger is) :
    ∃ c cs, c.isDigit ∧ is ++ rest = c :: cs := by
  cases h with
  | zero => exact ⟨_, _, rfl, rfl⟩
  | other hc => exact ⟨_, _, hc, rfl⟩

/-- Digits are taken up to what is none. -/
theorem reads_skipDigits {cs : List Char} (hcs : Digits cs)
    (hb : ∀ b ∈ bs.head?, isDigit b = false) :
    Reads (do skipWhile isDigit (← bound)) (bytesOf cs ++ bs) () bs := by
  refine (reads_bound _).bind (reads_skipWhile (isDigit_of_mem hcs) hb ?_)
  rw [List.length_append]
  omega

private theorem reads_skipExponent {e c : Char} {sign cs : List Char} (he : e = 'e' ∨ e = 'E')
    (hs : sign = [] ∨ sign = ['+'] ∨ sign = ['-']) (hc : c.isDigit) (hcs : Digits cs)
    (hb : ∀ b ∈ bs.head?, isDigit b = false) :
    Reads skipNumber.skipExponent (bytesOf (e :: (sign ++ c :: cs)) ++ bs) () bs := by
  obtain ⟨hl, hd⟩ := isDigit_byteOf hc
  have hel : e.toNat < 0x80 := by obtain rfl | rfl := he <;> decide
  have hdigits := reads_skipDigits hcs hb
  rw [bytesOf_cons_of_lt hel, bytesOf_append, bytesOf_cons_of_lt hl, List.cons_append,
    List.append_assoc]
  refine (reads_discard _ _).bind ((reads_peek _).bind ?_)
  obtain rfl | hs := hs
  · have hplus := byteOf_ne_of_isDigit hc (d := '+') rfl
    have hminus := byteOf_ne_of_isDigit hc (d := '-') rfl
    simp only [bytesOf_nil, List.nil_append, List.cons_append, List.head?_cons, Option.some.injEq,
      hplus, hminus, decide_false, Bool.or_false]
    refine (reads_next _ _).bind ?_
    simp only [hd, if_true]
    exact hdigits
  · obtain rfl | rfl := hs <;>
    · refine (reads_discard _ _).bind ((reads_next _ _).bind ?_)
      simp only [hd, if_true]
      exact hdigits

/-! ### The end of a number -/

/-- A number is over: what follows is no part of one. -/
def NumberEnds (bs : List UInt8) : Prop :=
  ∀ b ∈ bs.head?, isDigit b = false ∧ b ≠ byteOf '.' ∧ beginsExponent (some b) = false

/-- The first byte behind the digits of a number: the rest of the number or what follows. -/
theorem head_exponent {es : List Char} (he : IsExponent es) (hb : NumberEnds bs) :
    ∀ b ∈ (bytesOf es ++ bs).head?, isDigit b = false ∧ b ≠ byteOf '.' := by
  cases he with
  | none => exact fun b h ↦ ⟨(hb b h).1, (hb b h).2.1⟩
  | some he =>
    obtain rfl | rfl := he <;>
    · rw [bytesOf_cons_of_lt (by decide)]
      rintro b ⟨⟩
      decide

private theorem head_fraction {fs es : List Char} (hf : IsFraction fs) (he : IsExponent es)
    (hb : NumberEnds bs) :
    ∀ b ∈ (bytesOf fs ++ (bytesOf es ++ bs)).head?, isDigit b = false := by
  cases hf with
  | none => exact fun b h ↦ (head_exponent he hb b h).1
  | some =>
    rw [bytesOf_cons_of_lt (by decide)]
    rintro b ⟨⟩
    decide

private theorem NumberEnds.blanks {cs : List Char} (h : Blanks cs) (hb : NumberEnds bs) :
    NumberEnds (bytesOf cs ++ bs) := by
  intro b hhead
  cases he : bytesOf cs with
  | nil => exact hb b (by simpa [he] using hhead)
  | cons d ds =>
    obtain rfl : d = b := by simpa [he] using hhead
    have hspace : isSpace d := isSpace_of_mem h d (he ▸ List.mem_cons_self ..)
    obtain rfl | rfl | rfl | rfl := eq_of_isSpace hspace <;> decide

/-- Behind an item of a list no number goes on. -/
theorem numberEnds_of_listed {items : List (List Char)} {rest : List Char}
    (h : Listed false items rest) (hb : NumberEnds bs) : NumberEnds (bytesOf rest ++ bs) := by
  cases h with
  | done h => exact hb.blanks h
  | item hl =>
    cases hl with
    | comma ha _ =>
      rw [List.append_assoc, bytesOf_append, List.append_assoc]
      refine NumberEnds.blanks ha ?_
      rw [List.cons_append, bytesOf_cons_of_lt (by decide)]
      rintro b ⟨⟩
      decide

/-! ### Numbers -/

private theorem reads_skipTail {fs es : List Char} (hf : IsFraction fs) (he : IsExponent es)
    (hb : NumberEnds bs) :
    Reads skipNumber.skipTail (bytesOf fs ++ (bytesOf es ++ bs)) () bs := by
  have hexponent : Reads
      (if beginsExponent (bytesOf es ++ bs).head? then skipNumber.skipExponent else return ())
      (bytesOf es ++ bs) () bs := by
    cases he with
    | none =>
      cases bs with
      | nil => exact reads_pure () []
      | cons b bs =>
        simp only [bytesOf_nil, List.nil_append, List.head?_cons, (hb b rfl).2.2]
        exact reads_pure () _
    | some he hs hc hcs =>
      have hr := reads_skipExponent he hs hc hcs fun b h ↦ (hb b h).1
      obtain rfl | rfl := he <;> exact hr
  refine (reads_peek _).bind ?_
  cases hf with
  | none =>
    have hpoint : (bytesOf es ++ bs).head? ≠ some (byteOf '.') :=
      fun h ↦ (head_exponent he hb _ h).2 rfl
    rw [bytesOf_nil, List.nil_append, if_neg hpoint]
    exact hexponent
  | @some c cs hc hcs =>
    obtain ⟨hl, hd⟩ := isDigit_byteOf hc
    have hds : ∀ b ∈ byteOf c :: bytesOf cs, isDigit b :=
      List.forall_mem_cons.mpr ⟨hd, isDigit_of_mem hcs⟩
    rw [bytesOf_cons_of_lt (by decide), bytesOf_cons_of_lt hl, List.cons_append]
    refine (reads_discard _ _).bind ((reads_bound _).bind ?_)
    refine (reads_countDigits hds (fun b h ↦ (head_exponent he hb b h).1) ?_).bind ?_
    · rw [List.length_append]
      omega
    · rw [if_neg (by rw [List.length_cons]; omega)]
      exact (reads_peek _).bind hexponent

/-- A number is taken up to what is no part of it. -/
theorem reads_skipNumber {is fs es : List Char} (hi : IsInteger is) (hf : IsFraction fs)
    (he : IsExponent es) (hb : NumberEnds bs) :
    Reads skipNumber (bytesOf (is ++ (fs ++ es)) ++ bs) () bs := by
  have htail := reads_skipTail hf he hb
  have hhead := head_fraction hf he hb
  rw [bytesOf_append, bytesOf_append, List.append_assoc, List.append_assoc]
  generalize bytesOf fs ++ (bytesOf es ++ bs) = rest at htail hhead
  cases hi with
  | zero =>
    rw [bytesOf_cons_of_lt (by decide), bytesOf_nil, List.cons_append, List.nil_append]
    refine (reads_next _ _).bind ((reads_peek _).bind ?_)
    cases rest with
    | nil => exact htail
    | cons b rest =>
      simp only [List.head?_cons, hhead b rfl]
      exact htail
  | @other c cs hc h0 hcs =>
    obtain ⟨hl, hd⟩ := isDigit_byteOf hc
    have hne : byteOf c ≠ byteOf '0' := by
      intro h
      have hn := congrArg UInt8.toNat h
      rw [toNat_byteOf hl, toNat_byteOf (by decide)] at hn
      exact h0 (Char.toNat_inj.mp hn)
    rw [bytesOf_cons_of_lt hl, List.cons_append]
    refine (reads_next _ _).bind ?_
    simp only [if_neg hne, hd, if_true]
    refine (reads_bound _).bind ((reads_skipWhile (isDigit_of_mem hcs) hhead ?_).bind htail)
    rw [List.length_append]
    omega

end Relocation.Json.Reading

import Relocation.Proofs.Json.Numbers

/-!
# Values that are not read

Every value is taken whole, whatever it consists of, when nothing in it is read.
-/

namespace Relocation.Json.Reading

variable {bs : List UInt8}

/-- A value begins with a byte that is no white space and ends no array. -/
theorem exists_beginning {v : List Char} (h : IsValue v) :
    ∃ b bs, bytesOf v = b :: bs ∧ isSpace b = false ∧ b ≠ byteOf ']' := by
  cases h with
  | word h =>
    have hw : ∀ w ∈ words, ∃ b bs, bytesOf w = b :: bs ∧ isSpace b = false ∧ b ≠ byteOf ']' := by
      intro w hw
      simp only [words, List.mem_cons, List.not_mem_nil, or_false] at hw
      obtain rfl | rfl | rfl := hw <;> exact ⟨_, _, rfl, by decide⟩
    exact hw v h
  | number h =>
    obtain ⟨rfl | rfl, hi, -, -⟩ := h
    · obtain ⟨c, cs, hc, hhead⟩ := exists_digit hi
      obtain ⟨hl, hd⟩ := isDigit_byteOf hc
      rw [List.nil_append, hhead]
      exact ⟨_, _, bytesOf_cons_of_lt hl _, isSpace_of_isDigit hd, byteOf_ne_of_isDigit hc rfl⟩
    · exact ⟨_, _, bytesOf_cons_of_lt (by decide) _, by decide⟩
  | string h =>
    obtain ⟨letters, -, rfl⟩ := h
    exact ⟨_, _, bytesOf_cons_of_lt (by decide) _, by decide⟩
  | array => exact ⟨_, _, bytesOf_cons_of_lt (by decide) _, by decide⟩
  | object => exact ⟨_, _, bytesOf_cons_of_lt (by decide) _, by decide⟩

/-- The text is taken as a value, with blanks in front of it. -/
def Skips (v : List Char) : Prop :=
  ∀ (n : Nat) (cs : List Char) (bs : List UInt8), Blanks cs → (bytesOf v).length ≤ n + 1 →
    NumberEnds bs → Reads (skipValue (n + 1)) (bytesOf cs ++ (bytesOf v ++ bs)) () bs

/-- As many steps as a value has bytes are enough. -/
theorem Skips.reads {v cs : List Char} (h : Skips v) (hv : IsValue v) (hc : Blanks cs) {n : Nat}
    (hn : (bytesOf v).length ≤ n) (hb : NumberEnds bs) :
    Reads (skipValue n) (bytesOf cs ++ (bytesOf v ++ bs)) () bs := by
  obtain ⟨b, as, he, -⟩ := exists_beginning hv
  cases n with
  | zero => simp [he] at hn
  | succ n => exact h n cs bs hc hn hb

/-! ### Arrays and objects -/

private theorem reads_skipElements {first : Bool} {items : List (List Char)} {cs : List Char}
    (hl : Listed first items cs) (hv : ∀ v ∈ items, IsValue v) (hs : ∀ v ∈ items, Skips v)
    {n : Nat} (hn : (bytesOf cs).length < n) :
    Reads (skipElements n first) (bytesOf cs ++ byteOf ']' :: bs) () bs := by
  induction hl generalizing n with
  | done hb =>
    cases n with
    | zero => simp at hn
    | succ n => exact (reads_afterSpace_cons hb rfl).bind (reads_discard _ _)
  | @item first lead v rest items hlead hrest ih =>
    obtain ⟨hv, hvs⟩ := List.forall_mem_cons.mp hv
    obtain ⟨hs, hss⟩ := List.forall_mem_cons.mp hs
    obtain ⟨b, as, he, hspace, hne⟩ := exists_beginning hv
    cases n with
    | zero => simp at hn
    | succ n =>
      simp only [bytesOf_append, List.length_append] at hn
      have hlen : 0 < (bytesOf v).length := by simp [he]
      have hends : NumberEnds (bytesOf rest ++ byteOf ']' :: bs) :=
        numberEnds_of_listed hrest (by rintro b ⟨⟩; decide)
      have hvalue {ds : List Char} (hd : Blanks ds) := hs.reads hv hd (n := n) (by omega) hends
      have htail := @ih hvs hss n (by omega)
      simp only [bytesOf_append, List.append_assoc]
      cases hlead with
      | first hb =>
        replace hvalue := hvalue blanks_nil
        rw [he, bytesOf_nil, List.nil_append, List.cons_append] at hvalue
        rw [he, List.cons_append]
        refine (reads_afterSpace_cons hb hspace).bind ?_
        simp only [if_neg hne, if_true]
        exact hvalue.bind htail
      | comma ha hb =>
        rw [bytesOf_append, List.append_assoc, bytesOf_cons_of_lt (by decide)]
        refine (reads_afterSpace_cons ha rfl).bind ((reads_discard _ _).bind ?_)
        exact (hvalue hb).bind htail

/-- A member of an object is taken behind the quote that opens its name. -/
theorem reads_skipMember {name value item : List Char} (hm : MemberText name value item)
    (hn : IsString name) (hv : IsValue value) (hs : Skips value) :
    ∃ body, bytesOf item = byteOf '"' :: body ∧
      ∀ {n : Nat} {rest bs : List UInt8} {r : Reading Unit}, body.length ≤ n → NumberEnds rest →
        Reads r rest () bs →
          Reads (do skipString (← bound); colon; skipValue n; r) (body ++ rest) () bs := by
  obtain ⟨body, hbody, hskip⟩ := reads_skipString hn
  cases hm with | @intro as ds ha hd => ?_
  refine ⟨body ++ (bytesOf as ++ byteOf ':' :: (bytesOf ds ++ bytesOf value)), ?_, ?_⟩
  · rw [bytesOf_append, hbody, bytesOf_append, bytesOf_cons_of_lt (by decide), bytesOf_append]
    rfl
  · intro n rest bs r hlen hends hr
    simp only [List.length_append, List.length_cons] at hlen
    simp only [List.append_assoc, List.cons_append]
    refine (reads_bound _).bind ((hskip _ _ ?_).bind ?_)
    · rw [List.length_append]
      omega
    · exact (reads_colon ha).bind ((hs.reads hv hd (by omega) hends).bind hr)

private theorem reads_skipMembers {first : Bool} {items : List (List Char)} {cs : List Char}
    (hl : Listed first items cs) {members : List (List Char × List Char)}
    (hm : List.Forall₂ (fun m ↦ MemberText m.1 m.2) members items)
    (hk : ∀ m ∈ members, IsString m.1) (hv : ∀ m ∈ members, IsValue m.2)
    (hs : ∀ m ∈ members, Skips m.2) {n : Nat} (hn : (bytesOf cs).length < n) :
    Reads (skipMembers n first) (bytesOf cs ++ byteOf '\x7d' :: bs) () bs := by
  induction hl generalizing members n with
  | done hb =>
    cases n with
    | zero => simp at hn
    | succ n => exact (reads_afterSpace_cons hb rfl).bind (reads_discard _ _)
  | @item first lead item rest items hlead hrest ih =>
    cases hm with | @cons m members _ _ hitem hm => ?_
    obtain ⟨hk, hks⟩ := List.forall_mem_cons.mp hk
    obtain ⟨hv, hvs⟩ := List.forall_mem_cons.mp hv
    obtain ⟨hs, hss⟩ := List.forall_mem_cons.mp hs
    obtain ⟨body, hbody, hmember⟩ := reads_skipMember hitem hk hv hs
    cases n with
    | zero => simp at hn
    | succ n =>
      simp only [bytesOf_append, List.length_append, hbody, List.length_cons] at hn
      have hends : NumberEnds (bytesOf rest ++ byteOf '\x7d' :: bs) :=
        numberEnds_of_listed hrest (by rintro b ⟨⟩; decide)
      have hmembers := ih hm hks hvs hss (n := n) (by omega)
      have htail := hmember (n := n) (by omega) hends hmembers
      simp only [bytesOf_append, List.append_assoc, hbody, List.cons_append]
      cases hlead with
      | first hb =>
        refine (reads_afterSpace_cons hb rfl).bind ?_
        exact (reads_afterSpace_cons blanks_nil rfl).bind ((reads_discard _ _).bind htail)
      | comma ha hb =>
        rw [bytesOf_append, List.append_assoc, bytesOf_cons_of_lt (by decide)]
        refine (reads_afterSpace_cons ha rfl).bind ((reads_discard _ _).bind ?_)
        exact (reads_afterSpace_cons hb rfl).bind ((reads_discard _ _).bind htail)

/-! ### Values of any kind -/

private theorem skips_word {w : List Char} (h : w ∈ words) : Skips w := by
  intro n cs bs hc _ _
  simp only [words, List.mem_cons, List.not_mem_nil, or_false] at h
  obtain rfl | rfl | rfl := h <;>
  · refine (reads_beginning hc ?_).bind ((reads_discard _ _).bind (reads_word ?_)) <;> decide

private theorem skips_number {w : List Char} (h : IsNumber w) : Skips w := by
  intro n cs bs hc _ hb
  obtain ⟨rfl | rfl, hi, hf, he⟩ := h
  · have hr := reads_skipNumber hi hf he hb
    obtain ⟨c, ds, hdigit, hhead⟩ := exists_digit hi
    obtain ⟨hl, hd⟩ := isDigit_byteOf hdigit
    have hne (d : Char) := @byteOf_ne_of_isDigit c d hdigit
    rw [hhead, bytesOf_cons_of_lt hl, List.cons_append] at hr
    rw [List.nil_append, hhead, bytesOf_cons_of_lt hl, List.cons_append]
    refine (reads_beginning hc (isSpace_of_isDigit hd)).bind ?_
    simp only [if_neg (hne 'n' rfl), if_neg (hne 't' rfl), if_neg (hne 'f' rfl),
      if_neg (hne '-' rfl), hd, if_true]
    exact hr
  · rw [List.cons_append, List.nil_append, bytesOf_cons_of_lt (by decide), List.cons_append]
    refine (reads_beginning hc rfl).bind ((reads_discard _ _).bind ?_)
    exact reads_skipNumber hi hf he hb

private theorem skips_string {w : List Char} (h : IsString w) : Skips w := by
  intro n cs bs hc _ _
  obtain ⟨body, hbody, hskip⟩ := reads_skipString h
  rw [hbody, List.cons_append]
  refine (reads_beginning hc rfl).bind ((reads_discard _ _).bind ((reads_bound _).bind ?_))
  refine hskip _ _ ?_
  rw [List.length_append]
  omega

/-- Every value is taken, and nothing more. -/
theorem skips_of_isValue {v : List Char} (h : IsValue v) : Skips v := by
  induction h with
  | word h => exact skips_word h
  | number h => exact skips_number h
  | string h => exact skips_string h
  | array hv hl ih =>
    intro n cs bs hc hn _
    rw [bytesOf_enclosed (by decide) (by decide)] at hn ⊢
    simp only [List.length_cons, List.length_append, List.length_nil] at hn
    rw [List.cons_append, List.append_assoc]
    refine (reads_beginning hc rfl).bind ((reads_discard _ _).bind ?_)
    exact reads_skipElements hl hv ih (by omega)
  | object hk hv hm hl ih =>
    intro n cs bs hc hn _
    rw [bytesOf_enclosed (by decide) (by decide)] at hn ⊢
    simp only [List.length_cons, List.length_append, List.length_nil] at hn
    rw [List.cons_append, List.append_assoc]
    refine (reads_beginning hc rfl).bind ((reads_discard _ _).bind ?_)
    exact reads_skipMembers hl hm hk hv ih (by omega)

end Relocation.Json.Reading

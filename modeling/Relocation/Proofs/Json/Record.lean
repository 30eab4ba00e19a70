import Mathlib.Data.List.Nodup
import Relocation.Proofs.Json.Skipped

/-!
# Records of JSON texts

An object is read as the record that its members say, in whatever order they stand and whatever
other members stand between them.
-/

namespace Relocation.Json

namespace Reading

variable {bs : List UInt8} {cs : List Char}

/-! ### Values of members -/

private theorem reads_stringValue {text : List Char} {s : String} (h : StringText text s)
    (hc : Blanks cs) (expected : String) :
    Reads (stringValue expected) (bytesOf cs ++ (bytesOf text ++ bs)) s bs := by
  obtain ⟨body, hbody, hr⟩ := reads_string h
  rw [hbody, List.cons_append]
  exact (reads_beginning hc rfl).bind ((reads_discard _ _).bind (hr bs))

private theorem reads_stringValue_here {text : List Char} {s : String} (h : StringText text s)
    (expected : String) : Reads (stringValue expected) (bytesOf text ++ bs) s bs :=
  reads_stringValue h blanks_nil expected

/-- The strings of an array are read up to its bracket. -/
theorem reads_stringElements {first : Bool} {items : List (List Char)} (hl : Listed first items cs)
    {ss : List String} (hs : List.Forall₂ StringText items ss) {n : Nat}
    (hn : (bytesOf cs).length < n) :
    Reads (stringElements n first) (bytesOf cs ++ byteOf ']' :: bs) ss (byteOf ']' :: bs) := by
  induction hl generalizing ss n with
  | done hb =>
    cases hs
    cases n with
    | zero => simp at hn
    | succ n => exact (reads_hasElement_done hb).bind (reads_pure [] _)
  | @item first lead item rest items hlead hrest ih =>
    cases hs with | @cons _ s _ ss hs hss => ?_
    obtain ⟨body, hbody, -⟩ := reads_string hs
    cases n with
    | zero => simp at hn
    | succ n =>
      simp only [bytesOf_append, List.length_append, hbody, List.length_cons] at hn
      have hvalue : Reads (stringValue "a string")
          (bytesOf item ++ (bytesOf rest ++ byteOf ']' :: bs)) s _ := reads_stringValue_here hs _
      simp only [bytesOf_append, List.append_assoc, hbody, List.cons_append] at hvalue ⊢
      refine (reads_hasElement hlead rfl (by decide)).bind (hvalue.bind ?_)
      exact (ih hss (by omega)).bind (reads_pure (s :: ss) _)

private theorem reads_variantName {names : List String} {text : List Char} {s : String}
    (h : StringText text s) (hs : s ∈ names) :
    Reads (variantName names) (bytesOf text ++ bs) s bs := by
  refine (reads_stringValue_here h _).bind ?_
  rw [if_pos (List.contains_iff_mem.mpr hs)]
  exact reads_pure s bs

/-- A value of a type is read as what it says. -/
theorem reads_memberValue {type : MemberType} {w : List Char} {v : MemberValue}
    (h : ValueText type w v) (hc : Blanks cs) :
    Reads (memberValue type) (bytesOf cs ++ (bytesOf w ++ bs)) v bs := by
  cases h with
  | string h => exact (reads_stringValue h hc _).bind (reads_pure _ bs)
  | null =>
    refine (reads_afterSpace_cons hc (by decide)).bind ((reads_discard _ _).bind ?_)
    exact (reads_word (by decide)).bind (reads_pure _ bs)
  | @optional w s h =>
    have hvalue : Reads (stringValue "a string") (bytesOf w ++ bs) s bs :=
      reads_stringValue_here h _
    obtain ⟨body, hbody, -⟩ := reads_string h
    rw [hbody, List.cons_append] at hvalue ⊢
    refine (reads_afterSpace_cons hc (by decide)).bind ?_
    exact hvalue.bind (reads_pure _ bs)
  | @strings items ss ds hi hl =>
    rw [bytesOf_enclosed (by decide) (by decide), List.cons_append, List.append_assoc]
    refine (reads_beginning hc (by decide)).bind ((reads_discard _ _).bind ?_)
    refine (reads_bound _).bind ((reads_stringElements hl hi ?_).bind ?_)
    · rw [List.length_append]
      omega
    · exact (reads_endArray blanks_nil).bind (reads_pure _ bs)
  | true =>
    refine (reads_beginning hc (by decide)).bind ((reads_discard _ _).bind ?_)
    exact (reads_word (by decide)).bind (reads_pure _ bs)
  | false =>
    refine (reads_beginning hc (by decide)).bind ((reads_discard _ _).bind ?_)
    exact (reads_word (by decide)).bind (reads_pure _ bs)
  | @variant names w s h hs =>
    have hname : Reads (variantName names) (bytesOf w ++ bs) s bs := reads_variantName h hs
    obtain ⟨body, hbody, -⟩ := reads_string h
    rw [hbody, List.cons_append] at hname ⊢
    exact (reads_beginning hc (by decide)).bind (hname.bind (reads_pure _ bs))

end Reading

/-! ### Members -/

/-- Tests whether members of a name belong to a record. -/
def isKnown (members : List Member) (name : String) : Bool :=
  (members.find? (·.name = name)).isSome

/-- The names of a record among those of an object's members. -/
def knownNames (members : List Member) (texts : List (String × List Char)) : List String :=
  (texts.map Prod.fst).filter (isKnown members)

/-- A member of an object has a value that a record can have, or is none of the record's. -/
inductive Fits (members : List Member) (value : String → MemberValue) :
    String × List Char → Prop where
  | known {name : String} {w : List Char} {m : Member}
      (hm : members.find? (·.name = name) = some m) (h : ValueText m.type w (value name)) :
      Fits members value (name, w)
  | other {name : String} {w : List Char} (hm : members.find? (·.name = name) = none)
      (h : IsValue w) : Fits members value (name, w)

/-- The texts of an object's members say what the members of a record are. Each of these is
written at most once, and one that is not written is what it falls back to. -/
structure Describes (members : List Member) (value : String → MemberValue)
    (texts : List (String × List Char)) : Prop where
  fits : ∀ w ∈ texts, Fits members value w
  once : (knownNames members texts).Nodup
  absent : ∀ m ∈ members, m.name ∉ texts.map Prod.fst → m.fallback = some (value m.name)

namespace Reading

variable {bs : List UInt8} {cs : List Char} {members : List Member} {value : String → MemberValue}

/-- A name that no entry has is not found. -/
theorem lookup_of_notMem {β : Type} {l : List (String × β)} {name : String}
    (h : name ∉ l.map Prod.fst) : l.lookup name = none := by
  rw [List.lookup_eq_none_iff]
  intro t ht
  simpa using fun he : name = t.1 ↦ h (he ▸ List.mem_map_of_mem ht)

/-- The values of names, as they are kept. -/
def entries (value : String → MemberValue) (names : List String) : ReadMembers :=
  names.map fun name ↦ (name, value name)

private theorem any_entries {names : List String} {name : String} (h : name ∉ names) :
    (entries value names).any (·.1 = name) = false := by
  rw [entries, List.any_map, List.any_eq_false]
  rintro n hn
  simpa using fun he : n = name ↦ h (he ▸ hn)

private theorem lookup_entries_of_mem {names : List String} {name : String} (h : name ∈ names) :
    (entries value names).lookup name = some (value name) := by
  induction names with
  | nil => simp at h
  | cons n names ih =>
    rw [entries, List.map_cons, List.lookup_cons]
    by_cases he : name = n
    · simp [he]
    · rw [beq_eq_false_iff_ne.mpr he]
      exact ih ((List.mem_cons.mp h).resolve_left he)

private theorem lookup_entries_of_notMem {names : List String} {name : String} (h : name ∉ names) :
    (entries value names).lookup name = none :=
  lookup_of_notMem (by simpa [entries] using h)

private theorem knownNames_cons (w : String × List Char) (texts : List (String × List Char))
    (names : List String) :
    (knownNames members (w :: texts)).reverse ++ names =
      (knownNames members texts).reverse ++ (knownNames members [w] ++ names) := by
  by_cases hk : isKnown members w.1 <;> simp [knownNames, hk]

/-- A member of an object is kept if it is one of the record, and otherwise taken without being
read. -/
theorem reads_objectMember {first : Bool} {lead item : List Char} (hl : Leads first lead)
    {w : String × List Char} (hi : ∃ name, StringText name w.1 ∧ MemberText name w.2 item)
    (hf : Fits members value w) {names : List String} (hnew : isKnown members w.1 → w.1 ∉ names)
    {n : Nat} {rest after : List UInt8} {out : ReadMembers} (hends : NumberEnds rest)
    (h : Reads (objectMembers members n false (entries value (knownNames members [w] ++ names)))
      rest out after) :
    Reads (objectMembers members (n + 1) first (entries value names))
      (bytesOf lead ++ (bytesOf item ++ rest)) out after := by
  obtain ⟨key, hkey, hitem⟩ := hi
  obtain ⟨body, hbody, hstring⟩ := reads_string hkey
  cases hitem with | @intro as ds ha hd => ?_
  have hcolon : bytesOf (':' :: (ds ++ w.2)) = byteOf ':' :: (bytesOf ds ++ bytesOf w.2) := by
    rw [bytesOf_cons_of_lt (by decide), bytesOf_append]
  simp only [bytesOf_append, List.append_assoc, hbody, hcolon, List.cons_append]
  refine (reads_hasKey hl).bind ((reads_discard _ _).bind ((hstring _).bind ?_))
  cases hf with
  | @known name v m hm hv =>
    have hk : isKnown members name := by rw [isKnown, hm]; rfl
    rw [knownNames, List.map_singleton, List.filter_cons_of_pos hk] at h
    simp only [hm, any_entries (hnew hk)]
    exact (reads_colon ha).bind ((reads_memberValue hv hd).bind h)
  | @other name v hm hv =>
    have hk : ¬isKnown members name := by rw [isKnown, hm]; exact Bool.false_ne_true
    rw [knownNames, List.map_singleton, List.filter_cons_of_neg hk] at h
    simp only [hm]
    refine (reads_colon ha).bind ((reads_bound _).bind ?_)
    refine ((skips_of_isValue hv).reads hv hd ?_ hends).bind h
    simp only [List.length_append]
    omega

/-- The members of an object are read up to its brace, the last one first. -/
theorem reads_objectMembers {first : Bool} {items : List (List Char)} (hl : Listed first items cs)
    {texts : List (String × List Char)}
    (hi : List.Forall₂ (fun m item ↦ ∃ name, StringText name m.1 ∧ MemberText name m.2 item)
      texts items)
    (hf : ∀ w ∈ texts, Fits members value w) {names : List String}
    (hnames : ((knownNames members texts).reverse ++ names).Nodup) {n : Nat}
    (hn : (bytesOf cs).length < n) :
    Reads (objectMembers members n first (entries value names))
      (bytesOf cs ++ byteOf '\x7d' :: bs)
      (entries value ((knownNames members texts).reverse ++ names)) (byteOf '\x7d' :: bs) := by
  induction hl generalizing texts names n with
  | done hb =>
    cases hi
    cases n with
    | zero => simp at hn
    | succ n => exact (reads_hasKey_done hb).bind (reads_pure _ _)
  | @item first lead item rest items hlead hrest ih =>
    cases hi with | @cons w _ texts _ hitem hi => ?_
    obtain ⟨hw, hfs⟩ := List.forall_mem_cons.mp hf
    have hends : NumberEnds (bytesOf rest ++ byteOf '\x7d' :: bs) :=
      numberEnds_of_listed hrest (by rintro b ⟨⟩; decide)
    -- a name that is kept now is none of those before it, since all of them differ in the end
    rw [knownNames_cons] at hnames ⊢
    have hnew (hk : isKnown members w.1) : w.1 ∉ names := by
      have hw : w.1 ∈ knownNames members [w] := by simp [knownNames, hk]
      have hdisjoint := (List.nodup_append.mp (List.nodup_append.mp hnames).2.1).2.2
      exact fun hn ↦ hdisjoint _ hw _ hn rfl
    have hlen : 0 < (bytesOf item).length := by
      obtain ⟨name, -, ⟨-, -⟩⟩ := hitem
      rw [bytesOf_append, bytesOf_append, bytesOf_cons_of_lt (by decide)]
      simp only [List.length_append, List.length_cons]
      omega
    cases n with
    | zero => simp at hn
    | succ n =>
      simp only [bytesOf_append, List.length_append] at hn
      simp only [bytesOf_append, List.append_assoc]
      exact reads_objectMember hlead hitem hw hnew hends (ih hi hfs hnames (by omega))

/-- A list of readers that take nothing. -/
theorem reads_mapM {α β : Type} {f : α → Reading β} {g : α → β} {as : List α}
    (h : ∀ a ∈ as, Reads (f a) bs (g a) bs) : Reads (as.mapM f) bs (as.map g) bs := by
  induction as with
  | nil => exact reads_pure [] bs
  | cons a as ih =>
    obtain ⟨ha, has⟩ := List.forall_mem_cons.mp h
    rw [List.mapM_cons]
    exact ha.bind ((ih has).bind (reads_pure _ bs))

private theorem mem_knownNames {texts : List (String × List Char)} {m : Member} (hm : m ∈ members) :
    m.name ∈ knownNames members texts ↔ m.name ∈ texts.map Prod.fst := by
  rw [knownNames, List.mem_filter, and_iff_left]
  exact List.find?_isSome.mpr ⟨m, hm, by simp⟩

private theorem reads_complete {texts : List (String × List Char)}
    (h : Describes members value texts) :
    Reads (complete members (entries value ((knownNames members texts).reverse ++ []))) bs
      (members.map fun m ↦ value m.name) bs := by
  refine reads_mapM fun m hm ↦ ?_
  rw [List.append_nil]
  by_cases hn : m.name ∈ texts.map Prod.fst
  · rw [lookup_entries_of_mem (List.mem_reverse.mpr ((mem_knownNames hm).mpr hn))]
    exact reads_pure _ bs
  · rw [lookup_entries_of_notMem (fun hk ↦ hn ((mem_knownNames hm).mp (List.mem_reverse.mp hk))),
      h.absent m hm hn]
    exact reads_pure _ bs

private theorem reads_enclosed {inner : Reading (List MemberValue)} {close : Reading Unit}
    {before mid after : List UInt8} {vs : List MemberValue} (hi : Reads inner before vs mid)
    (hc : Reads close mid () after) : Reads (record.enclosed inner close) before vs after := by
  refine Reads.bind (Reads.tryCatch (hi.bind (reads_pure (Except.ok vs) mid))) ?_
  refine Reads.bind (Reads.tryCatch (hc.bind (reads_pure (Except.ok ()) after))) ?_
  exact reads_pure vs after

private theorem reads_atEnd (h : Blanks cs) : Reads atEnd (bytesOf cs) () [] := by
  have ha : Reads afterSpace (bytesOf cs ++ []) none [] := reads_afterSpace h (by simp)
  rw [List.append_nil] at ha
  exact ha.bind (reads_pure () [])

end Reading

open Reading

/-- An object is read as the record that its members describe. -/
theorem readRecord_eq {shape : Shape} {value : String → MemberValue}
    {texts : List (String × List Char)} {text : List Char}
    (h : Describes shape.members value texts) (ht : ObjectText texts text) (streamed : Bool) :
    readRecord shape streamed (bytesOf text) =
      .ok (shape.members.map fun m ↦ value m.name) := by
  cases ht with | @intro items as cs bs ha hb hm hl => ?_
  have hmembers : Reads
      (do complete shape.members (← objectMembers shape.members (← bound) true []))
      (bytesOf cs ++ byteOf '\x7d' :: bytesOf bs) (shape.members.map fun m ↦ value m.name)
      (byteOf '\x7d' :: bytesOf bs) := by
    refine (reads_bound _).bind ?_
    refine (@reads_objectMembers _ _ _ _ _ _ hl _ hm h.fits [] ?_ _ ?_).bind (reads_complete h)
    · simpa [List.nodup_reverse] using h.once
    · rw [List.length_append]
      omega
  have hrecord : Reads (record shape)
      (bytesOf as ++ byteOf '\x7b' :: (bytesOf cs ++ byteOf '\x7d' :: bytesOf bs))
      (shape.members.map fun m ↦ value m.name) (bytesOf bs) := by
    refine Reads.tryCatch ((reads_beginning ha rfl).bind ((reads_discard _ _).bind ?_))
    exact reads_enclosed hmembers (reads_endObject blanks_nil)
  have hbytes : bytesOf (as ++ '\x7b' :: (cs ++ '\x7d' :: bs)) =
      bytesOf as ++ byteOf '\x7b' :: (bytesOf cs ++ byteOf '\x7d' :: bytesOf bs) := by
    rw [bytesOf_append, bytesOf_cons_of_lt (by decide), bytesOf_append,
      bytesOf_cons_of_lt (by decide)]
  have htext : Reads (do
        let values ← record shape
        atEnd
        return values)
      (bytesOf as ++ byteOf '\x7b' :: (bytesOf cs ++ byteOf '\x7d' :: bytesOf bs))
      (shape.members.map fun m ↦ value m.name) [] :=
    hrecord.bind ((reads_atEnd hb).bind (reads_pure _ []))
  obtain ⟨c, hc, -⟩ := htext
    { rest := bytesOf (as ++ '\x7b' :: (cs ++ '\x7d' :: bs)), streamed := streamed } hbytes
  exact congrArg Prod.fst hc

end Relocation.Json

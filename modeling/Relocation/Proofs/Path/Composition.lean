import Relocation.Proofs.Path.Inverse

/-!
# Paths read one after the other

Joining paths is associative as they are written, and it does not matter whether what stands in
front is cleaned before another path is joined to it. So two paths that are read one after the
other lead where they lead when they are joined first, and likewise any number of them.
-/

namespace Relocation.Path

open Text.Utf8 (IsText)

variable {base p q : Path}

/-! ### Joining as it is written -/

/-- Relative paths joined are relative. -/
theorem isAbsolute_join_of_relative (hp : p.isAbsolute = false) (hq : q.isAbsolute = false) :
    (p.join q).isAbsolute = false := by
  obtain ⟨bs⟩ := p
  unfold join
  rw [hq, if_neg Bool.false_ne_true]
  cases bs with
  | nil => exact hq
  | cons b bs => split <;> exact hp

/-- Joining is associative, byte for byte. -/
theorem join_assoc (p q r : Path) : (p.join q).join r = p.join (q.join r) := by
  cases hr : r.isAbsolute with
  | true => rw [join_of_isAbsolute _ hr, join_of_isAbsolute q hr, join_of_isAbsolute p hr]
  | false =>
    cases hq : q.isAbsolute with
    | true => rw [join_of_isAbsolute p hq, join_of_isAbsolute p (isAbsolute_join r hq)]
    | false =>
      -- the segment that gives way behind both is the one that gives way behind the second
      apply eq_of_segments
      rw [segments_join _ hr, segments_join p hq, frontSegments_append _ q.segments_ne_nil,
        segments_join p (isAbsolute_join_of_relative hq hr), segments_join q hr,
        List.append_assoc]

/-! ### Cleaning early and late -/

private theorem isAbsolute_clean (ha : p.isAbsolute) (ht : IsText p.bytes) : p.clean.isAbsolute :=
  (isText_iff_isAbsolute_clean ha).mp ht

private theorem isText_clean (ha : p.isAbsolute) (ht : IsText p.bytes) : IsText p.clean.bytes := by
  rw [clean_of_isAbsolute ha ht]
  exact isText_rooted (isText_of_mem_names ht)

/-- A clean form is its own clean form. -/
theorem clean_clean (ha : p.isAbsolute) (ht : IsText p.bytes) : p.clean.clean = p.clean := by
  rw [clean_of_isAbsolute (isAbsolute_clean ha ht) (isText_clean ha ht), names_clean ha ht,
    clean_of_isAbsolute ha ht]

/-- Of the paths of plain names only the root ends with a slash. -/
theorem eq_slash_of_getLast?_rooted {ns : List Name} (h : ∀ n ∈ ns, Plain n)
    (hl : (rooted ns).bytes.getLast? = some slash) : (rooted ns).bytes = [slash] := by
  by_cases hn : ns = []
  · rw [hn]
    rfl
  · have hlast := getLast?_joinSegments hn fun n hm ↦ ⟨(h n hm).ne_nil, (h n hm).noSlash⟩
    have hne : joinSegments ns ≠ [] := fun hs ↦
      hn ((joinSegments_eq_nil_iff fun n hm ↦ (h n hm).ne_nil).mp hs)
    rw [bytes_rooted, List.getLast?_cons_of_ne_nil hne] at hl
    rw [hl] at hlast
    exact absurd hlast (by decide)

/-- It does not matter whether a path is cleaned before another one is joined to it. -/
theorem clean_join_clean (q : Path) (ha : p.isAbsolute) (ht : IsText p.bytes) :
    (p.clean.join q).clean = (p.join q).clean := by
  cases hq : q.isAbsolute with
  | true => rw [join_of_isAbsolute _ hq, join_of_isAbsolute _ hq]
  | false =>
    have hac := isAbsolute_clean ha ht
    by_cases hqt : IsText q.bytes
    · rw [clean_of_isAbsolute (isAbsolute_join q hac) (isText_join (isText_clean ha ht) hqt),
        clean_of_isAbsolute (isAbsolute_join q ha) (isText_join ht hqt), names_join hq,
        names_join hq, names_clean ha ht]
    · have hjoin : ∀ front : Path, ¬IsText (front.join q).bytes := fun front h ↦
        hqt ((isText_join_iff hq).mp h).2
      rw [clean_of_not_isText (hjoin _), clean_of_not_isText (hjoin _)]

/-! ### Reading from a base -/

/-- The empty path leads to the clean form. -/
theorem resolve_empty (ha : p.isAbsolute) (ht : IsText p.bytes) :
    p.resolve ⟨[]⟩ = .ok p.clean := by
  have hs : (⟨[]⟩ : Path).segments = [[]] := rfl
  rw [resolve_of_relative ha ht rfl Text.Utf8.isText_nil, clean_of_isAbsolute ha ht, hs,
    reach_cons_nil, reach_nil]

/-- What is read from where another path leads is read from the base behind that path. -/
theorem resolve_bind_resolve (q : Path) (ht : IsText (base.join p).bytes) :
    (base.resolve p >>= fun way ↦ way.resolve q) = base.resolve (p.join q) := by
  by_cases hb : base.isAbsolute
  · have ha := isAbsolute_join p hb
    have hp : base.resolve p = .ok (base.join p).clean := if_pos hb
    have hpq : base.resolve (p.join q) = .ok ((base.join p).join q).clean := by
      rw [join_assoc]
      exact if_pos hb
    rw [hp, hpq, ← clean_join_clean q ha ht]
    exact if_pos (isAbsolute_clean ha ht)
  · rw [resolve, resolve, if_neg hb, if_neg hb]
    rfl

/-- Paths that are read one after the other, each from where the one before leads, lead where they
lead when they are joined. -/
theorem foldlM_resolve (ps : List Path) (hb : IsText base.bytes)
    (ht : ∀ q ∈ p :: ps, IsText q.bytes) :
    (p :: ps).foldlM resolve base = base.resolve (ps.foldl join p) := by
  induction ps generalizing p with
  | nil => simp
  | cons q ps ih =>
    obtain ⟨hp, hrest⟩ := List.forall_mem_cons.mp ht
    obtain ⟨hq, hps⟩ := List.forall_mem_cons.mp hrest
    calc (p :: q :: ps).foldlM resolve base
        = (base.resolve p >>= fun way ↦ way.resolve q) >>= fun way ↦ ps.foldlM resolve way := by
          rw [List.foldlM_cons, bind_assoc]
          rfl
      _ = (p.join q :: ps).foldlM resolve base := by
          rw [resolve_bind_resolve q (isText_join hb hp), List.foldlM_cons]
      _ = base.resolve ((q :: ps).foldl join p) :=
          ih (List.forall_mem_cons.mpr ⟨isText_join hp hq, hps⟩)

/-- A path that is text is read from every absolute base that is text. It leads to a slash with
plain names behind it, one slash between every two of them, so that only the root ends with a slash.
Whatever is read from there is read from the base behind the first path, and the empty path leads
nowhere else. -/
theorem resolve_acts_by_join (hb : base.isAbsolute) (hbt : IsText base.bytes)
    (hp : IsText p.bytes) :
    ∃ place, base.resolve p = .ok place ∧ place.isAbsolute ∧ IsText place.bytes ∧
      (∃ ns : List Name, place.bytes = slash :: joinSegments ns ∧ ∀ n ∈ ns, Plain n) ∧
      (place.bytes.getLast? = some slash → place.bytes = [slash]) ∧
      (∀ q, place.resolve q = base.resolve (p.join q)) ∧
      place.resolve ⟨[]⟩ = .ok place := by
  have ha := isAbsolute_join p hb
  have ht := isText_join hbt hp
  have hplace : base.resolve p = .ok (base.join p).clean := if_pos hb
  refine ⟨(base.join p).clean, hplace, isAbsolute_clean ha ht, isText_clean ha ht, ?_, ?_, ?_, ?_⟩
  · rw [clean_of_isAbsolute ha ht]
    exact ⟨(base.join p).names, rfl, plain_of_mem_names⟩
  · rw [clean_of_isAbsolute ha ht]
    exact eq_slash_of_getLast?_rooted plain_of_mem_names
  · intro q
    rw [← resolve_bind_resolve q ht, hplace]
    rfl
  · rw [resolve_empty (isAbsolute_clean ha ht) (isText_clean ha ht), clean_clean ha ht]

/-- The first path climbs over the root, the second one takes back the last name. -/
theorem resolve_acts_by_join_of_climbing :
    ∃ place, (ofString "/a/./b//").resolve (ofString "../../../x//c/.") = .ok place ∧
      place = ofString "/x/c" ∧ place.resolve (ofString "..//y/") = .ok (ofString "/x/y") ∧
      (ofString "/a/./b//").resolve
        ((ofString "../../../x//c/.").join (ofString "..//y/")) = .ok (ofString "/x/y") ∧
      place.resolve ⟨[]⟩ = .ok place := by
  obtain ⟨place, hplace, -, -, -, -, hread, hempty⟩ := @resolve_acts_by_join
    (ofString "/a/./b//") (ofString "../../../x//c/.") (by decide) (isText_ofString _)
    (isText_ofString _)
  have hclean : (ofString "/a/./b//").resolve (ofString "../../../x//c/.") =
      .ok (ofString "/x/c") := by decide +kernel
  obtain rfl : place = ofString "/x/c" := Except.ok.inj (hplace.symm.trans hclean)
  have hsecond : (ofString "/x/c").resolve (ofString "..//y/") = .ok (ofString "/x/y") := by
    decide +kernel
  exact ⟨_, hclean, rfl, hsecond, (hread _).symm.trans hsecond, hempty⟩

end Relocation.Path

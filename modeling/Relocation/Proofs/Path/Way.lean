import Relocation.Proofs.Path.Relative

/-!
# Ways between any directories

A directory that ways are measured from, and a file that they are measured to, begins at the root
or is the clean form of bytes that are no text. Between two of them there is a way unless only
the start is text. Marked as relative, it is read back from any directory along the way between
the names of the clean forms; not marked, it stands for the target itself where only that is text.
-/

namespace Relocation.Path

open Text.Utf8 (IsText encode encode_inj encode_empty)

/-! ### Clean forms that ways are measured between -/

/-- A path that begins at the root, or the clean form of one that is no text. -/
def Anchored (p : Path) : Prop := p.isAbsolute ∨ p = ⟨dot⟩

/-- A dot is clean. -/
theorem clean_dot : (⟨dot⟩ : Path).clean = ⟨dot⟩ := by decide

/-- A dot leads to no names. -/
theorem names_dot : (⟨dot⟩ : Path).names = [] := rfl

/-- The clean form of an anchored path is the path of its names, or no text was there. -/
theorem clean_of_anchored {p : Path} (h : Anchored p) :
    (p.clean = rooted p.clean.names ∧ p.isAbsolute ∧ IsText p.bytes) ∨
      (p.clean = ⟨dot⟩ ∧ ¬(p.isAbsolute ∧ IsText p.bytes)) := by
  rcases h with ha | rfl
  · by_cases ht : IsText p.bytes
    · left
      rw [clean_of_isAbsolute ha ht, names_rooted plain_of_mem_names]
      exact ⟨rfl, ha, ht⟩
    · exact .inr ⟨clean_of_not_isText ht, fun h ↦ ht h.2⟩
  · exact .inr ⟨clean_dot, fun h ↦ absurd h.1 (by decide)⟩

/-- A path has an absolute clean form if it begins at the root and is text. -/
theorem isAbsolute_clean_iff {p : Path} (h : Anchored p) :
    p.clean.isAbsolute ↔ p.isAbsolute ∧ IsText p.bytes := by
  rcases clean_of_anchored h with ⟨hc, ha, ht⟩ | ⟨hc, hn⟩
  · rw [hc, isAbsolute_rooted]
    exact iff_of_true rfl ⟨ha, ht⟩
  · rw [hc]
    exact iff_of_false (by decide) hn

/-- The clean form of an absolute path that is text leads to the same names. -/
theorem names_clean {p : Path} (ha : p.isAbsolute) (ht : IsText p.bytes) :
    p.clean.names = p.names := by
  rw [clean_of_isAbsolute ha ht, names_rooted plain_of_mem_names]

/-- Bytes that are no text have no names. -/
theorem names_clean_of_not_isAbsolute {p : Path} (h : Anchored p)
    (ha : p.clean.isAbsolute = false) : p.clean.names = [] := by
  rcases clean_of_anchored h with ⟨hc, -⟩ | ⟨hc, -⟩
  · rw [hc, isAbsolute_rooted] at ha
    cases ha
  · rw [hc, names_dot]

/-- A clean form that begins at the root is the absolute path of its names. -/
theorem clean_of_isAbsolute_clean {p : Path} (h : Anchored p) (ha : p.clean.isAbsolute) :
    p.clean = rooted p.clean.names := by
  rcases clean_of_anchored h with ⟨hc, -⟩ | ⟨hc, -⟩
  · exact hc
  · rw [hc] at ha
    exact absurd ha (by decide)

/-- A clean form that does not begin at the root is a dot. -/
theorem clean_of_not_isAbsolute_clean {p : Path} (h : Anchored p)
    (ha : p.clean.isAbsolute = false) : p.clean = ⟨dot⟩ := by
  rcases clean_of_anchored h with ⟨hc, -⟩ | ⟨hc, -⟩
  · rw [hc, isAbsolute_rooted] at ha
    cases ha
  · exact hc

/-- What is read from a base can be measured from. -/
theorem anchored_of_resolve {base p q : Path} (h : base.resolve p = .ok q) :
    base.isAbsolute ∧ Anchored q := by
  unfold resolve at h
  split at h
  · next hb =>
    cases h
    refine ⟨hb, ?_⟩
    by_cases ht : IsText (base.join p).bytes
    · rw [clean_of_isAbsolute (isAbsolute_join p hb) ht]
      exact .inl (isAbsolute_rooted _)
    · exact .inr (clean_of_not_isText ht)
  · cases h

private theorem isText_of_mem_names_clean {p : Path} (h : Anchored p) :
    ∀ n ∈ p.clean.names, IsText n := by
  rcases clean_of_anchored h with ⟨hc, ha, ht⟩ | ⟨hc, -⟩
  · rw [clean_of_isAbsolute ha ht, names_rooted plain_of_mem_names]
    exact isText_of_mem_names ht
  · rw [hc, names_dot]
    simp

/-! ### Paths below others -/

/-- A path lies strictly below another. -/
def IsBelow (q p : Path) : Prop := p.components <+: q.components ∧ p.components ≠ q.components

/-- Names go on behind others. -/
def GoesOn (ns ms : List Name) : Prop := ns <+: ms ∧ ns ≠ ms

private theorem goesOn_append_iff (ks : List Name) {ns ms : List Name} :
    GoesOn (ks ++ ns) (ks ++ ms) ↔ GoesOn ns ms := by
  rw [GoesOn, GoesOn, List.prefix_append_right_inj, ne_eq, List.append_cancel_left_eq]

/-- What a way leads to lies within the directory that it is read from exactly if the way comes down
again by the names that it has left. -/
theorem prefix_reach_wayBetween_iff {os ss fs : List Name} (ho : ∀ n ∈ os, Plain n)
    (hf : ∀ n ∈ fs, Plain n) :
    os <+: reach os (wayBetween ss fs) ↔
      os.drop (os.length - climb ss fs) <+: descent ss fs := by
  rw [reach_wayBetween ho hf]
  refine Iff.trans ?_ (List.prefix_append_right_inj (os.take (os.length - climb ss fs)))
  rw [List.take_append_drop]

/-- It goes on behind that directory if the way goes on behind these names. -/
theorem goesOn_reach_wayBetween_iff {os ss fs : List Name} (ho : ∀ n ∈ os, Plain n)
    (hf : ∀ n ∈ fs, Plain n) :
    GoesOn os (reach os (wayBetween ss fs)) ↔
      GoesOn (os.drop (os.length - climb ss fs)) (descent ss fs) := by
  rw [reach_wayBetween ho hf]
  refine Iff.trans ?_ (goesOn_append_iff (os.take (os.length - climb ss fs)))
  rw [List.take_append_drop]

/-- Absolute paths of plain names lie below each other if the names go on. -/
theorem isBelow_rooted {qs ps : List Name} (hq : ∀ n ∈ qs, Plain n) (hp : ∀ n ∈ ps, Plain n) :
    IsBelow (rooted qs) (rooted ps) ↔ GoesOn ps qs := by
  have hinj : Function.Injective Component.name := fun _ _ h ↦ Component.name.inj h
  rw [IsBelow, GoesOn, components_rooted hq, components_rooted hp, List.cons_prefix_cons,
    List.prefix_map_iff_of_injective hinj, ne_eq, List.cons.injEq, List.map_inj_right hinj]
  simp

/-- Nothing absolute lies below what was no text. -/
theorem not_isBelow_dot {q : Path} (h : q.isAbsolute ∨ q = ⟨dot⟩) : ¬IsBelow q ⟨dot⟩ := by
  rintro ⟨hpre, hne⟩
  rcases h with h | rfl
  · have hc : q.components = .root :: q.segments.filterMap Component.ofSegment := by
      simp [components, h]
    rw [hc, show (⟨dot⟩ : Path).components = [.current] by decide, List.cons_prefix_cons] at hpre
    cases hpre.1
  · exact hne rfl

/-- Nor does what was no text lie below anything. -/
theorem not_dot_isBelow {p : Path} (h : Anchored p) : ¬IsBelow ⟨dot⟩ p.clean := by
  rintro ⟨hpre, hne⟩
  rcases clean_of_anchored h with ⟨hc, -⟩ | ⟨hc, -⟩
  · rw [hc, components_rooted plain_of_mem_names, show (⟨dot⟩ : Path).components = [.current]
      by decide, List.cons_prefix_cons] at hpre
    cases hpre.1
  · rw [hc] at hne
    exact hne rfl

/-- The clean forms of paths one below the other are absolute, and one has the names of the other
and some more. -/
theorem exists_names_of_isBelow {p q : Path} (hp : Anchored p) (hq : Anchored q)
    (h : IsBelow q.clean p.clean) :
    p.clean.isAbsolute ∧ q.clean.isAbsolute ∧
      ∃ xs, p.clean.names ++ xs = q.clean.names ∧ xs ≠ [] := by
  rcases clean_of_anchored hq with ⟨hqc, -⟩ | ⟨hqc, -⟩
  · rcases clean_of_anchored hp with ⟨hpc, -⟩ | ⟨hpc, -⟩
    · have hgoes : GoesOn p.clean.names q.clean.names := by
        rw [hqc, hpc, isBelow_rooted plain_of_mem_names plain_of_mem_names] at h
        exact h
      obtain ⟨⟨xs, hxs⟩, hne⟩ := hgoes
      refine ⟨by rw [hpc, isAbsolute_rooted], by rw [hqc, isAbsolute_rooted], xs, hxs, ?_⟩
      rintro rfl
      exact hne (by rw [← hxs, List.append_nil])
    · rw [hpc] at h
      exact absurd h (not_isBelow_dot (.inl (by rw [hqc, isAbsolute_rooted])))
  · rw [hqc] at h
    exact absurd h (not_dot_isBelow hp)

/-! ### What a way is -/

/-- The spelling of the way between two anchored paths, if there is one. Where only the target has
an absolute clean form, it is written as it is. -/
def way? (p q : Path) : Option (List UInt8) :=
  match p.clean.isAbsolute, q.clean.isAbsolute with
  | true, true => some (joinSegments (wayBetween p.clean.names q.clean.names))
  | false, true => some (slash :: joinSegments q.clean.names)
  | false, false => some []
  | true, false => none

private theorem ok_eq_ok_iff {ε : Type} {s t : String} :
    (Except.ok s : Except ε String) = .ok t ↔ some (encode s) = some (encode t) := by
  rw [Except.ok.injEq, Option.some.injEq, encode_inj]

/-- There is no way from text to bytes that are no text. -/
theorem relative_eq_error {p q : Path} (hp : p.clean.isAbsolute) (hq : q.clean = ⟨dot⟩) :
    relative p q = .error (.noRelativePath p.clean ⟨dot⟩) := by
  have hdiff : difference? ⟨dot⟩ p.clean = none := by
    rw [difference?, hp, if_neg (by decide), if_neg (by decide)]
  simp only [relative, hq, hdiff]

/-- The way between anchored paths is written as it is spelled. -/
theorem relative_eq_ok_iff {p q : Path} (hp : Anchored p) (hq : Anchored q) {way : String} :
    relative p q = .ok way ↔ way? p q = some (encode way) := by
  cases hpa : p.clean.isAbsolute <;> cases hqa : q.clean.isAbsolute <;>
    simp only [way?, hpa, hqa]
  case false.false =>
    have hr : relative p q = .ok "" := by
      rw [relative, clean_of_not_isAbsolute_clean hp hpa, clean_of_not_isAbsolute_clean hq hqa]
      rfl
    rw [hr, ok_eq_ok_iff, encode_empty]
  case false.true =>
    obtain ⟨direct, hd⟩ := isText_rooted (isText_of_mem_names_clean hq)
    have ht : (rooted q.clean.names).text? = some direct := Text.Utf8.decode?_eq_some_iff.mpr hd
    have hdiff : difference? (rooted q.clean.names) ⟨dot⟩ = some (rooted q.clean.names) := by
      rw [difference?, isAbsolute_rooted, if_neg (by decide), if_pos rfl]
    have hr : relative p q = .ok direct := by
      rw [← clean_of_isAbsolute_clean hq hqa] at ht hdiff
      simp only [relative, clean_of_not_isAbsolute_clean hp hpa, hdiff, ht]
    rw [hr, ok_eq_ok_iff, ← hd, bytes_rooted]
  case true.false =>
    simp [relative_eq_error hpa (clean_of_not_isAbsolute_clean hq hqa)]
  case true.true =>
    obtain ⟨ha, ht⟩ := (isAbsolute_clean_iff hp).mp hpa
    obtain ⟨hqa', hqt'⟩ := (isAbsolute_clean_iff hq).mp hqa
    obtain ⟨between, hr, hb⟩ := relative_eq_ok ha ht hqa' hqt'
    rw [hr, ok_eq_ok_iff, hb, names_clean ha ht, names_clean hqa' hqt']

/-- There is a way between anchored paths, unless only the start has an absolute clean form. -/
theorem exists_relative_iff {p q : Path} (hp : Anchored p) (hq : Anchored q) :
    (∃ way, relative p q = .ok way) ↔ (p.clean.isAbsolute → q.clean.isAbsolute) := by
  simp only [relative_eq_ok_iff hp hq]
  have hqt := isText_of_mem_names_clean hq
  cases hpa : p.clean.isAbsolute <;> cases hqa : q.clean.isAbsolute <;>
    simp only [way?, hpa, hqa, Option.some.injEq]
  case false.false => exact iff_of_true ⟨"", encode_empty.symm⟩ id
  case false.true =>
    obtain ⟨direct, hd⟩ := isText_rooted hqt
    exact iff_of_true ⟨direct, hd⟩ fun _ ↦ trivial
  case true.false => simp
  case true.true =>
    obtain ⟨between, hb⟩ : IsText (joinSegments (wayBetween p.clean.names q.clean.names)) :=
      isText_joinSegments (forall_mem_wayBetween ⟨"..", rfl⟩ hqt)
    exact iff_of_true ⟨between, hb⟩ id

/-! ### Reading a way back -/

/-- A way that does not begin with a dot is marked by one. -/
theorem markRelative_of_head {way : String} (h : (encode way).head? ≠ some 46) :
    markRelative way = "./" ++ way := by
  have hdot : ∀ t : String, way ≠ "." ++ t := by
    rintro t rfl
    rw [Text.Utf8.encode_append] at h
    exact h rfl
  have hstart : ∀ t : String, way.startsWith ("." ++ t) = false := by
    intro t
    rw [Bool.eq_false_iff]
    intro hs
    obtain ⟨cs, hcs⟩ := String.startsWith_string_iff.mp hs
    refine hdot (t ++ String.ofList cs) (String.toList_injective ?_)
    simpa using hcs.symm
  unfold markRelative
  rw [if_neg]
  rintro (h | h | h | h)
  · exact hdot "" h
  · exact hdot "." h
  · exact absurd (hstart "/") (by simp [h])
  · exact absurd (hstart "./") (by simp [h])

/-- A spelled path of plain names is the path of these names. -/
theorem ofString_eq_rooted {way : String} {bs : List Name}
    (h : encode way = slash :: joinSegments bs) : ofString way = rooted bs :=
  congrArg Path.mk h

private theorem reach_segments_rooted {bs : List Name} (hb : ∀ b ∈ bs, Plain b) (ns : List Name) :
    reach ns (rooted bs).segments = reach ns bs := by
  by_cases hn : bs = []
  · subst hn
    rw [segments_root, reach_cons_nil, reach_cons_nil]
  · rw [segments_rooted hn fun b h ↦ (hb b h).noSlash, reach_cons_nil]

/-- The way from the root consists of the target's names. -/
theorem wayBetween_nil_left (bs : List Name) : wayBetween [] bs = bs := by
  simp [wayBetween, climb, descent, commonLength]

section

variable {p q base : Path} {way : String}

/-- What a way between anchored paths can be: empty between bytes that are no text, the target as
it is from such bytes, and else as many dots and names as lie between. -/
inductive IsWay (p q : Path) (way : String) : Prop where
  | nowhere (start : p.clean = ⟨dot⟩) (target : q.clean = ⟨dot⟩) (empty : way = "")
  | whole (start : p.clean = ⟨dot⟩) (target : q.clean.isAbsolute)
      (spelled : ofString way = rooted q.clean.names) (marked : markRelative way = "./" ++ way)
  | between (start : p.clean.isAbsolute) (target : q.clean.isAbsolute)
      (spelled : encode way = joinSegments (wayBetween p.clean.names q.clean.names))

/-- The relative path between two anchored paths is a way between them. -/
theorem isWay_of_relative (hp : Anchored p) (hq : Anchored q) (h : relative p q = .ok way) :
    IsWay p q way := by
  have hw := (relative_eq_ok_iff hp hq).mp h
  cases hpa : p.clean.isAbsolute <;> cases hqa : q.clean.isAbsolute <;>
    simp only [way?, hpa, hqa, Option.some.injEq, reduceCtorEq] at hw
  case false.false =>
    exact .nowhere (clean_of_not_isAbsolute_clean hp hpa) (clean_of_not_isAbsolute_clean hq hqa)
      (encode_inj.mp hw.symm)
  case false.true =>
    exact .whole (clean_of_not_isAbsolute_clean hp hpa) hqa (ofString_eq_rooted hw.symm)
      (markRelative_of_head (by rw [← hw, List.head?_cons]; decide))
  case true.true => exact .between hpa hqa hw.symm

/-- A marked way does not begin at the root. -/
theorem isAbsolute_ofString_markRelative (hp : Anchored p) (hq : Anchored q)
    (h : relative p q = .ok way) : (ofString (markRelative way)).isAbsolute = false := by
  cases isWay_of_relative hp hq h with
  | nowhere _ _ empty =>
    subst empty
    decide
  | whole _ _ _ marked => rw [marked, isAbsolute_dot_slash]
  | between _ _ spelled => exact (isAbsolute_ofString_wayBetween plain_of_mem_names spelled).2

/-- Marked as relative, a way is read back along the names of the clean forms. -/
theorem resolve_markRelative (hp : Anchored p) (hq : Anchored q) (h : relative p q = .ok way)
    (hb : base.isAbsolute) (hbt : IsText base.bytes) :
    base.resolve (ofString (markRelative way)) =
      .ok (rooted (reach base.names (wayBetween p.clean.names q.clean.names))) := by
  have hplain : ∀ n ∈ q.clean.names, Plain n := plain_of_mem_names
  rw [resolve_of_relative hb hbt (isAbsolute_ofString_markRelative hp hq h) (isText_ofString _)]
  cases isWay_of_relative hp hq h with
  | nowhere start target empty =>
    rw [start, target, empty, names_dot]
    rfl
  | whole start _ spelled marked =>
    rw [marked, segments_dot_slash, reach_cons_dot, spelled, reach_segments_rooted hplain, start,
      names_dot, wayBetween_nil_left]
  | between _ _ spelled =>
    rw [reach_markRelative spelled fun s hs ↦ (solid_of_mem_wayBetween _ hplain s hs).2]

/-- Not marked, a way is read back so too, unless it is the target as it is written. -/
theorem resolve_relative (hp : Anchored p) (hq : Anchored q) (h : relative p q = .ok way)
    (hb : base.isAbsolute) (hbt : IsText base.bytes) :
    base.resolve (ofString way) = .ok (rooted
      (if p.clean.isAbsolute = false ∧ q.clean.isAbsolute then q.clean.names
      else reach base.names (wayBetween p.clean.names q.clean.names))) := by
  have hplain : ∀ n ∈ q.clean.names, Plain n := plain_of_mem_names
  cases isWay_of_relative hp hq h with
  | nowhere start target empty =>
    rw [start, target, empty, if_neg (by decide), names_dot,
      resolve_of_relative hb hbt (by decide) (isText_ofString _)]
    rfl
  | whole start target spelled _ =>
    rw [if_pos ⟨by rw [start]; decide, target⟩, spelled,
      resolve_of_isAbsolute hb (isAbsolute_rooted _)
        (isText_rooted (isText_of_mem_names_clean hq)), names_rooted hplain]
  | between start _ spelled =>
    rw [if_neg (by simp [start]),
      resolve_of_relative hb hbt (isAbsolute_ofString_wayBetween hplain spelled).1
        (isText_ofString _),
      reach_segments_ofString spelled fun s hs ↦ (solid_of_mem_wayBetween _ hplain s hs).2]

end

end Relocation.Path

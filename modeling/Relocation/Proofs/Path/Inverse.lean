import Relocation.Proofs.Path.Way

/-!
# Ways are read back

Between paths that are text, the way leads from its start to its target, marked as relative or
not, and it is the shortest one that climbs no further than to the last common directory. Bytes
that are no text lose what they mean when they are cleaned, so what is read from them or to them
is right only where nothing of them is needed.
-/

namespace Relocation.Path

open Text.Utf8 (IsText encode encode_inj encode_empty)

/-! ### Ways between text -/

/-- Behind the common beginning, two lists of names do not begin with the same name. -/
theorem head?_drop_commonLength (as bs : List Name) (n : Name)
    (h : (as.drop (commonLength as bs)).head? = some n) : (descent as bs).head? ≠ some n := by
  unfold descent
  fun_induction commonLength with
  | case1 as b bs ih =>
    rw [List.drop_succ_cons] at h ⊢
    exact ih h
  | case2 a as b bs hne =>
    intro hb
    exact hne (Option.some.inj (h.trans hb.symm))
  | case3 as bs hcons =>
    rw [List.drop_zero] at h ⊢
    cases as with
    | nil => cases h
    | cons a as =>
      cases bs with
      | nil => simp
      | cons b bs => exact absurd rfl (hcons a as b bs rfl)

/-- There is nothing between two lists of names exactly if they are the same. -/
theorem wayBetween_eq_nil_iff {as bs : List Name} : wayBetween as bs = [] ↔ as = bs := by
  constructor
  · intro h
    obtain ⟨hup, hdown⟩ := List.append_eq_nil_iff.mp h
    have hlength : as.length ≤ commonLength as bs :=
      Nat.le_of_sub_eq_zero (List.replicate_eq_nil_iff _ |>.mp hup)
    calc as = as.take (commonLength as bs) := (List.take_of_length_le hlength).symm
      _ = as.take (commonLength as bs) ++ descent as bs := by rw [hdown, List.append_nil]
      _ = bs := take_append_descent as bs
  · rintro rfl
    have h := wayBetween_append_right as []
    rwa [List.append_nil] at h

/-- Segments that are no empty ones are put together to nothing only if there are none. -/
theorem joinSegments_eq_nil_iff {ss : List Name} (h : ∀ s ∈ ss, s ≠ []) :
    joinSegments ss = [] ↔ ss = [] := by
  cases ss with
  | nil => simp [joinSegments]
  | cons s ss =>
    have hs := h s List.mem_cons_self
    cases ss <;> simp [joinSegments, hs]

section

variable {start target : Path}

/-- Between two paths that are text there is a way. It depends on their clean forms only, is empty
exactly if these are the same, and climbs from the start to the last common directory and comes
down by the other names of the target. Read from the start, marked or not, it leads to the clean
form of the target. -/
theorem relative_and_resolve_inverse (hs : start.isAbsolute) (hst : IsText start.bytes)
    (ht : target.isAbsolute) (htt : IsText target.bytes) :
    ∃ way, relative start target = .ok way ∧
      (∀ start' target' : Path, start'.clean = start.clean → target'.clean = target.clean →
        relative start' target' = .ok way) ∧
      (way = "" ↔ start.clean = target.clean) ∧
      (∃ common up down : List Name,
        start.clean.components = .root :: (common ++ up).map .name ∧
        target.clean.components = .root :: (common ++ down).map .name ∧
        (∀ n, up.head? = some n → down.head? ≠ some n) ∧
        encode way = joinSegments (List.replicate up.length dotDot ++ down)) ∧
      start.resolve (.ofString way) = .ok target.clean ∧
      start.resolve (.ofString (markRelative way)) = .ok target.clean := by
  obtain ⟨way, hway, hspelled⟩ := relative_eq_ok hs hst ht htt
  have hstart := clean_of_isAbsolute hs hst
  have htarget := clean_of_isAbsolute ht htt
  have hsolid := solid_of_mem_wayBetween start.names (plain_of_mem_names (p := target))
  have hreach : reach start.names (wayBetween start.clean.names target.clean.names) =
      target.names := by
    rw [names_clean hs hst, names_clean ht htt]
    exact reach_wayBetween_self plain_of_mem_names plain_of_mem_names
  refine ⟨way, hway, ?_, ?_, ?_, ?_, ?_⟩
  · intro start' target' hstart' htarget'
    rw [← hway]
    unfold relative
    rw [hstart', htarget']
  · rw [← encode_inj, encode_empty, hspelled, joinSegments_eq_nil_iff fun s h ↦ (hsolid s h).1,
      wayBetween_eq_nil_iff, hstart, htarget, rooted_inj plain_of_mem_names plain_of_mem_names]
  · refine ⟨start.names.take (commonLength start.names target.names),
      start.names.drop (commonLength start.names target.names),
      descent start.names target.names, ?_, ?_, head?_drop_commonLength _ _, ?_⟩
    · rw [List.take_append_drop, hstart, components_rooted plain_of_mem_names]
    · rw [take_append_descent, htarget, components_rooted plain_of_mem_names]
    · rw [List.length_drop]
      exact hspelled
  · have ha := (isAbsolute_clean_iff (.inl hs)).mpr ⟨hs, hst⟩
    rw [resolve_relative (.inl hs) (.inl ht) hway hs hst, if_neg (by simp [ha]), hreach, htarget]
  · rw [resolve_markRelative (.inl hs) (.inl ht) hway hs hst, hreach, htarget]

/-- Between two paths that are spelled with dots, the way leads from one to the clean form of the
other. -/
theorem relative_and_resolve_inverse_of_dotted :
    (ofString "/a/./b//").clean = ofString "/a/b" ∧
      (ofString "/x/../a/..c").clean = ofString "/a/..c" ∧
      ∃ way, relative (ofString "/a/./b//") (ofString "/x/../a/..c") = .ok way ∧
        (ofString "/a/./b//").resolve (.ofString (markRelative way)) = .ok (ofString "/a/..c") := by
  have hclean : (ofString "/x/../a/..c").clean = ofString "/a/..c" := by decide +kernel
  obtain ⟨way, hway, -, -, -, -, hread⟩ := @relative_and_resolve_inverse
    (ofString "/a/./b//") (ofString "/x/../a/..c") (by decide) (isText_ofString _) (by decide)
    (isText_ofString _)
  exact ⟨by decide +kernel, hclean, way, hway, hclean ▸ hread⟩

end

/-! ### Bytes that are no text -/

/-- An absolute path stands for a path that is read from a base, as both are written. -/
def StandsFor (base path q : Path) : Prop :=
  q.isAbsolute ∧ q.components = .root :: (base.join path).names.map .name

/-- A relative way leads from a start to a target, as all are written. -/
def LeadsTo (start target : Path) (way : String) : Prop :=
  (ofString way).isAbsolute = false ∧ (start.join (.ofString way)).names = target.names

section

variable {base start target path : Path}

/-- An absolute path is text exactly if its clean form begins at the root. -/
theorem isText_iff_isAbsolute_clean {p : Path} (ha : p.isAbsolute) :
    IsText p.bytes ↔ p.clean.isAbsolute := by
  rw [isAbsolute_clean_iff (.inl ha), and_iff_right ha]

private theorem not_isText_of_clean_eq_dot {p : Path} (ha : p.isAbsolute) (h : p.clean = ⟨dot⟩) :
    ¬IsText p.bytes := by
  rw [isText_iff_isAbsolute_clean ha, h]
  decide

private theorem standsFor_clean_iff (hb : base.isAbsolute) :
    StandsFor base path (base.join path).clean ↔ IsText (base.join path).bytes := by
  have ha := isAbsolute_join path hb
  by_cases ht : IsText (base.join path).bytes
  · refine iff_of_true ?_ ht
    rw [clean_of_isAbsolute ha ht]
    exact ⟨isAbsolute_rooted _, components_rooted plain_of_mem_names⟩
  · refine iff_of_false ?_ ht
    rw [clean_of_not_isText ht]
    exact fun h ↦ absurd h.1 (by decide)

/-- The empty way leads from a path to those of the same names. -/
theorem leadsTo_empty_iff : LeadsTo start target "" ↔ start.names = target.names := by
  have hr : (ofString "").isAbsolute = false := by decide
  have hsegments : (ofString "").segments = [[]] := by decide
  rw [LeadsTo, and_iff_right hr, names_join hr, hsegments, reach_cons_nil, reach_nil]

/-- A way leads to its target, unless its start is no text; then it does only if the target is no
text either and has the same names. -/
theorem leadsTo_iff (hs : start.isAbsolute) (ht : target.isAbsolute) {way : String}
    (h : relative start target = .ok way) :
    LeadsTo start target way ↔
      IsText start.bytes ∨ (¬IsText target.bytes ∧ start.names = target.names) := by
  cases isWay_of_relative (.inl hs) (.inl ht) h with
  | nowhere start_eq target_eq empty =>
    rw [empty, leadsTo_empty_iff, or_iff_right (not_isText_of_clean_eq_dot hs start_eq)]
    exact (and_iff_right (not_isText_of_clean_eq_dot ht target_eq)).symm
  | whole start_eq target_absolute spelled =>
    refine iff_of_false (fun hleads ↦ ?_) ?_
    · have ha := hleads.1
      rw [spelled, isAbsolute_rooted] at ha
      cases ha
    · rintro (hst | ⟨htt, -⟩)
      · exact not_isText_of_clean_eq_dot hs start_eq hst
      · exact htt ((isText_iff_isAbsolute_clean ht).mpr target_absolute)
  | between start_absolute target_absolute spelled =>
    have hst := (isText_iff_isAbsolute_clean hs).mpr start_absolute
    have htt := (isText_iff_isAbsolute_clean ht).mpr target_absolute
    have hr := (isAbsolute_ofString_wayBetween plain_of_mem_names spelled).1
    have hsolid := solid_of_mem_wayBetween start.clean.names
      (plain_of_mem_names (p := target.clean))
    refine iff_of_true ⟨hr, ?_⟩ (.inl hst)
    rw [names_join hr, reach_segments_ofString spelled fun s h ↦ (hsolid s h).2,
      names_clean hs hst, names_clean ht htt,
      reach_wayBetween_self plain_of_mem_names plain_of_mem_names]

/-- There is no way exactly from text to bytes that are none. -/
theorem relative_eq_error_iff (hs : start.isAbsolute) (ht : target.isAbsolute) {e : Error} :
    relative start target = .error e ↔
      IsText start.bytes ∧ ¬IsText target.bytes ∧ e = .noRelativePath start.clean ⟨dot⟩ := by
  rw [isText_iff_isAbsolute_clean hs, isText_iff_isAbsolute_clean ht]
  by_cases h : start.clean.isAbsolute → target.clean.isAbsolute
  · obtain ⟨way, hr⟩ := (exists_relative_iff (.inl hs) (.inl ht)).mpr h
    refine iff_of_false (by simp [hr]) ?_
    rintro ⟨hstart, htarget, -⟩
    exact htarget (h hstart)
  · obtain ⟨hstart, htarget⟩ := Classical.not_imp.mp h
    have hdot := clean_of_not_isAbsolute_clean (.inl ht) (Bool.eq_false_iff.mpr htarget)
    rw [relative_eq_error hstart hdot, Except.error.injEq, and_iff_right hstart,
      and_iff_right htarget]
    exact eq_comm

/-- The empty way is that between the same names, and between bytes that are no text. -/
theorem relative_eq_ok_empty_iff (hs : start.isAbsolute) (ht : target.isAbsolute) :
    relative start target = .ok "" ↔
      (IsText start.bytes ∧ IsText target.bytes ∧ start.names = target.names) ∨
        (¬IsText start.bytes ∧ ¬IsText target.bytes) := by
  constructor
  · intro h
    cases isWay_of_relative (.inl hs) (.inl ht) h with
    | nowhere start_eq target_eq =>
      exact .inr ⟨not_isText_of_clean_eq_dot hs start_eq, not_isText_of_clean_eq_dot ht target_eq⟩
    | whole _ _ spelled =>
      exact absurd (congrArg Path.bytes spelled).symm (List.cons_ne_nil slash _)
    | between start_absolute target_absolute =>
      have hst := (isText_iff_isAbsolute_clean hs).mpr start_absolute
      have htt := (isText_iff_isAbsolute_clean ht).mpr target_absolute
      exact .inl ⟨hst, htt, leadsTo_empty_iff.mp ((leadsTo_iff hs ht h).mpr (.inl hst))⟩
  · rintro (⟨hst, htt, hnames⟩ | ⟨hst, htt⟩)
    · obtain ⟨way, hway, hspelled⟩ := relative_eq_ok hs hst ht htt
      rw [hnames, wayBetween_eq_nil_iff.mpr rfl] at hspelled
      rw [hway, encode_inj.mp (hspelled.trans encode_empty.symm)]
    · unfold relative
      rw [clean_of_not_isText hst, clean_of_not_isText htt]
      rfl

/-- What is read from a base stands for what is written exactly if the joined path is text, and
else is nothing but a dot. A way leads to its target exactly if its start is text, or the target is
none either and has the same names. -/
theorem resolve_and_relative_right_iff (hb : base.isAbsolute) (hs : start.isAbsolute)
    (ht : target.isAbsolute) :
    (∃ q, base.resolve path = .ok q ∧
      (StandsFor base path q ↔ IsText path.bytes ∧ (path.isAbsolute ∨ IsText base.bytes)) ∧
      (¬StandsFor base path q → q = ⟨dot⟩)) ∧
    ((∀ way, relative start target = .ok way → LeadsTo start target way) ↔
      IsText start.bytes ∨ (¬IsText target.bytes ∧ start.names = target.names)) ∧
    (relative start target = .ok "" ↔
      (IsText start.bytes ∧ IsText target.bytes ∧ start.names = target.names) ∨
        (¬IsText start.bytes ∧ ¬IsText target.bytes)) ∧
    ∀ e, relative start target = .error e ↔
      IsText start.bytes ∧ ¬IsText target.bytes ∧ e = .noRelativePath start.clean ⟨dot⟩ := by
  refine ⟨⟨_, if_pos hb, ?_, ?_⟩, ?_, relative_eq_ok_empty_iff hs ht,
    fun e ↦ relative_eq_error_iff hs ht⟩
  · rw [standsFor_clean_iff hb]
    by_cases ha : path.isAbsolute
    · rw [join_of_isAbsolute base ha]
      simp [ha]
    · rw [Bool.not_eq_true] at ha
      rw [isText_join_iff ha]
      simp [ha, and_comm]
  · rw [standsFor_clean_iff hb]
    exact clean_of_not_isText
  · constructor
    · intro h
      by_cases hst : IsText start.bytes
      · exact .inl hst
      · -- from bytes that are no text there is a way to everything
        have hway := exists_relative_iff (p := start) (q := target) (.inl hs) (.inl ht)
        obtain ⟨way, hr⟩ := hway.mpr fun ha ↦
          absurd ((isText_iff_isAbsolute_clean hs).mpr ha) hst
        exact (leadsTo_iff hs ht hr).mp (h way hr)
    · intro h way hr
      exact (leadsTo_iff hs ht hr).mpr h

/-- A directory whose name is no text. -/
def inBytes : Path := ⟨[slash, 255]⟩

/-- From the directory that is no text an absolute path is read as it is; there is no way to it. -/
theorem resolve_and_relative_right_iff_to_inBytes :
    (∃ q, inBytes.resolve (.ofString "/a/..") = .ok q ∧
      StandsFor inBytes (.ofString "/a/..") q) ∧
    (∀ way, relative (ofString "/a") inBytes = .ok way → LeadsTo (ofString "/a") inBytes way) ∧
      relative (ofString "/a") inBytes = .error (.noRelativePath (ofString "/a") ⟨dot⟩) := by
  have htext : IsText (ofString "/a").bytes := isText_ofString "/a"
  have hbytes : ¬IsText inBytes.bytes := by
    rw [isText_iff_text?]
    decide
  obtain ⟨⟨q, hq, hstands, -⟩, hleads, -, herror⟩ := @resolve_and_relative_right_iff
    inBytes (ofString "/a") inBytes (ofString "/a/..") (by decide) (by decide) (by decide)
  refine ⟨⟨q, hq, hstands.mpr ⟨isText_ofString "/a/..", .inl (by decide)⟩⟩, ?_, ?_⟩
  · exact hleads.mpr (.inl htext)
  · exact (herror _).mpr ⟨htext, hbytes, by decide +kernel⟩

/-- What is read from a directory that is no text is no absolute path, the way between two of them
is empty, and the way out of one begins at the root. -/
theorem resolve_and_relative_fail_from_inBytes :
    (inBytes.resolve (.ofString "x") = .ok ⟨dot⟩ ∧ (⟨dot⟩ : Path).isAbsolute = false) ∧
      (relative inBytes ⟨[slash, 254]⟩ = .ok "" ∧
        inBytes.names ≠ (⟨[slash, 254]⟩ : Path).names) ∧
      relative inBytes (.ofString "/a") = .ok "/a" ∧ (ofString "/a").isAbsolute := by
  refine ⟨⟨?_, ?_⟩, ⟨?_, ?_⟩, ?_, ?_⟩
  all_goals decide +kernel

end

end Relocation.Path

import Relocation.Proofs.Path.Spelling

/-!
# What absolute paths mean

An absolute path means the root and, behind it, what its segments mean. Joining, directories and
last names are operations on the parts of this meaning, however a path is spelled: a relative path
is put behind it, the directory drops the last part, and the directories above are its beginnings.
So paths that mean the same have the same names, and if one is text, so is the other.
-/

namespace Relocation.Path

open Component (ofSegment)
open Text.Utf8 (IsText)

variable {p q : Path} {s : Name} {ss : List Name} {c : Component}

/-! ### Parts -/

/-- A segment means nothing if it is empty or a dot. -/
theorem ofSegment_eq_none_iff : ofSegment s = none ↔ s = [] ∨ s = dot := by
  unfold ofSegment
  split
  · next h => exact iff_of_true rfl h
  · next h => exact iff_of_false (by split <;> simp) h

/-- A segment that means something means the directory above or a name. -/
theorem ofSegment_cases (h : ofSegment s = some c) :
    (s = dotDot ∧ c = .parent) ∨ ((s ≠ [] ∧ s ≠ dot ∧ s ≠ dotDot) ∧ c = .name s) := by
  unfold ofSegment at h
  split at h
  · cases h
  · next hs =>
    rw [not_or] at hs
    split at h
    · next hd =>
      cases h
      exact .inl ⟨hd, rfl⟩
    · next hd =>
      cases h
      exact .inr ⟨⟨hs.1, hs.2, hd⟩, rfl⟩

/-- It spells what it means. -/
theorem spelling_of_ofSegment (h : ofSegment s = some c) : c.spelling = s := by
  rcases ofSegment_cases h with ⟨rfl, rfl⟩ | ⟨-, rfl⟩ <;> rfl

/-- A plain segment means its name. -/
theorem ofSegment_of_plain (h : Plain s) : ofSegment s = some (.name s) := by
  unfold ofSegment
  rw [if_neg (not_or.mpr ⟨h.ne_nil, h.ne_dot⟩), if_neg h.ne_dotDot]

/-- What segments mean, each from where the ones before lead. -/
def meaning (ss : List Name) : List Component := ss.filterMap ofSegment

/-- No segments mean nothing. -/
@[simp] theorem meaning_nil : meaning [] = [] := rfl

/-- A segment that means nothing adds nothing. -/
theorem meaning_cons_of_none (h : ofSegment s = none) : meaning (s :: ss) = meaning ss :=
  List.filterMap_cons_none h

/-- A segment that means something adds it in front. -/
theorem meaning_cons_of_some (h : ofSegment s = some c) : meaning (s :: ss) = c :: meaning ss :=
  List.filterMap_cons_some h

/-- Segments put together mean what both parts mean, one after the other. -/
theorem meaning_append (ss ts : List Name) : meaning (ss ++ ts) = meaning ss ++ meaning ts :=
  List.filterMap_append

private theorem meaning_reverse (ss : List Name) : meaning ss.reverse = (meaning ss).reverse :=
  List.filterMap_reverse

/-- An absolute path has the root for its first component, and then what its segments mean. -/
theorem components_of_isAbsolute (h : p.isAbsolute) :
    p.components = .root :: meaning p.segments := by
  rw [components, if_pos h]
  rfl

/-- A name that a path means is a plain one. -/
theorem plain_of_mem_components {n : Name} (h : Component.name n ∈ p.components) : Plain n := by
  have hmem : Component.name n ∈ meaning p.segments := by
    unfold components at h
    split at h
    · exact List.mem_of_ne_of_mem (by simp) h
    · split at h
      · exact List.mem_of_ne_of_mem (by simp) h
      · exact h
  obtain ⟨s, hs, hname⟩ := List.mem_filterMap.mp hmem
  obtain rfl : n = s := spelling_of_ofSegment hname
  rcases ofSegment_cases hname with ⟨-, h⟩ | ⟨⟨h0, h1, h2⟩, -⟩
  · cases h
  · exact ⟨h0, h1, h2, slash_notMem_of_mem_segmentsOf hs⟩

/-- Absolute paths are the same if their segments mean the same. -/
theorem same_iff (hp : p.isAbsolute) (hq : q.isAbsolute) :
    p.same q ↔ meaning p.segments = meaning q.segments := by
  rw [same, decide_eq_true_iff, components_of_isAbsolute hp, components_of_isAbsolute hq,
    List.cons.injEq]
  exact and_iff_right rfl

/-- Segments lead where their meaning leads. -/
theorem reach_spelling_meaning (ns ss : List Name) :
    reach ns ((meaning ss).map Component.spelling) = reach ns ss := by
  induction ss generalizing ns with
  | nil => rfl
  | cons s ss ih =>
    cases hs : ofSegment s with
    | none =>
      rw [meaning_cons_of_none hs, ih]
      rcases ofSegment_eq_none_iff.mp hs with rfl | rfl
      · rw [reach_cons_nil]
      · rw [reach_cons_dot]
    | some c =>
      rw [meaning_cons_of_some hs, List.map_cons, spelling_of_ofSegment hs, reach_cons, ih,
        ← reach_cons]

/-- What holds of the empty segment and of a dot holds of segments if it holds of what they
mean. -/
theorem forall_mem_segments_iff {P : Name → Prop} (hnil : P []) (hdot : P dot) :
    (∀ s ∈ ss, P s) ↔ ∀ c ∈ meaning ss, P c.spelling := by
  induction ss with
  | nil => simp
  | cons s ss ih =>
    rw [List.forall_mem_cons, ih]
    cases hs : ofSegment s with
    | none =>
      rw [meaning_cons_of_none hs]
      refine and_iff_right ?_
      rcases ofSegment_eq_none_iff.mp hs with rfl | rfl
      · exact hnil
      · exact hdot
    | some c => rw [meaning_cons_of_some hs, List.forall_mem_cons, spelling_of_ofSegment hs]

/-- A path is text if all that it means is spelled so. -/
theorem isText_iff_meaning :
    IsText p.bytes ↔ ∀ c ∈ meaning p.segments, IsText c.spelling := by
  rw [← forall_mem_segments_iff (P := IsText) ⟨"", rfl⟩ ⟨".", rfl⟩, isText_iff_segments]

/-- Segments lead upwards if two dots are among them. -/
theorem dotDot_mem_iff : dotDot ∈ ss ↔ Component.parent ∈ meaning ss := by
  unfold meaning
  rw [List.mem_filterMap]
  constructor
  · exact fun h ↦ ⟨dotDot, h, by decide⟩
  · rintro ⟨s, hs, h⟩
    obtain rfl : dotDot = s := spelling_of_ofSegment h
    exact hs

/-- Paths that mean the same have one clean form. -/
theorem clean_of_same (hp : p.isAbsolute) (hq : q.isAbsolute) (h : p.same q) :
    p.clean = q.clean := by
  rw [same_iff hp hq] at h
  have htext : IsText p.bytes ↔ IsText q.bytes := by
    rw [isText_iff_meaning, isText_iff_meaning, h]
  by_cases ht : IsText p.bytes
  · rw [clean_of_isAbsolute hp ht, clean_of_isAbsolute hq (htext.mp ht), names, names,
      ← reach_spelling_meaning [] p.segments, h, reach_spelling_meaning]
  · rw [clean_of_not_isText ht, clean_of_not_isText (fun hq ↦ ht (htext.mpr hq))]

/-! ### Joined paths -/

/-- An empty last segment adds nothing to what segments mean. -/
theorem meaning_frontSegments (ss : List Name) : meaning (frontSegments ss) = meaning ss := by
  rcases frontSegments_cases ss with h | h
  · rw [← h]
  · conv_rhs => rw [h, meaning_append, meaning_cons_of_none rfl, meaning_nil, List.append_nil]

/-- A relative path is put behind what an absolute one means. -/
theorem components_join (hp : p.isAbsolute) (hq : q.isAbsolute = false) :
    (p.join q).components = p.components ++ meaning q.segments := by
  rw [components_of_isAbsolute (isAbsolute_join q hp), components_of_isAbsolute hp,
    segments_join p hq, meaning_append, meaning_frontSegments, List.cons_append]

/-! ### Directories above -/

private theorem trimBack_suffix (ss : List Name) : trimBack true ss <:+ ss := by
  induction ss with
  | nil => exact List.suffix_rfl
  | cons s ss ih =>
    rw [trimBack]
    split
    · exact ih.trans (List.suffix_cons s ss)
    · exact List.suffix_rfl

private theorem trimBack_cons_of_none (h : ofSegment s = none) :
    trimBack true (s :: ss) = trimBack true ss := by
  rw [trimBack, if_pos ((ofSegment_eq_none_iff.mp h).imp id fun hd ↦ ⟨hd, .inl rfl⟩)]

private theorem trimBack_cons_of_some (h : ofSegment s = some c) :
    trimBack true (s :: ss) = s :: ss := by
  rw [trimBack, if_neg]
  intro hn
  rw [ofSegment_eq_none_iff.mpr (hn.imp id And.left)] at h
  cases h

private theorem meaning_trimBack (ss : List Name) : meaning (trimBack true ss) = meaning ss := by
  induction ss with
  | nil => rfl
  | cons s ss ih =>
    cases hs : ofSegment s with
    | none => rw [trimBack_cons_of_none hs, ih, meaning_cons_of_none hs]
    | some c => rw [trimBack_cons_of_some hs]

private theorem trimBack_trimBack (ss : List Name) :
    trimBack true (trimBack true ss) = trimBack true ss := by
  induction ss with
  | nil => rfl
  | cons s ss ih =>
    cases hs : ofSegment s with
    | none => rw [trimBack_cons_of_none hs, ih]
    | some c => rw [trimBack_cons_of_some hs, trimBack_cons_of_some hs]

/-- What is left of trimmed segments begins with one that means something. -/
theorem exists_of_trimBack {ts : List Name} (h : trimBack true ss = s :: ts) :
    ∃ c, ofSegment s = some c := by
  rw [← Option.isSome_iff_exists, ← Option.not_isNone, Bool.not_eq_true', ← Bool.not_eq_true,
    Option.isNone_iff_eq_none, ofSegment_eq_none_iff, not_or]
  exact ne_of_trimBack_eq_cons h

private theorem meaning_backSegments (h : p.isAbsolute) :
    meaning p.backSegments = (meaning p.segments).reverse := by
  obtain ⟨bs, -, hs⟩ := segments_of_isAbsolute h
  rw [backSegments, h, if_pos rfl, meaning_trimBack, hs, meaning_reverse,
    meaning_cons_of_none (by rfl), List.tail_cons]

/-- What the path of reversed segments means. -/
theorem components_ofBackSegments (h : ∀ s ∈ ss, slash ∉ s) :
    (ofBackSegments true ss).components = .root :: (meaning ss).reverse := by
  rw [components_of_isAbsolute rfl]
  by_cases hn : ss = []
  · subst hn
    rfl
  · rw [segments_ofBackSegments hn h, meaning_cons_of_none (by rfl), meaning_reverse]

/-- The last name of a path is the last part of what it means, if that is a name. -/
theorem fileName?_eq_some_iff (h : p.isAbsolute) {n : Name} :
    p.fileName? = some n ↔ p.components.getLast? = some (.name n) := by
  have hback := meaning_backSegments h
  rw [components_of_isAbsolute h, ← List.reverse_reverse (meaning p.segments), ← hback]
  unfold fileName?
  cases hb : p.backSegments with
  | nil => exact iff_of_false (by simp) (by simp)
  | cons s ss =>
    rw [backSegments, h, if_pos rfl] at hb
    obtain ⟨c, hc⟩ := exists_of_trimBack hb
    rw [meaning_cons_of_some hc, List.reverse_cons, ← List.cons_append, List.getLast?_concat]
    dsimp only
    rcases ofSegment_cases hc with ⟨rfl, rfl⟩ | ⟨hs, rfl⟩
    · rw [if_pos (.inl rfl)]
      simp
    · rw [if_neg (not_or.mpr ⟨hs.2.2, hs.2.1⟩), Option.some.injEq, Option.some.injEq,
        Component.name.injEq]

/-- The directory of a path drops the last part of what it means. -/
theorem components_parentDirectory (h : p.isAbsolute) :
    p.parentDirectory.components = .root :: (meaning p.segments).dropLast := by
  have hback := meaning_backSegments h
  have hslash : ∀ s ∈ p.backSegments, slash ∉ s := fun _ ↦ slash_notMem_of_mem_backSegments
  unfold parentDirectory parent?
  rw [← List.reverse_reverse (meaning p.segments), ← hback]
  cases hb : p.backSegments with
  | nil =>
    rw [hb] at hback
    rw [Option.getD_none, components_of_isAbsolute h, List.reverse_eq_nil_iff.mp hback.symm]
    rfl
  | cons s ss =>
    rw [hb] at hslash
    rw [backSegments, h, if_pos rfl] at hb
    obtain ⟨c, hc⟩ := exists_of_trimBack hb
    have htrim : ∀ s ∈ trimBack true ss, slash ∉ s := fun s hs ↦
      hslash s (List.mem_cons_of_mem _ (mem_of_mem_trimBack hs))
    rw [Option.getD_some, h, components_ofBackSegments htrim, meaning_trimBack,
      meaning_cons_of_some hc, List.reverse_cons, List.dropLast_concat]

/-- A path with a last name means its directory and the name behind that. -/
theorem components_eq_concat (h : p.isAbsolute) {n : Name} (hn : p.fileName? = some n) :
    p.components = p.parentDirectory.components ++ [.name n] := by
  have hlast := (fileName?_eq_some_iff h).mp hn
  rw [components_parentDirectory h]
  rw [components_of_isAbsolute h] at hlast ⊢
  obtain hnil | ⟨init, c, hc⟩ := List.eq_nil_or_concat (meaning p.segments)
  · rw [hnil] at hlast
    cases hlast
  · rw [List.concat_eq_append] at hc
    rw [hc, ← List.cons_append, List.getLast?_concat] at hlast
    rw [hc, List.dropLast_concat, Option.some.inj hlast, List.cons_append]

/-- The directories above reversed segments, the path of these included if they end with a
part. -/
private theorem map_components_ancestorsOf (h : ∀ s ∈ ss, slash ∉ s) :
    ((if trimBack true ss = ss then [ofBackSegments true ss] else []) ++
        ancestorsOf true ss).map components =
      (meaning ss).tails.map fun cs ↦ .root :: cs.reverse := by
  induction ss with
  | nil => rfl
  | cons s ss ih =>
    have hss : ∀ s ∈ ss, slash ∉ s := fun s hs ↦ h s (List.mem_cons_of_mem _ hs)
    have hrest : ancestorsOf true (s :: ss) =
        (if trimBack true ss = ss then [ofBackSegments true ss] else []) ++
          ancestorsOf true ss := by
      rw [ancestorsOf]
      split <;> rfl
    rw [hrest, List.map_append, ih hss]
    cases hs : ofSegment s with
    | none =>
      have hlonger : trimBack true (s :: ss) ≠ s :: ss := by
        rw [trimBack_cons_of_none hs]
        exact fun he ↦ absurd (he ▸ trimBack_suffix ss).length_le (by simp)
      rw [if_neg hlonger, meaning_cons_of_none hs]
      rfl
    | some c =>
      rw [if_pos (trimBack_cons_of_some hs), List.map_singleton, components_ofBackSegments h,
        meaning_cons_of_some hs, List.tails_cons, List.map_cons]
      rfl

/-- The directories above a path mean the beginnings of what it means, the longest first. -/
theorem map_components_ancestors (h : p.isAbsolute) :
    p.ancestors.map components = p.components.inits.tail.reverse := by
  have hslash : ∀ s ∈ p.backSegments, slash ∉ s := fun _ ↦ slash_notMem_of_mem_backSegments
  have hback := meaning_backSegments h
  have htrim : trimBack true p.backSegments = p.backSegments := by
    rw [backSegments, h, if_pos rfl]
    exact trimBack_trimBack _
  have hall := map_components_ancestorsOf hslash
  rw [if_pos htrim, List.singleton_append, List.map_cons, components_ofBackSegments hslash, hback,
    List.reverse_reverse, ← components_of_isAbsolute h] at hall
  rw [ancestors, h, List.map_cons, hall, components_of_isAbsolute h, List.inits_cons,
    List.tail_cons, List.tails_reverse, List.map_reverse, List.map_map]
  refine congrArg List.reverse (List.map_congr_left fun cs _ ↦ ?_)
  exact congrArg (Component.root :: ·) cs.reverse_reverse

end Relocation.Path

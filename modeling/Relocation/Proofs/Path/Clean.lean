import Relocation.Proofs.Path.Segments

/-!
# Clean absolute paths

The names of an absolute path are those that its segments reach from the root. Its clean form is
the path of these names, if it is text. For the path of plain names, the operations on paths are
those on the list of names: its clean form is itself, its directory drops the last name, and to
read another path from it is to follow the segments of that path.
-/

namespace Relocation.Path

open Text.Utf8 (IsText)

/-- The names that an absolute path leads to. -/
def names (p : Path) : List Name := reach [] p.segments

/-- The names that a path leads to are plain. -/
theorem plain_of_mem_names {p : Path} : ∀ n ∈ p.names, Plain n :=
  plain_of_mem_reach (by simp) fun _ ↦ slash_notMem_of_mem_segmentsOf

/-- Plain names behind those of a path are plain names all together. -/
theorem plain_of_mem_names_append {p : Path} {ms : List Name} (hm : ∀ m ∈ ms, Plain m) :
    ∀ n ∈ p.names ++ ms, Plain n :=
  List.forall_mem_append.mpr ⟨plain_of_mem_names, hm⟩

/-- The names that a text leads to are text. -/
theorem isText_of_mem_names {p : Path} (h : IsText p.bytes) : ∀ n ∈ p.names, IsText n :=
  isText_of_mem_reach (by simp) fun _ ↦ isText_of_mem_segmentsOf h

/-! ### Clean forms -/

/-- The clean form of an absolute path that is text. -/
theorem clean_of_isAbsolute {p : Path} (ha : p.isAbsolute) (ht : IsText p.bytes) :
    p.clean = rooted p.names := by
  rw [isText_iff_text?] at ht
  cases hp : p.text? with
  | none => simp [hp] at ht
  | some s =>
    simp only [clean, hp, Option.isNone_some, Bool.false_eq_true, if_false, ha]
    rfl

/-- The clean form of a path that is no text. -/
theorem clean_of_not_isText {p : Path} (h : ¬IsText p.bytes) : p.clean = ⟨dot⟩ := by
  rw [isText_iff_text?, Option.not_isSome_iff_eq_none] at h
  simp [clean, h]

/-- Plain names are the names of their path. -/
@[simp] theorem names_rooted {ns : List Name} (h : ∀ n ∈ ns, Plain n) :
    (rooted ns).names = ns := by
  unfold names
  by_cases hn : ns = []
  · subst hn
    rw [segments_root, reach_cons_nil, reach_cons_nil, reach_nil]
  · rw [segments_rooted hn fun n hm ↦ (h n hm).noSlash, reach_cons_nil, reach_of_plain h,
      List.nil_append]

/-- Different plain names make different paths. -/
theorem rooted_inj {ns ms : List Name} (hn : ∀ n ∈ ns, Plain n) (hm : ∀ m ∈ ms, Plain m) :
    rooted ns = rooted ms ↔ ns = ms := by
  constructor
  · intro h
    have hs := congrArg names h
    rwa [names_rooted hn, names_rooted hm] at hs
  · rintro rfl
    rfl

/-- What the path of plain names means. -/
theorem components_rooted {ns : List Name} (h : ∀ n ∈ ns, Plain n) :
    (rooted ns).components = .root :: ns.map .name := by
  have hf : ns.filterMap Component.ofSegment = ns.map .name := by
    rw [← List.filterMap_eq_map]
    refine List.filterMap_congr fun n hn ↦ ?_
    have hp := h n hn
    simp [Component.ofSegment, hp.ne_nil, hp.ne_dot, hp.ne_dotDot]
  unfold components
  rw [isAbsolute_rooted, if_pos rfl]
  by_cases hn : ns = []
  · subst hn
    rfl
  · rw [segments_rooted hn fun n hm ↦ (h n hm).noSlash, List.filterMap_cons_none (by rfl), hf]

private theorem reach_of_components {ss ns : List Name} (hs : ∀ s ∈ ss, slash ∉ s)
    (h : ss.filterMap Component.ofSegment = ns.map .name) (ks : List Name) :
    reach ks ss = ks ++ ns := by
  induction ss generalizing ks ns with
  | nil =>
    obtain rfl : ns = [] := List.map_eq_nil_iff.mp h.symm
    rw [reach_nil, List.append_nil]
  | cons s ss ih =>
    have hss : ∀ s ∈ ss, slash ∉ s := fun s hm ↦ hs s (List.mem_cons_of_mem _ hm)
    by_cases hn : s = [] ∨ s = dot
    · rw [List.filterMap_cons_none (by simp [Component.ofSegment, hn])] at h
      rcases hn with rfl | rfl
      · rw [reach_cons_nil, ih hss h]
      · rw [reach_cons_dot, ih hss h]
    · by_cases hd : s = dotDot
      · subst hd
        rw [List.filterMap_cons_some (b := .parent) (by decide)] at h
        cases ns <;> simp at h
      · rw [List.filterMap_cons_some (b := .name s) (by simp [Component.ofSegment, hn, hd])] at h
        cases ns with
        | nil => simp at h
        | cons n ns =>
          rw [List.map_cons, List.cons.injEq, Component.name.injEq] at h
          obtain ⟨rfl, h⟩ := h
          have hplain : Plain s := ⟨fun h0 ↦ hn (.inl h0), fun h0 ↦ hn (.inr h0), hd,
            hs s List.mem_cons_self⟩
          rw [reach_cons_plain hplain, ih hss h, List.append_assoc, List.singleton_append]

/-- An absolute path that means the same as the path of plain names has these names. -/
theorem names_of_same {p : Path} (ha : p.isAbsolute) {ns : List Name} (hn : ∀ n ∈ ns, Plain n)
    (h : p.same (rooted ns)) : p.names = ns := by
  have hc : p.components = .root :: ns.map .name := by
    rw [← components_rooted hn]
    exact of_decide_eq_true h
  unfold components at hc
  rw [ha, if_pos rfl, List.cons.injEq] at hc
  exact reach_of_components (fun _ ↦ slash_notMem_of_mem_segmentsOf) hc.2 []

/-! ### Directories and last names -/

/-- Nothing is dropped from behind a plain name. -/
theorem trimBack_of_plain {n : Name} (h : Plain n) (absolute : Bool) (ns : List Name) :
    trimBack absolute (n :: ns) = n :: ns := by
  simp [trimBack, h.ne_nil, h.ne_dot]

/-- From the back, the segments of an absolute path of plain names are these names. -/
theorem backSegments_rooted {ns : List Name} (h : ∀ n ∈ ns, Plain n) :
    (rooted ns).backSegments = ns.reverse := by
  unfold backSegments
  rw [isAbsolute_rooted, if_pos rfl]
  by_cases hn : ns = []
  · subst hn
    rfl
  · rw [segments_rooted hn fun n hm ↦ (h n hm).noSlash, List.tail_cons]
    cases hr : ns.reverse with
    | nil => rfl
    | cons m ms =>
      exact trimBack_of_plain (h m (by rw [← List.mem_reverse, hr]; simp)) true ms

private theorem trimBack_plain {ns : List Name} (h : ∀ n ∈ ns, Plain n) :
    trimBack true ns = ns := by
  cases ns with
  | nil => rfl
  | cons n ns => exact trimBack_of_plain (h n (List.mem_cons_self ..)) true ns

/-- The directory of the path of plain names. -/
theorem parentDirectory_rooted {ns : List Name} (h : ∀ n ∈ ns, Plain n) :
    (rooted ns).parentDirectory = rooted ns.dropLast := by
  unfold parentDirectory parent?
  rw [backSegments_rooted h]
  cases hr : ns.reverse with
  | nil =>
    obtain rfl : ns = [] := List.reverse_eq_nil_iff.mp hr
    rfl
  | cons m ms =>
    have hm : ∀ n ∈ ms, Plain n := fun n hn ↦ h n (by
      rw [← List.mem_reverse, hr]
      exact List.mem_cons_of_mem _ hn)
    have hd : ns.dropLast = ms.reverse := by
      rw [← List.reverse_reverse ns, hr, List.reverse_cons, List.dropLast_concat]
    rw [isAbsolute_rooted, Option.getD_some, trimBack_plain hm, hd]
    rfl

/-- The last of plain names is the last name of their path. -/
theorem fileName?_rooted {ns : List Name} {n : Name} (h : ∀ m ∈ ns ++ [n], Plain m) :
    (rooted (ns ++ [n])).fileName? = some n := by
  have hn := h n (List.mem_append_right ns (List.mem_singleton_self n))
  unfold fileName?
  rw [backSegments_rooted h, List.reverse_append]
  exact if_neg (not_or.mpr ⟨hn.ne_dotDot, hn.ne_dot⟩)

private theorem mem_ancestorsOf {rs ss : List Name} (hr : ∀ n ∈ rs, Plain n) (h : ss <:+ rs)
    (hne : ss ≠ rs) : rooted ss.reverse ∈ ancestorsOf true rs := by
  induction rs with
  | nil => exact absurd (List.suffix_nil.mp h) hne
  | cons n rs ih =>
    have hrs : ∀ n ∈ rs, Plain n := fun m hm ↦ hr m (List.mem_cons_of_mem _ hm)
    rw [ancestorsOf, if_pos (trimBack_plain hrs)]
    rcases List.suffix_cons_iff.mp h with h | h
    · exact absurd h hne
    · by_cases he : ss = rs
      · subst he
        exact List.mem_cons_self
      · exact List.mem_cons_of_mem _ (ih hrs h he)

/-- The paths of the beginnings of plain names lie above the path of these names. -/
theorem rooted_mem_ancestors {ns ms : List Name} (hn : ∀ n ∈ ns, Plain n) (h : ms <+: ns) :
    rooted ms ∈ (rooted ns).ancestors := by
  rw [ancestors, isAbsolute_rooted, backSegments_rooted hn]
  by_cases he : ms = ns
  · rw [he]
    exact List.mem_cons_self
  · have hmem := mem_ancestorsOf (fun n hm ↦ hn n (List.mem_reverse.mp hm))
      (List.reverse_suffix.mpr h) (fun hr ↦ he (List.reverse_injective hr))
    rw [List.reverse_reverse] at hmem
    exact List.mem_cons_of_mem _ hmem

/-- What is left after dropping segments was there. -/
theorem mem_of_mem_trimBack {absolute : Bool} {ss : List Name} {s : Name}
    (h : s ∈ trimBack absolute ss) : s ∈ ss := by
  induction ss with
  | nil => exact h
  | cons t ts ih =>
    simp only [trimBack] at h
    split at h
    · exact List.mem_cons_of_mem _ (ih h)
    · exact h

/-- The directory of an absolute path is absolute. -/
theorem isAbsolute_parentDirectory {p : Path} (h : p.isAbsolute) :
    p.parentDirectory.isAbsolute := by
  unfold parentDirectory parent?
  split
  · exact h
  · rw [h]
    rfl

/-- The directory of a path that is text is text. -/
theorem isText_parentDirectory {p : Path} (ha : p.isAbsolute) (h : IsText p.bytes) :
    IsText p.parentDirectory.bytes := by
  unfold parentDirectory parent?
  split
  · exact h
  · next t ts hb =>
    rw [ha]
    refine isText_singleton_slash.append (isText_joinSegments fun s hs ↦ ?_)
    have hm : s ∈ t :: ts :=
      List.mem_cons_of_mem _ (mem_of_mem_trimBack (List.mem_reverse.mp hs))
    rw [← hb, backSegments, ha, if_pos rfl] at hm
    exact isText_of_mem_segmentsOf h
      (List.mem_of_mem_tail (List.mem_reverse.mp (mem_of_mem_trimBack hm)))

/-! ### Paths read from a directory -/

/-- An absolute path takes the place of what it is joined to. -/
theorem join_of_isAbsolute {q : Path} (p : Path) (h : q.isAbsolute) : p.join q = q := by
  simp [join, h]

/-- A name behind the path of names. -/
theorem join_rooted {ns : List Name} {n : Name} (h : ∀ m ∈ ns, Plain m) (hn : Plain n) :
    (rooted ns).join ⟨n⟩ = rooted (ns ++ [n]) := by
  rw [join, isAbsolute_of_slash_notMem hn.noSlash, if_neg Bool.false_ne_true]
  by_cases he : ns = []
  · subst he
    rfl
  · have hl := getLast?_joinSegments he fun m hm ↦ ⟨(h m hm).ne_nil, (h m hm).noSlash⟩
    have hne : joinSegments ns ≠ [] := by
      intro h0
      rw [h0] at hl
      cases hl
    rw [if_pos (by rwa [bytes_rooted, List.getLast?_cons_of_ne_nil hne])]
    have hj : joinSegments (ns ++ [n]) = joinSegments ns ++ slash :: n :=
      joinSegments_append he (List.cons_ne_nil n [])
    rw [bytes_rooted, List.cons_append, ← hj]
    rfl

/-- A relative path behind another is reached through that one. -/
theorem reach_segments_join {q : Path} (p : Path) (hq : q.isAbsolute = false) (ns : List Name) :
    reach ns (p.join q).segments = reach ns (p.segments ++ q.segments) := by
  rw [segments_join p hq, reach_append, reach_append]
  rcases frontSegments_cases p.segments with h | h
  · rw [← h]
  · conv_rhs => rw [h, reach_append, reach_cons_nil, reach_nil]

/-- Text joined to text is text. -/
theorem isText_join {p q : Path} (hp : IsText p.bytes) (hq : IsText q.bytes) :
    IsText (p.join q).bytes := by
  unfold join
  split
  · exact hq
  · split
    · exact hp.append (isText_singleton_slash.append hq)
    · exact hp.append hq

/-- A relative path behind another one is text exactly if both are. -/
theorem isText_join_iff {p q : Path} (hq : q.isAbsolute = false) :
    IsText (p.join q).bytes ↔ IsText p.bytes ∧ IsText q.bytes := by
  rw [isText_iff_segments, segments_join p hq, List.forall_mem_append,
    forall_mem_frontSegments Text.Utf8.isText_nil, ← isText_iff_segments, ← isText_iff_segments]

/-- What is joined to an absolute path is absolute. -/
theorem isAbsolute_join {p : Path} (q : Path) (h : p.isAbsolute) : (p.join q).isAbsolute := by
  unfold join
  split
  · next hq => exact hq
  · obtain ⟨bs, hb, -⟩ := segments_of_isAbsolute h
    split <;> simp [isAbsolute, hb]

/-- The names of a relative path behind an absolute one. -/
theorem names_join {p q : Path} (hq : q.isAbsolute = false) :
    (p.join q).names = reach p.names q.segments := by
  rw [names, reach_segments_join p hq, reach_append]
  rfl

/-- A relative path read from an absolute base, both text. -/
theorem resolve_of_relative {p q : Path} (hp : p.isAbsolute) (hpt : IsText p.bytes)
    (hq : q.isAbsolute = false) (hqt : IsText q.bytes) :
    p.resolve q = .ok (rooted (reach p.names q.segments)) := by
  rw [resolve, if_pos hp, clean_of_isAbsolute (isAbsolute_join q hp) (isText_join hpt hqt),
    names_join hq]

/-- An absolute path is read from every absolute base as itself. -/
theorem resolve_of_isAbsolute {p q : Path} (hp : p.isAbsolute) (hq : q.isAbsolute)
    (hqt : IsText q.bytes) : p.resolve q = .ok (rooted q.names) := by
  rw [resolve, if_pos hp, join_of_isAbsolute p hq, clean_of_isAbsolute hq hqt]

end Relocation.Path

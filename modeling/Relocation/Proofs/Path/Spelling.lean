import Relocation.Proofs.Path.Clean

/-!
# How joined paths are spelled

Paths are joined and extended as they are written. What stands in front of a plain name stays
there, segment by segment, when another path is joined to it or its last name is exchanged, so it
is seen in the spelling below which path another one lies.
-/

namespace Relocation.Path

open Text.Utf8 (IsText)

/-! ### Joined paths as written -/

/-- The last segment of joined paths is that of the last one. -/
theorem getLast?_segments_join (p q : Path) :
    (p.join q).segments.getLast? = q.segments.getLast? := by
  cases hq : q.isAbsolute with
  | true => rw [join_of_isAbsolute p hq]
  | false =>
    rw [segments_join p hq, List.getLast?_append_of_ne_nil _ q.segments_ne_nil]

/-- Behind a path that does not end with a slash, another one stands behind a slash. -/
theorem join_of_getLast? {p q : Path} (hq : q.isAbsolute = false) {z : Name}
    (h : p.segments.getLast? = some z) (hz : z ≠ []) :
    p.join q = ⟨p.bytes ++ slash :: q.bytes⟩ := by
  have hlast : p.segments.getLast? ≠ some [] := by
    rw [h, ne_eq, Option.some.injEq]
    exact hz
  apply eq_of_segments
  rw [segments_join p hq, frontSegments_of_ne hlast]
  exact (segmentsOf_append_slash p.bytes q.bytes).symm

/-- An empty segment in front of another one stands in front of the root. -/
theorem isAbsolute_of_segments_nil {p : Path} {y : Name} {ys : List Name}
    (h : p.segments = [] :: y :: ys) : p.isAbsolute := by
  have hb : p.bytes = slash :: joinSegments (y :: ys) := by
    rw [← joinSegments_segmentsOf p.bytes]
    exact congrArg joinSegments h
  rw [isAbsolute, hb]
  rfl

/-- A path whose first segment is a name does not begin at the root. -/
theorem isAbsolute_of_segments_cons {p : Path} {y : Name} {ys : List Name}
    (h : p.segments = y :: ys) (hy : y ≠ []) : p.isAbsolute = false := by
  rw [← Bool.not_eq_true]
  intro ha
  obtain ⟨bs, -, hs⟩ := segments_of_isAbsolute ha
  rw [hs, List.cons.injEq] at h
  exact hy h.1.symm

/-- What stands in front of a slash and what stands behind it, joined, mean what they mean
together. -/
theorem same_join {p q : Path} (hp : p.bytes ≠ []) (hq : q.isAbsolute = false) :
    (p.join q).same ⟨p.bytes ++ slash :: q.bytes⟩ := by
  have hwhole : segments ⟨p.bytes ++ slash :: q.bytes⟩ = p.segments ++ q.segments :=
    segmentsOf_append_slash p.bytes q.bytes
  have habsolute : (p.join q).isAbsolute = isAbsolute ⟨p.bytes ++ slash :: q.bytes⟩ := by
    obtain ⟨b, bs, hb⟩ := List.exists_cons_of_ne_nil hp
    unfold join
    rw [hq, if_neg Bool.false_ne_true]
    split <;> simp [isAbsolute, hb]
  have hmeaning : (p.join q).segments.filterMap Component.ofSegment =
      (p.segments ++ q.segments).filterMap Component.ofSegment := by
    rw [segments_join p hq]
    rcases frontSegments_cases p.segments with h | h
    · rw [← h]
    · conv_rhs => rw [h]
      rw [List.filterMap_append, List.filterMap_append, List.filterMap_append,
        List.filterMap_cons_none (by rfl), List.filterMap_nil, List.append_nil]
  have hhead : (p.join q).segments.head? = (p.segments ++ q.segments).head? := by
    rw [segments_join p hq]
    rcases frontSegments_cases p.segments with h | h
    · rw [← h]
    · cases hf : frontSegments p.segments with
      | nil =>
        rw [hf] at h
        exact absurd (eq_of_segments (q := ⟨[]⟩) h ▸ rfl) hp
      | cons s ss =>
        rw [h, hf]
        rfl
  refine decide_eq_true ?_
  unfold components
  rw [habsolute, hmeaning, hhead, hwhole]

/-- A relative path with a slash is joined as what stands in front of the slash. -/
theorem join_append_slash (p : Path) {n bs : List UInt8} (hn : n ≠ [])
    (ha : (⟨n⟩ : Path).isAbsolute = false) :
    p.join ⟨n ++ slash :: bs⟩ = ⟨(p.join ⟨n⟩).bytes ++ slash :: bs⟩ := by
  have ha' : (⟨n ++ slash :: bs⟩ : Path).isAbsolute = false := by
    obtain ⟨b, cs, rfl⟩ := List.exists_cons_of_ne_nil hn
    exact ha
  unfold join
  rw [ha, ha', if_neg Bool.false_ne_true, if_neg Bool.false_ne_true]
  split <;> simp

/-! ### Paths spelled behind others -/

/-- Trimming reversed segments stops at a plain name at the latest. -/
theorem trimBack_append_plain {y : Name} (hy : Plain y) (ss ts : List Name) :
    ∃ us, trimBack true (ss ++ y :: ts) = us ++ y :: ts ∧ us <:+ ss := by
  induction ss with
  | nil => exact ⟨[], trimBack_of_plain hy true ts, List.suffix_rfl⟩
  | cons s ss ih =>
    rw [List.cons_append, trimBack]
    split
    · obtain ⟨us, hus, hsuffix⟩ := ih
      exact ⟨us, hus, hsuffix.trans (List.suffix_cons s ss)⟩
    · exact ⟨s :: ss, rfl, List.suffix_rfl⟩

/-- What is left of trimmed segments does not begin with one that means nothing. -/
theorem ne_of_trimBack_eq_cons {ss ts : List Name} {s : Name} (h : trimBack true ss = s :: ts) :
    s ≠ [] ∧ s ≠ dot := by
  induction ss with
  | nil => cases h
  | cons u us ih =>
    rw [trimBack] at h
    split at h
    · exact ih h
    · next hu =>
      obtain ⟨rfl, -⟩ := List.cons.inj h
      rw [not_or] at hu
      exact ⟨hu.1, fun hd ↦ hu.2 ⟨hd, .inl rfl⟩⟩

/-- A directory whose last segment is a plain name, and that begins at the root. -/
structure Named (d : Path) : Prop where
  isAbsolute : d.isAbsolute
  exists_last : ∃ ks z, d.segments = [] :: ks ++ [z] ∧ Plain z

/-- A path is spelled behind another one: by a plain name and other segments, all of one kind. -/
structure Behind (Q : Name → Prop) (d p : Path) : Prop where
  isAbsolute : p.isAbsolute
  exists_rest : ∃ y ys, p.segments = d.segments ++ y :: ys ∧ Plain y ∧ ∀ s ∈ y :: ys, Q s

section

variable {Q : Name → Prop} {d p q : Path}

private theorem named_of_getLast? (ha : p.isAbsolute) {z : Name} (h : p.segments.getLast? = some z)
    (hz : Plain z) : Named p := by
  refine ⟨ha, ?_⟩
  obtain ⟨bs, -, hbs⟩ := segments_of_isAbsolute ha
  obtain ⟨ks, hks⟩ := List.getLast?_eq_some_iff.mp h
  cases ks with
  | nil =>
    -- the segment in front of the root is no name
    rw [hbs, List.nil_append, List.cons.injEq] at hks
    exact absurd hks.1.symm hz.ne_nil
  | cons k ks =>
    rw [hbs, List.cons_append, List.cons.injEq] at hks
    obtain ⟨rfl, hks⟩ := hks
    exact ⟨ks, z, by rw [hbs, hks, List.cons_append], hz⟩

/-- What ends in a plain name does so when it is joined to an absolute path. -/
theorem named_join (ha : d.isAbsolute) {z : Name} (h : q.segments.getLast? = some z)
    (hz : Plain z) : Named (d.join q) :=
  named_of_getLast? (isAbsolute_join q ha) (by rw [getLast?_segments_join, h]) hz

/-- A relative path that begins with a plain name is spelled behind the directory that it is
joined to. -/
theorem Named.behind_join (h : Named d) {y : Name} {ys : List Name}
    (hs : q.segments = y :: ys) (hy : Plain y) (hQ : ∀ s ∈ y :: ys, Q s) :
    Behind Q d (d.join q) := by
  refine ⟨isAbsolute_join q h.isAbsolute, y, ys, ?_, hy, hQ⟩
  obtain ⟨ks, z, hz, hplain⟩ := h.exists_last
  have hlast : d.segments.getLast? ≠ some [] := by
    rw [hz, List.getLast?_concat, ne_eq, Option.some.injEq]
    exact hplain.ne_nil
  rw [segments_join d (isAbsolute_of_segments_cons hs hy.ne_nil), frontSegments_of_ne hlast, hs]

/-- What is spelled behind a directory stays there when more is joined to it. -/
theorem Behind.join (h : Behind Q d p) (hq : q.isAbsolute = false)
    (hQ : ∀ s ∈ q.segments, Q s) : Behind Q d (p.join q) := by
  obtain ⟨y, ys, hs, hy, hys⟩ := h.exists_rest
  -- an empty segment at the end of the path gives way, which the plain name never is
  refine ⟨isAbsolute_join q h.isAbsolute, y, frontSegments ys ++ q.segments, ?_, hy, ?_⟩
  · rw [segments_join p hq, hs, frontSegments_append _ (List.cons_ne_nil y ys),
      frontSegments_cons hy.ne_nil, List.append_assoc, List.cons_append]
  · obtain ⟨hQy, hQys⟩ := List.forall_mem_cons.mp hys
    refine List.forall_mem_cons.mpr ⟨hQy, List.forall_mem_append.mpr ⟨fun s hm ↦ ?_, hQ⟩⟩
    exact hQys s (mem_of_mem_frontSegments hm)

/-- The reversed segments of a path behind a directory end with those of the directory. -/
private theorem Behind.exists_backSegments (h : Behind Q d p) (hd : Named d) :
    ∃ ts y, p.backSegments = ts ++ y :: d.segments.tail.reverse ∧ Plain y ∧
      (∀ s ∈ ts, Q s) ∧ Q y := by
  obtain ⟨y, ys, hs, hy, hys⟩ := h.exists_rest
  obtain ⟨ks, z, hz, -⟩ := hd.exists_last
  have htail : p.segments.tail = d.segments.tail ++ y :: ys := by
    rw [hs, hz]
    rfl
  obtain ⟨us, hus, hsuffix⟩ := trimBack_append_plain hy ys.reverse d.segments.tail.reverse
  refine ⟨us, y, ?_, hy, fun s hm ↦ hys s ?_, hys y List.mem_cons_self⟩
  · rw [backSegments, h.isAbsolute, if_pos rfl, htail, List.reverse_append, List.reverse_cons,
      List.append_assoc, List.singleton_append, hus]
  · exact List.mem_cons_of_mem _ (List.mem_reverse.mp (hsuffix.subset hm))

/-- Segments that are written from the back are read as an empty one and then themselves. -/
theorem segments_ofBackSegments {ss : List Name} (hn : ss ≠ []) (h : ∀ s ∈ ss, slash ∉ s) :
    (ofBackSegments true ss).segments = [] :: ss.reverse :=
  segments_rooted (by simpa using hn) fun s hm ↦ h s (List.mem_reverse.mp hm)

/-- No segment taken from the back holds a slash. -/
theorem slash_notMem_of_mem_backSegments {s : Name} (h : s ∈ p.backSegments) : slash ∉ s := by
  have hm := List.mem_reverse.mp (mem_of_mem_trimBack h)
  split at hm
  · exact slash_notMem_of_mem_segmentsOf (List.mem_of_mem_tail hm)
  · exact slash_notMem_of_mem_segmentsOf hm

/-- The directory of a path behind another one is that one, or behind it. -/
theorem Behind.parent (h : Behind Q d p) (hd : Named d) {q : Path} (hq : p.parent? = some q) :
    q = d ∨ Behind Q d q := by
  obtain ⟨ts, y, hb, hy, hts, hQy⟩ := h.exists_backSegments hd
  obtain ⟨ks, z, hz, hplain⟩ := hd.exists_last
  have hslash : ∀ s ∈ ts ++ y :: d.segments.tail.reverse, slash ∉ s := fun s hm ↦
    slash_notMem_of_mem_backSegments (hb ▸ hm)
  have hdir : d.segments = [] :: d.segments.tail := by rw [hz]; rfl
  unfold parent? at hq
  rw [hb, h.isAbsolute] at hq
  cases ts with
  | nil =>
    have htrim : trimBack true d.segments.tail.reverse = d.segments.tail.reverse := by
      rw [hz, List.cons_append, List.tail_cons, List.reverse_append, List.reverse_singleton,
        List.singleton_append]
      exact trimBack_of_plain hplain true ks.reverse
    have hne : d.segments.tail.reverse ≠ [] := by
      rw [hz]
      simp
    obtain rfl := Option.some.inj hq
    left
    apply eq_of_segments
    rw [htrim, segments_ofBackSegments hne fun s hm ↦
      hslash s (List.mem_cons_of_mem _ hm), List.reverse_reverse, ← hdir]
  | cons t ts =>
    obtain ⟨us, hus, hsuffix⟩ := trimBack_append_plain hy ts d.segments.tail.reverse
    rw [List.cons_append] at hq
    obtain rfl := Option.some.inj hq
    right
    refine ⟨rfl, y, us.reverse, ?_, hy, ?_⟩
    · rw [hus, segments_ofBackSegments (by simp) ?_]
      · conv_rhs => rw [hdir]
        simp
      · intro s hm
        refine hslash s (List.mem_cons_of_mem _ ?_)
        rcases List.mem_append.mp hm with hm | hm
        · exact List.mem_append_left _ (hsuffix.subset hm)
        · exact List.mem_append_right _ hm
    · refine List.forall_mem_cons.mpr ⟨hQy, fun s hm ↦ hts s ?_⟩
      exact List.mem_cons_of_mem _ (hsuffix.subset (List.mem_reverse.mp hm))

/-- The last name of a path behind a directory is one of the segments behind it. -/
theorem Behind.fileName (h : Behind Q d p) (hd : Named d) {n : Name}
    (hn : p.fileName? = some n) : Plain n ∧ Q n := by
  obtain ⟨ts, y, hb, hy, hts, hQy⟩ := h.exists_backSegments hd
  have hslash := fun s hm ↦ @slash_notMem_of_mem_backSegments p s hm
  unfold fileName? at hn
  rw [hb] at hn hslash
  cases ts with
  | nil =>
    rw [List.nil_append] at hn
    dsimp only at hn
    split at hn
    · cases hn
    · obtain rfl := Option.some.inj hn
      exact ⟨hy, hQy⟩
  | cons t ts =>
    rw [List.cons_append] at hn hb hslash
    dsimp only at hn
    split at hn
    · cases hn
    · next hdots =>
      obtain rfl := Option.some.inj hn
      rw [not_or] at hdots
      rw [backSegments, h.isAbsolute] at hb
      exact ⟨⟨(ne_of_trimBack_eq_cons hb).1, hdots.2, hdots.1, hslash t List.mem_cons_self⟩,
        hts t List.mem_cons_self⟩

/-- Another last name leaves a path behind the directory. -/
theorem Behind.withFileName (h : Behind Q d p) (hd : Named d) {n y : Name} {ys : List Name}
    (hn : segmentsOf n = y :: ys) (hy : Plain y) (hQ : ∀ s ∈ y :: ys, Q s) :
    Behind Q d (p.withFileName n) := by
  have hrelative : (⟨n⟩ : Path).isAbsolute = false :=
    isAbsolute_of_segments_cons hn hy.ne_nil
  have hsegments : ∀ s ∈ (⟨n⟩ : Path).segments, Q s := by
    show ∀ s ∈ segmentsOf n, Q s
    rw [hn]
    exact hQ
  unfold Path.withFileName
  split
  · cases hparent : p.parent? with
    | none => exact h.join hrelative hsegments
    | some q =>
      rw [Option.getD_some]
      rcases h.parent hd hparent with rfl | hq
      · exact hd.behind_join hn hy hQ
      · exact hq.join hrelative hsegments
  · exact h.join hrelative hsegments

end

end Relocation.Path

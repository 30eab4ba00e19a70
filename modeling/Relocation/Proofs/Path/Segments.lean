import Mathlib.Data.List.Infix
import Relocation.Path.Clean
import Relocation.Proofs.Text.Utf8

/-!
# Segments of paths

Cutting bytes at their slashes and putting segments together again undo each other. A path that
is joined behind another one is put behind its segments, except for an empty last one. What a path
means from a directory is read off its segments alone: `reach` follows them from the names of
the directory. A clean path is the path of plain names, and the clean form of a path is reached
from the root.
-/

namespace Relocation.Path

open Text.Utf8 (IsText encode)

/-! ### Cutting and joining -/

/-- There is always a stretch between slashes. -/
theorem segmentsOf_ne_nil (bs : List UInt8) : segmentsOf bs ≠ [] := by
  cases bs with
  | nil => simp [segmentsOf]
  | cons b bs =>
    simp only [segmentsOf]
    split
    · simp
    · split <;> simp

/-- The segments on both sides of a slash. -/
theorem segmentsOf_append_slash (as bs : List UInt8) :
    segmentsOf (as ++ slash :: bs) = segmentsOf as ++ segmentsOf bs := by
  induction as with
  | nil => simp [segmentsOf]
  | cons a as ih =>
    simp only [List.cons_append, segmentsOf, ih]
    split
    · rfl
    · cases hs : segmentsOf as with
      | nil => exact absurd hs (segmentsOf_ne_nil as)
      | cons s ss => rfl

/-- Bytes without slashes stand in front of the first segment. -/
theorem segmentsOf_append_of_notMem {n : Name} (h : slash ∉ n) {bs : List UInt8} {s : Name}
    {ss : List Name} (hs : segmentsOf bs = s :: ss) : segmentsOf (n ++ bs) = (n ++ s) :: ss := by
  induction n with
  | nil => exact hs
  | cons b n ih =>
    obtain ⟨hb, hn⟩ := List.ne_and_not_mem_of_not_mem_cons h
    rw [List.cons_append, segmentsOf, if_neg (Ne.symm hb), ih hn]
    rfl

/-- Bytes without slashes are one segment. -/
theorem segmentsOf_of_notMem {n : Name} (h : slash ∉ n) : segmentsOf n = [n] := by
  induction n with
  | nil => rfl
  | cons b n ih =>
    obtain ⟨hb, hn⟩ := List.ne_and_not_mem_of_not_mem_cons h
    simp only [segmentsOf, if_neg (Ne.symm hb), ih hn]

/-- No slash is left in a segment. -/
theorem slash_notMem_of_mem_segmentsOf {bs : List UInt8} {s : Name} (h : s ∈ segmentsOf bs) :
    slash ∉ s := by
  induction bs generalizing s with
  | nil =>
    obtain rfl : s = [] := by simpa [segmentsOf] using h
    simp
  | cons b bs ih =>
    simp only [segmentsOf] at h
    split at h
    · rcases List.mem_cons.mp h with rfl | h
      · simp
      · exact ih h
    · next hb =>
      cases hs : segmentsOf bs with
      | nil => exact absurd hs (segmentsOf_ne_nil bs)
      | cons t ts =>
        rw [hs] at h ih
        rcases List.mem_cons.mp h with rfl | h
        · exact List.not_mem_cons_of_ne_of_not_mem (Ne.symm hb) (ih (List.mem_cons_self ..))
        · exact ih (List.mem_cons_of_mem _ h)

/-- The bytes of a segment are bytes of what was cut. -/
theorem mem_of_mem_segmentsOf {bs : List UInt8} {s : Name} (h : s ∈ segmentsOf bs) {b : UInt8}
    (hb : b ∈ s) : b ∈ bs := by
  induction bs generalizing s with
  | nil =>
    obtain rfl : s = [] := by simpa [segmentsOf] using h
    cases hb
  | cons c bs ih =>
    simp only [segmentsOf] at h
    split at h
    · rcases List.mem_cons.mp h with rfl | h
      · cases hb
      · exact List.mem_cons_of_mem _ (ih h hb)
    · cases hs : segmentsOf bs with
      | nil => exact absurd hs (segmentsOf_ne_nil bs)
      | cons t ts =>
        rw [hs] at h ih
        rcases List.mem_cons.mp h with rfl | h
        · rcases List.mem_cons.mp hb with rfl | hb
          · exact List.mem_cons_self ..
          · exact List.mem_cons_of_mem _ (ih (List.mem_cons_self ..) hb)
        · exact List.mem_cons_of_mem _ (ih (List.mem_cons_of_mem _ h) hb)

private theorem joinSegments_cons {ss : List Name} (h : ss ≠ []) (s : Name) :
    joinSegments (s :: ss) = s ++ slash :: joinSegments ss := by
  cases ss with
  | nil => exact absurd rfl h
  | cons t ts => rfl

/-- What no segment holds, except for slashes, is not in what they are put together to. -/
theorem notMem_joinSegments {ss : List Name} {b : UInt8} (hb : b ≠ slash) (h : ∀ s ∈ ss, b ∉ s) :
    b ∉ joinSegments ss := by
  induction ss with
  | nil => simp [joinSegments]
  | cons s ss ih =>
    have hs := h s (List.mem_cons_self ..)
    by_cases he : ss = []
    · subst he
      exact hs
    · rw [joinSegments_cons he, List.mem_append, List.mem_cons]
      rintro (hm | hm | hm)
      · exact hs hm
      · exact hb hm
      · exact ih (fun t ht ↦ h t (List.mem_cons_of_mem _ ht)) hm

/-- Segments put together at a slash. -/
theorem joinSegments_append {ss ts : List Name} (hs : ss ≠ []) (ht : ts ≠ []) :
    joinSegments (ss ++ ts) = joinSegments ss ++ slash :: joinSegments ts := by
  induction ss with
  | nil => exact absurd rfl hs
  | cons s ss ih =>
    by_cases h : ss = []
    · subst h
      exact joinSegments_cons ht s
    · rw [List.cons_append, joinSegments_cons (by simp [h]), ih h, joinSegments_cons h]
      simp

/-- Segments without slashes are found again in what they are put together to. -/
theorem segmentsOf_joinSegments {ss : List Name} (hs : ss ≠ []) (h : ∀ s ∈ ss, slash ∉ s) :
    segmentsOf (joinSegments ss) = ss := by
  induction ss with
  | nil => exact absurd rfl hs
  | cons s ss ih =>
    have hn := segmentsOf_of_notMem (h s (List.mem_cons_self ..))
    by_cases he : ss = []
    · subst he
      exact hn
    · rw [joinSegments_cons he, segmentsOf_append_slash, hn,
        ih he fun t ht ↦ h t (List.mem_cons_of_mem _ ht), List.singleton_append]

/-- What is put together of names does not end with a slash. -/
theorem getLast?_joinSegments {ss : List Name} (hs : ss ≠ []) (h : ∀ s ∈ ss, s ≠ [] ∧ slash ∉ s) :
    (joinSegments ss).getLast?.any (· ≠ slash) = true := by
  have hg := segmentsOf_joinSegments hs fun s hm ↦ (h s hm).2
  obtain he | ⟨cs, c, he⟩ := List.eq_nil_or_concat (joinSegments ss)
  · rw [he] at hg
    exact absurd rfl (h [] (hg ▸ List.mem_singleton_self [])).1
  · rw [List.concat_eq_append] at he
    rw [he, List.getLast?_concat]
    simp only [Option.any_some, decide_eq_true_eq]
    rintro rfl
    rw [he, segmentsOf_append_slash] at hg
    exact absurd rfl (h [] (hg ▸ List.mem_append_right _ (List.mem_singleton_self []))).1

/-- Bytes without slashes do not begin at the root. -/
theorem isAbsolute_of_slash_notMem {n : Name} (h : slash ∉ n) :
    (⟨n⟩ : Path).isAbsolute = false := by
  cases n with
  | nil => rfl
  | cons b n =>
    have hb := (List.ne_and_not_mem_of_not_mem_cons h).1
    simpa [isAbsolute] using Ne.symm hb

/-- Bytes are their segments put together. -/
theorem joinSegments_segmentsOf (bs : List UInt8) : joinSegments (segmentsOf bs) = bs := by
  induction bs with
  | nil => rfl
  | cons b bs ih =>
    simp only [segmentsOf]
    split
    · next hb => rw [joinSegments_cons (segmentsOf_ne_nil bs), ih, hb, List.nil_append]
    · cases hs : segmentsOf bs with
      | nil => exact absurd hs (segmentsOf_ne_nil bs)
      | cons s ss =>
        rw [hs] at ih
        rw [← ih]
        cases ss <;> rfl

/-- A path of segments is known by them. -/
theorem eq_of_segments {p q : Path} (h : p.segments = q.segments) : p = q := by
  obtain ⟨bs⟩ := p
  obtain ⟨cs⟩ := q
  have hb : joinSegments (segmentsOf bs) = joinSegments (segmentsOf cs) := congrArg joinSegments h
  rw [joinSegments_segmentsOf, joinSegments_segmentsOf] at hb
  rw [hb]

/-- A path has at least one segment. -/
theorem segments_ne_nil (p : Path) : p.segments ≠ [] := segmentsOf_ne_nil p.bytes

/-! ### Segments of joined paths -/

/-- The segments that stay in front of a path joined behind them: an empty last one gives way. -/
def frontSegments (ss : List Name) : List Name :=
  if ss.getLast? = some [] then ss.dropLast else ss

/-- Segments of which the last is not empty all stay in front. -/
theorem frontSegments_of_ne {ss : List Name} (h : ss.getLast? ≠ some []) :
    frontSegments ss = ss := if_neg h

/-- An empty last segment gives way. -/
@[simp] theorem frontSegments_concat_nil (ss : List Name) : frontSegments (ss ++ [[]]) = ss := by
  rw [frontSegments, List.getLast?_concat, if_pos rfl, List.dropLast_concat]

/-- Either all segments stay in front, or all but an empty last one. -/
theorem frontSegments_cases (ss : List Name) :
    ss = frontSegments ss ∨ ss = frontSegments ss ++ [[]] := by
  by_cases h : ss.getLast? = some []
  · obtain ⟨init, rfl⟩ := List.getLast?_eq_some_iff.mp h
    rw [frontSegments_concat_nil]
    exact .inr rfl
  · exact .inl (frontSegments_of_ne h).symm

/-- Only the last of joined paths can give way to another one. -/
theorem frontSegments_append (ss : List Name) {ts : List Name} (h : ts ≠ []) :
    frontSegments (ss ++ ts) = ss ++ frontSegments ts := by
  unfold frontSegments
  rw [List.getLast?_append_of_ne_nil ss h, List.dropLast_append_of_ne_nil h]
  split <;> rfl

/-- A first segment that is not empty stays in front. -/
theorem frontSegments_cons {s : Name} (h : s ≠ []) (ss : List Name) :
    frontSegments (s :: ss) = s :: frontSegments ss := by
  by_cases hs : ss = []
  · rw [hs]
    exact frontSegments_of_ne (by simpa using h)
  · exact frontSegments_append [s] hs

/-- What stays in front was there. -/
theorem mem_of_mem_frontSegments {ss : List Name} {s : Name} (h : s ∈ frontSegments ss) :
    s ∈ ss := by
  rcases frontSegments_cases ss with hs | hs
  · rwa [← hs] at h
  · rw [hs]
    exact List.mem_append_left _ h

/-- What holds of the empty segment holds of those that stay in front if it holds of all. -/
theorem forall_mem_frontSegments {P : Name → Prop} (hnil : P []) {ss : List Name} :
    (∀ s ∈ frontSegments ss, P s) ↔ ∀ s ∈ ss, P s := by
  rcases frontSegments_cases ss with h | h
  · rw [← h]
  · conv_rhs => rw [h, List.forall_mem_append, List.forall_mem_singleton, and_iff_left hnil]

/-- Only what is empty or ends with a slash has an empty last segment. -/
private theorem getLast?_segmentsOf_concat {c : UInt8} (hc : c ≠ slash) (cs : List UInt8) :
    (segmentsOf (cs ++ [c])).getLast? ≠ some [] := by
  intro h
  obtain ⟨init, hinit⟩ := List.getLast?_eq_some_iff.mp h
  have hb : cs ++ [c] = joinSegments (init ++ [[]]) := by
    rw [← hinit, joinSegments_segmentsOf]
  by_cases hi : init = []
  · rw [hi] at hb
    exact List.append_ne_nil_of_right_ne_nil cs (List.cons_ne_nil c []) hb
  · rw [joinSegments_append hi (List.cons_ne_nil [] [])] at hb
    exact hc (List.singleton_inj.mp (List.append_inj' hb rfl).2)

/-- A relative path is spelled behind another one, whose last segment gives way to it if it is
empty. -/
theorem segments_join (p : Path) {q : Path} (hq : q.isAbsolute = false) :
    (p.join q).segments = frontSegments p.segments ++ q.segments := by
  unfold join
  rw [hq, if_neg Bool.false_ne_true]
  obtain ⟨bs⟩ := p
  obtain rfl | ⟨cs, c, rfl⟩ := List.eq_nil_or_concat bs
  · rfl
  · rw [List.concat_eq_append, List.getLast?_concat, Option.any_some]
    by_cases hc : c = slash
    · have hs : segments ⟨cs ++ [c]⟩ = segmentsOf cs ++ [[]] := by
        rw [hc]
        exact segmentsOf_append_slash cs []
      rw [hs, frontSegments_concat_nil, if_neg (by simp [hc]), hc, List.append_assoc]
      exact segmentsOf_append_slash cs q.bytes
    · have hlast : (segments ⟨cs ++ [c]⟩).getLast? ≠ some [] := getLast?_segmentsOf_concat hc cs
      rw [if_pos (by simpa using hc), frontSegments_of_ne hlast]
      exact segmentsOf_append_slash (cs ++ [c]) q.bytes

/-! ### Segments that are text -/

/-- The slash is an ASCII character. -/
theorem toNat_slash_lt : slash.toNat < 0x80 := by decide

/-- The slash is text. -/
theorem isText_singleton_slash : IsText [slash] := ⟨"/", rfl⟩

/-- Segments of texts are put together to a text. -/
theorem isText_joinSegments {ss : List Name} (h : ∀ s ∈ ss, IsText s) :
    IsText (joinSegments ss) := by
  induction ss with
  | nil => exact Text.Utf8.isText_nil
  | cons s ss ih =>
    have hs := h s (List.mem_cons_self ..)
    by_cases he : ss = []
    · subst he
      exact hs
    · rw [joinSegments_cons he]
      exact hs.append (isText_singleton_slash.append
        (ih fun t ht ↦ h t (List.mem_cons_of_mem _ ht)))

/-- The segments of a text are texts. -/
theorem isText_of_mem_segmentsOf {bs : List UInt8} (h : IsText bs) {s : Name}
    (hs : s ∈ segmentsOf bs) : IsText s := by
  obtain ⟨ss, ts, he⟩ := List.append_of_mem hs
  rw [← joinSegments_segmentsOf bs, he] at h
  have hr : IsText (joinSegments (s :: ts)) := by
    by_cases hn : ss = []
    · rwa [hn] at h
    · rw [joinSegments_append hn (by simp)] at h
      exact (h.split toNat_slash_lt).2
  by_cases hn : ts = []
  · rwa [hn] at hr
  · rw [joinSegments_cons hn] at hr
    exact (hr.split toNat_slash_lt).1

/-- A text is text from slash to slash. -/
theorem isText_iff_segments {p : Path} : IsText p.bytes ↔ ∀ s ∈ p.segments, IsText s := by
  constructor
  · exact fun h s ↦ isText_of_mem_segmentsOf h
  · intro h
    rw [← joinSegments_segmentsOf p.bytes]
    exact isText_joinSegments h

/-- Tests of texts, in the form of a statement about the bytes. -/
theorem isText_iff_text? {p : Path} : IsText p.bytes ↔ p.text?.isSome :=
  Text.Utf8.isText_iff_isSome

/-- A path given by a string is text. -/
theorem isText_ofString (s : String) : IsText (ofString s).bytes := Text.Utf8.isText_encode s

/-! ### Plain names -/

/-- A name that stands for an entry of a directory. -/
structure Plain (n : Name) : Prop where
  ne_nil : n ≠ []
  ne_dot : n ≠ dot
  ne_dotDot : n ≠ dotDot
  noSlash : slash ∉ n

/-- A plain name stays one with a dot and more behind it. -/
theorem plain_append_dot {n bs : Name} (hn : Plain n) (hb : slash ∉ bs) :
    Plain (n ++ 46 :: bs) := by
  obtain ⟨b, cs, rfl⟩ := List.exists_cons_of_ne_nil hn.ne_nil
  refine ⟨by simp, by simp [dot], ?_, ?_⟩
  · intro h
    rw [dotDot, List.cons_append, List.cons.injEq] at h
    obtain ⟨rfl, h⟩ := h
    cases cs with
    | nil => exact hn.ne_dot rfl
    | cons c cs => simp at h
  · intro h
    rcases List.mem_append.mp h with h | h
    · exact hn.noSlash h
    · rcases List.mem_cons.mp h with h | h
      · exact absurd h (by decide)
      · exact hb h

/-- The absolute path of plain names. -/
abbrev rooted (ns : List Name) : Path := ofSegments true ns

/-- An absolute path of names is written with a slash in front. -/
theorem bytes_rooted (ns : List Name) : (rooted ns).bytes = slash :: joinSegments ns := rfl

/-- An absolute path of names begins at the root. -/
@[simp] theorem isAbsolute_rooted (ns : List Name) : (rooted ns).isAbsolute = true := by
  simp [isAbsolute, bytes_rooted]

/-- An absolute path of names that are text is text. -/
theorem isText_rooted {ns : List Name} (h : ∀ n ∈ ns, IsText n) : IsText (rooted ns).bytes :=
  isText_singleton_slash.append (isText_joinSegments h)

/-- The segments of the path of names: an empty one in front of the root, and the names. -/
theorem segments_rooted {ns : List Name} (hn : ns ≠ []) (h : ∀ n ∈ ns, slash ∉ n) :
    (rooted ns).segments = [] :: ns := by
  rw [segments, bytes_rooted, ← List.nil_append (slash :: joinSegments ns),
    segmentsOf_append_slash, segmentsOf_joinSegments hn h]
  rfl

/-- The root has two empty segments. -/
theorem segments_root : (rooted []).segments = [[], []] := rfl

/-- An absolute path begins with a slash. -/
theorem segments_of_isAbsolute {p : Path} (h : p.isAbsolute) :
    ∃ bs, p.bytes = slash :: bs ∧ p.segments = [] :: segmentsOf bs := by
  obtain ⟨bs⟩ := p
  cases bs with
  | nil => simp [isAbsolute] at h
  | cons b bs =>
    obtain rfl : b = slash := by simpa [isAbsolute] using h
    exact ⟨bs, rfl, by simp [segments, segmentsOf]⟩

/-! ### Following segments -/

/-- The names that segments lead to from a directory that is given by its names. Two dots lead
to the directory above, which for the root is the root. -/
def reach (ns ss : List Name) : List Name := (ss.foldl (keepSegment true) ns.reverse).reverse

/-- Without segments, one stays in the directory. -/
@[simp] theorem reach_nil (ns : List Name) : reach ns [] = ns := List.reverse_reverse ns

/-- Segments are followed one after the other. -/
theorem reach_append (ns ss ts : List Name) : reach ns (ss ++ ts) = reach (reach ns ss) ts := by
  simp only [reach, List.foldl_append, List.reverse_reverse]

/-- The first segment is followed before the others. -/
theorem reach_cons (ns : List Name) (s : Name) (ss : List Name) :
    reach ns (s :: ss) = reach (reach ns [s]) ss :=
  reach_append ns [s] ss

/-- An empty segment leads nowhere else. -/
@[simp] theorem reach_cons_nil (ns ss : List Name) : reach ns ([] :: ss) = reach ns ss := by
  simp [reach, keepSegment]

/-- Nor does a dot. -/
@[simp] theorem reach_cons_dot (ns ss : List Name) : reach ns (dot :: ss) = reach ns ss := by
  simp [reach, keepSegment]

private theorem reach_singleton_dotDot {ns : List Name} (h : ∀ n ∈ ns, n ≠ dotDot) :
    reach ns [dotDot] = ns.dropLast := by
  have hd : keepSegment true ns.reverse dotDot = ns.reverse.tail := by
    cases hr : ns.reverse with
    | nil => rfl
    | cons top below =>
      have ht : top ≠ dotDot := h top (by rw [← List.mem_reverse, hr]; simp)
      simp [keepSegment, dotDot, dot] at ht ⊢
      exact if_neg ht
  simp only [reach, List.foldl_cons, List.foldl_nil, hd]
  rw [List.tail_reverse, List.reverse_reverse]

/-- Two dots lead to the directory above. -/
theorem reach_cons_dotDot {ns : List Name} (h : ∀ n ∈ ns, n ≠ dotDot) (ss : List Name) :
    reach ns (dotDot :: ss) = reach ns.dropLast ss := by
  rw [reach_cons, reach_singleton_dotDot h]

/-- A plain name leads to the entry of that name. -/
theorem reach_cons_plain {n : Name} (h : Plain n) (ns ss : List Name) :
    reach ns (n :: ss) = reach (ns ++ [n]) ss := by
  simp [reach, keepSegment, h.ne_nil, h.ne_dot, h.ne_dotDot]

/-- Plain names lead to the entry below the directory. -/
theorem reach_of_plain {ms : List Name} (h : ∀ m ∈ ms, Plain m) (ns : List Name) :
    reach ns ms = ns ++ ms := by
  induction ms generalizing ns with
  | nil => simp
  | cons m ms ih =>
    rw [reach_cons_plain (h m (List.mem_cons_self ..)),
      ih fun n hn ↦ h n (List.mem_cons_of_mem _ hn)]
    simp

/-- Pairs of dots lead upwards, at most to the root. -/
theorem reach_replicate {ns : List Name} (h : ∀ n ∈ ns, n ≠ dotDot) (k : Nat)
    (ss : List Name) :
    reach ns (List.replicate k dotDot ++ ss) = reach (ns.take (ns.length - k)) ss := by
  induction k generalizing ns with
  | zero => simp
  | succ k ih =>
    rw [List.replicate_succ, List.cons_append, reach_cons_dotDot h,
      ih fun n hn ↦ h n (List.mem_of_mem_dropLast hn), List.dropLast_eq_take, List.take_take,
      List.length_take]
    congr 2
    omega

/-- A property of the names of a directory and of the segments holds for the names reached. -/
theorem forall_mem_reach {P : Name → Prop} {ns ss : List Name} (hn : ∀ n ∈ ns, P n)
    (hs : ∀ s ∈ ss, s ≠ [] → s ≠ dot → s ≠ dotDot → P s) (hns : ∀ n ∈ ns, n ≠ dotDot) :
    ∀ n ∈ reach ns ss, P n ∧ n ≠ dotDot := by
  induction ss generalizing ns with
  | nil => simpa using fun n h ↦ ⟨hn n h, hns n h⟩
  | cons s ss ih =>
    have ht : ∀ t ∈ ss, t ≠ [] → t ≠ dot → t ≠ dotDot → P t :=
      fun t ht ↦ hs t (List.mem_cons_of_mem _ ht)
    by_cases h0 : s = []
    · rw [h0, reach_cons_nil]
      exact ih hn ht hns
    by_cases h1 : s = dot
    · rw [h1, reach_cons_dot]
      exact ih hn ht hns
    by_cases h2 : s = dotDot
    · rw [h2, reach_cons_dotDot hns]
      exact ih (fun n h ↦ hn n (List.mem_of_mem_dropLast h)) ht
        fun n h ↦ hns n (List.mem_of_mem_dropLast h)
    · have hr : reach ns (s :: ss) = reach (ns ++ [s]) ss := by
        simp [reach, keepSegment, h0, h1, h2]
      rw [hr]
      refine ih (fun n h ↦ ?_) ht fun n h ↦ ?_
      · rcases List.mem_append.mp h with h | h
        · exact hn n h
        · rw [List.mem_singleton.mp h]
          exact hs s (List.mem_cons_self ..) h0 h1 h2
      · rcases List.mem_append.mp h with h | h
        · exact hns n h
        · rwa [List.mem_singleton.mp h]

/-- From plain names, segments without slashes lead to plain names. -/
theorem plain_of_mem_reach {ns ss : List Name} (hn : ∀ n ∈ ns, Plain n)
    (hs : ∀ s ∈ ss, slash ∉ s) : ∀ n ∈ reach ns ss, Plain n := fun n h ↦
  (forall_mem_reach hn (fun s h h0 h1 h2 ↦ ⟨h0, h1, h2, hs s h⟩) (fun n h ↦ (hn n h).ne_dotDot)
    n h).1

/-- From names that are text, segments that are text lead to names that are text. -/
theorem isText_of_mem_reach {ns ss : List Name} (hn : ∀ n ∈ ns, Plain n ∧ IsText n)
    (hs : ∀ s ∈ ss, IsText s) : ∀ n ∈ reach ns ss, IsText n := fun n h ↦
  (forall_mem_reach (fun n h ↦ (hn n h).2) (fun s h _ _ _ ↦ hs s h)
    (fun n h ↦ (hn n h).1.ne_dotDot) n h).1

end Relocation.Path

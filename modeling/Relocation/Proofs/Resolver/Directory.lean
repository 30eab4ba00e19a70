import Relocation.Proofs.Path.Way
import Relocation.Resolver.Basic

/-!
# Specifiers of directories

Whether a specifier can only mean a directory is seen at its last segment: it can if that is empty
or two dots, and it cannot if that is a name. A way that is marked as relative can only mean a
directory if it comes down by no name.
-/

namespace Relocation.Resolver

open Relocation.Path (Anchored Plain Component dot dotDot slash rooted wayBetween descent climb
  joinSegments markRelative)
open Text.Utf8 (encode)

/-- A text ends with a slash if its bytes do. -/
theorem getLast?_toList_eq_slash_iff {s : String} :
    s.toList.getLast? = some '/' ↔ (encode s).getLast? = some slash := by
  constructor
  · intro h
    obtain ⟨cs, hcs⟩ := List.getLast?_eq_some_iff.mp h
    have hs : s = String.ofList cs ++ "/" := String.toList_injective (by simp [hcs])
    rw [hs, Text.Utf8.encode_append]
    exact List.getLast?_concat
  · intro h
    obtain ⟨bs, hbs⟩ := List.getLast?_eq_some_iff.mp h
    have ht : Text.Utf8.IsText (bs ++ slash :: []) := ⟨s, hbs.symm⟩
    obtain ⟨⟨u, hu⟩, -⟩ := ht.split Path.toNat_slash_lt
    have hs : s = u ++ "/" := by
      rw [← Text.Utf8.encode_inj, hbs, Text.Utf8.encode_append, ← hu]
      rfl
    simp [hs]

private theorem getLast?_components {p : Path} {init : List Name} {s : Name} {c : Component}
    (h : p.segments = init ++ [s]) (hc : Component.ofSegment s = some c) :
    p.components.getLast? = some c := by
  have ht : p.segments.filterMap Component.ofSegment =
      init.filterMap Component.ofSegment ++ [c] := by
    rw [h, List.filterMap_append, List.filterMap_cons_some hc, List.filterMap_nil]
  unfold Path.components
  rw [ht]
  split
  · rw [← List.cons_append, List.getLast?_concat]
  · split
    · rw [← List.cons_append, List.getLast?_concat]
    · rw [List.getLast?_concat]

section

variable {s : String} {init : List Name}

private theorem encode_eq_of_segments {n : Name} (h : (Path.ofString s).segments = init ++ [n])
    (hi : init ≠ []) : encode s = joinSegments init ++ slash :: n := by
  have hj := Path.joinSegments_segmentsOf (encode s)
  change joinSegments (Path.ofString s).segments = _ at hj
  rw [h, Path.joinSegments_append hi (List.cons_ne_nil n [])] at hj
  exact hj.symm

/-- A specifier that ends with a slash can only mean a directory. -/
theorem isDirectorySpecifier_of_nil (h : (Path.ofString s).segments = init ++ [[]])
    (hi : init ≠ []) : isDirectorySpecifier s = true := by
  have hl : s.toList.getLast? = some '/' := by
    rw [getLast?_toList_eq_slash_iff, encode_eq_of_segments h hi]
    exact List.getLast?_concat
  simp [isDirectorySpecifier, hl]

/-- So can one whose last segment is two dots. -/
theorem isDirectorySpecifier_of_dotDot (h : (Path.ofString s).segments = init ++ [dotDot]) :
    isDirectorySpecifier s = true := by
  have hc := getLast?_components h (c := .parent) rfl
  simp [isDirectorySpecifier, hc]

/-- One whose last segment is a name can mean a file. -/
theorem isDirectorySpecifier_of_plain {n : Name} (h : (Path.ofString s).segments = init ++ [n])
    (hn : Plain n) : isDirectorySpecifier s = false := by
  have hc := getLast?_components (c := .name n) h (by
    simp [Component.ofSegment, hn.ne_nil, hn.ne_dot, hn.ne_dotDot])
  have hl : (encode s).getLast? ≠ some slash := by
    have hne : n.getLast? ≠ some slash := fun h0 ↦ hn.noSlash (List.mem_of_getLast? h0)
    obtain ⟨b, hb⟩ : ∃ b, n.getLast? = some b :=
      ⟨_, List.getLast?_eq_some_getLast hn.ne_nil⟩
    by_cases hi : init = []
    · have hj := Path.joinSegments_segmentsOf (encode s)
      change joinSegments (Path.ofString s).segments = _ at hj
      rw [h, hi] at hj
      rw [← hj]
      exact hne
    · rw [encode_eq_of_segments h hi, List.getLast?_append, List.getLast?_cons, hb]
      rw [hb] at hne
      simpa using hne
  rw [ne_eq, ← getLast?_toList_eq_slash_iff] at hl
  simp [isDirectorySpecifier, hl, hc]

end

private theorem isDirectorySpecifier_of_wayBetween {s : String} {as bs : List Name}
    (pre : List Name) (hb : ∀ b ∈ bs, Plain b) (hne : wayBetween as bs ≠ [])
    (h : (Path.ofString s).segments = pre ++ wayBetween as bs) :
    isDirectorySpecifier s ↔ descent as bs = [] := by
  obtain hd | ⟨init, n, hd⟩ := List.eq_nil_or_concat (descent as bs)
  · obtain ⟨k, hk⟩ : ∃ k, climb as bs = k + 1 := by
      refine Nat.exists_eq_succ_of_ne_zero fun h0 ↦ hne ?_
      rw [wayBetween, hd, h0, List.replicate_zero, List.nil_append]
    rw [wayBetween, hd, List.append_nil, hk, List.replicate_succ', ← List.append_assoc] at h
    exact iff_of_true (isDirectorySpecifier_of_dotDot h) hd
  · rw [List.concat_eq_append] at hd
    have hn : Plain n := hb n (Path.mem_of_mem_descent (by rw [hd]; simp))
    rw [wayBetween, hd, ← List.append_assoc, ← List.append_assoc] at h
    rw [isDirectorySpecifier_of_plain h hn, hd]
    simp

/-- A marked way can only mean a directory if it comes down by no name. -/
theorem isDirectorySpecifier_markRelative {p q : Path} (hp : Anchored p) (hq : Anchored q)
    {way : String} (h : Path.relative p q = .ok way) :
    isDirectorySpecifier (markRelative way) ↔ descent p.clean.names q.clean.names = [] := by
  have hplain : ∀ n ∈ q.clean.names, Plain n := Path.plain_of_mem_names
  cases Path.isWay_of_relative hp hq h with
  | nowhere _ target empty =>
    rw [target, Path.names_dot, empty]
    exact iff_of_true (by decide) (by simp [descent])
  | whole start _ spelled marked =>
    have hs : (Path.ofString (markRelative way)).segments =
        dot :: (rooted q.clean.names).segments := by
      rw [marked, Path.segments_dot_slash, spelled]
    rw [start, Path.names_dot]
    by_cases hn : q.clean.names = []
    · rw [hn, Path.segments_root] at hs
      rw [hn]
      exact iff_of_true (@isDirectorySpecifier_of_nil _ [dot, []] hs (by simp)) rfl
    · rw [Path.segments_rooted hn fun n hm ↦ (hplain n hm).noSlash,
        ← Path.wayBetween_nil_left q.clean.names] at hs
      exact isDirectorySpecifier_of_wayBetween [dot, []] hplain
        (by rwa [Path.wayBetween_nil_left]) hs
  | between _ _ spelled =>
    by_cases hne : wayBetween p.clean.names q.clean.names = []
    · rw [hne] at spelled
      obtain rfl : way = "" := Text.Utf8.encode_inj.mp spelled
      exact iff_of_true (by decide) (List.append_eq_nil_iff.mp hne).2
    · have hs : (Path.ofString way).segments = wayBetween p.clean.names q.clean.names := by
        change Path.segmentsOf (encode way) = _
        rw [spelled, Path.segmentsOf_joinSegments hne fun s hs ↦
          (Path.solid_of_mem_wayBetween _ hplain s hs).2]
      rcases Path.markRelative_eq way with hm | hm
      · exact isDirectorySpecifier_of_wayBetween [] hplain hne (by rw [hm, hs]; rfl)
      · exact isDirectorySpecifier_of_wayBetween [dot] hplain hne
          (by rw [hm, Path.segments_dot_slash, hs]; rfl)

end Relocation.Resolver

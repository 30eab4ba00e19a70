import Relocation.Proofs.FileTree.Following
import Relocation.Proofs.Path.Way

/-!
# Canonical paths of what need not exist

The longest beginning of a clean path that leads somewhere is replaced by its canonical path, and
the rest is kept. What comes of an absolute path is absolute, or the clean form of bytes that are
no text.
-/

namespace Relocation.FileTree

open Relocation.Path (Anchored Plain dot rooted)
open Text.Utf8 (IsText)

private theorem foldl_join_rooted {ns ms : List Name} (hn : ∀ n ∈ ns, Plain n)
    (hm : ∀ m ∈ ms, Plain m) :
    ms.foldl (fun p m ↦ p.join ⟨m⟩) (rooted ns) = rooted (ns ++ ms) := by
  induction ms generalizing ns with
  | nil => rw [List.foldl_nil, List.append_nil]
  | cons m ms ih =>
    have hplain := hm m (List.mem_cons_self ..)
    rw [List.foldl_cons, Path.join_rooted hn hplain,
      ih _ fun l hl ↦ hm l (List.mem_cons_of_mem _ hl),
      List.append_assoc, List.singleton_append]
    intro l hl
    rcases List.mem_append.mp hl with hl | hl
    · exact hn l hl
    · rwa [List.mem_singleton.mp hl]

/-- Behind names, no beginning of others leads anywhere. -/
def LeadsNoFurther (t : FileTree) (head tail : List Name) : Prop :=
  ∀ more rest, tail = more ++ rest → more ≠ [] → ∀ c, t.canonicalize (rooted (head ++ more)) ≠ .ok c

/-- The longest beginning of the names of a path that leads somewhere is replaced. -/
structure Replaces (t : FileTree) (ns : List Name) (result : Path) (head tail above : List Name) :
    Prop where
  split : ns = head ++ tail
  canonical : t.canonicalize (rooted head) = .ok (rooted above)
  plain : ∀ n ∈ above, Plain n
  result_eq : result = rooted (above ++ tail)
  longest : t.LeadsNoFurther head tail

/-- The root leads somewhere. -/
theorem canonicalize_root (t : FileTree) : t.canonicalize (rooted []) = .ok (rooted []) :=
  canonicalize_eq_ok_iff.mpr ⟨_, locate_rooted (by simp) (.done _ _), rfl⟩

private theorem exists_replaces_of_canonicalize {t : FileTree} {ns ms : List Name} {q : Path}
    (hm : ∀ m ∈ ms, Plain m) (hl : t.LeadsNoFurther ns ms)
    (h : t.canonicalize (rooted ns) = .ok q) :
    ∃ above, Replaces t (ns ++ ms) (ms.foldl (fun p m ↦ p.join ⟨m⟩) q) ns ms above := by
  obtain ⟨above, rfl, hplain, -⟩ := exists_rooted_of_canonicalize h
  exact ⟨above, rfl, h, hplain, foldl_join_rooted hplain hm, hl⟩

private theorem leadsNoFurther_cons {t : FileTree} {ns ms : List Name} {n : Name}
    (hn : ∀ c, t.canonicalize (rooted (ns ++ [n])) ≠ .ok c)
    (h : t.LeadsNoFurther (ns ++ [n]) ms) : t.LeadsNoFurther ns (n :: ms) := by
  intro more rest hsplit hne
  obtain ⟨m, more, rfl⟩ := List.exists_cons_of_ne_nil hne
  obtain ⟨rfl, htail⟩ := List.cons.inj hsplit
  by_cases hmore : more = []
  · rwa [hmore]
  · have hfurther := h more rest htail hmore
    rwa [List.append_assoc] at hfurther

private theorem exists_replaces_of_names {t : FileTree} {rs ms : List Name}
    (hr : ∀ n ∈ rs, Plain n) (hm : ∀ m ∈ ms, Plain m) (hl : t.LeadsNoFurther rs.reverse ms) :
    ∃ p head tail above, t.canonicalizePrefix rs ms = some p ∧
      Replaces t (rs.reverse ++ ms) p head tail above := by
  induction rs generalizing ms with
  | nil =>
    obtain ⟨above, hrep⟩ := exists_replaces_of_canonicalize hm hl (canonicalize_root t)
    refine ⟨_, [], ms, above, ?_, hrep⟩
    have hroot : t.canonicalize ⟨[Path.slash]⟩ = .ok (rooted []) := canonicalize_root t
    rw [canonicalizePrefix, hroot]
  | cons n rs ih =>
    rw [canonicalizePrefix]
    cases hc : t.canonicalize (rooted (n :: rs).reverse) with
    | ok q =>
      obtain ⟨above, hrep⟩ := exists_replaces_of_canonicalize hm hl hc
      exact ⟨_, _, _, above, rfl, hrep⟩
    | error e =>
      rw [List.reverse_cons] at hc hl
      have hfailed : ∀ c, t.canonicalize (rooted (rs.reverse ++ [n])) ≠ .ok c := by
        simp [hc]
      obtain ⟨p, head, tail, above, hp, hrep⟩ := @ih (n :: ms)
        (fun m h ↦ hr m (List.mem_cons_of_mem _ h))
        (List.forall_mem_cons.mpr ⟨hr n (List.mem_cons_self ..), hm⟩)
        (leadsNoFurther_cons hfailed hl)
      refine ⟨p, head, tail, above, hp, ?_⟩
      rwa [List.reverse_cons, List.append_assoc, List.singleton_append]

/-- The canonical path of the longest beginning, with the rest behind it. -/
theorem exists_replaces_of_canonicalizeExisting (t : FileTree) {p : Path} (ha : p.isAbsolute)
    (ht : IsText p.bytes) :
    ∃ head tail above, Replaces t p.names (t.canonicalizeExisting p) head tail above := by
  obtain ⟨q, head, tail, above, hq, hrep⟩ := @exists_replaces_of_names t p.names.reverse []
    (fun n hn ↦ Path.plain_of_mem_names n (List.mem_reverse.mp hn)) (by simp)
    fun more rest hsplit hne ↦ absurd (List.append_eq_nil_iff.mp hsplit.symm).1 hne
  rw [List.reverse_reverse, List.append_nil] at hrep
  have he : t.canonicalizeExisting p = q := by
    rw [canonicalizeExisting, Path.clean_of_isAbsolute ha ht, Path.isAbsolute_rooted, if_pos rfl,
      Path.backSegments_rooted Path.plain_of_mem_names, hq, Option.getD_some]
  exact ⟨head, tail, above, he ▸ hrep⟩

/-- A path whose clean form leads somewhere is replaced by its canonical path. -/
theorem canonicalizeExisting_of_canonicalize {t : FileTree} {p c : Path} (ha : p.isAbsolute)
    (ht : IsText p.bytes) (h : t.canonicalize (rooted p.names) = .ok c) :
    t.canonicalizeExisting p = c := by
  rw [canonicalizeExisting, Path.clean_of_isAbsolute ha ht, Path.isAbsolute_rooted, if_pos rfl,
    Path.backSegments_rooted Path.plain_of_mem_names]
  cases hr : p.names.reverse with
  | nil =>
    rw [List.reverse_eq_nil_iff.mp hr] at h ⊢
    have hroot : t.canonicalize ⟨[Path.slash]⟩ = .ok c := h
    rw [canonicalizePrefix, hroot]
    rfl
  | cons n ns =>
    have hprefix : t.canonicalize (Path.ofSegments true (n :: ns).reverse) = .ok c := by
      rwa [← hr, List.reverse_reverse]
    rw [canonicalizePrefix, hprefix]
    rfl

/-- Bytes that are no text are replaced by their clean form. -/
theorem canonicalizeExisting_of_not_isText (t : FileTree) {p : Path} (ht : ¬IsText p.bytes) :
    t.canonicalizeExisting p = ⟨dot⟩ := by
  rw [canonicalizeExisting, Path.clean_of_not_isText ht]
  rfl

/-- What comes of an absolute path that is text is absolute. -/
theorem isAbsolute_canonicalizeExisting (t : FileTree) {p : Path} (ha : p.isAbsolute)
    (ht : IsText p.bytes) : (t.canonicalizeExisting p).isAbsolute := by
  obtain ⟨head, tail, above, hrep⟩ := t.exists_replaces_of_canonicalizeExisting ha ht
  rw [hrep.result_eq, Path.isAbsolute_rooted]

/-- Ways can be measured from what comes of an absolute path. -/
theorem anchored_canonicalizeExisting (t : FileTree) {p : Path} (ha : p.isAbsolute) :
    Anchored (t.canonicalizeExisting p) := by
  by_cases ht : IsText p.bytes
  · exact .inl (t.isAbsolute_canonicalizeExisting ha ht)
  · exact .inr (t.canonicalizeExisting_of_not_isText ht)

/-- In a tree without links, an absolute path that is text is replaced by its clean form. -/
theorem canonicalizeExisting_of_linkless {t : FileTree} (hl : t.Linkless) {p : Path}
    (ha : p.isAbsolute) (ht : IsText p.bytes) : t.canonicalizeExisting p = rooted p.names := by
  obtain ⟨head, tail, above, hrep⟩ := t.exists_replaces_of_canonicalizeExisting ha ht
  have hplain : ∀ n ∈ head, Plain n := fun n hn ↦
    Path.plain_of_mem_names n (hrep.split ▸ List.mem_append_left _ hn)
  have hc := canonicalize_of_linkless hl hrep.canonical
  rw [Path.names_rooted hplain, Path.rooted_inj hrep.plain hplain] at hc
  rw [hrep.result_eq, hc, hrep.split]

end Relocation.FileTree

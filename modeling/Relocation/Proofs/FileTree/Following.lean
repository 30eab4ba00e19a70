import Relocation.FileTree.Basic
import Relocation.Proofs.Path.Clean

/-!
# Following paths in a tree

`Follows` says where segments lead, one rule for each kind of segment; it is what walking comes
to. Positions that are led to are reached from the root by names alone, so the canonical path of
such a position leads to it again, whatever links were on the way. In a tree without links, where
a path leads is read off its segments.
-/

namespace Relocation.FileTree

open Relocation.Path (Plain dot dotDot slash rooted reach)

/-- The segments lead from one position to another through at most so many links. -/
inductive Follows : Nat → Position → List Name → Position → Prop where
  | done (k : Nat) (p : Position) : Follows k p [] p
  | stay {k : Nat} {p q : Position} {s : Name} {ss : List Name} {entries : Entries}
      (here : p.here = .directory entries) (dots : s = [] ∨ s = dot) (rest : Follows k p ss q) :
      Follows k p (s :: ss) q
  | up {k : Nat} {p q : Position} {ss : List Name} {entries : Entries}
      (here : p.here = .directory entries)
      (rest : Follows k { p with above := p.above.tail } ss q) :
      Follows k p (dotDot :: ss) q
  | enter {k : Nat} {p q : Position} {s : Name} {ss : List Name} {entries : Entries} {e : Entry}
      (here : p.here = .directory entries) (named : s ≠ [] ∧ s ≠ dot ∧ s ≠ dotDot)
      (short : s.length ≤ maxName) (found : entries.lookup s = some e)
      (noLink : ∀ target, e ≠ .link target)
      (rest : Follows k { p with above := (s, e) :: p.above } ss q) : Follows k p (s :: ss) q
  | follow {k : Nat} {p q : Position} {s : Name} {ss : List Name} {entries : Entries}
      {target : Path} (here : p.here = .directory entries)
      (named : s ≠ [] ∧ s ≠ dot ∧ s ≠ dotDot) (short : s.length ≤ maxName)
      (found : entries.lookup s = some (.link target)) (noNul : 0 ∉ target.bytes)
      (rest : Follows k (if target.isAbsolute then p.toRoot else p) (target.segments ++ ss) q) :
      Follows (k + 1) p (s :: ss) q

/-- Walking from a position, given what following a link comes to. -/
private theorem follows_of_walk {k : Nat}
    {follow : Position → List Name → Except FileError Position}
    (hfollow : ∀ p ss q, follow p ss = .ok q → ∃ m, k = m + 1 ∧ Follows m p ss q)
    {p q : Position} {ss : List Name} (h : walk follow p ss = .ok q) : Follows k p ss q := by
  induction ss generalizing p with
  | nil =>
    cases h
    exact .done k _
  | cons s ss ih =>
    simp only [walk] at h
    split at h
    · next entries hd =>
      split at h
      · next hs => exact .stay hd hs (ih h)
      · next hs =>
        split at h
        · next hs =>
          subst hs
          exact .up hd (ih h)
        · next hup =>
          have hnamed : s ≠ [] ∧ s ≠ dot ∧ s ≠ dotDot :=
            ⟨fun hn ↦ hs (.inl hn), fun hn ↦ hs (.inr hn), hup⟩
          split at h
          · simp at h
          · next hlen =>
            split at h
            · simp at h
            · next target hl =>
              split at h
              · simp at h
              · next hnul =>
                obtain ⟨m, rfl, hm⟩ := hfollow _ _ _ h
                exact .follow hd hnamed (by omega) hl (by simpa using hnul) hm
            · next e hlink hl =>
              exact .enter hd hnamed (by omega) hl hlink (ih h)
    · simp at h

/-- Walking leads where the segments lead. -/
theorem walkLinks_eq_ok_iff {k : Nat} {p q : Position} {ss : List Name} :
    walkLinks k p ss = .ok q ↔ Follows k p ss q := by
  constructor
  · intro h
    induction k generalizing p q ss with
    | zero => exact follows_of_walk (fun _ _ _ hf ↦ by simp at hf) h
    | succ k ih => exact follows_of_walk (fun _ _ _ hf ↦ ⟨k, rfl, ih hf⟩) h
  · intro h
    induction h with
    | done k p => cases k <;> rfl
    | @stay k _ _ _ _ _ here dots _ ih =>
      cases k <;> simpa [walkLinks, walk, here, dots] using ih
    | @up k _ _ _ _ here _ ih =>
      have hn : ¬(dotDot = [] ∨ dotDot = dot) := by decide
      cases k <;> simpa [walkLinks, walk, here, hn] using ih
    | @enter k _ _ _ _ _ e here named short found noLink _ ih =>
      have hlen := Nat.not_lt.mpr short
      cases e with
      | link target => exact absurd rfl (noLink target)
      | directory inner => cases k <;> simpa [walkLinks, walk, here, named, hlen, found] using ih
      | file content => cases k <;> simpa [walkLinks, walk, here, named, hlen, found] using ih
    | follow here named short found noNul _ ih =>
      have hlen := Nat.not_lt.mpr short
      simpa [walkLinks, walk, here, named, hlen, found, noNul] using ih

namespace Follows

variable {k : Nat} {p q r : Position} {ss ts : List Name}

/-- More links than needed may be allowed. -/
theorem mono {m : Nat} (h : Follows k p ss q) (hm : k ≤ m) : Follows m p ss q := by
  induction h generalizing m with
  | done k p => exact .done m p
  | stay here dots _ ih => exact .stay here dots (ih hm)
  | up here _ ih => exact .up here (ih hm)
  | enter here named short found noLink _ ih => exact .enter here named short found noLink (ih hm)
  | follow here named short found noNul _ ih =>
    obtain ⟨m, rfl⟩ : ∃ m', m = m' + 1 := ⟨m - 1, by omega⟩
    exact .follow here named short found noNul (ih (by omega))

/-- Segments behind others lead on. The links on both ways are taken together. -/
theorem append {l : Nat} (h : Follows k p ss q) (g : Follows l q ts r) :
    Follows (k + l) p (ss ++ ts) r := by
  induction h with
  | done k p => exact g.mono (Nat.le_add_left l k)
  | stay here dots _ ih => exact .stay here dots (ih g)
  | up here _ ih => exact .up here (ih g)
  | enter here named short found noLink _ ih => exact .enter here named short found noLink (ih g)
  | @follow k _ _ _ _ _ _ here named short found noNul _ ih =>
    have hrest := ih g
    rw [List.append_assoc] at hrest
    rw [Nat.add_right_comm k 1 l]
    exact .follow here named short found noNul hrest

/-- Segments are followed one part after the other, and share the links. -/
theorem through (h : Follows k p (ss ++ ts) r) :
    ∃ j l q, j + l = k ∧ Follows j p ss q ∧ Follows l q ts r := by
  generalize hall : ss ++ ts = all at h
  induction h generalizing ss with
  | done k p =>
    obtain ⟨rfl, rfl⟩ := List.append_eq_nil_iff.mp hall
    exact ⟨k, 0, p, rfl, .done k p, .done 0 p⟩
  | @stay k p q s _ _ here dots rest ih =>
    cases ss with
    | nil =>
      obtain rfl : ts = _ := hall
      exact ⟨0, k, p, Nat.zero_add k, .done 0 p, .stay here dots rest⟩
    | cons r ss =>
      obtain ⟨rfl, hrest⟩ := List.cons.inj hall
      obtain ⟨j, l, m, hk, hm, hq⟩ := ih hrest
      exact ⟨j, l, m, hk, .stay here dots hm, hq⟩
  | @up k p q _ _ here rest ih =>
    cases ss with
    | nil =>
      obtain rfl : ts = _ := hall
      exact ⟨0, k, p, Nat.zero_add k, .done 0 p, .up here rest⟩
    | cons r ss =>
      obtain ⟨rfl, hrest⟩ := List.cons.inj hall
      obtain ⟨j, l, m, hk, hm, hq⟩ := ih hrest
      exact ⟨j, l, m, hk, .up here hm, hq⟩
  | @enter k p q s _ _ _ here named short found noLink rest ih =>
    cases ss with
    | nil =>
      obtain rfl : ts = _ := hall
      exact ⟨0, k, p, Nat.zero_add k, .done 0 p, .enter here named short found noLink rest⟩
    | cons r ss =>
      obtain ⟨rfl, hrest⟩ := List.cons.inj hall
      obtain ⟨j, l, m, hk, hm, hq⟩ := ih hrest
      exact ⟨j, l, m, hk, .enter here named short found noLink hm, hq⟩
  | @follow k p q s tail _ target here named short found noNul rest ih =>
    cases ss with
    | nil =>
      obtain rfl : ts = _ := hall
      exact ⟨0, k + 1, p, Nat.zero_add _, .done 0 p, .follow here named short found noNul rest⟩
    | cons r ss =>
      obtain ⟨rfl, hrest⟩ := List.cons.inj hall
      -- the link's own segments stand in front of the rest
      have hlink : (target.segments ++ ss) ++ ts = target.segments ++ tail := by
        rw [List.append_assoc]
        exact congrArg _ hrest
      obtain ⟨j, l, m, hk, hm, hq⟩ := ih hlink
      exact ⟨j + 1, l, m, by omega, .follow here named short found noNul hm, hq⟩

/-- Without links, each part is followed without links. -/
theorem split (h : Follows 0 p (ss ++ ts) r) : ∃ q, Follows 0 p ss q ∧ Follows 0 q ts r := by
  obtain ⟨j, l, q, hk, hq, hr⟩ := h.through
  obtain ⟨rfl, rfl⟩ := Nat.add_eq_zero_iff.mp hk
  exact ⟨q, hq, hr⟩

/-- Segments lead to one position only, through however many links. -/
theorem unique {m : Nat} (h : Follows k p ss q) (g : Follows m p ss r) : q = r := by
  have hq := walkLinks_eq_ok_iff.mpr (h.mono (Nat.le_add_right k m))
  have hr := walkLinks_eq_ok_iff.mpr (g.mono (Nat.le_add_left m k))
  exact Except.ok.inj (hq.symm.trans hr)

end Follows

/-! ### Positions that are reached -/

/-- The names that a position is below the root by. -/
def Position.names (p : Position) : List Name := (p.above.map (·.1)).reverse

/-- The path of a position is that of its names from the root. -/
theorem Position.path_eq (p : Position) : p.path = rooted p.names := rfl

/-- A position in a tree is reached from the root by names, none of which stands for a link. -/
inductive Reached (t : FileTree) : Position → Prop where
  | root : Reached t ⟨t, []⟩
  | child {above : List (Name × Entry)} {entries : Entries} {n : Name} {e : Entry}
      (directory : Reached t ⟨t, above⟩) (here : Position.here ⟨t, above⟩ = .directory entries)
      (plain : Plain n) (noNul : 0 ∉ n) (short : n.length ≤ maxName)
      (found : entries.lookup n = some e) (noLink : ∀ target, e ≠ .link target) :
      Reached t ⟨t, (n, e) :: above⟩

namespace Reached

variable {t : FileTree} {p : Position}

private theorem root_eq (h : Reached t p) : p.root = t := by
  cases h <;> rfl

/-- From a position that is reached, the root is reached. -/
theorem toRoot (h : Reached t p) : Reached t p.toRoot := by
  cases h <;> exact .root

/-- From a position that is reached, the one above is reached. -/
theorem up (h : Reached t p) : Reached t { p with above := p.above.tail } := by
  cases h with
  | root => exact .root
  | child directory => exact directory

/-- Positions are reached by plain names. -/
theorem plain_of_mem_names (h : Reached t p) : ∀ n ∈ p.names, Plain n := by
  induction h with
  | root => simp [Position.names]
  | child _ _ plain _ _ _ _ ih =>
    simp only [Position.names, List.map_cons, List.reverse_cons, List.mem_append,
      List.mem_singleton] at ih ⊢
    rintro n (hn | rfl)
    · exact ih n hn
    · exact plain

/-- No name by which a position is reached holds the byte zero. -/
theorem nul_notMem_of_mem_names (h : Reached t p) : ∀ n ∈ p.names, 0 ∉ n := by
  induction h with
  | root => simp [Position.names]
  | child _ _ _ noNul _ _ _ ih =>
    simp only [Position.names, List.map_cons, List.reverse_cons, List.mem_append,
      List.mem_singleton] at ih ⊢
    rintro n (hn | rfl)
    · exact ih n hn
    · exact noNul

/-- The names of a position lead to it without links. -/
theorem follows_names (h : Reached t p) : Follows 0 ⟨t, []⟩ p.names p := by
  induction h with
  | root => exact .done 0 _
  | child _ here plain _ short found noLink ih =>
    have hlast := Follows.enter here ⟨plain.ne_nil, plain.ne_dot, plain.ne_dotDot⟩ short found
      noLink (.done 0 _)
    simpa only [Position.names, List.map_cons, List.reverse_cons] using ih.append hlast

end Reached

/-- A name that is no link leads from a reached position to one. -/
theorem Reached.enter {t : FileTree} {p : Position} (h : Reached t p) {entries : Entries}
    {n : Name} {e : Entry} (here : p.here = .directory entries)
    (named : n ≠ [] ∧ n ≠ dot ∧ n ≠ dotDot) (solid : slash ∉ n ∧ 0 ∉ n)
    (short : n.length ≤ maxName) (found : entries.lookup n = some e)
    (noLink : ∀ target, e ≠ .link target) : Reached t { p with above := (n, e) :: p.above } := by
  obtain rfl := h.root_eq
  exact .child h here ⟨named.1, named.2.1, named.2.2, solid.1⟩ solid.2 short found noLink

/-- The segments of a path without NUL bytes hold neither these nor slashes. -/
theorem solid_of_mem_segments {p : Path} (h : 0 ∉ p.bytes) :
    ∀ s ∈ p.segments, slash ∉ s ∧ 0 ∉ s := fun _ hs ↦
  ⟨Path.slash_notMem_of_mem_segmentsOf hs, fun h0 ↦ h (Path.mem_of_mem_segmentsOf hs h0)⟩

/-- Segments without slashes and NUL bytes lead from reached positions to reached positions. -/
theorem Follows.reached {t : FileTree} {k : Nat} {p q : Position} {ss : List Name}
    (h : Follows k p ss q) (hp : Reached t p) (hs : ∀ s ∈ ss, slash ∉ s ∧ 0 ∉ s) :
    Reached t q := by
  induction h with
  | done k p => exact hp
  | stay _ _ _ ih => exact ih hp fun s h ↦ hs s (List.mem_cons_of_mem _ h)
  | up _ _ ih => exact ih hp.up fun s h ↦ hs s (List.mem_cons_of_mem _ h)
  | enter here named short found noLink _ ih =>
    exact ih (hp.enter here named (hs _ (List.mem_cons_self ..)) short found noLink)
      fun s h ↦ hs s (List.mem_cons_of_mem _ h)
  | follow _ _ _ _ noNul _ ih =>
    refine ih ?_ (List.forall_mem_append.mpr
      ⟨solid_of_mem_segments noNul, fun s h ↦ hs s (List.mem_cons_of_mem _ h)⟩)
    split
    · exact hp.toRoot
    · exact hp

/-! ### Located paths -/

/-- A path is located exactly if it can be a path of the system, begins at the root and leads
somewhere through no more links than are allowed. -/
theorem locate_eq_ok_iff {t : FileTree} {p : Path} {q : Position} :
    t.locate p = .ok q ↔
      0 ∉ p.bytes ∧ p.isAbsolute ∧ Follows maxLinks ⟨t, []⟩ p.segments q := by
  unfold locate
  rw [← walkLinks_eq_ok_iff]
  split
  · next h => simp_all
  · next h =>
    split
    · next ha => simp_all
    · next ha => simp_all

/-- A path leads to a reached position. -/
theorem reached_of_locate {t : FileTree} {p : Path} {q : Position} (h : t.locate p = .ok q) :
    Reached t q := by
  obtain ⟨hnul, -, hf⟩ := locate_eq_ok_iff.mp h
  exact hf.reached .root (solid_of_mem_segments hnul)

/-- The segments of the path of names lead where the names lead. -/
theorem Follows.segments_rooted {t : FileTree} {k : Nat} {ns : List Name} {q : Position}
    (hn : ∀ n ∈ ns, slash ∉ n) (h : Follows k ⟨t, []⟩ ns q) :
    Follows k ⟨t, []⟩ (rooted ns).segments q := by
  have hroot : Position.here ⟨t, []⟩ = .directory t.entries := rfl
  by_cases he : ns = []
  · subst he
    exact .stay hroot (.inl rfl) (.stay hroot (.inl rfl) h)
  · rw [Path.segments_rooted he hn]
    exact .stay hroot (.inl rfl) h

/-- An absolute path of names without the byte zero is without it. -/
theorem nul_notMem_rooted {ns : List Name} (hn : ∀ n ∈ ns, 0 ∉ n) : 0 ∉ (rooted ns).bytes := by
  rw [Path.bytes_rooted, List.mem_cons, not_or]
  exact ⟨by decide, Path.notMem_joinSegments (by decide) hn⟩

/-- The path of names leads where the names lead. -/
theorem locate_rooted {t : FileTree} {ns : List Name} {q : Position}
    (hn : ∀ n ∈ ns, slash ∉ n ∧ 0 ∉ n) (h : Follows maxLinks ⟨t, []⟩ ns q) :
    t.locate (rooted ns) = .ok q :=
  locate_eq_ok_iff.mpr ⟨nul_notMem_rooted fun n hm ↦ (hn n hm).2, Path.isAbsolute_rooted ns,
    h.segments_rooted fun n hm ↦ (hn n hm).1⟩

/-- Where the path of names leads is where the names lead. -/
theorem follows_of_locate_rooted {t : FileTree} {ns : List Name} {q : Position}
    (hn : ∀ n ∈ ns, slash ∉ n) (h : t.locate (rooted ns) = .ok q) :
    Follows maxLinks ⟨t, []⟩ ns q := by
  obtain ⟨-, -, hf⟩ := locate_eq_ok_iff.mp h
  by_cases he : ns = []
  · subst he
    cases hf with
    | stay _ _ rest => cases rest with
      | stay _ _ rest => exact rest
      | enter _ named => exact absurd rfl named.1
      | follow _ named => exact absurd rfl named.1
    | enter _ named => exact absurd rfl named.1
    | follow _ named => exact absurd rfl named.1
  · rw [Path.segments_rooted he hn] at hf
    cases hf with
    | stay _ _ rest => exact rest
    | enter _ named => exact absurd rfl named.1
    | follow _ named => exact absurd rfl named.1

/-- The names of a path that leads somewhere hold no NUL byte. -/
theorem nul_notMem_of_locate_rooted {t : FileTree} {ns : List Name} {q : Position}
    (hn : ∀ n ∈ ns, slash ∉ n) (h : t.locate (rooted ns) = .ok q) : ∀ n ∈ ns, 0 ∉ n := by
  intro n hm h0
  refine (locate_eq_ok_iff.mp h).1 (@Path.mem_of_mem_segmentsOf _ n ?_ 0 h0)
  change n ∈ (rooted ns).segments
  rw [Path.segments_rooted (List.ne_nil_of_mem hm) hn]
  exact List.mem_cons_of_mem _ hm

/-- The canonical path of a reached position leads to it. -/
theorem locate_path {t : FileTree} {q : Position} (h : Reached t q) : t.locate q.path = .ok q :=
  locate_rooted (fun n hn ↦ ⟨(h.plain_of_mem_names n hn).noSlash, h.nul_notMem_of_mem_names n hn⟩)
    (h.follows_names.mono (Nat.zero_le _))

/-- The canonical path is that of the position which the path is located at. -/
theorem canonicalize_eq_ok_iff {t : FileTree} {p c : Path} :
    t.canonicalize p = .ok c ↔ ∃ q, t.locate p = .ok q ∧ q.path = c := by
  unfold canonicalize
  cases t.locate p <;> simp [Except.map]

/-- A canonical path is its own canonical path. -/
theorem canonicalize_of_canonicalize {t : FileTree} {p c : Path} (h : t.canonicalize p = .ok c) :
    t.canonicalize c = .ok c := by
  obtain ⟨q, hq, rfl⟩ := canonicalize_eq_ok_iff.mp h
  exact canonicalize_eq_ok_iff.mpr ⟨q, locate_path (reached_of_locate hq), rfl⟩

/-- A canonical path is the path of plain names. -/
theorem exists_rooted_of_canonicalize {t : FileTree} {p c : Path} (h : t.canonicalize p = .ok c) :
    ∃ ns, c = rooted ns ∧ (∀ n ∈ ns, Plain n) ∧ ∀ n ∈ ns, 0 ∉ n := by
  obtain ⟨q, hq, rfl⟩ := canonicalize_eq_ok_iff.mp h
  have hr := reached_of_locate hq
  exact ⟨q.names, rfl, hr.plain_of_mem_names, hr.nul_notMem_of_mem_names⟩

/-- A position whose path is written by plain names is below the root by these names. -/
theorem Reached.names_eq_of_path {t : FileTree} {q : Position} (h : Reached t q) {ns : List Name}
    (hn : ∀ n ∈ ns, Plain n) (hpath : q.path = rooted ns) : q.names = ns :=
  (Path.rooted_inj h.plain_of_mem_names hn).mp hpath

/-- Behind a path, names lead where they lead behind its canonical path. -/
theorem canonicalize_append {t : FileTree} {ns ms xs : List Name} (hn : ∀ n ∈ ns, slash ∉ n)
    (hm : ∀ m ∈ ms ++ xs, Plain m) (h : t.canonicalize (rooted ns) = .ok (rooted ms))
    (hx : t.canonicalize (rooted (ms ++ xs)) = .ok (rooted (ms ++ xs))) :
    t.canonicalize (rooted (ns ++ xs)) = .ok (rooted (ms ++ xs)) := by
  obtain ⟨a, ha, hapath⟩ := canonicalize_eq_ok_iff.mp h
  obtain ⟨q, hq, hqpath⟩ := canonicalize_eq_ok_iff.mp hx
  have hra := reached_of_locate ha
  have hrq := reached_of_locate hq
  have hanames := hra.names_eq_of_path (fun m h ↦ hm m (List.mem_append_left xs h)) hapath
  have hqnames := hrq.names_eq_of_path hm hqpath
  have hrest : Follows 0 a xs q := by
    have hall := hrq.follows_names
    rw [hqnames, ← hanames] at hall
    obtain ⟨b, hb, hrest⟩ := hall.split
    obtain rfl := hb.unique hra.follows_names
    exact hrest
  refine canonicalize_eq_ok_iff.mpr ⟨q, locate_rooted (fun n h ↦ ?_) ?_, hqpath⟩
  · rcases List.mem_append.mp h with h | h
    · exact ⟨hn n h, nul_notMem_of_locate_rooted hn ha n h⟩
    · have hmem := List.mem_append_right ms h
      exact ⟨(hm n hmem).noSlash, hrq.nul_notMem_of_mem_names n (hqnames ▸ hmem)⟩
  · exact (follows_of_locate_rooted hn ha).append hrest

/-- A path is a file's if it is located at a file. -/
theorem isFile_iff {t : FileTree} {p : Path} :
    t.isFile p ↔ ∃ q content, t.locate p = .ok q ∧ q.here = .file content := by
  unfold isFile
  cases t.locate p with
  | error e => simp
  | ok q => cases h : q.here <;> simp [h]

/-- A path is a directory's if it is located at a directory. -/
theorem isDirectory_iff {t : FileTree} {p : Path} :
    t.isDirectory p ↔ ∃ q entries, t.locate p = .ok q ∧ q.here = .directory entries := by
  unfold isDirectory
  cases t.locate p with
  | error e => simp
  | ok q => cases h : q.here <;> simp [h]

/-- What is read at a path is a file. -/
theorem isFile_iff_read {t : FileTree} {p : Path} :
    t.isFile p ↔ ∃ content, t.read p = .ok content := by
  rw [isFile_iff, read]
  cases t.locate p with
  | error e => simp
  | ok q => cases h : q.here <;> simp [h]

/-- Where a path leads to a file, its canonical path does. -/
theorem isFile_of_canonicalize {t : FileTree} {p c : Path} (h : t.canonicalize p = .ok c) :
    t.isFile c = t.isFile p := by
  obtain ⟨q, hq, rfl⟩ := canonicalize_eq_ok_iff.mp h
  rw [isFile, isFile, hq, locate_path (reached_of_locate hq)]

/-- Whatever lies above a position is a directory. -/
theorem Reached.isDirectory_of_prefix {t : FileTree} {q : Position} (h : Reached t q)
    {ns : List Name} (hp : ns <+: q.names) (hne : ns ≠ q.names) : t.isDirectory (rooted ns) := by
  induction h with
  | root => exact absurd (List.prefix_nil.mp hp) hne
  | @child above entries n e directory here _ _ _ _ _ ih =>
    have hnames : Position.names ⟨t, (n, e) :: above⟩ = Position.names ⟨t, above⟩ ++ [n] := by
      rw [Position.names, List.map_cons, List.reverse_cons]
      rfl
    rw [hnames] at hp hne
    have hp := (List.prefix_concat_iff.mp hp).resolve_left hne
    by_cases he : ns = Position.names ⟨t, above⟩
    · subst he
      exact isDirectory_iff.mpr ⟨_, entries, locate_path directory, here⟩
    · exact ih hp he

/-- No path leads to a file and a directory. -/
theorem not_isFile_of_isDirectory {t : FileTree} {p : Path} (h : t.isDirectory p) :
    t.isFile p = false := by
  obtain ⟨q, entries, hq, hentries⟩ := isDirectory_iff.mp h
  rw [isFile, hq]
  simp only [hentries]

/-! ### Trees without links -/

mutual

/-- Tests whether an entry holds no links. -/
def isLinkless : Entry → Bool
  | .directory entries => areLinkless entries
  | .file _ => true
  | .link _ => false

/-- Tests whether the entries of a directory hold no links. -/
def areLinkless : Entries → Bool
  | [] => true
  | (_, e) :: rest => isLinkless e && areLinkless rest

end

/-- There are no links in a tree. -/
def Linkless (t : FileTree) : Prop := areLinkless t.entries

instance (t : FileTree) : Decidable t.Linkless := inferInstanceAs (Decidable (_ = true))

private theorem isLinkless_of_lookup {entries : Entries} (h : areLinkless entries) {n : Name}
    {e : Entry} (he : entries.lookup n = some e) : isLinkless e := by
  induction entries with
  | nil => simp at he
  | cons entry rest ih =>
    obtain ⟨m, f⟩ := entry
    rw [areLinkless, Bool.and_eq_true] at h
    rw [List.lookup_cons] at he
    split at he
    · cases he
      exact h.1
    · exact ih h.2 he

/-- What is reached in a tree without links holds none. -/
theorem Reached.isLinkless_here {t : FileTree} (ht : t.Linkless) {p : Position}
    (h : Reached t p) : isLinkless p.here := by
  induction h with
  | root => exact ht
  | child _ here _ _ _ found _ ih =>
    rw [here] at ih
    exact isLinkless_of_lookup ih found

/-- Without links, segments lead to the names that they mean. -/
theorem Follows.names_of_linkless {t : FileTree} (ht : t.Linkless) {k : Nat} {p q : Position}
    {ss : List Name} (h : Follows k p ss q) (hp : Reached t p)
    (hs : ∀ s ∈ ss, slash ∉ s ∧ 0 ∉ s) : q.names = reach p.names ss := by
  induction h with
  | done k p => exact (Path.reach_nil _).symm
  | stay _ dots _ ih =>
    rw [ih hp fun s h ↦ hs s (List.mem_cons_of_mem _ h)]
    rcases dots with rfl | rfl
    · rw [Path.reach_cons_nil]
    · rw [Path.reach_cons_dot]
  | up _ _ ih =>
    rw [ih hp.up fun s h ↦ hs s (List.mem_cons_of_mem _ h),
      Path.reach_cons_dotDot fun n hn ↦ (hp.plain_of_mem_names n hn).ne_dotDot]
    simp only [Position.names, List.map_tail, List.dropLast_reverse]
  | enter here named short found noLink _ ih =>
    have hsolid := hs _ (List.mem_cons_self ..)
    rw [ih (hp.enter here named hsolid short found noLink)
      fun s h ↦ hs s (List.mem_cons_of_mem _ h),
      Path.reach_cons_plain ⟨named.1, named.2.1, named.2.2, hsolid.1⟩]
    simp only [Position.names, List.map_cons, List.reverse_cons]
  | follow here _ _ found _ _ _ =>
    have hl := hp.isLinkless_here ht
    rw [here] at hl
    exact absurd (isLinkless_of_lookup hl found) (by simp [isLinkless])

/-- In a tree without links, the canonical path of an absolute path is that of its names. -/
theorem canonicalize_of_linkless {t : FileTree} (ht : t.Linkless) {p c : Path}
    (h : t.canonicalize p = .ok c) : c = rooted p.names := by
  obtain ⟨q, hq, rfl⟩ := canonicalize_eq_ok_iff.mp h
  obtain ⟨hnul, -, hf⟩ := locate_eq_ok_iff.mp hq
  rw [Position.path_eq, hf.names_of_linkless ht .root (solid_of_mem_segments hnul)]
  rfl

end Relocation.FileTree

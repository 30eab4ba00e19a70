import Relocation.Proofs.FileTree.Following

/-!
# Parts of the paths that are followed

What the spelling of a path says about where it leads. Whatever a path leads to, its beginnings lead
somewhere. A path that ends with a slash or with dots leads to a directory. A path that ends with a
name that no directory holds leads nowhere.
-/

namespace Relocation.FileTree

open Relocation.Path (Plain dot dotDot slash)

variable {t : FileTree} {k : Nat} {p q : Position}

/-! ### Beginnings -/

/-- A path exists if it is located somewhere. -/
theorem pathExists_iff {f : Path} : t.pathExists f ↔ ∃ q, t.locate f = .ok q := by
  unfold pathExists
  cases t.locate f with
  | error e =>
    refine iff_of_false (fun h ↦ by cases h) ?_
    rintro ⟨q, hq⟩
    cases hq
  | ok q => exact iff_of_true rfl ⟨q, rfl⟩

/-- The path of a file exists. -/
theorem pathExists_of_isFile {f : Path} (h : t.isFile f) : t.pathExists f := by
  obtain ⟨q, -, hq, -⟩ := isFile_iff.mp h
  exact pathExists_iff.mpr ⟨q, hq⟩

/-- The path of a directory exists. -/
theorem pathExists_of_isDirectory {f : Path} (h : t.isDirectory f) : t.pathExists f := by
  obtain ⟨q, -, hq, -⟩ := isDirectory_iff.mp h
  exact pathExists_iff.mpr ⟨q, hq⟩

/-- A path holds no NUL byte if its segments hold none. -/
theorem nul_notMem_of_segments {f : Path} (h : ∀ s ∈ f.segments, 0 ∉ s) : 0 ∉ f.bytes := by
  rw [← Path.joinSegments_segmentsOf f.bytes]
  exact Path.notMem_joinSegments (by decide) h

/-- Where a path leads somewhere, so does each path whose segments it begins with. -/
theorem pathExists_of_segments {d f : Path} (hd : d.isAbsolute) {ss : List Name}
    (hs : f.segments = d.segments ++ ss) (h : t.pathExists f) : t.pathExists d := by
  obtain ⟨q, hq⟩ := pathExists_iff.mp h
  obtain ⟨hnul, -, hf⟩ := locate_eq_ok_iff.mp hq
  have hsolid := solid_of_mem_segments hnul
  rw [hs] at hf hsolid
  obtain ⟨j, l, m, hlinks, hm, -⟩ := hf.through
  have hnulDir : 0 ∉ d.bytes :=
    nul_notMem_of_segments fun s hm ↦ (hsolid s (List.mem_append_left ss hm)).2
  exact pathExists_iff.mpr ⟨m, locate_eq_ok_iff.mpr ⟨hnulDir, hd, hm.mono (by omega)⟩⟩

/-! ### Paths that end as directories do -/

/-- Above a position in a tree there is a directory. -/
theorem Reached.exists_here_up (h : Reached t p) :
    ∃ entries, Position.here { p with above := p.above.tail } = .directory entries := by
  cases h with
  | root => exact ⟨t.entries, rfl⟩
  | child _ here => exact ⟨_, here⟩

/-- Segments that end with an empty one or with dots lead to a directory. -/
theorem Follows.exists_here_directory {ss : List Name} (h : Follows k p ss q) (hp : Reached t p)
    (hs : ∀ s ∈ ss, slash ∉ s ∧ 0 ∉ s) {s : Name} (hlast : ss.getLast? = some s)
    (hdots : s = [] ∨ s = dot ∨ s = dotDot) : ∃ entries, q.here = .directory entries := by
  have htail {r : Name} {rs : List Name} (hne : rs ≠ [])
      (h : (r :: rs).getLast? = some s) : rs.getLast? = some s := by
    rwa [List.getLast?_cons_of_ne_nil hne] at h
  have hnamed {r : Name} (named : r ≠ [] ∧ r ≠ dot ∧ r ≠ dotDot) : [r].getLast? ≠ some s := by
    intro hr
    obtain rfl : r = s := by simpa using hr
    rcases hdots with h | h | h
    · exact named.1 h
    · exact named.2.1 h
    · exact named.2.2 h
  -- names before the end lead on; the end itself is no name, so it was stayed in or left upwards
  induction h with
  | done k p => cases hlast
  | @stay k p q r rs entries here _ rest ih =>
    by_cases hrs : rs = []
    · subst hrs
      cases rest
      exact ⟨entries, here⟩
    · exact ih hp (fun s h ↦ hs s (List.mem_cons_of_mem _ h)) (htail hrs hlast)
  | @up k p q rs entries here rest ih =>
    by_cases hrs : rs = []
    · subst hrs
      cases rest
      exact hp.exists_here_up
    · exact ih hp.up (fun s h ↦ hs s (List.mem_cons_of_mem _ h)) (htail hrs hlast)
  | @enter k p q r rs entries e here named short found noLink rest ih =>
    by_cases hrs : rs = []
    · subst hrs
      exact absurd hlast (hnamed named)
    · exact ih (hp.enter here named (hs _ List.mem_cons_self) short found noLink)
        (fun s h ↦ hs s (List.mem_cons_of_mem _ h)) (htail hrs hlast)
  | @follow k p q r rs entries target here named short found noNul rest ih =>
    by_cases hrs : rs = []
    · subst hrs
      exact absurd hlast (hnamed named)
    · refine ih ?_ (List.forall_mem_append.mpr
        ⟨solid_of_mem_segments noNul, fun s h ↦ hs s (List.mem_cons_of_mem _ h)⟩) ?_
      · split
        · exact hp.toRoot
        · exact hp
      · rw [List.getLast?_append_of_ne_nil _ hrs]
        exact htail hrs hlast

/-- A path that ends with a slash or with dots leads to no file. -/
theorem isFile_eq_false_of_getLast? {f : Path} {s : Name} (hlast : f.segments.getLast? = some s)
    (hdots : s = [] ∨ s = dot ∨ s = dotDot) : t.isFile f = false := by
  rw [← Bool.not_eq_true]
  intro hfile
  obtain ⟨q, content, hq, hcontent⟩ := isFile_iff.mp hfile
  obtain ⟨hnul, -, hf⟩ := locate_eq_ok_iff.mp hq
  obtain ⟨entries, hentries⟩ :=
    hf.exists_here_directory .root (solid_of_mem_segments hnul) hlast hdots
  rw [hcontent] at hentries
  cases hentries

/-! ### Names that a tree is without -/

mutual

/-- Tests whether a name stands nowhere in an entry. -/
def isWithout (n : Name) : Entry → Bool
  | .directory entries => areWithout n entries
  | .file _ => true
  | .link _ => true

/-- Tests whether a name stands nowhere in a directory and its entries. -/
def areWithout (n : Name) : Entries → Bool
  | [] => true
  | (m, e) :: rest => m ≠ n && isWithout n e && areWithout n rest

end

/-- No entry of a tree has a certain name. -/
def Without (t : FileTree) (n : Name) : Prop := areWithout n t.entries

instance (t : FileTree) (n : Name) : Decidable (t.Without n) :=
  inferInstanceAs (Decidable (_ = true))

namespace Without

variable {n : Name}

private theorem of_lookup {entries : Entries} (h : areWithout n entries) {m : Name} {e : Entry}
    (he : entries.lookup m = some e) : m ≠ n ∧ isWithout n e := by
  induction entries with
  | nil => cases he
  | cons entry rest ih =>
    obtain ⟨l, f⟩ := entry
    rw [areWithout, Bool.and_eq_true, Bool.and_eq_true, decide_eq_true_eq] at h
    rw [List.lookup_cons] at he
    split at he
    · next hl =>
      cases he
      rw [eq_of_beq hl]
      exact h.1
    · exact ih h.2 he

private theorem isWithout_here (ht : t.Without n) (h : Reached t p) : isWithout n p.here := by
  induction h with
  | root => exact ht
  | child _ here _ _ _ found _ ih =>
    rw [here] at ih
    exact (of_lookup ih found).2

/-- No segments lead anywhere that end with the name. -/
theorem getLast?_ne (ht : t.Without n) {ss : List Name} (h : Follows k p ss q) (hp : Reached t p)
    (hs : ∀ s ∈ ss, slash ∉ s ∧ 0 ∉ s) (hn : Plain n) : ss.getLast? ≠ some n := by
  have htail {r : Name} {rs : List Name} (hr : r ≠ n) (hrs : rs.getLast? ≠ some n) :
      (r :: rs).getLast? ≠ some n := by
    intro hlast
    by_cases he : rs = []
    · subst he
      exact hr (Option.some.inj hlast)
    · rw [List.getLast?_cons_of_ne_nil he] at hlast
      exact hrs hlast
  have hlookup {p : Position} (hp : Reached t p) {entries : Entries}
      (here : p.here = .directory entries) {m : Name} {e : Entry}
      (found : entries.lookup m = some e) : m ≠ n := by
    have hwithout := ht.isWithout_here hp
    rw [here] at hwithout
    exact (of_lookup hwithout found).1
  induction h with
  | done k p => simp
  | stay _ dots _ ih =>
    refine htail ?_ (ih hp fun s h ↦ hs s (List.mem_cons_of_mem _ h))
    rcases dots with rfl | rfl
    · exact Ne.symm hn.ne_nil
    · exact Ne.symm hn.ne_dot
  | up _ _ ih =>
    exact htail (Ne.symm hn.ne_dotDot) (ih hp.up fun s h ↦ hs s (List.mem_cons_of_mem _ h))
  | enter here named short found noLink _ ih =>
    have hentered := hp.enter here named (hs _ List.mem_cons_self) short found noLink
    exact htail (hlookup hp here found) (ih hentered fun s h ↦ hs s (List.mem_cons_of_mem _ h))
  | @follow k p q r rs entries target here _ _ found noNul _ ih =>
    refine htail (hlookup hp here found) ?_
    intro hlast
    refine ih (by split; exacts [hp.toRoot, hp]) (List.forall_mem_append.mpr
      ⟨solid_of_mem_segments noNul, fun s h ↦ hs s (List.mem_cons_of_mem _ h)⟩) ?_
    rw [List.getLast?_append_of_ne_nil _ (by rintro rfl; cases hlast), hlast]

/-- A path that ends with the name leads to no file. -/
theorem isFile_eq_false (ht : t.Without n) (hn : Plain n) {f : Path}
    (hlast : f.segments.getLast? = some n) : t.isFile f = false := by
  rw [← Bool.not_eq_true]
  intro hfile
  obtain ⟨q, content, hq, -⟩ := isFile_iff.mp hfile
  obtain ⟨hnul, -, hf⟩ := locate_eq_ok_iff.mp hq
  exact ht.getLast?_ne hf .root (solid_of_mem_segments hnul) hn hlast

end Without

end Relocation.FileTree

import Relocation.Proofs.Resolver.Failing
import Relocation.Proofs.Resolver.Respelled
import Relocation.Proofs.Resolver.Unguarded

/-!
# The order of the search for a package

The directories of packages above a place are those below its beginnings, the longest first. Of the
directories above several places the first of each meaning is kept, and the search ends in the first
one of these where something is found or a manifest is none. Directories that are left out would not
have changed the end: nothing was found in the directory that means the same and stands before.
-/

namespace Relocation.Resolver

variable {r : Resolver} {t : FileTree} {s : String} {p d : Path} {ds ps seen searched : List Path}

private theorem same_iff_components {q : Path} : p.same q ↔ p.components = q.components :=
  decide_eq_true_iff

/-! ### Above one place -/

private theorem components_join_modulesName (h : p.isAbsolute) :
    (p.join ⟨modulesName⟩).components = p.components ++ [.name modulesName] :=
  Path.components_join h (by decide)

/-- The directories of packages above an absolute place, by what they mean. -/
theorem map_components_modulePaths (h : p.isAbsolute) :
    (modulePaths p).map Path.components =
      (p.components.inits.tail.reverse.filter (·.getLast? ≠ some (.name modulesName))).map
        (· ++ [.name modulesName]) := by
  rw [← Path.map_components_ancestors h, List.filter_map, List.map_map, modulePaths, List.map_map]
  have habsolute : ∀ a ∈ p.ancestors, a.isAbsolute := fun a ↦ isAbsolute_of_mem_ancestors h
  have hfilter : p.ancestors.filter (fun a ↦ a.fileName? ≠ some modulesName) =
      p.ancestors.filter ((fun cs ↦ cs.getLast? ≠ some (.name modulesName)) ∘ Path.components) :=
    List.filter_congr fun a ha ↦ by
      rw [Function.comp_apply, decide_eq_decide, ne_eq, ne_eq,
        Path.fileName?_eq_some_iff (habsolute a ha)]
  rw [hfilter]
  exact List.map_congr_left fun a ha ↦
    components_join_modulesName (habsolute a (List.mem_filter.mp ha).1)

/-- The beginnings of a list, the longest first, are the list and those of the list without its
last element. -/
private theorem reverse_tail_inits {α : Type} {l : List α} (h : l ≠ []) :
    l.inits.tail.reverse = l :: l.dropLast.inits.tail.reverse := by
  obtain ⟨init, x, rfl⟩ := (List.eq_nil_or_concat l).resolve_left h
  rw [List.concat_eq_append, List.dropLast_concat, List.inits_append, List.inits_cons, List.inits]
  cases init <;> simp

/-- A directory of packages stands first in its own chain exactly if it is not in another one. -/
theorem head_modulePaths_same_iff (h : p.isAbsolute) (hn : p.fileName? = some modulesName) :
    (∃ d ds, modulePaths p = d :: ds ∧ d.same p) ↔
      p.parentDirectory.fileName? ≠ some modulesName := by
  have habove : p.parentDirectory.isAbsolute := Path.isAbsolute_parentDirectory h
  have hconcat := Path.components_eq_concat h hn
  have hchain := map_components_modulePaths h
  have hne : p.parentDirectory.components ≠ [] := by
    rw [Path.components_of_isAbsolute habove]
    exact List.cons_ne_nil _ _
  -- the place itself is passed over, so the chain begins with the directory above, if at all
  rw [reverse_tail_inits (by rw [hconcat]; simp), hconcat, List.dropLast_concat,
    List.filter_cons_of_neg (by simp), reverse_tail_inits hne] at hchain
  rw [ne_eq, Path.fileName?_eq_some_iff habove]
  constructor
  · rintro ⟨d, ds, hds, hsame⟩ hlast
    rw [List.filter_cons_of_neg (by simpa using hlast), hds, List.map_cons] at hchain
    have hmem := hchain ▸ List.mem_cons_self
    obtain ⟨cs, hcs, hd⟩ := List.mem_map.mp hmem
    rw [same_iff_components.mp hsame, hconcat] at hd
    obtain rfl := List.append_cancel_right hd
    have hprefix := (List.mem_inits _ _).mp
      (List.mem_of_mem_tail (List.mem_reverse.mp (List.mem_filter.mp hcs).1))
    have hlength := hprefix.length_le
    have hpos := List.length_pos_iff.mpr hne
    rw [List.length_dropLast] at hlength
    omega
  · intro hlast
    rw [List.filter_cons_of_pos (by simpa using hlast), List.map_cons] at hchain
    obtain ⟨d, ds, hds, hd, -⟩ := List.map_eq_cons_iff.mp hchain
    exact ⟨d, ds, hds, same_iff_components.mpr (hd.trans hconcat.symm)⟩

/-! ### The first of each meaning -/

/-- The first of paths with each meaning, in their order. -/
structure Firsts (ps ds : List Path) : Prop where
  sublist : ds.Sublist ps
  pairwise : ds.Pairwise fun d e ↦ ¬d.same e
  mem_iff : ∀ d, d ∈ ds ↔ ps.find? (·.same d) = some d

private theorem mem_distinct_iff :
    d ∈ distinct seen ps ↔
      (∀ e ∈ seen, ¬e.same d) ∧ ps.find? (·.same d) = some d := by
  induction ps generalizing seen with
  | nil => simp [distinct]
  | cons p ps ih =>
    rw [distinct, List.find?_cons]
    by_cases hseen : seen.any (·.same p)
    · rw [if_pos hseen, ih]
      obtain ⟨e, he, hsame⟩ := List.any_eq_true.mp hseen
      cases hp : p.same d with
      | false => rfl
      | true =>
        have hed : e.same d := same_iff_components.mpr
          ((same_iff_components.mp hsame).trans (same_iff_components.mp hp))
        exact iff_of_false (fun h ↦ h.1 e he hed) fun h ↦ h.1 e he hed
    · rw [if_neg hseen, List.mem_cons, ih, List.forall_mem_cons]
      cases hp : p.same d with
      | false =>
        have hne : d ≠ p := by
          rintro rfl
          cases hp.symm.trans (same_iff_components.mpr rfl)
        simp [hne]
      | true =>
        simp only [not_true, false_and, or_false, Option.some.injEq]
        constructor
        · rintro rfl
          exact ⟨fun e he hsame ↦ hseen (List.any_eq_true.mpr ⟨e, he, hsame⟩), rfl⟩
        · exact fun h ↦ h.2.symm

private theorem distinct_sublist : (distinct seen ps).Sublist ps := by
  induction ps generalizing seen with
  | nil => exact List.Sublist.refl []
  | cons p ps ih =>
    rw [distinct]
    split
    · exact ih.cons p
    · exact ih.cons_cons p

private theorem distinct_pairwise : (distinct seen ps).Pairwise fun d e ↦ ¬d.same e := by
  induction ps generalizing seen with
  | nil => exact .nil
  | cons p ps ih =>
    rw [distinct]
    split
    · exact ih
    · exact .cons (fun d hd ↦ (mem_distinct_iff.mp hd).1 p List.mem_cons_self) ih

/-- Of several paths with one meaning, the first is kept. -/
theorem firsts_distinct (ps : List Path) : Firsts ps (distinct [] ps) :=
  ⟨distinct_sublist, distinct_pairwise, fun d ↦ by simp [mem_distinct_iff]⟩

/-! ### The end of the search -/

/-- A search that skips directories which mean the same as one before finds the same. -/
theorem firstHit_distinct (hps : ∀ p ∈ ps, p.isAbsolute) (hseen : ∀ e ∈ seen, e.isAbsolute)
    (hsilent : ∀ e ∈ seen, r.probe t s e = .ok none) :
    r.firstHit t s (distinct seen ps) = r.firstHit t s ps := by
  induction ps generalizing seen with
  | nil => rfl
  | cons p ps ih =>
    obtain ⟨hp, hps⟩ := List.forall_mem_cons.mp hps
    rw [distinct]
    split
    · next hany =>
      obtain ⟨e, he, hsame⟩ := List.any_eq_true.mp hany
      have hnone : r.probe t s p = .ok none := by
        refine probe_of_same (hseen e he) hp ?_ (hsilent e he)
        exact same_iff_components.mpr (same_iff_components.mp hsame).symm
      rw [ih hps hseen hsilent]
      simp only [firstHit, hnone]
    · simp only [firstHit]
      cases hprobe : r.probe t s p with
      | error e => rfl
      | ok found =>
        cases found with
        | some f => rfl
        | none =>
          exact ih hps (List.forall_mem_cons.mpr ⟨hp, hseen⟩)
            (List.forall_mem_cons.mpr ⟨hprobe, hsilent⟩)

/-- How a search for a specifier in directories ends: with the answer for what the first directory
holds that holds anything, with a manifest there that is none, or without a result. -/
inductive Ends (r : Resolver) (t : FileTree) (s : String) (searched : List Path) :
    List Path → Except Error Path → Prop where
  | found (before after : List Path) {d f file : Path}
      (silent : ∀ b ∈ before, r.probe t s b = .ok none) (holds : r.probe t s d = .ok (some f))
      (settled : if r.preserveLinks then f.clean = file else t.canonicalize f = .ok file) :
      Ends r t s searched (before ++ d :: after) (.ok file)
  | broken (before after : List Path) {d path : Path} {cause : Json.Error}
      (silent : ∀ b ∈ before, r.probe t s b = .ok none)
      (fails : r.probe t s d = .error (.manifest path cause)) :
      Ends r t s searched (before ++ d :: after) (.error (.manifest path cause))
  | nothing {ds : List Path} (silent : ∀ d ∈ ds, r.probe t s d = .ok none) :
      Ends r t s searched ds (.error (.notFound s searched))

section

variable {answer : Except Error Path}

/-- A directory where nothing is found makes no difference in front of others. -/
theorem Ends.behind (hd : r.probe t s d = .ok none) (h : r.Ends t s searched ds answer) :
    r.Ends t s searched (d :: ds) answer := by
  cases h with
  | found before after silent holds settled =>
    exact .found (d :: before) after (List.forall_mem_cons.mpr ⟨hd, silent⟩) holds settled
  | broken before after silent fails =>
    exact .broken (d :: before) after (List.forall_mem_cons.mpr ⟨hd, silent⟩) fails
  | nothing silent => exact .nothing (List.forall_mem_cons.mpr ⟨hd, silent⟩)

private theorem firstHit_append {before after : List Path}
    (silent : ∀ b ∈ before, r.probe t s b = .ok none) :
    r.firstHit t s (before ++ after) = r.firstHit t s after := by
  induction before with
  | nil => rfl
  | cons b before ih =>
    obtain ⟨hb, hrest⟩ := List.forall_mem_cons.mp silent
    rw [List.cons_append, firstHit, hb]
    exact ih hrest

private theorem ends_conclude :
    r.Ends t s searched ds (r.conclude t s searched (r.firstHit t s ds)) := by
  induction ds with
  | nil => exact .nothing (by simp)
  | cons d ds ih =>
    rw [firstHit]
    cases hd : r.probe t s d with
    | error e =>
      obtain ⟨path, cause, rfl⟩ := failsOnly_probe (P := fun e ↦ ∃ path cause, e = .manifest path
        cause) (fun path cause ↦ ⟨path, cause, rfl⟩) e hd
      exact .broken [] ds (by simp) hd
    | ok found =>
      cases found with
      | none => exact ih.behind hd
      | some f =>
        obtain ⟨p, -, hf⟩ := probe_eq_ok_some_iff.mp hd
        obtain ⟨file, hfile⟩ :=
          exists_settle_of_isFile (r := r) (isFile_of_asFileOrDirectory hf)
        have hanswer : r.conclude t s searched (.ok (some f)) = .ok file := hfile
        rw [hanswer]
        exact .found [] ds (by simp) hd (settle_eq_ok_iff.mp hfile)

/-- The search ends in one way only, as the resolver's does. -/
theorem ends_iff :
    r.Ends t s searched ds answer ↔ r.conclude t s searched (r.firstHit t s ds) = answer := by
  constructor
  · intro h
    cases h with
    | found _ _ silent holds settled =>
      rw [firstHit_append silent, firstHit, holds]
      exact settle_eq_ok_iff.mpr settled
    | broken _ _ silent fails =>
      rw [firstHit_append silent, firstHit, fails]
      rfl
    | nothing silent =>
      rw [← List.append_nil ds, firstHit_append silent]
      rfl
  · rintro rfl
    exact ends_conclude

/-- The search ends without a result exactly if there is nothing in any directory. -/
theorem ends_notFound_iff {specifier : String} {listed : List Path} :
    r.Ends t s searched ds (.error (.notFound specifier listed)) ↔
      (specifier = s ∧ listed = searched) ∧ ∀ d ∈ ds, r.probe t s d = .ok none := by
  constructor
  · intro h
    cases h with
    | nothing silent => exact ⟨⟨rfl, rfl⟩, silent⟩
  · rintro ⟨⟨rfl, rfl⟩, silent⟩
    exact .nothing silent

/-- A package is looked for in the first directories of each meaning; in all of them the search
ends in the same way. -/
theorem resolvePackage_eq_iff {searchPaths : List Path} (h : ∀ p ∈ searchPaths, p.isAbsolute) :
    (r.resolvePackage t s searchPaths = answer ↔
      r.Ends t s (searchList searchPaths) (searchList searchPaths) answer) ∧
    (r.resolvePackage t s searchPaths = answer ↔
      r.Ends t s (searchList searchPaths) (searchPaths.flatMap modulePaths) answer) := by
  have hall : ∀ d ∈ searchPaths.flatMap modulePaths, d.isAbsolute := by
    intro d hd
    obtain ⟨p, hp, hd⟩ := List.mem_flatMap.mp hd
    exact (named_of_mem_modulePaths (h p hp) hd).isAbsolute
  have hdistinct : r.firstHit t s (searchList searchPaths) =
      r.firstHit t s (searchPaths.flatMap modulePaths) :=
    firstHit_distinct hall (by simp) (by simp)
  refine ⟨ends_iff.symm, ?_⟩
  rw [ends_iff, ← hdistinct]
  exact Iff.rfl

end

/-- A specifier leads nowhere in a directory that does not hold the package that it names. -/
theorem candidate_eq_none_iff_lacks :
    candidate t s d = none ↔
      ∃ name inside, Specifier.packageImport s = some (name, inside) ∧
        t.pathExists (d.join (.ofString name)) = false := by
  unfold candidate
  cases himport : Specifier.packageImport s with
  | none => simp
  | some parts =>
    obtain ⟨name, inside⟩ := parts
    dsimp only
    cases hexists : t.pathExists (d.join (.ofString name)) with
    | false =>
      rw [Bool.not_false, if_pos rfl]
      exact iff_of_true rfl ⟨name, inside, rfl, hexists⟩
    | true =>
      rw [Bool.not_true, if_neg Bool.false_ne_true]
      refine iff_of_false ?_ ?_
      · split <;> exact Option.some_ne_none _
      · rintro ⟨_, _, hsome, hnone⟩
        cases hsome
        cases hexists.symm.trans hnone

/-- In a directory nothing is found if it does not hold the package that is named, and if the path
that the specifier means there names no file. -/
theorem probe_eq_ok_none_iff :
    r.probe t s d = .ok none ↔
      (∃ name inside, Specifier.packageImport s = some (name, inside) ∧
        t.pathExists (d.join (.ofString name)) = false) ∨
      ∃ p, LeadsIn t s d p ∧ r.asFileOrDirectory t p = .ok none := by
  rw [← candidate_eq_none_iff_lacks]
  simp only [← candidate_eq_some_iff]
  unfold probe
  cases candidate t s d with
  | none => simp
  | some p => simp

end Relocation.Resolver

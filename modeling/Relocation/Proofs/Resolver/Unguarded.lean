import Relocation.Proofs.Resolver.Behind

/-!
# The search without a look at the package

Before a specifier is looked for in a directory of packages, it is tested whether the directory
holds the package that the specifier names. Where it does not, nothing could be found inside the
package. What the test loses is a package that is no directory but a file, with an extension that
its specifier leaves out.
-/

namespace Relocation.Resolver

open Relocation.Path (Behind Named Plain segmentsOf)
open Specifier (Splits packageName splitPackage)
open Text.Utf8 (IsText encode)

variable {r : Resolver} {t : FileTree} {s : String} {d : Path}

/-- What is found for a specifier in one directory of packages, whether that holds the package or
not. -/
def plainProbe (r : Resolver) (t : FileTree) (s : String) (d : Path) :
    Except Error (Option Path) :=
  r.asFileOrDirectory t (d.join (.ofString s))

/-- The answer to what a search found. -/
def conclude (r : Resolver) (t : FileTree) (s : String) (ds : List Path)
    (found : Except Error (Option Path)) : Except Error Path := do
  match ← found with
  | some f => r.settle t f
  | none => throw (.notFound s ds)

/-- The file that a specifier names, if no package is tested for. -/
def resolvePlainly (r : Resolver) (t : FileTree) (s : String) (searchPaths : List Path) :
    Except Error Path :=
  r.conclude t s (searchList searchPaths)
    (firstFound (r.plainProbe t s) (searchList searchPaths))

/-- A specifier is the name of a package that a directory does not hold, but the directory holds a
file of that name with an extension. -/
def holdsLoneFile (r : Resolver) (t : FileTree) (s : String) (d : Path) : Bool :=
  packageName s = some s && !t.pathExists (d.join (.ofString s)) &&
    (r.asFile t (d.join (.ofString s))).isSome

private theorem exists_plainProbe_of_holdsLoneFile (h : r.holdsLoneFile t s d) :
    ∃ f, r.plainProbe t s d = .ok (some f) := by
  rw [holdsLoneFile, Bool.and_eq_true] at h
  obtain ⟨f, hf⟩ := Option.isSome_iff_exists.mp h.2
  refine ⟨f, ?_⟩
  rw [plainProbe, asFileOrDirectory, hf]

private theorem holdsLoneFile_eq_false (h : packageName s ≠ some s) :
    r.holdsLoneFile t s d = false := by
  rw [holdsLoneFile, decide_eq_false h]
  rfl

/-! ### One directory -/

/-- Where no package is named, nothing is tested. -/
private theorem probe_of_whole (hsplit : splitPackage s.toList = none) :
    r.probe t s d = r.plainProbe t s d := by
  have hcandidate : candidate t s d = some (d.join (.ofString s)) :=
    candidate_eq_some_iff.mpr (.whole hsplit rfl)
  rw [probe, hcandidate]
  rfl

/-- Where nothing but a package is named, a file is lost. -/
private theorem probe_of_package (hsplit : splitPackage s.toList = some (s.toList, [])) :
    r.probe t s d = if r.holdsLoneFile t s d then .ok none else r.plainProbe t s d := by
  have hname : packageName s = some s := by
    rw [packageName, hsplit]
    exact congrArg some s.ofList_toList
  unfold holdsLoneFile
  rw [decide_eq_true hname, Bool.true_and]
  cases hexists : t.pathExists (d.join (.ofString s)) with
  | true =>
    have hcandidate : candidate t s d = some (d.join (.ofString s)) :=
      candidate_eq_some_iff.mpr (.package hsplit hexists rfl)
    rw [probe, hcandidate]
    rfl
  | false =>
    have hcandidate : candidate t s d = none := by
      rw [candidate_eq_none_iff]
      intro p hp
      cases hp with
      | whole h => cases hsplit.symm.trans h
      | package _ holds => cases hexists.symm.trans holds
      | inside h => cases (Prod.mk.inj (Option.some.inj (hsplit.symm.trans h))).2
    -- without the directory there is nothing but a file with an extension
    rw [probe, hcandidate, plainProbe, asFileOrDirectory]
    cases r.asFile t (d.join (.ofString s)) with
    | some f => rfl
    | none => exact (asDirectory_of_not_pathExists hexists).symm

/-- Where all segments are names, a specifier that goes on behind the name of a package is spelled
behind the package. -/
private theorem spelled_inside (hs : ∀ n ∈ (Path.ofString s).segments, Plain n) (hd : Named d)
    {name rest : List Char} (h : Splits s.toList name ('/' :: rest)) :
    let package := d.join (.ofString (String.ofList name))
    Named package ∧ package.join (.ofString (String.ofList rest)) = d.join (.ofString s) ∧
      Behind IsText package (d.join (.ofString s)) := by
  intro package
  have hbytes := ofString_eq_of_splits h
  have hjoin : d.join (.ofString s) =
      ⟨package.bytes ++ Path.slash :: encode (String.ofList rest)⟩ := by
    rw [hbytes]
    exact Path.join_append_slash d (encode_ne_nil_of_splits h) (isAbsolute_of_splits h)
  rw [hbytes, Path.segments, Path.segmentsOf_append_slash] at hs
  obtain ⟨hname, hrest⟩ := List.forall_mem_append.mp hs
  obtain ⟨z, hz⟩ : ∃ z, (Path.ofString (String.ofList name)).segments.getLast? = some z :=
    ⟨_, List.getLast?_eq_some_getLast (Path.segments_ne_nil _)⟩
  have hzplain : Plain z := hname z (List.mem_of_getLast? hz)
  obtain ⟨y, ys, hys⟩ :=
    List.exists_cons_of_ne_nil (Path.segments_ne_nil (.ofString (.ofList rest)))
  have hy : Plain y := by
    apply hrest
    show y ∈ (Path.ofString (String.ofList rest)).segments
    rw [hys]
    exact List.mem_cons_self
  refine ⟨Path.named_join hd.isAbsolute hz hzplain, ?_, Path.isAbsolute_join _ hd.isAbsolute, y, ys,
    ?_, hy, ?_⟩
  · rw [hjoin]
    refine Path.join_of_getLast? (Path.isAbsolute_of_segments_cons hys hy.ne_nil) ?_ hzplain.ne_nil
    rw [Path.getLast?_segments_join, hz]
  · rw [hjoin, Path.segments, Path.segmentsOf_append_slash, ← hys]
    rfl
  · rw [← hys]
    exact fun m hm ↦ Path.isText_of_mem_segmentsOf (Path.isText_ofString _) hm

/-- Where something in a package is named, nothing is lost. -/
private theorem probe_of_inside (hs : ∀ n ∈ (Path.ofString s).segments, Plain n) (hd : Named d)
    {name rest : List Char} (hsplit : splitPackage s.toList = some (name, '/' :: rest)) :
    r.probe t s d = r.plainProbe t s d := by
  obtain ⟨hpackage, hspelled, hbehind⟩ :=
    spelled_inside hs hd (Specifier.splits_of_splitPackage hsplit)
  cases hexists : t.pathExists (d.join (.ofString (String.ofList name))) with
  | true =>
    have hcandidate : candidate t s d = some (d.join (.ofString s)) :=
      candidate_eq_some_iff.mpr (.inside hsplit hexists hspelled.symm)
    rw [probe, hcandidate]
    rfl
  | false =>
    have hcandidate : candidate t s d = none := by
      rw [candidate_eq_none_iff]
      intro p hp
      cases hp with
      | whole h => cases hsplit.symm.trans h
      | package h => cases (Prod.mk.inj (Option.some.inj (hsplit.symm.trans h))).2
      | inside h holds =>
        obtain ⟨rfl, -⟩ := Prod.mk.inj (Option.some.inj (hsplit.symm.trans h))
        cases hexists.symm.trans holds
    rw [probe, hcandidate, plainProbe]
    exact (asFileOrDirectory_of_behind hpackage hexists hbehind).symm

/-- In one directory, the test for the package only passes a lone file over. -/
theorem probe_eq (hs : ∀ n ∈ (Path.ofString s).segments, Plain n) (hd : Named d) :
    r.probe t s d = if r.holdsLoneFile t s d then .ok none else r.plainProbe t s d := by
  cases hsplit : splitPackage s.toList with
  | none =>
    have hname : packageName s ≠ some s := by
      rw [packageName, hsplit]
      exact (Option.some_ne_none s).symm
    rw [holdsLoneFile_eq_false hname]
    exact probe_of_whole hsplit
  | some parts =>
    obtain ⟨name, rest⟩ := parts
    have hsplits := Specifier.splits_of_splitPackage hsplit
    rcases hsplits.rest_cases with rfl | ⟨rest, rfl⟩
    · obtain rfl : name = s.toList := by rw [hsplits.split, List.append_nil]
      exact probe_of_package hsplit
    · have hname : packageName s ≠ some s := by
        rw [packageName, hsplit]
        intro h
        have hall : name = s.toList := by
          rw [← Option.some.inj h]
          exact (String.toList_ofList).symm
        have hlength := congrArg List.length hsplits.split
        rw [← hall, List.length_append, List.length_cons] at hlength
        omega
      rw [holdsLoneFile_eq_false hname]
      exact probe_of_inside hs hd hsplit

/-! ### All directories -/

/-- A search that passes directories over where a probe is silent finds what the probe finds in the
others. -/
theorem firstFound_of_passes {probe guarded : Path → Except Error (Option Path)}
    {passes : Path → Bool} {ds : List Path}
    (h : ∀ d ∈ ds, guarded d = if passes d then .ok none else probe d) :
    firstFound guarded ds = firstFound probe (ds.filter (!passes ·)) := by
  induction ds with
  | nil => rfl
  | cons d ds ih =>
    have hd := h d List.mem_cons_self
    have hds := ih fun e he ↦ h e (List.mem_cons_of_mem _ he)
    cases hp : passes d with
    | true =>
      rw [if_pos hp] at hd
      rw [List.filter_cons_of_neg (by simp [hp]), firstFound, hd]
      exact hds
    | false =>
      rw [if_neg (by simp [hp])] at hd
      rw [List.filter_cons_of_pos (by simp [hp]), firstFound, firstFound, hd, hds]

/-- Directories where a probe finds something can be left out if the search does not stop there. -/
theorem firstFound_filter {probe : Path → Except Error (Option Path)} {passes : Path → Bool}
    {ds : List Path} (hpasses : ∀ d, passes d → ∃ f, probe d = .ok (some f))
    (h : ∀ d f, HitsIn probe ds d f → passes d = false) :
    firstFound probe (ds.filter (!passes ·)) = firstFound probe ds := by
  induction ds with
  | nil => rfl
  | cons d ds ih =>
    cases hp : passes d with
    | true =>
      -- the search would stop here
      obtain ⟨f, hf⟩ := hpasses d hp
      cases hp.symm.trans (h d f (.here hf))
    | false =>
      rw [List.filter_cons_of_pos (by simp [hp]), firstFound, firstFound]
      cases hd : probe d with
      | error e => rfl
      | ok found =>
        cases found with
        | some f => rfl
        | none => exact ih fun e f he ↦ h e f (.behind hd he)

/-- The test for the package costs a search nothing but the lone files: a specifier of names is
resolved as it is without the test in the directories that hold no lone file. So it is resolved as
without the test if that search stops in no directory that holds one, and always if the specifier is
not the name of a package. -/
theorem resolvePackage_without_test (r : Resolver) (t : FileTree) {s : String}
    (hs : ∀ n ∈ (Path.ofString s).segments, Plain n) {searchPaths : List Path}
    (hp : ∀ p ∈ searchPaths, p.isAbsolute) :
    r.resolvePackage t s searchPaths = r.conclude t s (searchList searchPaths)
      (firstFound (r.plainProbe t s)
        ((searchList searchPaths).filter (!r.holdsLoneFile t s ·))) ∧
    ((∀ d f, HitsIn (r.plainProbe t s) (searchList searchPaths) d f →
        r.holdsLoneFile t s d = false) →
      r.resolvePackage t s searchPaths = r.resolvePlainly t s searchPaths) ∧
    (packageName s ≠ some s →
      r.resolvePackage t s searchPaths = r.resolvePlainly t s searchPaths) := by
  have hall : r.resolvePackage t s searchPaths = r.conclude t s (searchList searchPaths)
      (firstFound (r.plainProbe t s)
        ((searchList searchPaths).filter (!r.holdsLoneFile t s ·))) := by
    have hprobe := firstFound_of_passes fun d hd ↦
      probe_eq (r := r) (t := t) hs (named_of_mem_searchList hp hd)
    rw [← hprobe, ← firstHit_eq_firstFound]
    rfl
  have hnone (h : ∀ d f, HitsIn (r.plainProbe t s) (searchList searchPaths) d f →
      r.holdsLoneFile t s d = false) :
      r.resolvePackage t s searchPaths = r.resolvePlainly t s searchPaths := by
    rw [hall, firstFound_filter (fun d ↦ exists_plainProbe_of_holdsLoneFile) h]
    rfl
  exact ⟨hall, hnone, fun hname ↦ hnone fun _ _ _ ↦ holdsLoneFile_eq_false hname⟩

/-- A package that is a directory and one that is nothing but a file. -/
def lonePackage : FileTree :=
  ⟨[(encode "p", .directory [(encode "node_modules", .directory
    [(encode "own", .directory [(encode "index.js", .file [])]),
      (encode "pkg.js", .file [])])])]⟩

/-- A file in a package that is a directory is resolved alike with and without the test for the
directory. -/
theorem resolvePackage_without_test_of_own :
    Resolver.resolvePackage {} lonePackage "own/index" [.ofString "/p"] =
        Resolver.resolvePlainly {} lonePackage "own/index" [.ofString "/p"] ∧
      Resolver.resolvePlainly {} lonePackage "own/index" [.ofString "/p"] =
        .ok (.ofString "/p/node_modules/own/index.js") := by
  have hs : ∀ n ∈ (Path.ofString "own/index").segments, Plain n := by
    have hsegments : (Path.ofString "own/index").segments = [encode "own", encode "index"] := by
      decide
    rw [hsegments]
    refine List.forall_mem_cons.mpr ⟨⟨by decide, by decide, by decide, by decide⟩, ?_⟩
    exact List.forall_mem_singleton.mpr ⟨by decide, by decide, by decide, by decide⟩
  have hp : ∀ p ∈ [Path.ofString "/p"], p.isAbsolute := by decide
  obtain ⟨-, -, hplain⟩ := resolvePackage_without_test {} lonePackage hs hp
  exact ⟨hplain (by decide), eq_ok_of_toOption (by decide +kernel)⟩

/-- A package that is a file with an extension is found without the test only. -/
theorem resolvePackage_passes_lone_file :
    (∀ n ∈ (Path.ofString "pkg").segments, Plain n) ∧
      Resolver.resolvePlainly {} lonePackage "pkg" [.ofString "/p"] =
        .ok (.ofString "/p/node_modules/pkg.js") ∧
      Resolver.resolvePackage {} lonePackage "pkg" [.ofString "/p"] =
        .error (.notFound "pkg" [.ofString "/p/node_modules", .ofString "/node_modules"]) := by
  refine ⟨?_, eq_ok_of_toOption (by decide +kernel), ?_⟩
  · have hsegments : (Path.ofString "pkg").segments = [encode "pkg"] := by decide
    rw [hsegments]
    exact List.forall_mem_singleton.mpr ⟨by decide, by decide, by decide, by decide⟩
  · rfl

end Relocation.Resolver

import Relocation.Proofs.FileTree.Parts
import Relocation.Proofs.Resolver.Search
import Relocation.Proofs.Resolver.Tidy

/-!
# What is found behind a directory

A specifier is spelled behind the directory that it is looked for in, and so is what is found for
it: extensions and index files only change the end. So nothing is found behind a directory that is
not there.
-/

namespace Relocation.Resolver

open Relocation.Path (Behind Named Plain dotDot slash segmentsOf)
open Specifier (Splits isPath splitPackage)
open Text.Utf8 (IsText encode)

variable {r : Resolver} {t : FileTree} {s : String} {d p f : Path} {Q : Name → Prop}

/-- A kind of segment is kept by a resolver: it is text, and what an extension makes of a plain name
is of the kind again. -/
structure KeepsSegments (r : Resolver) (Q : Name → Prop) : Prop where
  isText : ∀ {n}, Q n → IsText n
  extended : ∀ {n e}, Plain n → Q n → e ∈ r.extensions →
    ∀ m ∈ segmentsOf (n ++ 46 :: encode e), Q m

/-- An extension leaves a path behind a directory. -/
theorem behind_withExtension (hQ : r.KeepsSegments Q) (hd : Named d) {q : Path} {n : Name}
    {e : String} (hp : Behind Q d p) (hn : p.fileName? = some n) (hq : Behind Q d q)
    (he : e ∈ r.extensions) :
    Behind Q d (withExtension q (Text.Utf8.decodeLossy n) e) := by
  obtain ⟨hplain, hQn⟩ := hp.fileName hd hn
  obtain ⟨name, rfl⟩ := hQ.isText hQn
  obtain ⟨m, ms, hms⟩ := List.exists_cons_of_ne_nil (Path.segmentsOf_ne_nil (46 :: encode e))
  -- slashes in the extension make more segments, the first of which goes on with the name
  have hsegments := Path.segmentsOf_append_of_notMem hplain.noSlash hms
  have hfirst : Plain (encode name ++ m) := by
    rw [segmentsOf, if_neg (by decide)] at hms
    obtain ⟨k, ks, hks⟩ := List.exists_cons_of_ne_nil (Path.segmentsOf_ne_nil (encode e))
    rw [hks] at hms
    obtain ⟨rfl, -⟩ := List.cons.inj hms
    exact Path.plain_append_dot hplain
      (Path.slash_notMem_of_mem_segmentsOf (hks ▸ List.mem_cons_self))
  rw [Text.Utf8.decodeLossy_encode, withExtension, encode_append_extension]
  exact hq.withFileName hd hsegments hfirst (hsegments ▸ hQ.extended hplain hQn he)

/-- A file that is found for a path behind a directory stands behind the directory too. -/
theorem behind_of_asFile (hQ : r.KeepsSegments Q) (hd : Named d) (hp : Behind Q d p)
    (hf : r.asFile t p = some f) : Behind Q d f :=
  asFile_of_extended (fun hn hq he ↦ behind_withExtension hQ hd hp hn hq he) hp hf

/-- Every segment of a text is text, with any extension. -/
theorem keepsSegments_isText (r : Resolver) : r.KeepsSegments IsText where
  isText := id
  extended _ hn _ := by
    obtain ⟨name, rfl⟩ := hn
    rw [← encode_append_extension]
    exact fun m hm ↦ Path.isText_of_mem_segmentsOf (Text.Utf8.isText_encode _) hm

/-! ### Directories that are not there -/

private theorem pathExists_of_behind (hd : d.isAbsolute) (hp : Behind Q d p) (h : t.pathExists p) :
    t.pathExists d := by
  obtain ⟨y, ys, hs, -⟩ := hp.exists_rest
  exact FileTree.pathExists_of_segments hd hs h

/-- No directory stands where nothing is. -/
theorem asDirectory_of_not_pathExists (h : t.pathExists p = false) :
    r.asDirectory t p = .ok none := by
  have hdir : ¬t.isDirectory p := by
    intro hd
    rw [FileTree.pathExists_of_isDirectory hd] at h
    cases h
  unfold asDirectory
  rw [if_neg hdir]
  rfl

/-- Behind a directory that is not there nothing is found. -/
theorem asFileOrDirectory_of_behind (hd : Named d) (h : t.pathExists d = false)
    (hp : Behind IsText d p) : r.asFileOrDirectory t p = .ok none := by
  have hnone {f : Path} (hf : Behind IsText d f) : t.pathExists f = false := by
    rw [← Bool.not_eq_true]
    intro he
    rw [pathExists_of_behind hd.isAbsolute hf he] at h
    cases h
  have hfile : r.asFile t p = none := by
    rw [Option.eq_none_iff_forall_ne_some]
    intro f hf
    have hexists := FileTree.pathExists_of_isFile (isFile_of_asFile hf)
    rw [hnone (behind_of_asFile (keepsSegments_isText r) hd hp hf)] at hexists
    cases hexists
  rw [asFileOrDirectory, hfile]
  exact asDirectory_of_not_pathExists (hnone hp)

end Relocation.Resolver

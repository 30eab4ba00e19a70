import Relocation.Proofs.Address.Basic
import Relocation.Proofs.FileTree.Ways
import Relocation.Proofs.Resolver.Tidy

/-!
# Where local ways lead on disk

A local way is measured between canonical paths, so it may be followed from the directory that it
was measured from by the rules of the tree: links are followed and two dots lead to the directory
that holds the one reached. It arrives at the file that the specifier names, however many links
lead to the directory.
-/

namespace Relocation

open Relocation.Path (Plain dot markRelative segmentsOf slash wayBetween)
open Text.Utf8 (IsText encode)

namespace Path

/-- A marked way begins with a dot segment, if there is more to it than dots. -/
theorem startsWith_markRelative {way : String} (hdot : way ≠ ".") (hdots : way ≠ "..") :
    (markRelative way).startsWith "./" ∨ (markRelative way).startsWith "../" := by
  unfold markRelative
  split
  · next h => exact (h.resolve_left hdot).resolve_left hdots
  · left
    rw [String.startsWith_string_iff, String.toList_append]
    exact List.prefix_append _ _

/-- The segments of a marked way. -/
theorem segmentsOf_markRelative {way : String} {ss : List Name}
    (hw : segmentsOf (encode way) = ss) :
    segmentsOf (encode (markRelative way)) = ss ∨
      segmentsOf (encode (markRelative way)) = dot :: ss := by
  rcases markRelative_eq way with h | h
  · rw [h]
    exact .inl hw
  · rw [h]
    right
    rw [← hw]
    exact segments_dot_slash way

/-- A way that comes down by names is more than dots. -/
theorem ne_dots_of_descent {as bs : List Name} (hb : ∀ b ∈ bs, Plain b)
    (hd : descent as bs ≠ []) {way : String}
    (hw : segmentsOf (encode way) = wayBetween as bs) : way ≠ "." ∧ way ≠ ".." := by
  obtain ⟨init, n, hn⟩ := (List.eq_nil_or_concat (descent as bs)).resolve_left hd
  rw [List.concat_eq_append] at hn
  have hplain : Plain n := hb n (mem_of_mem_descent (hn ▸ List.mem_append_right _ (by simp)))
  rw [wayBetween, hn, ← List.append_assoc] at hw
  constructor
  · rintro rfl
    have hlast := congrArg List.getLast? hw
    rw [List.getLast?_concat] at hlast
    exact hplain.ne_dot (Option.some.inj hlast).symm
  · rintro rfl
    have hlast := congrArg List.getLast? hw
    rw [List.getLast?_concat] at hlast
    exact hplain.ne_dotDot (Option.some.inj hlast).symm

end Path

namespace FileTree

/-- From the canonical path of a directory there is a way to that of a file, if both are text: it
is spelled by the names of both, and it is more than dots. -/
theorem Reached.exists_relative {t : FileTree} {q r : Position} (hq : Reached t q)
    (hr : Reached t r) {entries : Entries} (here : q.here = .directory entries)
    {content : List UInt8} (hfile : r.here = .file content) (hqText : IsText q.path.bytes)
    (hrText : IsText r.path.bytes) :
    ∃ way, Path.relative q.path r.path = .ok way ∧
      segmentsOf (encode way) = wayBetween q.names r.names ∧ way ≠ "." ∧ way ≠ ".." := by
  obtain ⟨way, hway, hspelled⟩ := Path.relative_eq_ok (p := q.path) (q := r.path)
    (Path.isAbsolute_rooted _) hqText (Path.isAbsolute_rooted _) hrText
  have hqn : q.path.names = q.names := Path.names_rooted hq.plain_of_mem_names
  have hrn : r.path.names = r.names := Path.names_rooted hr.plain_of_mem_names
  have hdescent := hq.descent_ne_nil hr here hfile
  have hsegments : segmentsOf (encode way) = wayBetween q.names r.names := by
    rw [hspelled, hqn, hrn]
    refine Path.segmentsOf_joinSegments (fun h0 ↦ hdescent (List.append_eq_nil_iff.mp h0).2)
      fun n hn ↦ (Path.solid_of_mem_wayBetween _ hr.plain_of_mem_names n hn).2
  exact ⟨way, hway, hsegments,
    Path.ne_dots_of_descent hr.plain_of_mem_names hdescent hsegments⟩

end FileTree

namespace Situation

variable {s : Situation}

/-- With links followed, a directory is measured from by its canonical path. -/
theorem base_of_canonicalize (hlinks : s.resolver.preserveLinks = false) {d c : Path}
    (ha : d.isAbsolute) (hd : d.clean = d) (hc : s.tree.canonicalize d = .ok c) :
    s.base d = c := by
  have hp := Resolver.tidy_of_clean ha hd
  rw [base, hlinks, if_neg Bool.false_ne_true]
  refine FileTree.canonicalizeExisting_of_canonicalize ha hp.textual.isText ?_
  rwa [← hp.eq_rooted]

/-- With links followed, the way to the file that a local specifier names is followed from the
file's own directory to it, if the canonical paths of both are text. -/
theorem wayToLocal_arrives (s : Situation) (hlinks : s.resolver.preserveLinks = false)
    (habsolute : s.placement.resourceDirectory.isAbsolute)
    (hclean : s.placement.resourceDirectory.clean = s.placement.resourceDirectory)
    (hdirectory : s.tree.isDirectory s.placement.resourceDirectory)
    {specifier : String} {start file : Path}
    (hstart : s.tree.canonicalize s.placement.resourceDirectory = .ok start)
    (hfile : s.resolver.resolvePath s.tree s.placement.resourceDirectory specifier = .ok file)
    (hstartText : IsText start.bytes) (hfileText : IsText file.bytes) :
    ∃ way, s.wayToLocal specifier = .ok way ∧
      (way.startsWith "./" ∨ way.startsWith "../") ∧
      s.tree.canonicalize ⟨s.placement.resourceDirectory.bytes ++ slash :: encode way⟩ =
        .ok file := by
  obtain ⟨q, entries, hq, here⟩ := FileTree.isDirectory_iff.mp hdirectory
  obtain ⟨_, hq', rfl⟩ := FileTree.canonicalize_eq_ok_iff.mp hstart
  obtain rfl := Except.ok.inj (hq.symm.trans hq')
  obtain ⟨found, hfound, hsettle⟩ := (Resolver.resolvePath_eq_ok_iff (if_pos habsolute)).mp hfile
  rw [Resolver.settle_eq_ok_iff, hlinks, if_neg Bool.false_ne_true] at hsettle
  obtain ⟨r, content, hr, hcontent⟩ :=
    FileTree.isFile_iff.mp (Resolver.isFile_of_lookup hfound)
  obtain ⟨_, hr', rfl⟩ := FileTree.canonicalize_eq_ok_iff.mp hsettle
  obtain rfl := Except.ok.inj (hr.symm.trans hr')
  have hqr := FileTree.reached_of_locate hq
  have hrr := FileTree.reached_of_locate hr
  -- the way is measured between the canonical paths, hence between the names of the positions
  obtain ⟨way, hway, hsegments, hdot, hdots⟩ :=
    hqr.exists_relative hrr here hcontent hstartText hfileText
  refine ⟨markRelative way, ?_, Path.startsWith_markRelative hdot hdots, ?_⟩
  · refine wayToLocal_eq_ok_iff.mpr ⟨r.path, hfile, way, ?_, rfl⟩
    rwa [base_of_canonicalize hlinks habsolute hclean hstart]
  · exact FileTree.canonicalize_eq_ok_iff.mpr ⟨r, FileTree.locate_append_slash hq hrr here
      (Path.segmentsOf_markRelative hsegments), rfl⟩

/-- The place of a file in a directory that two links lead to, one above the other. -/
def linkedTwice : Situation where
  project :=
    { dependencyRoots := []
      root := ⟨.ofString "/p", .refl true⟩
      output := ⟨.ofString "/out", .refl true⟩
      platform := .wechat }
  resolver := {}
  tree :=
    ⟨[(encode "store", .directory
        [(encode "a", .directory [(encode "f.js", .file [])]), (encode "x.js", .file [])]),
      (encode "p", .directory
        [(encode "inner", .link (.ofString "../store/a")),
          (encode "outer", .link (.ofString "inner")),
          (encode "x.js", .link (.ofString "/store/x.js"))])]⟩
  placement := ⟨.ofString "/p/outer/f.js", .ofString "/out/f.js"⟩

/-- From a directory that two links lead to, one through the other, the way to a file elsewhere is
marked as relative. -/
theorem wayToLocal_arrives_from_linkedTwice :
    (linkedTwice.tree.canonicalize linkedTwice.placement.resourceDirectory =
        .ok (.ofString "/store/a") ∧
      linkedTwice.resolver.resolvePath linkedTwice.tree
        linkedTwice.placement.resourceDirectory "../x" = .ok (.ofString "/store/x.js")) ∧
    ∃ way, linkedTwice.wayToLocal "../x" = .ok way ∧
      (way.startsWith "./" ∨ way.startsWith "../") ∧
      linkedTwice.tree.canonicalize
        ⟨linkedTwice.placement.resourceDirectory.bytes ++ slash :: encode way⟩ =
          .ok (.ofString "/store/x.js") := by
  have hstart : linkedTwice.tree.canonicalize linkedTwice.placement.resourceDirectory =
      .ok (.ofString "/store/a") := eq_ok_of_toOption (by decide +kernel)
  have hfile : linkedTwice.resolver.resolvePath linkedTwice.tree
      linkedTwice.placement.resourceDirectory "../x" = .ok (.ofString "/store/x.js") :=
    eq_ok_of_toOption (by decide +kernel)
  exact ⟨⟨hstart, hfile⟩, wayToLocal_arrives linkedTwice rfl (by decide) (by decide)
    (by decide +kernel) hstart hfile (Path.isText_ofString _) (Path.isText_ofString _)⟩

/-- The place of a file in a directory whose canonical path is no text, and a link to a file there
from outside. -/
def linkedToBytes : Situation where
  project :=
    { dependencyRoots := []
      root := ⟨.ofString "/p", .refl true⟩
      output := ⟨.ofString "/out", .refl true⟩
      platform := .wechat }
  resolver := {}
  tree :=
    ⟨[(encode "p", .directory
      [(encode "link", .link ⟨[255]⟩), (encode "c.js", .link (.ofString "link/b.js")),
        ([255], .directory [(encode "a.js", .file []), (encode "b.js", .file [])])])]⟩
  placement := ⟨.ofString "/p/link/a.js", .ofString "/out/a.js"⟩

/-- From outside such a directory there is no way to the file. From the directory itself the way
leads to the directory. -/
theorem wayToLocal_lacks_in_linkedToBytes :
    let outside : Situation :=
      { linkedToBytes with placement := ⟨.ofString "/p/a.js", .ofString "/out/a.js"⟩ }
    let b : Path := ⟨encode "/p/" ++ 255 :: encode "/b.js"⟩
    (outside.resolver = {} ∧ outside.placement.resourceDirectory = .ofString "/p" ∧
      (Path.ofString "/p").clean = .ofString "/p" ∧
      outside.tree.isDirectory (.ofString "/p") ∧
      outside.resolver.resolvePath outside.tree (.ofString "/p") "./c" = .ok b ∧
      (outside.wayToLocal "./c").toOption = none) ∧
    (linkedToBytes.placement.resourceDirectory = .ofString "/p/link" ∧
      (Path.ofString "/p/link").clean = .ofString "/p/link" ∧
      linkedToBytes.tree.isDirectory (.ofString "/p/link") ∧
      linkedToBytes.resolver.resolvePath linkedToBytes.tree (.ofString "/p/link") "./b" = .ok b ∧
      linkedToBytes.wayToLocal "./b" = .ok "./" ∧
      linkedToBytes.tree.canonicalize ⟨(Path.ofString "/p/link").bytes ++ slash :: encode "./"⟩ =
        .ok ⟨encode "/p/" ++ [255]⟩) := by
  refine ⟨⟨rfl, by decide, by decide, by decide +kernel, eq_ok_of_toOption (by decide +kernel),
      by decide +kernel⟩,
    by decide, by decide, by decide +kernel, eq_ok_of_toOption (by decide +kernel),
    eq_ok_of_toOption (by decide +kernel), eq_ok_of_toOption (by decide +kernel)⟩

end Situation

end Relocation

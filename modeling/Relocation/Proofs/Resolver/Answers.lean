import Relocation.Proofs.FileTree.Turning
import Relocation.Proofs.Path.Meaning
import Relocation.Proofs.Resolver.Search
import Relocation.Proofs.Resolver.Tidy

/-!
# Where answers lead

An answer of the resolver is the canonical path of the file that was found, or the clean form of
its path where links are kept. A file that a path names is looked for in clean paths only, so the
answer leads to it. A bare specifier is looked for as it is spelled behind a directory of packages:
where it goes through a link and back by two dots, what its clean form leads to is another file, or
none.
-/

namespace Relocation.Resolver

open Relocation.Path (Component Plain dotDot meaning)
open Text.Utf8 (IsText encode)

variable {r : Resolver} {t : FileTree} {s : String} {d p q f file : Path}
  {P : Component → Prop}

/-! ### What paths are made of -/

/-- An absolute path means parts of one kind only. -/
structure MadeOf (P : Component → Prop) (p : Path) : Prop where
  isAbsolute : p.isAbsolute
  parts : ∀ c ∈ p.components, P c

namespace MadeOf

private theorem join (h : MadeOf P p) (hroot : P .root) (hq : ∀ c ∈ meaning q.segments, P c) :
    MadeOf P (p.join q) := by
  refine ⟨Path.isAbsolute_join q h.isAbsolute, ?_⟩
  cases ha : q.isAbsolute with
  | true =>
    rw [Path.join_of_isAbsolute p ha, Path.components_of_isAbsolute ha]
    exact List.forall_mem_cons.mpr ⟨hroot, hq⟩
  | false =>
    rw [Path.components_join h.isAbsolute ha]
    exact List.forall_mem_append.mpr ⟨h.parts, hq⟩

private theorem parentDirectory (h : MadeOf P p) : MadeOf P p.parentDirectory := by
  have hparts := h.parts
  rw [Path.components_of_isAbsolute h.isAbsolute] at hparts
  obtain ⟨hroot, hparts⟩ := List.forall_mem_cons.mp hparts
  refine ⟨Path.isAbsolute_parentDirectory h.isAbsolute, ?_⟩
  rw [Path.components_parentDirectory h.isAbsolute]
  exact List.forall_mem_cons.mpr ⟨hroot, fun c hc ↦ hparts c (List.mem_of_mem_dropLast hc)⟩

private theorem withExtension (h : MadeOf P p) (hroot : P .root) {name e : String}
    (he : ∀ c ∈ meaning (Path.ofString (name ++ "." ++ e)).segments, P c) :
    MadeOf P (withExtension p name e) := by
  unfold Resolver.withExtension Path.withFileName
  split
  · exact h.parentDirectory.join hroot he
  · exact h.join hroot he

private theorem of_mem_ancestors (h : MadeOf P p) (hd : d ∈ p.ancestors) : MadeOf P d := by
  refine ⟨isAbsolute_of_mem_ancestors h.isAbsolute hd, fun c hc ↦ h.parts c ?_⟩
  have hmem := List.mem_map_of_mem (f := Path.components) hd
  rw [Path.map_components_ancestors h.isAbsolute, List.mem_reverse] at hmem
  have hprefix := (List.mem_inits _ _).mp (List.mem_of_mem_tail hmem)
  exact hprefix.subset hc

/-- Directories of packages are made of what the search paths are made of. -/
theorem of_mem_searchList {searchPaths : List Path} (h : ∀ p ∈ searchPaths, MadeOf P p)
    (hroot : P .root) (hname : P (.name modulesName)) (hd : d ∈ searchList searchPaths) :
    MadeOf P d := by
  obtain ⟨p, hp, hd⟩ := List.mem_flatMap.mp (mem_of_mem_searchList hd)
  obtain ⟨a, ha, rfl⟩ := List.mem_map.mp hd
  have hmeaning : meaning (⟨modulesName⟩ : Path).segments = [.name modulesName] := by decide
  refine ((h p hp).of_mem_ancestors (List.mem_filter.mp ha).1).join hroot ?_
  rw [hmeaning]
  exact List.forall_mem_singleton.mpr hname

/-- So is where a specifier leads that is made of them too. -/
theorem of_leadsIn (h : MadeOf P d) (hroot : P .root)
    (hs : ∀ c ∈ meaning (Path.ofString s).segments, P c) (hp : LeadsIn t s d p) :
    MadeOf P p := by
  cases hp with
  | whole _ eq | package _ _ eq =>
    rw [eq]
    exact h.join hroot hs
  | @inside name rest split _ eq =>
    have hsegments : (Path.ofString s).segments = (Path.ofString (.ofList name)).segments ++
        (Path.ofString (.ofList rest)).segments := by
      rw [ofString_eq_of_splits (Specifier.splits_of_splitPackage split)]
      exact Path.segmentsOf_append_slash _ _
    rw [hsegments, Path.meaning_append] at hs
    obtain ⟨hname, hrest⟩ := List.forall_mem_append.mp hs
    rw [eq]
    exact (h.join hroot hname).join hroot hrest

end MadeOf

/-- A part that is spelled as text. -/
def IsTextual (c : Component) : Prop := IsText c.spelling

private theorem isTextual_root : IsTextual .root := ⟨"/", rfl⟩

private theorem textual_iff : Textual p ↔ MadeOf IsTextual p := by
  constructor
  · rintro ⟨ha, ht⟩
    refine ⟨ha, ?_⟩
    rw [Path.components_of_isAbsolute ha]
    exact List.forall_mem_cons.mpr ⟨isTextual_root, Path.isText_iff_meaning.mp ht⟩
  · rintro ⟨ha, hc⟩
    rw [Path.components_of_isAbsolute ha] at hc
    exact ⟨ha, Path.isText_iff_meaning.mpr (List.forall_mem_cons.mp hc).2⟩

/-- A part that is spelled as text and does not lead upwards. -/
structure Onward (c : Component) : Prop where
  isText : IsText c.spelling
  ne_parent : c ≠ .parent

private theorem onward_root : Onward .root := ⟨⟨"/", rfl⟩, by simp⟩

private theorem onward_of_plain {name : String} (h : Plain (encode name)) :
    ∀ c ∈ meaning (Path.ofString name).segments, Onward c := by
  have hsegments : (Path.ofString name).segments = [encode name] :=
    Path.segmentsOf_of_notMem h.noSlash
  rw [hsegments, Path.meaning_cons_of_some (Path.ofSegment_of_plain h)]
  exact List.forall_mem_singleton.mpr ⟨Text.Utf8.isText_encode name, by simp⟩

/-- What is tried for a path without two dots has none. -/
theorem closed_onward (hr : r.Slashless) : r.Closed (MadeOf Onward) where
  extended {p q n e} hp hn hq he := by
    have hlast := (Path.fileName?_eq_some_iff hp.isAbsolute).mp hn
    have hmem := List.mem_of_getLast? hlast
    obtain ⟨name, rfl⟩ := (hp.parts _ hmem).isText
    rw [Text.Utf8.decodeLossy_encode]
    exact hq.withExtension onward_root
      (onward_of_plain (plain_append_extension (Path.plain_of_mem_components hmem) (hr e he)))
  index {p e} hp he := by
    have hindex : Plain (encode ("index" ++ "." ++ e)) :=
      plain_append_extension ⟨by decide, by decide, by decide, by decide⟩ (hr e he)
    exact hp.join onward_root (onward_of_plain hindex)
  entry {p} entry hp := by
    have htextual : Textual p := textual_iff.mpr ⟨hp.isAbsolute, fun c hc ↦ (hp.parts c hc).isText⟩
    have htidy := (htextual.join_ofString entry).tidy_clean
    refine ⟨htidy.textual.isAbsolute, ?_⟩
    rw [htidy.eq_rooted, Path.components_rooted Path.plain_of_mem_names]
    refine List.forall_mem_cons.mpr ⟨onward_root, List.forall_mem_map.mpr fun n hn ↦ ?_⟩
    exact ⟨Path.isText_of_mem_names htidy.textual.isText n hn, by simp⟩

/-! ### Answers -/

/-- A path leads to a file from the root, and is its own canonical path where links are followed. -/
structure AtFile (r : Resolver) (t : FileTree) (file : Path) : Prop where
  isAbsolute : file.isAbsolute
  isFile : t.isFile file
  canonical : r.preserveLinks = false → t.canonicalize file = .ok file

/-- The answer for a file leads to it, unless its path with links kept has another clean form. -/
theorem atFile_of_settle (hf : t.isFile f) (hclean : r.preserveLinks → t.isFile f.clean)
    (h : r.settle t f = .ok file) : r.AtFile t file := by
  rw [settle_eq_ok_iff] at h
  cases hl : r.preserveLinks with
  | true =>
    rw [hl, if_pos rfl] at h
    subst h
    have hfile := hclean hl
    exact ⟨isAbsolute_of_isFile hfile, hfile, fun hn ↦ by cases hl.symm.trans hn⟩
  | false =>
    rw [hl, if_neg Bool.false_ne_true] at h
    have hfile : t.isFile file := by
      rw [FileTree.isFile_of_canonicalize h]
      exact hf
    exact ⟨isAbsolute_of_isFile hfile, hfile, fun _ ↦ FileTree.canonicalize_of_canonicalize h⟩

/-- A file's path that turns back in the directories of its clean form leads to the file in that
form. -/
theorem isFile_clean_of_turnsBack (hf : t.isFile f) (htext : IsText f.bytes)
    (h : t.TurnsBack f) : t.isFile f.clean := by
  obtain ⟨q, content, hq, hc⟩ := FileTree.isFile_iff.mp hf
  exact FileTree.isFile_iff.mpr ⟨q, content, h.locate_clean htext hq, hc⟩

private theorem atFile_of_turnsBack (hf : t.isFile f) (htext : IsText f.bytes) (h : t.TurnsBack f)
    (hs : r.settle t f = .ok file) : r.AtFile t file :=
  atFile_of_settle hf (fun _ ↦ isFile_clean_of_turnsBack hf htext h) hs

/-- The answer for a path that is read from a directory that is text. -/
theorem atFile_of_resolvePath (hr : r.Slashless) (hp : Textual p)
    (h : r.resolvePath t p s = .ok file) : r.AtFile t file := by
  have htarget : p.resolve (.ofString s) = .ok (p.join (.ofString s)).clean :=
    if_pos hp.isAbsolute
  obtain ⟨f, hf, hs⟩ := (resolvePath_eq_ok_iff htarget).mp h
  have htidy : Tidy f := (closed_tidy hr).lookup (hp.join_ofString s).tidy_clean hf
  refine atFile_of_settle (isFile_of_lookup hf) (fun _ ↦ ?_) hs
  rw [htidy.clean_eq]
  exact isFile_of_lookup hf

section

variable {searchPaths : List Path} (hits : HitsIn (r.probe t s) (searchList searchPaths) d f)

include hits

/-- What the search for a package hits is of each kind that the resolver stays in, if what it looks
for is made of parts of that kind. -/
theorem of_hitsIn {K : Path → Prop} (hK : r.Closed K) (hPK : ∀ p, MadeOf P p → K p)
    (hroot : P .root) (hname : P (.name modulesName)) (hp : ∀ p ∈ searchPaths, MadeOf P p)
    (hs : ∀ c ∈ meaning (Path.ofString s).segments, P c) : K f := by
  obtain ⟨p, hlead, hf⟩ := probe_eq_ok_some_iff.mp hits.probe_eq
  have hd := MadeOf.of_mem_searchList hp hroot hname hits.mem
  have hlookup : r.lookup t false p = .ok (some f) := hf
  exact hK.lookup (hPK p (hd.of_leadsIn hroot hs hlead)) hlookup

private theorem isFile_of_hitsIn : t.isFile f := by
  obtain ⟨p, -, hf⟩ := probe_eq_ok_some_iff.mp hits.probe_eq
  exact isFile_of_asFileOrDirectory hf

private theorem textual_of_hitsIn (hp : ∀ p ∈ searchPaths, Textual p) : Textual f :=
  of_hitsIn hits (closed_textual r) (fun _ ↦ textual_iff.mpr) isTextual_root ⟨"node_modules", rfl⟩
    (fun p h ↦ textual_iff.mp (hp p h)) (Path.isText_iff_meaning.mp (Path.isText_ofString s))

/-- Without two dots in what it looks for, it hits nothing that has two dots. -/
theorem dotDot_notMem_of_hitsIn (hr : r.Slashless) (hp : ∀ p ∈ searchPaths, Textual p)
    (hdots : ∀ p ∈ searchPaths, dotDot ∉ p.segments)
    (hs : dotDot ∉ (Path.ofString s).segments) : dotDot ∉ f.segments := by
  have honward {q : Path} (ht : IsText q.bytes) (hq : dotDot ∉ q.segments) :
      ∀ c ∈ meaning q.segments, Onward c := fun c hc ↦
    ⟨Path.isText_iff_meaning.mp ht c hc, fun h ↦ hq (Path.dotDot_mem_iff.mpr (h ▸ hc))⟩
  have hpaths : ∀ p ∈ searchPaths, MadeOf Onward p := fun p h ↦ by
    refine ⟨(hp p h).isAbsolute, ?_⟩
    rw [Path.components_of_isAbsolute (hp p h).isAbsolute]
    exact List.forall_mem_cons.mpr ⟨onward_root, honward (hp p h).isText (hdots p h)⟩
  have hf : MadeOf Onward f := of_hitsIn hits (closed_onward hr) (fun _ ↦ id) onward_root
    ⟨⟨"node_modules", rfl⟩, by simp⟩ hpaths (honward (Path.isText_ofString s) hs)
  intro hmem
  refine (hf.parts .parent ?_).ne_parent rfl
  rw [Path.components_of_isAbsolute hf.isAbsolute]
  exact List.mem_cons_of_mem _ (Path.dotDot_mem_iff.mp hmem)

end

/-- With extensions without slashes, the answer for a path that is read from a directory leads to a
file. The answer for a bare specifier does so where links are followed. Where they are kept it is
the clean form of a path that leads to a file; it leads to that file if the path turns back in the
directories of its clean form, if neither the specifier nor a search path has two dots, and if there
are no links. -/
theorem answers_lead_to_files (hr : r.Slashless) :
    (∀ base specifier file, Textual base → r.resolvePath t base specifier = .ok file →
      r.AtFile t file) ∧
    ∀ searchPaths specifier file, (∀ p ∈ searchPaths, Textual p) →
      r.resolvePackage t specifier searchPaths = .ok file →
      (r.preserveLinks = false → r.AtFile t file) ∧
      (r.preserveLinks → ∃ d f, HitsIn (r.probe t specifier) (searchList searchPaths) d f ∧
        t.isFile f ∧ file = f.clean ∧ (t.TurnsBack f → r.AtFile t file)) ∧
      (dotDot ∉ (Path.ofString specifier).segments →
        (∀ p ∈ searchPaths, dotDot ∉ p.segments) → r.AtFile t file) ∧
      (t.Linkless → r.AtFile t file) := by
  refine ⟨fun base specifier file hbase h ↦ atFile_of_resolvePath hr hbase h, ?_⟩
  intro searchPaths specifier file hp h
  obtain ⟨d, f, hits, hsettle⟩ := resolvePackage_eq_ok_iff.mp h
  have hfile := isFile_of_hitsIn hits
  have htext := (textual_of_hitsIn hits hp).isText
  have hturns (hback : t.TurnsBack f) := atFile_of_turnsBack hfile htext hback hsettle
  refine ⟨fun hl ↦ ?_, fun hl ↦ ⟨d, f, hits, hfile, ?_, hturns⟩, fun hs hdots ↦ ?_, fun ht ↦ ?_⟩
  · exact atFile_of_settle hfile (fun hl' ↦ by cases hl.symm.trans hl') hsettle
  · rw [settle_eq_ok_iff, if_pos hl] at hsettle
    exact hsettle.symm
  · exact hturns (FileTree.turnsBack_of_notMem (dotDot_notMem_of_hitsIn hits hr hp hdots hs))
  · obtain ⟨q, -, hq, -⟩ := FileTree.isFile_iff.mp hfile
    exact hturns (ht.turnsBack (FileTree.locate_eq_ok_iff.mp hq).1)

/-- A package with a link to a directory elsewhere. -/
def linkedPackage : FileTree :=
  ⟨[(encode "p", .directory [(encode "node_modules", .directory [(encode "pkg", .directory
      [(encode "index.js", .file []), (encode "link", .link (.ofString "/store/a"))])])]),
    (encode "store", .directory [(encode "a", .directory []), (encode "x.js", .file [])])]⟩

/-- A specifier that climbs out of a linked directory leads to the file beside the directory that
the link leads to. -/
theorem answers_lead_to_files_of_linkedPackage :
    Resolver.resolvePackage {} linkedPackage "pkg/link/../x.js" [.ofString "/p"] =
        .ok (.ofString "/store/x.js") ∧
      AtFile {} linkedPackage (.ofString "/store/x.js") := by
  have hp : ∀ p ∈ [Path.ofString "/p"], Textual p :=
    List.forall_mem_singleton.mpr ⟨by decide, Path.isText_ofString _⟩
  have hfound : Resolver.resolvePackage {} linkedPackage "pkg/link/../x.js" [.ofString "/p"] =
      .ok (.ofString "/store/x.js") := eq_ok_of_toOption (by decide +kernel)
  exact ⟨hfound, ((answers_lead_to_files (by decide)).2 _ _ _ hp hfound).1 rfl⟩

/-- With links kept, the answer takes the name of the link back, where there is no file. -/
theorem answer_leads_nowhere_in_linkedPackage :
    let r : Resolver := { preserveLinks := true }
    (r.Slashless ∧ Textual (.ofString "/p")) ∧
      r.resolvePackage linkedPackage "pkg/link/../x.js" [.ofString "/p"] =
        .ok (.ofString "/p/node_modules/pkg/x.js") ∧
      linkedPackage.isFile (.ofString "/p/node_modules/pkg/x.js") = false :=
  ⟨⟨by decide, by decide, Path.isText_ofString _⟩, eq_ok_of_toOption (by decide +kernel),
    by decide +kernel⟩

end Relocation.Resolver

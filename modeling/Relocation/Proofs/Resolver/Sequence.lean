import Relocation.Proofs.Resolver.Tidy

/-!
# The order in which files are tried

What is found for a clean path is the first file of one list: the path itself, the path with each
extension and, below a directory, what the entry in its manifest may mean and its index files. The
search ends without a result if no file stands in front of a manifest that cannot be read as one.
-/

namespace Relocation.Resolver

open Relocation.Path (Plain rooted)
open Text.Utf8 (encode)

variable {r : Resolver} {t : FileTree} {p m : Path}

/-! ### What is tried -/

/-- A path with each extension behind a dot. -/
def extended (r : Resolver) (p : Path) : List Path :=
  r.extensions.map fun e ↦ ⟨p.bytes ++ 46 :: encode e⟩

/-- The index files of a directory. -/
def indexFiles (r : Resolver) (p : Path) : List Path :=
  r.extensions.map fun e ↦ p.join (.ofString ("index." ++ e))

/-- What a path may mean as an entry. The root has no name that an extension could stand behind. -/
def entryFiles (r : Resolver) (t : FileTree) (m : Path) : List Path :=
  m :: (if m = rooted [] then [] else r.extended m) ++
    if t.isDirectory m then r.indexFiles m else []

/-- The names of the fields that may name an entry. -/
def entryFields : List String := ["main", "module", "browser"]

/-- The entry that the manifest of a directory names, if there is one: the value of the first field
that may name an entry and is a string. -/
def entryIn (r : Resolver) (t : FileTree) (p : Path) : Option String :=
  match Manifest.read t (p.join manifestName) with
  | .ok m => (r.mainFields.filter (· ∈ entryFields)).findSome? m.entry?
  | .error _ => none

/-- What a directory may stand for, in order. -/
def triedIn (r : Resolver) (t : FileTree) (p : Path) : List Path :=
  ((r.entryIn t p).elim [] fun entry ↦ r.entryFiles t (p.join (.ofString entry)).clean) ++
    r.indexFiles p

/-- What is tried for a path, in order. -/
def tried (r : Resolver) (t : FileTree) (p : Path) : List Path :=
  p :: r.extended p ++ if t.isDirectory p then r.triedIn t p else []

/-- A file is no manifest; `e` says why. -/
def Unreadable (t : FileTree) (m : Path) (e : Error) : Prop :=
  ∃ content cause, t.read m = .ok content ∧ Manifest.parse content = .error cause ∧
    e = .manifest m cause

/-- A file that is no manifest ends the search: it stands in a directory in the place of one, and
neither the directory's path nor that path with an extension leads to a file. -/
structure Spoils (r : Resolver) (t : FileTree) (p : Path) (e : Error) : Prop where
  noFile : ∀ q ∈ p :: r.extended p, t.isFile q = false
  isDirectory : t.isDirectory p
  unreadable : Unreadable t (p.join manifestName) e

/-! ### Manifests -/

/-- Other fields than those never name an entry. -/
theorem entry?_eq_none {manifest : Manifest} {field : String} (h : field ∉ entryFields) :
    manifest.entry? field = none := by
  unfold Manifest.entry?
  split
  · exact absurd (by decide) h
  · exact absurd (by decide) h
  · exact absurd (by decide) h
  · rfl

private theorem findSome?_entry? (manifest : Manifest) (fields : List String) :
    fields.findSome? manifest.entry? =
      (fields.filter (· ∈ entryFields)).findSome? manifest.entry? := by
  induction fields with
  | nil => rfl
  | cons field fields ih =>
    rw [List.filter_cons, List.findSome?_cons, ih]
    by_cases h : field ∈ entryFields
    · rw [if_pos (decide_eq_true h), List.findSome?_cons]
    · rw [if_neg (by simpa using h), entry?_eq_none h]

/-- A manifest is a file. -/
theorem isFile_of_manifest {manifest : Manifest} (h : Manifest.read t p = .ok manifest) :
    t.isFile p := by
  unfold Manifest.read at h
  split at h
  · next hread => exact FileTree.isFile_iff_read.mpr ⟨_, hread⟩
  · cases h
  · cases h

/-- A file is a manifest unless it cannot be read as one. -/
theorem read_eq_error_iff (h : t.isFile p) {e : Error} :
    Manifest.read t p = .error e ↔ Unreadable t p e := by
  obtain ⟨content, hread⟩ := FileTree.isFile_iff_read.mp h
  unfold Manifest.read Unreadable
  simp only [hread, Except.ok.injEq]
  constructor
  · intro he
    cases hparse : Manifest.parse content with
    | ok manifest => cases (congrArg (Except.mapError _) hparse).symm.trans he
    | error cause =>
      have he := (congrArg (Except.mapError (Error.manifest p)) hparse).symm.trans he
      cases he
      exact ⟨content, cause, rfl, hparse, rfl⟩
  · rintro ⟨_, cause, rfl, hparse, rfl⟩
    exact congrArg (Except.mapError _) hparse

private theorem entryIn_of_read {manifest : Manifest}
    (hm : Manifest.read t (p.join manifestName) = .ok manifest) :
    r.entryIn t p = r.mainFields.findSome? manifest.entry? := by
  unfold entryIn
  rw [hm, findSome?_entry?]

private theorem entryIn_of_not_isFile (h : t.isFile (p.join manifestName) = false) :
    r.entryIn t p = none := by
  unfold entryIn
  split
  · next hm => exact absurd (isFile_of_manifest hm) (Bool.eq_false_iff.mp h)
  · rfl

/-! ### Files with extensions -/

/-- With an extension, the last name of a clean path is exchanged. -/
theorem withExtension_rooted {ns : List Name} {x : Name} {name e : String}
    (hns : ∀ n ∈ ns, Plain n) (hx : Plain x) (hn : Plain (encode name)) (he : '/' ∉ e.toList) :
    withExtension (rooted (ns ++ [x])) name e = rooted (ns ++ [encode (name ++ "." ++ e)]) := by
  have hplain : ∀ n ∈ ns ++ [x], Plain n :=
    List.forall_mem_append.mpr ⟨hns, List.forall_mem_singleton.mpr hx⟩
  unfold withExtension Path.withFileName
  rw [Path.fileName?_rooted hplain]
  show (rooted (ns ++ [x])).parentDirectory.join _ = _
  rw [Path.parentDirectory_rooted hplain, List.dropLast_concat,
    Path.join_rooted hns (plain_append_extension hn he)]

/-- Bytes behind the last name stand behind the path. -/
theorem rooted_append_concat (ns : List Name) (n bs : Name) :
    rooted (ns ++ [n ++ bs]) = ⟨(rooted (ns ++ [n])).bytes ++ bs⟩ := by
  by_cases hns : ns = []
  · subst hns
    rfl
  · refine congrArg Path.mk ?_
    rw [Path.bytes_rooted, Path.joinSegments_append hns (List.cons_ne_nil _ _),
      Path.joinSegments_append hns (List.cons_ne_nil _ _)]
    simp [Path.joinSegments]

/-- Extensions are tried behind the name one after the other, although each is put in the place of
the one before. -/
theorem firstExtended_rooted {ns : List Name} {name : String} (hns : ∀ n ∈ ns, Plain n)
    (hn : Plain (encode name)) {es : List String} (hes : ∀ e ∈ es, '/' ∉ e.toList) {x : Name}
    (hx : Plain x) :
    firstExtended t name (rooted (ns ++ [x])) es =
      (es.map fun e ↦ rooted (ns ++ [encode (name ++ "." ++ e)])).find? t.isFile := by
  induction es generalizing x with
  | nil => rfl
  | cons e es ih =>
    obtain ⟨he, hes⟩ := List.forall_mem_cons.mp hes
    rw [List.map_cons, List.find?_cons]
    simp only [firstExtended]
    rw [withExtension_rooted hns hx hn he]
    split
    · next h => rw [h]
    · next h =>
      rw [Bool.eq_false_iff.mpr h]
      exact ih hes (plain_append_extension hn he)

/-- A clean path is the root or ends with a name that is text. -/
theorem Tidy.root_or_named (h : Tidy p) :
    p = rooted [] ∨ ∃ ns name, p = rooted (ns ++ [encode name]) ∧
      ∀ n ∈ ns ++ [encode name], Plain n := by
  have heq := h.eq_rooted
  have hplain : ∀ n ∈ p.names, Plain n := Path.plain_of_mem_names
  have htext := Path.isText_of_mem_names h.textual.isText
  obtain hnil | ⟨ns, x, hx⟩ := List.eq_nil_or_concat p.names
  · left
    rwa [hnil] at heq
  · rw [hx, List.concat_eq_append] at heq hplain htext
    obtain ⟨name, rfl⟩ := htext x (List.mem_append_right ns (List.mem_singleton_self x))
    exact .inr ⟨ns, name, heq, hplain⟩

/-- The file that a clean path names is the first one among the path and those with an
extension. -/
theorem Tidy.asFile_eq (h : Tidy p) (hr : r.Slashless) :
    r.asFile t p = (p :: if p = rooted [] then [] else r.extended p).find? t.isFile := by
  unfold asFile
  rw [List.find?_cons]
  split
  · next hf => rw [hf]
  · next hf =>
    rw [Bool.eq_false_iff.mpr hf]
    rcases h.root_or_named with rfl | ⟨ns, name, rfl, hplain⟩
    · rw [if_pos rfl]
      rfl
    · obtain ⟨hns, hname⟩ := List.forall_mem_append.mp hplain
      have hname := List.forall_mem_singleton.mp hname
      have hne : rooted (ns ++ [encode name]) ≠ rooted [] := by
        rw [ne_eq, Path.rooted_inj hplain (by simp)]
        simp
      rw [Path.fileName?_rooted hplain, if_neg hne]
      simp only [Text.Utf8.decodeLossy_encode]
      rw [firstExtended_rooted hns hname hr hname]
      refine congrArg (List.find? t.isFile) (List.map_congr_left fun e _ ↦ ?_)
      rw [encode_append_extension, rooted_append_concat]

/-! ### Directories -/

/-- The file of an entry is the first one among what the entry may mean. -/
theorem Tidy.entryOf_eq (h : Tidy p) (hr : r.Slashless) {manifest : Manifest}
    (hm : Manifest.read t (p.join manifestName) = .ok manifest) :
    r.entryOf t p (p.join manifestName) =
      .ok (((r.entryIn t p).elim [] fun entry ↦
        r.entryFiles t (p.join (.ofString entry)).clean).find? t.isFile) := by
  rw [entryIn_of_read hm, entryOf, hm]
  dsimp only [bind, Except.bind]
  cases r.mainFields.findSome? manifest.entry? with
  | none => rfl
  | some entry =>
    have hentry : Tidy (p.join (.ofString entry)).clean :=
      (h.textual.join_ofString entry).tidy_clean
    simp only [Option.elim_some, entryFiles, List.find?_append, hentry.asFile_eq hr]
    cases List.find? t.isFile _ with
    | some f => rfl
    | none =>
      rw [Option.none_or]
      show Except.ok (if t.isDirectory _ then _ else none) = _
      split <;> rfl

/-- A directory stands for the first file among these, if its manifest is none or can be read. -/
theorem Tidy.asDirectory_eq (h : Tidy p) (hr : r.Slashless) (hd : t.isDirectory p)
    (hm : ∀ e, ¬Unreadable t (p.join manifestName) e) :
    r.asDirectory t p = .ok ((r.triedIn t p).find? t.isFile) := by
  unfold asDirectory triedIn
  rw [if_pos hd, List.find?_append]
  dsimp only
  split
  · next hfile =>
    cases hread : Manifest.read t (p.join manifestName) with
    | error e => exact absurd ((read_eq_error_iff hfile).mp hread) (hm e)
    | ok manifest =>
      rw [h.entryOf_eq hr hread]
      show Except.ok (Option.orElse _ _) = _
      cases List.find? t.isFile _ <;> rfl
  · next hfile =>
    rw [entryIn_of_not_isFile (Bool.eq_false_iff.mpr hfile)]
    rfl

private theorem asDirectory_eq_error (hd : t.isDirectory p) {e : Error}
    (hm : Unreadable t (p.join manifestName) e) : r.asDirectory t p = .error e := by
  have hfile : t.isFile (p.join manifestName) := by
    obtain ⟨content, -, hread, -⟩ := hm
    exact FileTree.isFile_iff_read.mpr ⟨content, hread⟩
  unfold asDirectory entryOf
  rw [if_pos hd]
  dsimp only
  rw [if_pos hfile, (read_eq_error_iff hfile).mpr hm]
  rfl

/-! ### The first file -/

private theorem Spoils.asFileOrDirectory_eq {e : Error} (h : r.Spoils t p e) (hp : Tidy p)
    (hr : r.Slashless) : r.asFileOrDirectory t p = .error e := by
  have hnone : r.asFile t p = none := by
    rw [hp.asFile_eq hr, List.find?_eq_none]
    intro q hq
    refine Bool.eq_false_iff.mp (h.noFile q ?_)
    split at hq
    · exact List.mem_cons.mpr (.inl (List.mem_singleton.mp hq))
    · exact hq
  unfold asFileOrDirectory
  rw [hnone]
  exact asDirectory_eq_error h.isDirectory h.unreadable

/-- If nothing spoils the search, the first file among what is tried is found. -/
theorem Tidy.asFileOrDirectory_eq (h : Tidy p) (hr : r.Slashless) (hn : p ≠ rooted [])
    (hs : ∀ e, ¬r.Spoils t p e) :
    r.asFileOrDirectory t p = .ok ((r.tried t p).find? t.isFile) := by
  have hfile := h.asFile_eq (t := t) hr
  rw [if_neg hn] at hfile
  unfold asFileOrDirectory tried
  rw [List.find?_append, ← hfile]
  cases hf : r.asFile t p with
  | some f => rfl
  | none =>
    by_cases hd : t.isDirectory p
    · rw [if_pos hd, Option.none_or]
      refine h.asDirectory_eq hr hd fun e hm ↦ hs e ⟨fun q hq ↦ ?_, hd, hm⟩
      rw [hfile, List.find?_eq_none] at hf
      exact Bool.eq_false_iff.mpr (hf q hq)
    · rw [if_neg hd]
      exact if_neg hd

private theorem Tidy.not_spoils (h : Tidy p) (hr : r.Slashless) {found : Option Path}
    (hf : r.asFileOrDirectory t p = .ok found) (e : Error) : ¬r.Spoils t p e := by
  intro hs
  cases hf.symm.trans (hs.asFileOrDirectory_eq h hr)

/-- For a clean absolute path with a last name, the first file among what is tried is found, unless
a file that is no manifest ends the search before; nothing is found exactly if nothing ends the
search and nothing that is tried is a file. -/
theorem asFileOrDirectory_eq_find? (hr : r.Slashless) (ha : p.isAbsolute) (hc : p.clean = p)
    (hn : p.fileName?.isSome) :
    (∀ e, r.asFileOrDirectory t p = .error e ↔ r.Spoils t p e) ∧
      ((∀ e, ¬r.Spoils t p e) →
        r.asFileOrDirectory t p = .ok ((r.tried t p).find? t.isFile)) ∧
      (r.asFileOrDirectory t p = .ok none ↔
        (∀ e, ¬r.Spoils t p e) ∧ ∀ q ∈ r.tried t p, t.isFile q = false) := by
  have hp := tidy_of_clean ha hc
  have hroot : p ≠ rooted [] := by
    rintro rfl
    exact absurd hn (by decide)
  have hfound := hp.asFileOrDirectory_eq (t := t) hr hroot
  refine ⟨fun e ↦ ⟨fun he ↦ ?_, fun h ↦ h.asFileOrDirectory_eq hp hr⟩, hfound, ?_, ?_⟩
  · by_contra hs
    have hall : ∀ e, ¬r.Spoils t p e := by
      intro e' hs'
      cases he.symm.trans (hs'.asFileOrDirectory_eq hp hr)
      exact hs hs'
    cases he.symm.trans (hfound hall)
  · intro h
    have hall := hp.not_spoils hr h
    refine ⟨hall, fun q hq ↦ ?_⟩
    have hnone := Except.ok.inj ((hfound hall).symm.trans h)
    exact Bool.eq_false_iff.mpr (List.find?_eq_none.mp hnone q hq)
  · rintro ⟨hall, hq⟩
    rw [hfound hall]
    exact congrArg _ (List.find?_eq_none.mpr fun q hm ↦ Bool.eq_false_iff.mp (hq q hm))

/-- A directory whose manifest names an entry directory, an index file beside it. -/
def entryDirectory : FileTree :=
  ⟨[(encode "p", .directory [
    (encode "package.json", .file (encode "\x7b\"main\": \"lib\"\x7d")),
    (encode "lib", .directory [(encode "index.js", .file [])]),
    (encode "index.js", .file [])])]⟩

/-- The entry that the manifest names comes before the index file beside it. -/
theorem asFileOrDirectory_eq_find?_of_entryDirectory :
    (({} : Resolver).Slashless ∧ (Path.ofString "/p").isAbsolute ∧
      (Path.ofString "/p").clean = .ofString "/p" ∧ (Path.ofString "/p").fileName?.isSome) ∧
    (({} : Resolver).tried entryDirectory (.ofString "/p")).find? entryDirectory.isFile =
      some (.ofString "/p/lib/index.js") := by
  have hr : ({} : Resolver).Slashless := by decide
  have hfound : ({} : Resolver).asFileOrDirectory entryDirectory (.ofString "/p") =
      .ok (some (.ofString "/p/lib/index.js")) := eq_ok_of_toOption (by decide +kernel)
  obtain ⟨-, hok, -⟩ := asFileOrDirectory_eq_find? (t := entryDirectory)
    (p := .ofString "/p") hr (by decide) (by decide) (by decide)
  have hp : Tidy (.ofString "/p") := tidy_of_clean (by decide) (by decide)
  exact ⟨⟨hr, by decide, by decide, by decide⟩,
    Except.ok.inj ((hok (hp.not_spoils hr hfound)).symm.trans hfound)⟩

/-- A directory whose manifest has a string in a field of another name, an index file beside the
file that it names. -/
def otherField : FileTree :=
  ⟨[(encode "p", .directory [
    (encode "package.json", .file (encode "\x7b\"es\": \"es.js\"\x7d")),
    (encode "es.js", .file []),
    (encode "index.js", .file [])])]⟩

/-- A field of another name than those names no entry, although it is asked for. -/
theorem asFileOrDirectory_passes_other_field :
    let r : Resolver := { mainFields := ["es"] }
    let p := Path.ofString "/p"
    (p.isAbsolute ∧ p.clean = p ∧ p.fileName?.isSome ∧
      ∀ q ∈ p :: r.extended p, otherField.isFile q = false) ∧
    (otherField.isDirectory p ∧
      otherField.read (.ofString "/p/package.json") =
        .ok (encode "\x7b\"es\": \"es.js\"\x7d") ∧
      otherField.isFile (.ofString "/p/es.js")) ∧
    r.asFileOrDirectory otherField p = .ok (some (.ofString "/p/index.js")) := by
  refine ⟨⟨by decide, by decide, by decide, by decide +kernel⟩,
    ⟨by decide +kernel, eq_ok_of_toOption (by decide +kernel), by decide +kernel⟩,
    eq_ok_of_toOption (by decide +kernel)⟩

end Relocation.Resolver

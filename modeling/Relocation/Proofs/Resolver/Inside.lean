import Relocation.Proofs.Path.Way
import Relocation.Proofs.Resolver.AsDirectory
import Relocation.Proofs.Resolver.Behind

/-!
# What a bare specifier leads out of

In a tree without manifests, with links kept and extensions without slashes, a bare specifier
without double dots leads below a directory of packages. It leads out of it in one way: two slashes
behind the name of a package make what follows begin at the root.
-/

namespace Relocation.Resolver

open Relocation.Path (Behind GoesOn IsBelow Named Plain dot dotDot names reach rooted slash
  segmentsOf)
open Specifier (isPath splitPackage)
open Text.Utf8 (IsText encode)

variable {r : Resolver} {t : FileTree} {s : String} {d p f file : Path}

/-- Segments that lead downwards: text, and not two dots. -/
structure Downward (n : Name) : Prop where
  isText : IsText n
  ne_dotDot : n ≠ dotDot

private theorem keepsSegments_downward (hr : r.Slashless) : r.KeepsSegments Downward where
  isText := Downward.isText
  extended {n e} hplain hn he := by
    have hdot : Plain (n ++ 46 :: encode e) :=
      Path.plain_append_dot hplain (slash_notMem_encode (hr e he))
    have htext : IsText (n ++ 46 :: encode e) := by
      obtain ⟨name, rfl⟩ := hn.isText
      rw [← encode_append_extension]
      exact Text.Utf8.isText_encode _
    rw [Path.segmentsOf_of_notMem hdot.noSlash]
    exact List.forall_mem_singleton.mpr ⟨htext, hdot.ne_dotDot⟩

/-- An index file stands behind what its directory stands behind. -/
theorem behind_of_indexOf (hr : r.Slashless) (hp : Behind Downward d p)
    (hf : r.indexOf t p = some f) : Behind Downward d f := by
  obtain ⟨e, he, rfl⟩ := exists_of_indexOf hf
  have hindex : Plain (encode ("index" ++ "." ++ e)) :=
    plain_append_extension ⟨by decide, by decide, by decide, by decide⟩ (hr e he)
  have hsegments : (Path.ofString ("index." ++ e)).segments = [encode ("index." ++ e)] :=
    Path.segmentsOf_of_notMem hindex.noSlash
  refine hp.join (Path.isAbsolute_of_segments_cons hsegments hindex.ne_nil) ?_
  rw [hsegments]
  exact List.forall_mem_singleton.mpr ⟨Text.Utf8.isText_encode _, hindex.ne_dotDot⟩

/-- Without manifests, all that is found behind a directory stands behind it. -/
theorem behind_of_asFileOrDirectory (hr : r.Slashless) (ht : t.Without manifestName.bytes)
    (hd : Named d) (hp : Behind Downward d p) (hf : r.asFileOrDirectory t p = .ok (some f)) :
    Behind Downward d f := by
  rcases asFileOrDirectory_cases hf with h | h
  · exact behind_of_asFile (keepsSegments_downward hr) hd hp h
  · exact behind_of_indexOf hr hp (indexOf_of_asDirectory ht h)

/-- Where no two slashes stand behind the package's name, a bare specifier is spelled behind the
directory that it is looked for in. -/
theorem LeadsIn.behind (h : LeadsIn t s d p) (hd : Named d) (hne : s ≠ "")
    (hbare : isPath s.toList = false) (hdots : dotDot ∉ (Path.ofString s).segments)
    (hs : ¬DoublesSlash s) : Behind Downward d p := by
  have hdown : ∀ n ∈ (Path.ofString s).segments, Downward n := fun n hn ↦
    ⟨Path.isText_of_mem_segmentsOf (Path.isText_ofString s) hn, fun h0 ↦ hdots (h0 ▸ hn)⟩
  cases h with
  | whole _ eq | package _ _ eq =>
    obtain ⟨y, ys, hys, hy⟩ := exists_segments_of_not_isPath hbare hne
    rw [eq]
    exact hd.behind_join hys hy (hys ▸ hdown)
  | @inside name rest split _ eq =>
    have hsplits := Specifier.splits_of_splitPackage split
    rw [ofString_eq_of_splits hsplits, Path.segments, Path.segmentsOf_append_slash] at hdown
    obtain ⟨hname, hrest⟩ := List.forall_mem_append.mp hdown
    obtain ⟨y, ys, hys, hy⟩ : ∃ y ys, (Path.ofString (String.ofList name)).segments = y :: ys ∧
        Plain y := by
      refine exists_segments_of_not_isPath ?_ fun h0 ↦ ?_
      · rw [String.toList_ofList]
        exact hsplits.name_not_path
      · exact encode_ne_nil_of_splits hsplits (congrArg encode h0)
    rw [eq]
    exact (hd.behind_join hys hy (hys ▸ hname)).join (isAbsolute_of_not_doublesSlash split hs) hrest

/-! ### Below a directory -/

/-- Segments that lead downwards lead from each directory to one below, if at all. -/
theorem exists_reach_of_downward {ss : List Name} (hs : ∀ n ∈ ss, n ≠ dotDot ∧ slash ∉ n)
    (ns : List Name) : ∃ ms, reach ns ss = ns ++ ms := by
  induction ss generalizing ns with
  | nil => exact ⟨[], by rw [Path.reach_nil, List.append_nil]⟩
  | cons n ss ih =>
    obtain ⟨⟨hdots, hslash⟩, hss⟩ := List.forall_mem_cons.mp hs
    by_cases hnil : n = []
    · rw [hnil, Path.reach_cons_nil]
      exact ih hss ns
    · by_cases hdot : n = dot
      · rw [hdot, Path.reach_cons_dot]
        exact ih hss ns
      · obtain ⟨ms, hms⟩ := ih hss (ns ++ [n])
        refine ⟨n :: ms, ?_⟩
        rw [Path.reach_cons_plain ⟨hnil, hdot, hdots, hslash⟩, hms, List.append_assoc,
          List.singleton_append]

/-- What stands behind a directory lies below it. -/
theorem goesOn_of_behind (h : Behind Downward d f) : GoesOn d.names f.names := by
  obtain ⟨y, ys, hs, hy, hys⟩ := h.exists_rest
  have hdown : ∀ n ∈ ys, n ≠ dotDot ∧ slash ∉ n := by
    intro n hn
    have hmem : n ∈ segmentsOf f.bytes := by
      show n ∈ f.segments
      rw [hs]
      exact List.mem_append_right _ (List.mem_cons_of_mem _ hn)
    exact ⟨(hys n (List.mem_cons_of_mem _ hn)).ne_dotDot,
      Path.slash_notMem_of_mem_segmentsOf hmem⟩
  obtain ⟨ms, hms⟩ := exists_reach_of_downward hdown (d.names ++ [y])
  have hnames : f.names = d.names ++ y :: ms := by
    rw [names, hs, Path.reach_append, ← names, Path.reach_cons_plain hy, hms, List.append_assoc,
      List.singleton_append]
  rw [hnames]
  exact ⟨List.prefix_append _ _, by simp⟩

/-- A path is text exactly if the directory is that it stands behind. -/
theorem isText_iff_of_behind (h : Behind Downward d f) : IsText f.bytes ↔ IsText d.bytes := by
  obtain ⟨y, ys, hs, -, hys⟩ := h.exists_rest
  have hbytes : f.bytes = Path.joinSegments f.segments :=
    (Path.joinSegments_segmentsOf f.bytes).symm
  have hdir : d.bytes = Path.joinSegments d.segments :=
    (Path.joinSegments_segmentsOf d.bytes).symm
  constructor
  · intro ht
    rw [hdir]
    refine Path.isText_joinSegments fun n hn ↦ Path.isText_of_mem_segmentsOf ht ?_
    show n ∈ f.segments
    rw [hs]
    exact List.mem_append_left _ hn
  · intro ht
    rw [hbytes, hs]
    refine Path.isText_joinSegments fun n hn ↦ ?_
    rcases List.mem_append.mp hn with hn | hn
    · exact Path.isText_of_mem_segmentsOf ht hn
    · exact (hys n hn).isText

/-- The clean form of what stands behind a directory that is text lies below it. -/
theorem isBelow_of_behind (hd : d.isAbsolute) (ht : IsText d.bytes) (h : Behind Downward d f) :
    IsBelow f.clean d.clean := by
  rw [Path.clean_of_isAbsolute h.isAbsolute ((isText_iff_of_behind h).mpr ht),
    Path.clean_of_isAbsolute hd ht,
    Path.isBelow_rooted Path.plain_of_mem_names Path.plain_of_mem_names]
  exact goesOn_of_behind h

/-- In a tree without manifests, with links kept and extensions without slashes, what a bare
specifier without double dots is resolved to lies below a directory of packages above a search path;
its name is lost if that is no text. Only where two slashes stand behind the name of a package that
the directory holds, the answer is what the rest leads to from the root. -/
theorem resolvePackage_stays_inside (hlinks : r.preserveLinks) (hr : r.Slashless)
    (ht : t.Without manifestName.bytes) (hne : s ≠ "") (hbare : isPath s.toList = false)
    (hdots : dotDot ∉ (Path.ofString s).segments) {searchPaths : List Path}
    (hp : ∀ p ∈ searchPaths, p.isAbsolute)
    (h : r.resolvePackage t s searchPaths = .ok file) :
    ∃ start ∈ searchPaths, ∃ d ∈ modulePaths start,
      (¬DoublesSlash s → IsText d.bytes → IsBelow file d.clean) ∧
      (¬DoublesSlash s → ¬IsText d.bytes → file = ⟨dot⟩) ∧
      (DoublesSlash s → ∃ name rest f, splitPackage s.toList = some (name, '/' :: '/' :: rest) ∧
        t.pathExists (d.join (.ofString (String.ofList name))) ∧
        r.asFileOrDirectory t (.ofString (String.ofList ('/' :: rest))) = .ok (some f) ∧
        file = f.clean) := by
  obtain ⟨d, f, hits, hsettle⟩ := resolvePackage_eq_ok_iff.mp h
  obtain ⟨start, hstart, hd⟩ := List.mem_flatMap.mp (mem_of_mem_searchList hits.mem)
  have hnamed : Named d := named_of_mem_modulePaths (hp start hstart) hd
  obtain ⟨p, hleads, hfound⟩ := probe_eq_ok_some_iff.mp hits.probe_eq
  rw [settle_eq_ok_iff, if_pos hlinks] at hsettle
  subst hsettle
  have hbehind (hs : ¬DoublesSlash s) : Behind Downward d f :=
    behind_of_asFileOrDirectory hr ht hnamed (hleads.behind hnamed hne hbare hdots hs) hfound
  refine ⟨start, hstart, d, hd, fun hs htext ↦ ?_, fun hs htext ↦ ?_, fun hs ↦ ?_⟩
  · exact isBelow_of_behind hnamed.isAbsolute htext (hbehind hs)
  · exact Path.clean_of_not_isText fun hf ↦ htext ((isText_iff_of_behind (hbehind hs)).mp hf)
  · obtain ⟨name, rest, hsplit⟩ := hs
    cases hleads with
    | whole split => cases split.symm.trans hsplit
    | package split => cases (Prod.mk.inj (Option.some.inj (split.symm.trans hsplit))).2
    | inside split holds eq =>
      obtain ⟨rfl, hrest⟩ := Prod.mk.inj (Option.some.inj (split.symm.trans hsplit))
      obtain rfl := (List.cons.inj hrest).2
      have hroot : p = .ofString (String.ofList ('/' :: rest)) := by
        rw [eq]
        exact Path.join_of_isAbsolute _ (isAbsolute_of_slash rest)
      exact ⟨_, rest, f, hsplit, holds, hroot ▸ hfound, rfl⟩

/-- A resolver that keeps links. -/
def keepingLinks : Resolver := { preserveLinks := true }

private theorem slashless_keepingLinks : keepingLinks.Slashless := by
  unfold Slashless
  decide

private theorem modulePaths_p : modulePaths (.ofString "/p") =
    [.ofString "/p/node_modules", .ofString "/node_modules"] := by
  decide

/-- A package in a scope, with a directory in it. -/
def scopedPackage : FileTree :=
  ⟨[(encode "p", .directory [(encode "node_modules", .directory
    [(encode "@s", .directory [(encode "pkg", .directory
      [(encode "lib", .directory [(encode "index.js", .file [])])])])])])]⟩

/-- A directory in a package of a scope leads below the directory of packages. -/
theorem resolvePackage_stays_inside_of_scoped :
    keepingLinks.resolvePackage scopedPackage "@s/pkg/lib" [.ofString "/p"] =
        .ok (.ofString "/p/node_modules/@s/pkg/lib/index.js") ∧
      ∃ d ∈ modulePaths (.ofString "/p"),
        IsBelow (.ofString "/p/node_modules/@s/pkg/lib/index.js") d.clean := by
  have hr : keepingLinks.resolvePackage scopedPackage "@s/pkg/lib" [.ofString "/p"] =
      .ok (.ofString "/p/node_modules/@s/pkg/lib/index.js") :=
    eq_ok_of_toOption (by decide +kernel)
  obtain ⟨start, hstart, d, hd, hbelow, -⟩ := resolvePackage_stays_inside (by decide)
    slashless_keepingLinks (by decide) (by decide) (by decide) (by decide) (by decide) hr
  obtain rfl := List.mem_singleton.mp hstart
  have hsingle : ¬DoublesSlash "@s/pkg/lib" := by
    rintro ⟨name, rest, h⟩
    have hsplit : splitPackage "@s/pkg/lib".toList = some ("@s/pkg".toList, "/lib".toList) := by
      decide
    cases (Prod.mk.inj (Option.some.inj (hsplit.symm.trans h))).2
  have htext : IsText d.bytes := by
    rw [modulePaths_p] at hd
    rcases List.mem_pair.mp hd with rfl | rfl
    · exact Path.isText_ofString _
    · exact Path.isText_ofString _
  exact ⟨hr, d, hd, hbelow hsingle htext⟩

/-- A package, and a file elsewhere. -/
def packageAndElsewhere : FileTree :=
  ⟨[(encode "etc", .directory [(encode "x.js", .file [])]),
    (encode "p", .directory [(encode "node_modules", .directory
      [(encode "pkg", .directory [(encode "index.js", .file [])])])])]⟩

/-- Two slashes behind the name of a package lead out of every directory of packages. -/
theorem resolvePackage_leaves_through_slashes :
    (keepingLinks.preserveLinks ∧ keepingLinks.Slashless ∧
      packageAndElsewhere.Without manifestName.bytes ∧ isPath "pkg//etc/x.js".toList = false ∧
      dotDot ∉ (Path.ofString "pkg//etc/x.js").segments) ∧
    keepingLinks.resolvePackage packageAndElsewhere "pkg//etc/x.js" [.ofString "/p"] =
      .ok (.ofString "/etc/x.js") ∧
    ∀ d ∈ modulePaths (.ofString "/p"), ¬IsBelow (.ofString "/etc/x.js") d.clean := by
  refine ⟨⟨by decide, slashless_keepingLinks, by decide, by decide, by decide⟩,
    eq_ok_of_toOption (by decide +kernel), fun d hd ↦ ?_⟩
  rw [modulePaths_p] at hd
  rcases List.mem_pair.mp hd with rfl | rfl
  · exact fun h ↦ absurd h.1 (by decide)
  · exact fun h ↦ absurd h.1 (by decide)

end Relocation.Resolver

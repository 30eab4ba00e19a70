import Relocation.Proofs.Address.Mirror
import Relocation.Proofs.Decision.Basic
import Relocation.Proofs.Resolver.Tidy

/-!
# Where the ways to copies lead

A way is read from the directory of the file that it is written in. Wherever that directory is, the
way to a package leads to one and the same place: where the way to the package's file from the
directory of packages leads from the directory of the copies. Below the directory of packages,
different files have different such places.
-/

namespace Relocation

open Relocation.Path (Anchored IsBelow Plain markRelative names reach rooted wayBetween)
open Resolver (Textual)
open Text.Utf8 (IsText encode)

namespace Resolver

/-- An answer with an absolute clean form is clean. -/
theorem clean_of_settle {r : Resolver} {t : FileTree} {f file : Path} (hf : f.isAbsolute)
    (h : r.settle t f = .ok file) (ha : file.clean.isAbsolute) : file.clean = file := by
  have hfile := anchored_of_settle hf h
  rw [settle_eq_ok_iff] at h
  split at h
  · subst h
    rcases Path.clean_of_anchored (.inl hf) with ⟨-, -, ht⟩ | ⟨hc, -⟩
    · exact (Textual.tidy_clean ⟨hf, ht⟩).clean_eq
    · rw [hc, Path.clean_dot]
  · obtain ⟨ns, rfl, hplain, -⟩ := FileTree.exists_rooted_of_canonicalize h
    obtain ⟨hroot, ht⟩ := (Path.isAbsolute_clean_iff hfile).mp ha
    rw [Path.clean_of_isAbsolute hroot ht, Path.names_rooted hplain]

private theorem clean_of_resolvePackage {r : Resolver} {t : FileTree} {specifier : String}
    {searchPaths : List Path} {file : Path}
    (h : r.resolvePackage t specifier searchPaths = .ok file) (ha : file.clean.isAbsolute) :
    file.clean = file := by
  obtain ⟨found, hfound, hs⟩ := bind_eq_ok_iff.mp h
  cases found with
  | none => cases hs
  | some f => exact clean_of_settle (isAbsolute_of_isFile (isFile_of_firstHit hfound)) hs ha

end Resolver

namespace Situation

variable {s : Situation} {file : Path} {specifier : String} {l m : Ledger}

/-- What a package specifier is relocated to with what a ledger remembers. -/
abbrev answerTo (s : Situation) (l : Ledger) (specifier : String) : Except Error String :=
  ((s.relocatePackage specifier).run l).1

/-- The place that an answer leads to from the directory that it is written in. -/
def leadsTo (s : Situation) (answer : Except Error String) : Except Error Path := do
  let way ← answer
  (s.placement.outputDirectory.resolve (.ofString way)).mapError .path

/-- The place of a file's copy: where the way to the file from the directory of packages leads from
the directory of the copies. -/
def copyOf (s : Situation) (file : Path) : Except Error Path := do
  let inside ← (Path.relative s.packageStart file).mapError .path
  (s.project.packageOutput.resolve (.ofString inside)).mapError .path

/-- The same project while another file is written. -/
abbrev placedAt (s : Situation) (placement : Placement) : Situation :=
  { s with placement := placement }

/-! ### The file of a package -/

private theorem Finds.exists_resolved (h : s.Finds specifier l file m) (hl : l.Resolved) :
    ∃ (r : Resolver) (t : FileTree) (searchPaths : List Path),
      r.resolvePackage t specifier searchPaths = .ok file := by
  cases h with
  | remembered target => exact hl specifier file target
  | found _ resolved => exact ⟨_, _, _, resolved⟩

private theorem Finds.anchored (h : s.Finds specifier l file m) (hl : l.Resolved) :
    Anchored file := by
  obtain ⟨r, t, searchPaths, hr⟩ := h.exists_resolved hl
  exact Resolver.anchored_of_resolvePackage hr

/-- A file below the directory of packages is written as its clean form. -/
theorem Finds.clean_eq (h : s.Finds specifier l file m) (hl : l.Resolved)
    (hbelow : IsBelow file.clean s.packageStart.clean) : file.clean = file := by
  obtain ⟨r, t, searchPaths, hr⟩ := h.exists_resolved hl
  have ha := (Path.exists_names_of_isBelow s.anchored_packageStart (h.anchored hl) hbelow).2.1
  exact Resolver.clean_of_resolvePackage hr ha

private theorem Finds.answerTo_eq (h : s.Finds specifier l file m) :
    s.answerTo l specifier = s.wayToPackage file :=
  congrArg Prod.fst h.run_relocatePackage

/-! ### Ways to the output, read back -/

section

variable (hp : IsText s.project.output.val.bytes) (ho : Textual s.placement.output)

include hp

private theorem textual_packageOutput : Textual s.project.packageOutput :=
  Textual.join_ofString ⟨s.project.output.property, hp⟩ "npm"

/-- A file has a copy if there is a way to it. -/
theorem copyOf_of_relative (hfile : Anchored file) {inside : String}
    (hi : Path.relative s.packageStart file = .ok inside) :
    s.copyOf file = .ok (rooted (s.copyNames file)) := by
  have hN := textual_packageOutput hp
  unfold copyOf
  rw [hi]
  show (s.project.packageOutput.resolve (.ofString inside)).mapError Error.path = _
  rw [Path.resolve_relative s.anchored_packageStart hfile hi hN.isAbsolute hN.isText]
  rfl

include ho

/-- The way to a package's file leads to its copy, and fails where there is none. -/
theorem leadsTo_wayToPackage (hn : s.project.normalize = id) (hfile : Anchored file) :
    s.leadsTo (s.wayToPackage file) = s.copyOf file := by
  cases hi : Path.relative s.packageStart file with
  | error e =>
    unfold leadsTo wayToPackage copyOf
    rw [hi]
    rfl
  | ok inside =>
    have hN := textual_packageOutput hp
    have hO : Textual s.placement.outputDirectory := ho.parentDirectory
    have hc : s.project.packageOutput.resolve (.ofString inside) =
        .ok (s.project.packageOutput.join (.ofString inside)).clean := if_pos hN.isAbsolute
    have hcopy := (hN.join_ofString inside).clean
    obtain ⟨w, hw, -⟩ := Path.relative_eq_ok hO.isAbsolute hO.isText hcopy.isAbsolute hcopy.isText
    have hway : s.wayToPackage file = .ok (markRelative w) :=
      wayToPackage_eq_ok_iff.mpr ⟨inside, hi, _, hc, w, hw, by rw [hn, id]⟩
    obtain ⟨hread, -⟩ := s.resolve_wayToPackage hfile hi hc hw hN.isText hO
    rw [hway, copyOf_of_relative hp hfile hi]
    show (s.placement.outputDirectory.resolve (.ofString (markRelative w))).mapError _ = _
    rw [hread]
    rfl

/-- The way to the runtime leads to the runtime. -/
theorem leadsTo_wayToRuntime :
    s.leadsTo s.wayToRuntime = .ok (s.project.packageOutput.join
      (.ofString s.project.classifier.internalPackage)).clean := by
  have hO : Textual s.placement.outputDirectory := ho.parentDirectory
  have hR : Textual (s.project.packageOutput.join
      (.ofString s.project.classifier.internalPackage)) :=
    (textual_packageOutput hp).join_ofString _
  obtain ⟨w, hw, -⟩ := Path.relative_eq_ok hO.isAbsolute hO.isText hR.isAbsolute hR.isText
  have hway : s.wayToRuntime = .ok (markRelative w) := by
    unfold wayToRuntime way
    rw [hw]
    rfl
  rw [hway]
  show (s.placement.outputDirectory.resolve (.ofString (markRelative w))).mapError _ = _
  rw [Path.resolve_markRelative (.inl hO.isAbsolute) (.inl hR.isAbsolute) hw hO.isAbsolute
    hO.isText, Path.names_clean hO.isAbsolute hO.isText, Path.names_clean hR.isAbsolute hR.isText,
    Path.reach_wayBetween_self Path.plain_of_mem_names Path.plain_of_mem_names,
    Path.clean_of_isAbsolute hR.isAbsolute hR.isText]
  rfl

end

/-! ### Files below the directory of packages -/

/-- The copy of a file below the directory of packages stands in the directory of the copies by
the same names. -/
theorem copyOf_of_isBelow (hp : IsText s.project.output.val.bytes) (hfile : Anchored file)
    (hbelow : IsBelow file.clean s.packageStart.clean) :
    ∃ xs : List Name, file.clean = rooted (s.packageStart.clean.names ++ xs) ∧
      (∀ x ∈ xs, Plain x) ∧ s.copyOf file = .ok (rooted (s.project.packageOutput.names ++ xs)) := by
  obtain ⟨hs, hf, xs, hxs, -⟩ :=
    Path.exists_names_of_isBelow s.anchored_packageStart hfile hbelow
  obtain ⟨inside, hi⟩ := (Path.exists_relative_iff s.anchored_packageStart hfile).mpr fun _ ↦ hf
  have hplain : ∀ x ∈ xs, Plain x := fun x hx ↦
    Path.plain_of_mem_names x (hxs ▸ List.mem_append_right _ hx)
  refine ⟨xs, ?_, hplain, ?_⟩
  · rw [hxs]
    exact Path.clean_of_isAbsolute_clean hfile hf
  · rw [copyOf_of_relative hp hfile hi, copyNames, if_neg (by simp [hs]), ← hxs,
      Path.wayBetween_append_right, Path.reach_of_plain hplain]

/-- Below the directory of packages, a way is as good as the file that it was made for. -/
theorem answerTo_eq_iff (hn : s.project.normalize = id)
    (hp : IsText s.project.output.val.bytes) (ho : Textual s.placement.output)
    {other : String} {file' : Path} {k m' : Ledger} (hl : l.Resolved) (hk : k.Resolved)
    (h : s.Finds specifier l file m) (h' : s.Finds other k file' m')
    (hbelow : IsBelow file.clean s.packageStart.clean)
    (hbelow' : IsBelow file'.clean s.packageStart.clean) :
    s.answerTo l specifier = s.answerTo k other ↔ file = file' := by
  rw [h.answerTo_eq, h'.answerTo_eq]
  constructor
  · intro heq
    obtain ⟨xs, hxs, hplain, hcopy⟩ := copyOf_of_isBelow hp (h.anchored hl) hbelow
    obtain ⟨ys, hys, hplain', hcopy'⟩ := copyOf_of_isBelow hp (h'.anchored hk) hbelow'
    have hplace : s.copyOf file = s.copyOf file' := by
      rw [← leadsTo_wayToPackage hp ho hn (h.anchored hl), heq,
        leadsTo_wayToPackage hp ho hn (h'.anchored hk)]
    rw [hcopy, hcopy', Except.ok.injEq, Path.rooted_inj (Path.plain_of_mem_names_append hplain)
      (Path.plain_of_mem_names_append hplain'),
      List.append_cancel_left_eq] at hplace
    subst hplace
    rw [← h.clean_eq hl hbelow, ← h'.clean_eq hk hbelow', hxs, hys]
  · rintro rfl
    rfl

/-- Whatever the directory of a written file is, the ways in it to the runtime and to the file of a
package lead to the runtime and to the copy of the file; no two written files disagree. A file below
the directory of packages has its copy by the same names in the directory of the copies, and from
one written file there are different ways to the copies of different such files. -/
theorem ways_lead_to_copies (s : Situation) (hn : s.project.normalize = id)
    (hp : IsText s.project.output.val.bytes) (ho : Textual s.placement.output) :
    s.leadsTo s.wayToRuntime = .ok (s.project.packageOutput.join
      (.ofString s.project.classifier.internalPackage)).clean ∧
    ∀ {l m : Ledger} {specifier : String} {file : Path}, l.Resolved →
      s.Finds specifier l file m →
      s.leadsTo (s.answerTo l specifier) = s.copyOf file ∧
      (∀ {placement : Placement} {k m' : Ledger} {other : String}, Textual placement.output →
        k.Resolved → (s.placedAt placement).Finds other k file m' →
        (s.placedAt placement).leadsTo ((s.placedAt placement).answerTo k other) =
          s.leadsTo (s.answerTo l specifier)) ∧
      (IsBelow file.clean s.packageStart.clean →
        (∃ v, s.answerTo l specifier = .ok v ∧
          ∃ xs : List Name, file = rooted (s.packageStart.clean.names ++ xs) ∧
            s.leadsTo (.ok v) = .ok (rooted (s.project.packageOutput.names ++ xs))) ∧
        ∀ {k m' : Ledger} {other : String} {file' : Path}, k.Resolved →
          s.Finds other k file' m' → IsBelow file'.clean s.packageStart.clean →
          (s.answerTo l specifier = s.answerTo k other ↔ file = file')) := by
  refine ⟨leadsTo_wayToRuntime hp ho, fun {l m specifier file} hl h ↦ ?_⟩
  have hleads : s.leadsTo (s.answerTo l specifier) = s.copyOf file := by
    rw [h.answerTo_eq, leadsTo_wayToPackage hp ho hn (h.anchored hl)]
  refine ⟨hleads, fun {placement k m' other} ho' hk h' ↦ ?_, fun hbelow ↦
    ⟨?_, fun hk h' hbelow' ↦ answerTo_eq_iff hn hp ho hl hk h h' hbelow hbelow'⟩⟩
  · -- the place of a copy does not depend on where a file is written
    have hcopy : (s.placedAt placement).copyOf file = s.copyOf file := rfl
    rw [hleads, h'.answerTo_eq,
      leadsTo_wayToPackage (s := s.placedAt placement) hp ho' hn (h'.anchored hk), hcopy]
  · obtain ⟨xs, hxs, -, hcopy⟩ := copyOf_of_isBelow hp (h.anchored hl) hbelow
    rw [hcopy] at hleads
    cases hanswer : s.answerTo l specifier with
    | error e =>
      rw [hanswer] at hleads
      cases hleads
    | ok v =>
      rw [hanswer] at hleads
      exact ⟨v, rfl, xs, (h.clean_eq hl hbelow).symm.trans hxs, hleads⟩

/-- The ways of two files of the project, written at different depths. -/
theorem ways_lead_to_copies_of_own :
    ∃ (deep : Placement) (file : Path),
      hoisting.Finds "own" .empty file (Ledger.empty.remember "own" file) ∧
      IsBelow file.clean hoisting.packageStart.clean ∧
      hoisting.leadsTo hoisting.wayToRuntime = .ok (.ofString "/p/out/npm/jsx2mp-runtime") ∧
      hoisting.answerTo .empty "own" = .ok "./npm/own/index.js" ∧
      (hoisting.placedAt deep).answerTo .empty "own" = .ok "../../npm/own/index.js" ∧
      (hoisting.placedAt deep).leadsTo (.ok "../../npm/own/index.js") =
        hoisting.leadsTo (.ok "./npm/own/index.js") := by
  have hresolved : hoisting.resolver.resolvePackage hoisting.tree "own"
      hoisting.project.searchPaths = .ok (.ofString "/p/node_modules/own/index.js") :=
    eq_ok_of_toOption (by decide +kernel)
  have hfinds : hoisting.Finds "own" .empty (.ofString "/p/node_modules/own/index.js") _ :=
    .found rfl hresolved
  have htext : IsText hoisting.project.output.val.bytes := Path.isText_ofString "/p/out"
  obtain ⟨hruntime, hways⟩ := ways_lead_to_copies hoisting rfl htext
    ⟨by decide, Path.isText_ofString "/p/out/a.js"⟩
  obtain ⟨-, hsame, -⟩ := hways Ledger.resolved_empty hfinds
  have hanswer : hoisting.answerTo .empty "own" = .ok "./npm/own/index.js" :=
    eq_ok_of_toOption (by decide +kernel)
  have hdeep : (hoisting.placedAt ⟨.ofString "/p/b/c/d.js",
      .ofString "/p/out/b/c/d.js"⟩).answerTo .empty "own" = .ok "../../npm/own/index.js" :=
    eq_ok_of_toOption (by decide +kernel)
  refine ⟨⟨.ofString "/p/b/c/d.js", .ofString "/p/out/b/c/d.js"⟩, _, hfinds,
    ⟨by decide +kernel, by decide +kernel⟩, hruntime.trans (congrArg _ (by decide +kernel)),
    hanswer, hdeep, ?_⟩
  rw [← hanswer, ← hdeep]
  exact hsame ⟨by decide, Path.isText_ofString "/p/out/b/c/d.js"⟩ Ledger.resolved_empty
    (.found rfl hresolved)

end Situation

end Relocation

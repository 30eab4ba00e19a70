import Relocation.Address
import Relocation.Proofs.Resolver.Directory
import Relocation.Proofs.Resolver.Found

/-!
# Ways in a situation

What the ways to local files and to packages are made of, and between which paths they are
measured.
-/

namespace Relocation

open Relocation.Path (Anchored Plain markRelative names reach rooted wayBetween)
open Resolver (Textual)

namespace Situation

variable {s : Situation}

/-- The way to a path is the relative one, marked as such. -/
theorem way_eq_ok_iff {p q : Path} {v : String} :
    way p q = .ok v ↔ ∃ w, Path.relative p q = .ok w ∧ v = markRelative w := by
  unfold way
  rw [mapError_eq_ok_iff]
  cases Path.relative p q <;> simp [Except.map, eq_comm]

/-- The way to a local file is measured from the file's own directory. -/
theorem wayToLocal_eq_ok_iff {specifier v : String} :
    s.wayToLocal specifier = .ok v ↔
      ∃ file, s.resolver.resolvePath s.tree s.placement.resourceDirectory specifier = .ok file ∧
        ∃ w, Path.relative (s.base s.placement.resourceDirectory) file = .ok w ∧
          v = markRelative w := by
  unfold wayToLocal
  simp only [bind_eq_ok_iff, mapError_eq_ok_iff, way_eq_ok_iff]

/-- The way to a package is measured to where its copy stands. -/
theorem wayToPackage_eq_ok_iff {file : Path} {v : String} :
    s.wayToPackage file = .ok v ↔
      ∃ inside, Path.relative (s.base s.project.packageRoot) file = .ok inside ∧
        ∃ copy, s.project.packageOutput.resolve (.ofString inside) = .ok copy ∧
          ∃ w, Path.relative s.placement.outputDirectory copy = .ok w ∧
            v = s.project.normalize (markRelative w) := by
  unfold wayToPackage
  simp only [bind_eq_ok_iff, mapError_eq_ok_iff, way_eq_ok_iff]
  constructor
  · rintro ⟨inside, hi, copy, hc, v, ⟨w, hw, rfl⟩, hv⟩
    exact ⟨inside, hi, copy, hc, w, hw, (Except.ok.inj hv).symm⟩
  · rintro ⟨inside, hi, copy, hc, w, hw, rfl⟩
    exact ⟨inside, hi, copy, hc, _, ⟨w, hw, rfl⟩, rfl⟩

/-- Ways can be measured from a directory's base. -/
theorem anchored_base (s : Situation) {p : Path} (h : p.isAbsolute) : Anchored (s.base p) := by
  unfold base
  split
  · exact .inl h
  · exact s.tree.anchored_canonicalizeExisting h

end Situation

namespace Resolver

variable {r : Resolver} {t : FileTree}

/-- A specifier leads somewhere from every absolute base that is text. -/
theorem Textual.exists_resolve {base : Path} (h : Textual base) (specifier : String) :
    ∃ target, base.resolve (.ofString specifier) = .ok target ∧ Textual target :=
  ⟨_, if_pos h.isAbsolute, (h.join_ofString specifier).clean⟩

/-- Ways can be measured to the file that a specifier names. -/
theorem Textual.anchored_of_resolvePath {base file : Path} {specifier : String} (h : Textual base)
    (hr : r.resolvePath t base specifier = .ok file) : Anchored file := by
  obtain ⟨target, htarget, ht⟩ := h.exists_resolve specifier
  obtain ⟨found, hfound, hs⟩ := (resolvePath_eq_ok_iff htarget).mp hr
  exact anchored_of_settle ((closed_textual _).lookup ht hfound).isAbsolute hs

/-- Where links are kept or there are none, the file that a specifier names is text. -/
theorem Textual.of_resolvePath {base file : Path} {specifier : String} (h : Textual base)
    (hl : r.preserveLinks ∨ t.Linkless) (hr : r.resolvePath t base specifier = .ok file) :
    Textual file := by
  obtain ⟨target, htarget, ht⟩ := h.exists_resolve specifier
  obtain ⟨found, hfound, hs⟩ := (resolvePath_eq_ok_iff htarget).mp hr
  have hf := (closed_textual _).lookup ht hfound
  rw [settle_eq_ok_iff] at hs
  split at hs
  · exact hs ▸ hf.clean
  · next hp =>
    rw [FileTree.canonicalize_of_linkless (hl.resolve_left hp) hs]
    exact textual_rooted (Path.isText_of_mem_names hf.isText)

end Resolver

end Relocation

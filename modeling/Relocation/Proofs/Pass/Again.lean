import Relocation.Proofs.Address.Repeated
import Relocation.Proofs.Decision.Guard
import Relocation.Proofs.Pass.Rest
import Relocation.Proofs.Syntax.Exchange

/-!
# Relocating a relocated file

What a pass leaves of a file is left as it is by a second pass in the same situation, and nothing
is noted again. A local way is its own relocation, what was written for packages and the framework
is known as the argument of `require`, and the names that are left to the platform stand for
themselves.
-/

namespace Relocation

open Relocation.Path (markRelative rooted)
open Pass (Settled Settles)
open Resolver (Textual)
open Text.Utf8 (IsText encode)

namespace Situation

variable {s : Situation} {site : Site} {specifier v : String} {m : Ledger}

/-! ### Decisions on what was decided -/

/-- What a specifier may be for its relocation to be left as it is. Where packages are copied, only
arguments of `require` may name them or the framework, and what is done to their ways leaves these
local. Where packages are left to the platform, the runtime is one of them. -/
inductive Repeats (s : Situation) (site : Site) (specifier : String) : Prop where
  | copies (copies : s.project.keepsPackages = false)
      (changed : ∀ way, s.classOf (s.project.normalize (markRelative way)) = .path)
      (declared : site = .declaration →
        s.classOf specifier = .path ∨ s.classOf specifier = .excluded)
  | keeps (keeps : s.project.keepsPackages = true)
      (own : s.classOf s.project.ownBuild ≠ .path ∧ s.classOf s.project.ownBuild ≠ .excluded)

private theorem exists_of_map_replace {x : Except Error String} {action : Action}
    (h : x.map .replace = .ok action) : ∃ v, x = .ok v ∧ action = .replace v := by
  cases x with
  | error e => cases h
  | ok v => exact ⟨v, rfl, (Except.ok.inj h).symm⟩

/-- A local argument of `require` that was written is kept. -/
theorem settled_of_contains (hc : s.classOf v = .path) (hm : m.contains v) :
    Settled s.action m .require specifier (.replace v) :=
  .inl (Comes.known hc hm).run_eq

/-- A local way that is its own relocation is kept or written again. -/
theorem settled_of_wayToLocal (hc : s.classOf v = .path) (hv : s.wayToLocal v = .ok v)
    (site : Site) : Settled s.action m site specifier (.replace v) := by
  have hlocated (hu : site = .require → m.contains v = false) :
      (s.action site v).run m = (.ok (.replace v), m) := by
    rw [(Comes.located site hc hu).run_eq, hv]
    rfl
  cases site with
  | declaration => exact .inr (hlocated fun hs ↦ by cases hs)
  | require =>
    cases hm : m.contains v with
    | true => exact settled_of_contains hc hm
    | false => exact .inr (hlocated fun _ ↦ hm)

/-- A name of the framework that stands for itself is kept or written again. -/
theorem settled_of_keeps (hk : s.project.keepsPackages = true)
    (hc : s.classOf v ≠ .path ∧ s.classOf v ≠ .excluded)
    (hown : s.classOf v = .runtime → v = s.project.ownBuild) (hm : m.contains v) (site : Site) :
    Settled s.action m site specifier (.replace v) := by
  have hway : s.wayToFramework v = .ok v := by
    rw [wayToFramework, if_pos hk]
    split
    · next hr => rw [← hown hr]
    · rfl
  have hdirected (hf : s.classOf v = .runtime ∨ s.classOf v = .internal) :
      (s.action site v).run m = (.ok (.replace v), m) := by
    rw [(Comes.directed site hf).run_eq, hway, Ledger.noting, Ledger.mark_of_contains hm]
    rfl
  cases hclass : s.classOf v with
  | path => exact absurd hclass hc.1
  | excluded => exact absurd hclass hc.2
  | package => exact .inl (Comes.kept site hclass hk).run_eq
  | runtime => exact .inr (hdirected (.inl hclass))
  | internal => exact .inr (hdirected (.inr hclass))

/-- Where the framework was directed to is kept or written again. -/
theorem settled_of_wayToFramework (hasked : s.Repeats site specifier)
    (hc : s.classOf specifier = .runtime ∨ s.classOf specifier = .internal)
    (hv : s.wayToFramework specifier = .ok v) (hm : m.contains v) :
    Settled s.action m site specifier (.replace v) := by
  rw [wayToFramework] at hv
  cases hasked with
  | copies copies _ declared =>
    rw [copies, if_neg Bool.false_ne_true] at hv
    cases site with
    | declaration => rcases declared rfl with hd | hd <;> simp [hd] at hc
    | require => exact settled_of_contains (classOf_of_wayToRuntime hv) hm
  | keeps keeps own =>
    rw [keeps, if_pos rfl, Except.ok.injEq] at hv
    split at hv
    · subst hv
      exact settled_of_keeps keeps own (fun _ ↦ rfl) hm site
    · next hr =>
      subst hv
      have hinternal := hc.resolve_left hr
      exact settled_of_keeps keeps (by simp [hinternal]) (fun h ↦ absurd h hr) hm site

/-- The way to a package's copy is kept. -/
theorem settled_of_wayToPackage (hasked : s.Repeats site specifier)
    (hc : s.classOf specifier = .package) (hcopies : s.project.keepsPackages = false) {file : Path}
    (hv : s.wayToPackage file = .ok v) (hm : m.contains v) :
    Settled s.action m site specifier (.replace v) := by
  obtain ⟨-, -, -, -, way, -, rfl⟩ := wayToPackage_eq_ok_iff.mp hv
  cases hasked with
  | keeps keeps => cases hcopies.symm.trans keeps
  | copies _ changed declared =>
    cases site with
    | declaration => rcases declared rfl with hd | hd <;> cases hd.symm.trans hc
    | require => exact settled_of_contains (changed way) hm

/-- What is decided about such specifiers is settled, if local ways are their own relocations. -/
theorem settles_action (s : Situation) (m : Ledger)
    (hlocal : ∀ {specifier v}, s.wayToLocal specifier = .ok v → s.wayToLocal v = .ok v) :
    Settles s.action m s.Repeats := by
  intro site specifier l action l' hasked run hm
  generalize hanswer : Except.ok action = answer at run
  cases comes_of_run run with
  | dropped | nulled =>
    cases hanswer
    trivial
  | missing => cases hanswer
  | kept _ class_eq keeps =>
    cases hanswer
    exact (Comes.kept site class_eq keeps).run_eq
  | known class_eq written =>
    cases hanswer
    exact (Comes.known class_eq (hm _ written)).run_eq
  | located =>
    obtain ⟨v, hv, rfl⟩ := exists_of_map_replace hanswer.symm
    obtain ⟨-, -, way, -, hway⟩ := wayToLocal_eq_ok_iff.mp hv
    have hclass : s.classOf v = .path := hway ▸ Specifier.classify_markRelative _ way
    exact settled_of_wayToLocal hclass (hlocal hv) site
  | directed _ class_eq =>
    obtain ⟨v, hv, rfl⟩ := exists_of_map_replace hanswer.symm
    have hwritten : m.contains v := hm v ((Ledger.contains_noting l _ v).mpr (.inl hv))
    exact settled_of_wayToFramework hasked class_eq hv hwritten
  | copied _ class_eq copies =>
    obtain ⟨v, hv, rfl⟩ := exists_of_map_replace hanswer.symm
    have hwritten : m.contains v := hm v ((Ledger.contains_noting _ _ v).mpr (.inl hv))
    exact settled_of_wayToPackage hasked class_eq copies hv hwritten

end Situation

namespace Pass

open Json (Document)
open Syntax (Dialect LawfulDialect)
open Syntax.Exchange (callsApart_read)

variable {κ : Type} [Dialect κ]

/-- Where packages are copied, only the sources of declarations have to be looked at. -/
theorem asks_of_copies {s : Situation} {t : Syntax.Tree κ}
    (copies : s.project.keepsPackages = false)
    (changed : ∀ way, s.classOf (s.project.normalize (markRelative way)) = .path)
    (declared : ∀ a source, IsSite false t a (.declaration source) →
      s.classOf source = .path ∨ s.classOf source = .excluded) :
    Asks s.Repeats (sites false t) := by
  rintro ⟨a, reference⟩ hr site specifier hq
  refine .copies copies changed fun hsite ↦ declared a specifier (mem_sites_iff.mp ?_)
  match reference, hq with
  | .declaration source, hq =>
    cases hq
    exact hr
  | .call _ (.specifier _), hq =>
    cases hq
    cases hsite

/-- A second pass over what a pass without an error has left changes nothing, reports nothing and
notes nothing. This is so in a directory that is its own canonical path, and where links are kept
in one that does not lie below a file by its name; no extension may hold a slash. Where packages are
copied, declarations may only name local files and excluded packages, and what is done to the ways
to copies leaves them local. Where packages are left to the platform, the runtime may neither be
local nor excluded. -/
theorem relocate_again [LawfulDialect κ] {s : Situation} {t : Syntax.Tree κ} {out : Outcome κ}
    {l l' : Ledger} (hcalls : CallsApart t)
    (habsolute : s.placement.resource.isAbsolute) (htext : IsText s.placement.resource.bytes)
    (hextensions : ∀ e ∈ s.resolver.extensions, '/' ∉ e.toList)
    (hdirectory : (s.tree.isDirectory s.placement.resourceDirectory ∧
        ∃ c, s.tree.canonicalize s.placement.resourceDirectory = .ok c ∧
          s.placement.resourceDirectory.same c) ∨
      (s.resolver.preserveLinks = true ∧
        ∀ p ∈ s.placement.resourceDirectory.clean.ancestors, s.tree.isFile p = false))
    (hmode : (s.project.keepsPackages = false ∧
        (∀ way, s.classOf (s.project.normalize (markRelative way)) = .path) ∧
        ∀ a source, IsSite false t a (.declaration source) →
          s.classOf source = .path ∨ s.classOf source = .excluded) ∨
      (s.project.keepsPackages = true ∧ s.classOf s.project.ownBuild ≠ .path ∧
        s.classOf s.project.ownBuild ≠ .excluded))
    (h : (relocate s.action t).run l = (out, l')) (hf : out.findings.failure = none) :
    (relocate s.action out.tree).run l' = (⟨out.tree, {}⟩, l') := by
  have hd : Textual s.placement.resourceDirectory := Textual.parentDirectory ⟨habsolute, htext⟩
  have hgrounded : s.Grounded := by
    rcases hdirectory with ⟨hdir, c, hcanonical, hsame⟩ | ⟨hlinks, hfile⟩
    · exact Situation.grounded_of_canonical hd hdir hcanonical hsame
    · exact Situation.grounded_of_preserveLinks hlinks hd hfile
  have hasks : Asks s.Repeats (sites false t) := by
    rcases hmode with ⟨copies, changed, declared⟩ | ⟨keeps, own⟩
    · exact asks_of_copies copies changed declared
    · exact fun _ _ _ _ _ ↦ .keeps keeps own
  have hv : Leads (visit s.action t) {} l out.tree out.findings l' := by
    rw [relocate, Ledger.Program.run_bind] at h
    obtain ⟨rfl, rfl⟩ := Prod.mk.inj h
    rfl
  have hsettles := s.settles_action l' fun hway ↦ hgrounded.wayToLocal_way hextensions hway
  have hrests := rests_visit hsettles hv hf hcalls hasks (.refl l')
  have hagain : Leads (visit s.action out.tree) {} l' out.tree {} l' := hrests {} rfl
  rw [relocate, Ledger.Program.run_bind, hagain]
  rfl

/-- A file with an import and a `require` call, in JSON form. -/
def importAndCall (source specifier : String) : Document :=
  .object [("type", .string "Module"), ("body", .array [
    .object [("type", .string "ImportDeclaration"), ("source", .object
      [("type", .string "StringLiteral"), ("value", .string source)])],
    .object [("type", .string "ExpressionStatement"), ("expression", .object
      [("type", .string "CallExpression"),
        ("callee", .object [("type", .string "Identifier"), ("value", .string "require")]),
        ("arguments", .array [.object [("spread", .null), ("expression", .object
          [("type", .string "StringLiteral"), ("value", .string specifier)])]])])]])]

/-- A project that leaves packages to the platform, with a file beside another. -/
def leaving : Situation :=
  { Situation.installed with
    project := { Situation.installed.project with keepsPackages := true }
    tree := ⟨[(encode "p", .directory [(encode "a.js", .file []), (encode "b.js", .file [])])]⟩ }

/-- A file that names the framework and a file beside it is relocated to itself the second time. -/
theorem relocate_again_of_leaving :
    ∃ out l', (relocate leaving.action (Syntax.Exchange.read .elsewhere
        (importAndCall "rax" "./b"))).run .empty = (out, l') ∧ l'.size = 1 ∧
      (relocate leaving.action out.tree).run l' = (⟨out.tree, {}⟩, l') := by
  have h := (Prod.eta ((relocate leaving.action (Syntax.Exchange.read .elsewhere
    (importAndCall "rax" "./b"))).run .empty)).symm
  have hdirectory : leaving.tree.canonicalize leaving.placement.resourceDirectory =
      .ok (.ofString "/p") := eq_ok_of_toOption (by decide +kernel)
  refine ⟨_, _, h, by decide +kernel, ?_⟩
  exact relocate_again (callsApart_read ..) (by decide) (Path.isText_ofString "/p/a.js")
    (by decide) (.inl ⟨by decide +kernel, _, hdirectory, by decide +kernel⟩)
    (.inr ⟨rfl, by decide +kernel, by decide +kernel⟩) h
    (Option.isNone_iff_eq_none.mp (by decide +kernel))

/-- The place of a file in a directory that is reached through a link and whose clean form lies
below a file. -/
def belowFile : Situation where
  project := leaving.project
  resolver := { preserveLinks := true }
  tree :=
    ⟨[(encode "p", .directory
        [(encode "f.js", .file []), (encode "link", .link (.ofString "/q/r"))]),
      (encode "q", .directory
        [(encode "r", .directory []),
          (encode "f.js", .directory [(encode "sub", .directory [])])])]⟩
  placement := ⟨.ofString "/p/link/../f.js/sub/x.js", .ofString "/p/out/x.js"⟩

/-- The way to a file above the directory is written as one to a directory, and a second pass does
not find it. -/
theorem relocate_again_not_belowFile :
    (belowFile.resolver.preserveLinks = true ∧
      belowFile.tree.isDirectory belowFile.placement.resourceDirectory ∧
      belowFile.tree.isFile belowFile.placement.resourceDirectory.clean = false ∧
      (∀ e ∈ belowFile.resolver.extensions, '/' ∉ e.toList) ∧
      belowFile.project.keepsPackages = true ∧
      belowFile.classOf belowFile.project.ownBuild = .internal) ∧
    ∃ out l', (relocate belowFile.action (Syntax.Exchange.read .elsewhere
        (importAndCall "rax" "../../f.js"))).run .empty = (out, l') ∧
      out.findings.failure = none ∧
      ((relocate belowFile.action out.tree).run l').1.findings.failure.isSome := by
  refine ⟨⟨rfl, by decide +kernel, by decide +kernel, by decide, rfl, by decide +kernel⟩, ?_⟩
  refine ⟨_, _, (Prod.eta _).symm, Option.isNone_iff_eq_none.mp ?_, ?_⟩
  · decide +kernel
  · decide +kernel

end Pass

end Relocation

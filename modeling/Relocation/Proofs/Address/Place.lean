import Relocation.Project.Settings
import Relocation.Proofs.Address.Output

/-!
# Places in the output

Nothing checks where a file is placed: the way from the source directory to the file is read from
the output directory, wherever it leads. A file of the source directory is placed in the output
directory, and by itself. The way to any other file climbs out of the output directory, as far as
there is something to climb, and its place is where it comes down.
-/

namespace Relocation

open Relocation.Path (GoesOn IsBelow Plain climb descent dot reach rooted slash wayBetween)
open Resolver (Textual)
open Text.Utf8 (IsText encode)

namespace Path

/-! ### Ways that are read from another directory -/

/-- Of two ways from the same start, the second climbs further and, read from another directory,
comes down again by the names that it has left since, and from there as the first one does. -/
structure Rejoins (os ss fs gs : List Name) : Prop where
  further : climb ss fs < climb ss gs
  down : descent ss gs =
    (os.take (os.length - climb ss fs)).drop (os.length - climb ss gs) ++ descent ss fs

section

variable {os ss fs gs : List Name}

/-- Ways from the same start that climb as far and come down by the same names lead to the same
target. -/
theorem eq_of_climb_of_descent (hclimb : climb ss fs = climb ss gs)
    (hdown : descent ss fs = descent ss gs) : fs = gs := by
  rw [← take_append_descent_of_climb ss fs, hclimb, hdown, take_append_descent_of_climb]

private theorem rejoins_iff (h : climb ss fs < climb ss gs) :
    os.take (os.length - climb ss fs) ++ descent ss fs =
      os.take (os.length - climb ss gs) ++ descent ss gs ↔ Rejoins os ss fs gs := by
  have htake : (os.take (os.length - climb ss fs)).take (os.length - climb ss gs) =
      os.take (os.length - climb ss gs) := by
    rw [List.take_take, Nat.min_eq_left (by omega)]
  have hsplit : os.take (os.length - climb ss gs) ++
      (os.take (os.length - climb ss fs)).drop (os.length - climb ss gs) =
        os.take (os.length - climb ss fs) := by
    rw [← htake, List.take_append_drop]
  rw [← hsplit, List.append_assoc, List.append_cancel_left_eq]
  exact ⟨fun hdown ↦ ⟨h, hdown.symm⟩, fun hr ↦ hr.down.symm⟩

/-- Two ways from the same start lead from another directory to the same place only if they lead
to the same target or one of them climbs further and comes back. -/
theorem reach_wayBetween_eq_iff (ho : ∀ n ∈ os, Plain n) (hf : ∀ n ∈ fs, Plain n)
    (hg : ∀ n ∈ gs, Plain n) :
    reach os (wayBetween ss fs) = reach os (wayBetween ss gs) ↔
      fs = gs ∨ Rejoins os ss fs gs ∨ Rejoins os ss gs fs := by
  rw [reach_wayBetween ho hf, reach_wayBetween ho hg]
  rcases Nat.lt_trichotomy (climb ss fs) (climb ss gs) with h | h | h
  · rw [rejoins_iff h]
    constructor
    · exact fun hr ↦ .inr (.inl hr)
    · rintro (rfl | hr | hr)
      · exact absurd h (Nat.lt_irrefl _)
      · exact hr
      · exact absurd hr.further (Nat.lt_asymm h)
  · rw [h, List.append_cancel_left_eq]
    constructor
    · exact fun hdown ↦ .inl (eq_of_climb_of_descent h hdown)
    · rintro (rfl | hr | hr)
      · rfl
      · exact absurd hr.further (by omega)
      · exact absurd hr.further (by omega)
  · rw [eq_comm, rejoins_iff h]
    constructor
    · exact fun hr ↦ .inr (.inr hr)
    · rintro (rfl | hr | hr)
      · exact absurd h (Nat.lt_irrefl _)
      · exact absurd hr.further (Nat.lt_asymm h)
      · exact hr

/-- A way that climbs nowhere is rejoined by none of its kind. -/
theorem not_rejoins_of_prefix (hg : ss <+: gs) : ¬Rejoins os ss fs gs := by
  obtain ⟨xs, rfl⟩ := hg
  intro hr
  have h := hr.further
  rw [climb_append_right] at h
  exact absurd h (Nat.not_lt_zero _)

/-- Where the target lies within the start, nothing is left. -/
theorem drop_climb_of_prefix (hf : ss <+: fs) : os.drop (os.length - climb ss fs) = [] := by
  obtain ⟨xs, rfl⟩ := hf
  rw [climb_append_right, Nat.sub_zero, List.drop_length]

end

/-! ### Paths within others -/

/-- A path is another or lies below it, whatever they are spelled like. -/
def IsWithin (q p : Path) : Prop := p.clean.components <+: q.clean.components

instance (q p : Path) : Decidable (IsWithin q p) := inferInstanceAs (Decidable (_ <+: _))

private theorem isWithin_iff {q p : Path} (hq : Textual q) (hp : Textual p) :
    IsWithin q p ↔ p.names <+: q.names := by
  have hinj : Function.Injective Component.name := fun _ _ h ↦ Component.name.inj h
  rw [IsWithin, clean_of_isAbsolute hq.isAbsolute hq.isText,
    clean_of_isAbsolute hp.isAbsolute hp.isText, components_rooted plain_of_mem_names,
    components_rooted plain_of_mem_names, List.cons_prefix_cons,
    List.prefix_map_iff_of_injective hinj, and_iff_right rfl]

private theorem clean_eq_clean_iff {q p : Path} (hq : Textual q) (hp : Textual p) :
    q.clean = p.clean ↔ q.names = p.names := by
  rw [clean_of_isAbsolute hq.isAbsolute hq.isText, clean_of_isAbsolute hp.isAbsolute hp.isText,
    rooted_inj plain_of_mem_names plain_of_mem_names]

end Path

namespace Project

variable {project : Project} {source : AbsolutePath} {file other : Path}

/-- The names of the place of a file. -/
def placedNames (project : Project) (source : AbsolutePath) (file : Path) : List Name :=
  reach project.output.val.names (wayBetween source.val.names file.names)

/-- The names of the output directory that are left by the way to a file. -/
def namesLeft (project : Project) (source : AbsolutePath) (file : Path) : List Name :=
  project.output.val.names.drop
    (project.output.val.names.length - climb source.val.names file.names)

private theorem plain_of_mem_placedNames : ∀ n ∈ project.placedNames source file, Plain n :=
  Path.plain_of_mem_reach Path.plain_of_mem_names fun n hn ↦
    (Path.solid_of_mem_wayBetween _ Path.plain_of_mem_names n hn).2

private theorem textual_rooted_placedNames (ho : IsText project.output.val.bytes)
    (hfile : Textual file) : Textual (rooted (project.placedNames source file)) := by
  refine Resolver.textual_rooted (Path.isText_of_mem_reach ?_ ?_)
  · exact fun n hn ↦ ⟨Path.plain_of_mem_names n hn, Path.isText_of_mem_names ho n hn⟩
  · exact Path.forall_mem_wayBetween ⟨"..", rfl⟩ (Path.isText_of_mem_names hfile.isText)

/-- A file within the source directory is placed by the names that it has there. -/
theorem placedNames_of_append {xs : List Name} (h : source.val.names ++ xs = file.names) :
    project.placedNames source file = project.output.val.names ++ xs := by
  have hplain : ∀ x ∈ xs, Plain x := fun x hx ↦
    Path.plain_of_mem_names x (h ▸ List.mem_append_right _ hx)
  rw [placedNames, ← h, Path.wayBetween_append_right, Path.reach_of_plain hplain]

/-- Where the source and the output directory are text, every file has a place. It is in the output
directory exactly if the way to the file comes down again by the names that it has left. Two files
have the same place only if they are the same or the way to one of them climbs further and comes
back to where the other one is placed. Neither happens to the files of the source directory, and
none of them is placed at the output directory itself. -/
theorem place_within_and_apart_iff (hsource : project.source = some source)
    (hs : IsText source.val.bytes) (ho : IsText project.output.val.bytes) (hfile : Textual file)
    (hother : Textual other) :
    ∃ p q : Placement, project.place file = .ok p ∧ project.place other = .ok q ∧
      (Path.IsWithin p.output project.output.val ↔
        project.namesLeft source file <+: descent source.val.names file.names) ∧
      (p.output = q.output ↔
        file.clean = other.clean ∨
          Path.Rejoins project.output.val.names source.val.names file.names other.names ∨
          Path.Rejoins project.output.val.names source.val.names other.names file.names) ∧
      (Path.IsWithin file source.val →
        Path.IsWithin p.output project.output.val ∧
          (p.output = project.output.val.clean ↔ file.clean = source.val.clean) ∧
          (Path.IsWithin other source.val → file.clean ≠ other.clean → p.output ≠ q.output)) := by
  have hst : Textual source.val := ⟨source.property, hs⟩
  have hot : Textual project.output.val := ⟨project.output.property, ho⟩
  have hwithin : Path.IsWithin (rooted (project.placedNames source file)) project.output.val ↔
      project.namesLeft source file <+: descent source.val.names file.names := by
    rw [Path.isWithin_iff (textual_rooted_placedNames ho hfile) hot,
      Path.names_rooted plain_of_mem_placedNames]
    exact Path.prefix_reach_wayBetween_iff Path.plain_of_mem_names Path.plain_of_mem_names
  have hsame : rooted (project.placedNames source file) =
      rooted (project.placedNames source other) ↔
        file.clean = other.clean ∨
          Path.Rejoins project.output.val.names source.val.names file.names other.names ∨
          Path.Rejoins project.output.val.names source.val.names other.names file.names := by
    rw [Path.rooted_inj plain_of_mem_placedNames plain_of_mem_placedNames,
      Path.clean_eq_clean_iff hfile hother]
    exact Path.reach_wayBetween_eq_iff Path.plain_of_mem_names Path.plain_of_mem_names
      Path.plain_of_mem_names
  refine ⟨_, _, place_of_textual hsource hst hot hfile, place_of_textual hsource hst hot hother,
    hwithin, hsame, fun hf ↦ ⟨?_, ?_, ?_⟩⟩
  all_goals rw [Path.isWithin_iff hfile hst] at hf
  · apply hwithin.mpr
    rw [namesLeft, Path.drop_climb_of_prefix hf]
    exact List.nil_prefix
  · obtain ⟨xs, hxs⟩ := hf
    show rooted (project.placedNames source file) = _ ↔ _
    rw [Path.clean_of_isAbsolute hot.isAbsolute ho, Path.clean_eq_clean_iff hfile hst,
      Path.rooted_inj plain_of_mem_placedNames Path.plain_of_mem_names,
      placedNames_of_append hxs, ← hxs, List.append_right_eq_self, List.append_right_eq_self]
  · intro hg hne hp
    rw [Path.isWithin_iff hother hst] at hg
    rcases hsame.mp hp with h | h | h
    · exact hne h
    · exact Path.not_rejoins_of_prefix hg h
    · exact Path.not_rejoins_of_prefix hf h

/-- Settings of a project whose output goes to a directory beside that of the sources. -/
def settingsBeside : Settings where
  dependencyRoots := []
  root := "/p"
  output := "/p/dist"
  source := some "/p/src"
  platform := .wechat
  keepsPackages := false
  runtimePackage := none
  internalPackage := none

/-- A project whose output goes from one directory to another. -/
def mirroring (source output : AbsolutePath) : Project where
  dependencyRoots := []
  root := ⟨.ofString "/p", .refl true⟩
  output
  source := some source
  platform := .wechat

/-- The directory of the sources. -/
def sources : AbsolutePath := ⟨.ofString "/p/src", .refl true⟩

/-- A directory beside that of the sources. -/
def beside : AbsolutePath := ⟨.ofString "/p/dist", .refl true⟩

/-- A directory whose name is no text. -/
def unreadable : AbsolutePath := ⟨⟨[slash, 255]⟩, .refl true⟩

/-- A file of the source directory is placed in the output directory, where the file that stands
there already is placed as well. -/
theorem place_within_and_apart_iff_beside :
    ∃ p q : Placement, (mirroring sources beside).place (.ofString "/p/src/a.js") = .ok p ∧
      (mirroring sources beside).place (.ofString "/p/dist/./a.js") = .ok q ∧
      Path.IsWithin p.output beside.val ∧ p.output ≠ beside.val.clean ∧ p.output = q.output := by
  have hwithin : Path.IsWithin (.ofString "/p/src/a.js") sources.val :=
    ⟨[.name (encode "a.js")], by decide +kernel⟩
  obtain ⟨p, q, hp, hq, -, hsame, hinside⟩ := @place_within_and_apart_iff
    (mirroring sources beside) sources (.ofString "/p/src/a.js") (.ofString "/p/dist/./a.js") rfl
    (Path.isText_ofString _) (Path.isText_ofString _) ⟨by decide, Path.isText_ofString _⟩
    ⟨by decide, Path.isText_ofString _⟩
  obtain ⟨houtput, hself, -⟩ := hinside hwithin
  refine ⟨p, q, hp, hq, houtput, ?_, ?_⟩
  · exact fun h ↦ absurd (hself.mp h) (by decide +kernel)
  · exact hsame.mpr (.inr (.inl ⟨by decide +kernel, by decide +kernel⟩))

/-- A file beside the source directory is placed beside the output directory, and one in the output
directory is placed where a file of the source directory is. Where the output directory is no text
all files have one place, and where the source directory is none they are placed where they
stand. -/
theorem place_leaves_and_collides_beside :
    settingsBeside.toProject = .ok (mirroring sources beside) ∧
      (∃ p, (mirroring sources beside).place (.ofString "/p/x.js") = .ok p ∧
        ¬Path.IsWithin p.output beside.val) ∧
      (∃ p q, (mirroring sources beside).place (.ofString "/p/src/a.js") = .ok p ∧
        (mirroring sources beside).place (.ofString "/p/dist/a.js") = .ok q ∧
        p.resource.clean ≠ q.resource.clean ∧ p.output = q.output) ∧
      (∃ p q, (mirroring sources unreadable).place (.ofString "/p/src/a.js") = .ok p ∧
        (mirroring sources unreadable).place (.ofString "/p/src/b.js") = .ok q ∧
        p.resource.clean ≠ q.resource.clean ∧ p.output = q.output) ∧
      ∃ p, (mirroring unreadable beside).place (.ofString "/p/x.js") = .ok p ∧
        ¬Path.IsWithin p.output beside.val := by
  have hx : (mirroring sources beside).place (.ofString "/p/x.js") =
      .ok ⟨.ofString "/p/x.js", .ofString "/p/x.js"⟩ := eq_ok_of_toOption (by decide +kernel)
  have ha : (mirroring sources beside).place (.ofString "/p/src/a.js") =
      .ok ⟨.ofString "/p/src/a.js", .ofString "/p/dist/a.js"⟩ :=
    eq_ok_of_toOption (by decide +kernel)
  have hd : (mirroring sources beside).place (.ofString "/p/dist/a.js") =
      .ok ⟨.ofString "/p/dist/a.js", .ofString "/p/dist/a.js"⟩ :=
    eq_ok_of_toOption (by decide +kernel)
  have ha' : (mirroring sources unreadable).place (.ofString "/p/src/a.js") =
      .ok ⟨.ofString "/p/src/a.js", ⟨dot⟩⟩ := eq_ok_of_toOption (by decide +kernel)
  have hb' : (mirroring sources unreadable).place (.ofString "/p/src/b.js") =
      .ok ⟨.ofString "/p/src/b.js", ⟨dot⟩⟩ := eq_ok_of_toOption (by decide +kernel)
  have hx' : (mirroring unreadable beside).place (.ofString "/p/x.js") =
      .ok ⟨.ofString "/p/x.js", .ofString "/p/x.js"⟩ := eq_ok_of_toOption (by decide +kernel)
  have hout : ¬Path.IsWithin (.ofString "/p/x.js") beside.val := by decide +kernel
  exact ⟨rfl, ⟨_, hx, hout⟩, ⟨_, _, ha, hd, by decide +kernel, rfl⟩,
    ⟨_, _, ha', hb', by decide +kernel, rfl⟩, _, hx', hout⟩

end Project

end Relocation

import Relocation.Proofs.Address.Output
import Relocation.Proofs.Pass.Secured
import Relocation.Session

/-!
# Batches

The files of a batch take turns on the ledger of their session, each with one question or note at
a time. If each file can be relocated alone and none requires a local specifier that one of them
writes anew, the order of the turns makes no difference: each file comes to what it comes to alone,
and the ledger is left with all that they leave alone.
-/

namespace Relocation

open Ledger (Content Program)
open Syntax (Flavor Source)
open Text.Utf8 (encode)

namespace Session

variable {s : Session} {t : FileTree}

/-- What comes of a file if it is alone, and the ledger that it leaves. -/
def alone (s : Session) (t : FileTree) (f : Path × String) : Report × Ledger :=
  (s.relocateFile t f.1 f.2).run s.ledger

/-- The local specifier that a call with one argument requires. -/
def required? (s : Session) : Pass.Reference → Option String
  | .call _ (.specifier v) => if s.project.classifier.classify v = .path then some v else none
  | _ => none

/-- The local specifiers that a file requires. -/
def required (s : Session) (f : Path × String) : List String :=
  match Source.ofText? (Flavor.ofFileName f.1.display) (Source.withoutMark f.2) with
  | some source => (Pass.sites false source.tree).filterMap (s.required? ·.2)
  | none => []

/-- No file of a batch requires a local specifier that one of them writes and that was not
written before. -/
def Apart (s : Session) (t : FileTree) (files : List (Path × String)) : Prop :=
  ∀ f ∈ files, ∀ v ∈ s.required f, ∀ g ∈ files, (s.alone t g).2.contains v → s.ledger.contains v

instance (t : FileTree) (files : List (Path × String)) : Decidable (s.Apart t files) :=
  inferInstanceAs (Decidable (∀ f ∈ files, ∀ v ∈ s.required f, ∀ g ∈ files,
    (s.alone t g).2.contains v → s.ledger.contains v))

/-- What all files of a batch leave alone, taken together. -/
def together (s : Session) (t : FileTree) (files : List (Path × String)) : Content :=
  s.ledger.content ⊔ ⨆ f ∈ files, (s.alone t f).2.content

/-! ### One file -/

/-- What is reported of a file after a pass over its tree. -/
def reportOn (file : Path) (text : String) (source : Source)
    (outcome : Pass.Outcome Syntax.Kind) : Report where
  code := match outcome.findings.failure with
    | some e => .error e
    | none => .ok (Syntax.Layout.print outcome.tree source.comments)
  logs := logsOf ⟨file, some text⟩ outcome.findings

/-- The situation of a file of the session at its place. -/
abbrev situation (s : Session) (t : FileTree) (placement : Placement) : Situation :=
  ⟨s.project, s.resolver, t, placement⟩

/-- A file is read from its own path. -/
theorem resource_of_place {p : Project} {file : Path} {placement : Placement}
    (h : p.place file = .ok placement) : placement.resource = file := by
  cases hs : p.source with
  | some source =>
    obtain ⟨-, _, -, _, -, rfl⟩ := (Project.place_eq_ok_iff hs).mp h
    rfl
  | none =>
    obtain ⟨resource, -, h⟩ := bind_eq_ok_iff.mp h
    rw [hs] at h
    cases h

/-- A file requires what a call names that lies in no other reference. -/
theorem mem_required {f : Path × String} {source : Source} {a : Pass.Address}
    {span : Syntax.Span} {v : String}
    (hsource : Source.ofText? (Flavor.ofFileName f.1.display) (Source.withoutMark f.2) =
      some source)
    (hsite : Pass.IsSite false source.tree a (.call span (.specifier v)))
    (hclass : s.project.classifier.classify v = .path) : v ∈ s.required f := by
  unfold required
  rw [hsource]
  exact List.mem_filterMap.mpr ⟨_, Pass.mem_sites_iff.mpr hsite, if_pos hclass⟩

/-- A file that can be relocated alone is relocated by a pass over its tree. -/
theorem exists_pass {f : Path × String} {code : String} (h : (s.alone t f).1.code = .ok code) :
    ∃ placement source,
      Source.ofText? (Flavor.ofFileName f.1.display) (Source.withoutMark f.2) = some source ∧
      s.relocateFile t f.1 f.2 = Pass.relocate (s.situation t placement).action source.tree >>=
        fun outcome ↦ pure (reportOn f.1 (Source.withoutMark f.2) source outcome) := by
  obtain ⟨file, text⟩ := f
  change ((s.relocateFile t file text).run s.ledger).1.code = .ok code at h
  cases hplace : s.project.place file with
  | error e =>
    rw [relocateFile, hplace] at h
    cases h
  | ok placement =>
    have hfile : s.relocateFile t file text = s.relocateText t placement text := by
      rw [relocateFile, hplace]
    rw [hfile] at h ⊢
    have hresource := resource_of_place hplace
    subst hresource
    unfold relocateText at h ⊢
    dsimp only at h ⊢
    cases hsource : Source.ofText? (Flavor.ofFileName placement.resource.display)
        (Source.withoutMark text) with
    | none =>
      rw [hsource] at h
      cases h
    | some source =>
      refine ⟨placement, source, rfl, bind_congr fun outcome ↦ ?_⟩
      unfold reportOn
      cases outcome.findings.failure <;> rfl

/-- Such a pass meets no error. -/
theorem failure_eq_none {file : Path} {text code : String} {source : Source}
    {outcome : Pass.Outcome Syntax.Kind} (h : (reportOn file text source outcome).code = .ok code) :
    outcome.findings.failure = none := by
  cases hf : outcome.findings.failure with
  | none => rfl
  | some e =>
    simp only [reportOn, hf] at h
    cases h

/-- Alone, a file remembers the files of packages from before or finds them. -/
theorem exists_recallsFrom {f : Path × String} {code : String}
    (h : (s.alone t f).1.code = .ok code) :
    ∃ placement, (s.situation t placement).RecallsFrom s.ledger (s.alone t f).2 := by
  obtain ⟨placement, source, -, hpass⟩ := exists_pass h
  rw [alone, hpass, Program.run_bind] at h ⊢
  exact ⟨placement, Pass.recallsFrom_relocate (failure_eq_none h)⟩

/-- A file is secured against the others of its batch. -/
theorem secures_relocateFile {f : Path × String} {code : String} {top : Content}
    (hdef : Ledger.Definite top) (hfresh : ∀ v ∈ s.required f, v ∈ top.1 → s.ledger.contains v)
    (h : (s.alone t f).1.code = .ok code) (htop : (s.alone t f).2.content ≤ top) :
    Program.Secures top (s.alone t f).1 (s.alone t f).2.content s.ledger.content
      (s.relocateFile t f.1 f.2) := by
  obtain ⟨placement, source, hsource, hpass⟩ := exists_pass h
  rw [alone, hpass, Program.run_bind] at h htop ⊢
  refine (Pass.secures_relocate hdef (fun a span v hsite hclass hv ↦ ?_) (failure_eq_none h)
    htop).bind (.pure _ _)
  exact hfresh v (mem_required hsource hsite hclass) hv

/-! ### All files -/

/-- What files leave alone holds no two files for a package. -/
theorem definite_together {files : List (Path × String)}
    (h : ∀ f ∈ files, ∃ code, (s.alone t f).1.code = .ok code) :
    Ledger.Definite (s.together t files) := by
  let Found : Set (String × Path) := {x | s.ledger.target? x.1 = some x.2 ∨
    (s.ledger.target? x.1 = none ∧
      s.resolver.resolvePackage t x.1 s.project.searchPaths = .ok x.2)}
  have hfound : s.together t files ≤ (Set.univ, Found) := by
    refine sup_le ⟨Set.subset_univ _, fun x hx ↦ .inl hx⟩ (iSup₂_le fun f hf ↦ ?_)
    obtain ⟨code, hcode⟩ := h f hf
    obtain ⟨placement, hrecalls⟩ := exists_recallsFrom hcode
    exact ⟨Set.subset_univ _, fun x hx ↦ hrecalls.recalls x.1 x.2 hx⟩
  intro r f g hf hg
  rcases hfound.2 hf with hf | ⟨hnone, hf⟩ <;> rcases hfound.2 hg with hg | ⟨hnone', hg⟩
  · exact Option.some.inj (hf.symm.trans hg)
  · cases hnone'.symm.trans hf
  · cases hnone.symm.trans hg
  · exact Except.ok.inj (hf.symm.trans hg)

/-- Files write together what was written before and what each writes alone. -/
theorem mem_together_fst {files : List (Path × String)} {v : String} :
    v ∈ (s.together t files).1 ↔
      s.ledger.contains v ∨ ∃ f ∈ files, (s.alone t f).2.contains v := by
  simp [together, Ledger.content, Prod.fst_iSup]

/-- The batch returns all files if each has a text. -/
theorem exists_gather {reports : List (Path × Report)}
    (h : ∀ x ∈ reports, ∃ code, x.2.code = .ok code) :
    ∃ out, (gather reports).files = .ok out ∧
      List.Forall₂ (fun x o ↦ o.1 = x.1 ∧ x.2.code = .ok o.2) reports out := by
  induction reports with
  | nil => exact ⟨[], rfl, .nil⟩
  | cons x reports ih =>
    obtain ⟨⟨code, hcode⟩, h⟩ := List.forall_mem_cons.mp h
    obtain ⟨out, hout, hall⟩ := ih h
    refine ⟨(x.1, code) :: out, ?_, .cons ⟨rfl, hcode⟩ hall⟩
    simp only [gather] at hout
    simp only [gather, List.mapM_cons, hcode, hout]
    rfl

/-- If each file of a batch can be relocated alone, and none requires a local specifier that one
of them writes and that was not written before, then in every order their turns come to an end;
there each has come to its report alone, the batch returns all files in their order, and the ledger
is left with all that they leave alone. -/
theorem batch_in_any_order (s : Session) (t : FileTree) {files : List (Path × String)}
    (halone : ∀ f ∈ files, ∃ code, (s.alone t f).1.code = .ok code)
    (hapart : s.Apart t files) :
    let programs := files.map fun f ↦ s.relocateFile t f.1 f.2
    let reports := files.map fun f ↦ (s.alone t f).1
    Acc (Function.swap Program.Turn) (programs, s.ledger) ∧
      (∃ out, (gather ((files.map Prod.fst).zip reports)).files = .ok out ∧
        List.Forall₂ (fun f o ↦ o.1 = f.1 ∧ (s.alone t f).1.code = .ok o.2) files out) ∧
      ∀ ps l, Program.Turns programs s.ledger ps l → (∀ x, ¬Program.Turn (ps, l) x) →
        ps = reports.map .done ∧ l.content = s.together t files := by
  intro programs reports
  have hle {f : Path × String} (hf : f ∈ files) :
      (s.alone t f).2.content ≤ s.together t files :=
    le_sup_of_le_right (le_iSup₂_of_le f hf le_rfl)
  have hwritten {f : Path × String} (hf : f ∈ files) (v : String) (hv : v ∈ s.required f)
      (hmem : v ∈ (s.together t files).1) : s.ledger.contains v := by
    rcases mem_together_fst.mp hmem with hmem | ⟨g, hg, hmem⟩
    · exact hmem
    · exact hapart f hf v hv g hg hmem
  have hsecured : Program.AllSecured (s.together t files)
      (files.map fun f ↦ ((s.alone t f).1, (s.alone t f).2.content))
      programs s.ledger := by
    refine ⟨le_sup_left, by simp [programs], fun i p x hp hx ↦ ?_⟩
    obtain ⟨f, hf, rfl⟩ := Option.map_eq_some_iff.mp (List.getElem?_map ▸ hp)
    obtain ⟨g, hg, rfl⟩ := Option.map_eq_some_iff.mp (List.getElem?_map ▸ hx)
    obtain rfl := Option.some.inj (hf.symm.trans hg)
    have hmem := List.mem_of_getElem? hf
    obtain ⟨code, hcode⟩ := halone f hmem
    exact secures_relocateFile (definite_together halone) (hwritten hmem) hcode (hle hmem)
  refine ⟨Program.acc_turn programs s.ledger, ?_, fun ps l hturns hend ↦ ?_⟩
  · have hok : ∀ x ∈ files.map fun f ↦ (f.1, (s.alone t f).1), ∃ code, x.2.code = .ok code := by
      intro x hx
      obtain ⟨f, hf, rfl⟩ := List.mem_map.mp hx
      exact halone f hf
    obtain ⟨out, hout, hall⟩ := exists_gather hok
    refine ⟨out, ?_, List.forall₂_map_left_iff.mp hall⟩
    rw [List.zip_map']
    exact hout
  · obtain ⟨hdone, hbefore, htogether, hafter⟩ := hsecured.turns hturns hend
    refine ⟨?_, le_antisymm htogether (sup_le hbefore (iSup₂_le fun f hf ↦ ?_))⟩
    · rw [hdone, List.map_map, List.map_map]
      rfl
    · exact hafter _ (List.mem_map_of_mem hf)

/-- One file after the other is one of the orders. -/
theorem turns_relocateBatch (s : Session) (t : FileTree) (files : List (Path × String))
    (l : Ledger) :
    ∃ reports, Program.Turns (files.map fun f ↦ s.relocateFile t f.1 f.2) l (reports.map .done)
        ((s.relocateBatch t files).run l).2 ∧
      ((s.relocateBatch t files).run l).1 = gather ((files.map Prod.fst).zip reports) := by
  let relocate (f : Path × String) : Program Report := s.relocateFile t f.1 f.2
  have hpaths (l : Ledger) :
      (files.mapM fun f ↦ (relocate f >>= fun report ↦ pure (f.1, report) : Program _)).run l =
        ((files.map Prod.fst).zip ((files.mapM relocate).run l).1,
          ((files.mapM relocate).run l).2) := by
    induction files generalizing l with
    | nil => rfl
    | cons f files ih =>
      simp only [List.mapM_cons, Program.run_bind, Program.run_pure, List.map_cons,
        List.zip_cons_cons, ih]
  have hbatch : (s.relocateBatch t files).run l =
      (gather ((files.map Prod.fst).zip ((files.mapM relocate).run l).1),
        ((files.mapM relocate).run l).2) := by
    rw [relocateBatch, Program.run_bind, hpaths]
    rfl
  rw [hbatch]
  exact ⟨_, Program.turns_mapM relocate files [] l, rfl⟩

/-- Files that require a package and each other. -/
def requiring : List (Path × String) :=
  [(.ofString "/p/a.js", "import'own';require('./b')"),
    (.ofString "/p/b.js", "require('own');import'rax'")]

/-- The tree of these files and the package. -/
def requiredTree : FileTree :=
  ⟨[(encode "p", .directory
    [(encode "a.js", .file []), (encode "b.js", .file []), (encode "node_modules", .directory
      [(encode "own", .directory [(encode "index.js", .file [])])])])]⟩

/-- A project with one package and a source directory. -/
def sourced : Session where
  project := { Situation.installed.project with source := some ⟨.ofString "/p", .refl true⟩ }

/-- Files that require a package and each other come, as one batch, to what each comes to alone. -/
theorem batch_in_any_order_of_requiring :
    ∃ out, ((sourced.relocateBatch requiredTree requiring).run .empty).1.files = .ok out ∧
      List.Forall₂ (fun f o ↦ o.1 = f.1 ∧ (sourced.alone requiredTree f).1.code = .ok o.2)
        requiring out ∧
      ((sourced.relocateBatch requiredTree requiring).run .empty).2.content =
        sourced.together requiredTree requiring := by
  obtain ⟨reports, hturns, hbatch⟩ := turns_relocateBatch sourced requiredTree requiring .empty
  have halone : ∀ f ∈ requiring, ∃ code, (sourced.alone requiredTree f).1.code = .ok code := by
    intro f hf
    have hcode : ∀ f ∈ requiring,
        (sourced.alone requiredTree f).1.code.toOption.isSome := by decide +kernel
    obtain ⟨code, hcode⟩ := Option.isSome_iff_exists.mp (hcode f hf)
    exact ⟨code, eq_ok_of_toOption hcode⟩
  obtain ⟨-, ⟨out, hout, hall⟩, hlast⟩ :=
    batch_in_any_order sourced requiredTree halone (by decide +kernel)
  obtain ⟨hreports, hcontent⟩ := hlast _ _ hturns (Program.not_turn_of_done reports _)
  have hdone : Function.Injective (Program.done : Report → Program Report) :=
    fun _ _ h ↦ Program.done.inj h
  rw [hbatch, hdone.list_map hreports]
  exact ⟨out, hout, hall, hcontent⟩

end Session

end Relocation

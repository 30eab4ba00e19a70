import Relocation.Project.Settings
import Relocation.Proofs.Json.Record
import Relocation.Proofs.Project.Checks

/-!
# Reading settings

Settings are read as what the members of an object say, in whatever order these stand, however
their strings are written and whatever else stands between them. The paths are checked afterwards,
in an order of their own: the first one in that order that is not absolute is reported.
-/

namespace Relocation.Project

open Json

namespace Settings

/-- The paths of settings with what they are for, in the order in which they are checked. -/
def paths (s : Settings) : List (Purpose × String) :=
  s.dependencyRoots.map (.dependencyRoot, ·) ++ [(.root, s.root), (.output, s.output)] ++
    (s.source.map (.source, ·)).toList

/-- A project has what settings say, and the usual names where they say nothing. -/
structure Agrees (s : Settings) (p : Project) : Prop where
  dependencyRoots : p.dependencyRoots.map (·.val) = s.dependencyRoots.map Path.ofString
  root : p.root.val = Path.ofString s.root
  output : p.output.val = Path.ofString s.output
  source : p.source.map (·.val) = s.source.map Path.ofString
  platform : p.platform = s.platform
  keepsPackages : p.keepsPackages = s.keepsPackages
  runtimePackage : p.classifier.runtimePackage = s.runtimePackage.getD "rax"
  internalPackage : p.classifier.internalPackage = s.internalPackage.getD "jsx2mp-runtime"
  excluded : p.classifier.excluded = .ofScopes ["weex-module", "weex-project"]
  normalize : p.normalize = id

/-- The packages of a project are searched from the last directory in the settings on. -/
theorem Agrees.searchPaths {s : Settings} {p : Project} (h : s.Agrees p) :
    p.searchPaths = (s.dependencyRoots.map Path.ofString).reverse := by
  rw [Project.searchPaths, List.map_reverse, h.dependencyRoots]

/-- A project is made of settings by checking their paths in this order. -/
theorem settles_toProject (s : Settings) : Settles s.paths s.toProject s.Agrees := by
  have hpaths : Settles (s.dependencyRoots.map (.dependencyRoot, ·) ++
      [(.root, s.root), (.output, s.output)])
      (ofPaths (Path.ofString s.root) (Path.ofString s.output)
        (s.dependencyRoots.map Path.ofString) s.platform)
      fun p ↦ p.dependencyRoots.map (·.val) = s.dependencyRoots.map Path.ofString ∧
        p.root.val = Path.ofString s.root ∧ p.output.val = Path.ofString s.output ∧
        p.source = none ∧ p.platform = s.platform ∧ p.normalize = id := by
    refine (settles_mapM _ _).bind fun roots hroots ↦ ?_
    refine (settles_checkAbsolute _ _).bind fun root hroot ↦ ?_
    exact (settles_checkAbsolute _ _).bind fun output houtput ↦
      settles_pure ⟨hroots, hroot, houtput, rfl, rfl, rfl⟩
  refine hpaths.bind ?_
  rintro p ⟨hroots, hroot, houtput, hsource, hplatform, hnormalize⟩
  cases hs : s.source with
  | none =>
    refine settles_pure ⟨hroots, hroot, houtput, ?_, hplatform, rfl, rfl, rfl, rfl, hnormalize⟩
    rw [hs]
    exact congrArg _ hsource
  | some source =>
    refine (settles_checkAbsolute _ _).bind fun path hpath ↦ ?_
    refine settles_pure ⟨hroots, hroot, houtput, ?_, hplatform, rfl, rfl, rfl, rfl, hnormalize⟩
    rw [hs]
    exact congrArg some hpath

/-! ### Settings as they are written -/

/-- The names of the settings in an object. -/
def names : List String :=
  ["nodeModulesPathList", "rootContext", "outputPath", "sourcePath", "platform", "disableCopyNpm",
    "runtimePackage", "internalPackage"]

/-- A string that may be missing, as a value. -/
def ofOption : Option String → MemberValue
  | none => .none
  | some s => .string s

/-- A setting is written. -/
def Written (text : Option (List Char)) (type : MemberType) (v : MemberValue) : Prop :=
  ∃ w, text = some w ∧ ValueText type w v

/-- A setting that has a usual value is written, or it is left out and has that value. -/
def WrittenOr (usual : MemberValue) (text : Option (List Char)) (type : MemberType)
    (v : MemberValue) : Prop :=
  text = none ∧ v = usual ∨ Written text type v

/-- The texts of an object's members say what the settings are. Each setting is written at most
once, and members of other names have any values. -/
structure IsWritten (s : Settings) (texts : List (String × List Char)) : Prop where
  dependencyRoots :
    Written (texts.lookup "nodeModulesPathList") .strings (.strings s.dependencyRoots)
  root : Written (texts.lookup "rootContext") .string (.string s.root)
  output : Written (texts.lookup "outputPath") .string (.string s.output)
  source : WrittenOr .none (texts.lookup "sourcePath") .optionalString (ofOption s.source)
  platform : Written (texts.lookup "platform") .string (.string s.platform.name)
  keepsPackages :
    WrittenOr (.flag false) (texts.lookup "disableCopyNpm") .flag (.flag s.keepsPackages)
  runtimePackage :
    WrittenOr .none (texts.lookup "runtimePackage") .optionalString (ofOption s.runtimePackage)
  internalPackage :
    WrittenOr .none (texts.lookup "internalPackage") .optionalString (ofOption s.internalPackage)
  once : ((texts.map Prod.fst).filter (· ∈ names)).Nodup
  others : ∀ w ∈ texts, w.1 ∉ names → IsValue w.2

/-- The value of the setting of a name. -/
def value (s : Settings) (name : String) : MemberValue :=
  match name with
  | "nodeModulesPathList" => .strings s.dependencyRoots
  | "rootContext" => .string s.root
  | "outputPath" => .string s.output
  | "sourcePath" => ofOption s.source
  | "platform" => .string s.platform.name
  | "disableCopyNpm" => .flag s.keepsPackages
  | "runtimePackage" => ofOption s.runtimePackage
  | "internalPackage" => ofOption s.internalPackage
  | _ => .none

/-- Settings are found in the values of their members. -/
theorem ofValues_value (s : Settings) :
    ofValues (shape.members.map fun m ↦ s.value m.name) = s := by
  obtain ⟨roots, root, output, source, platform, keeps, runtime, internal⟩ := s
  have hstring (o : Option String) : (ofOption o).string? = o := by cases o <;> rfl
  show (⟨roots, root, output, (ofOption source).string?,
    (Platform.ofName? platform.name).getD default, keeps, (ofOption runtime).string?,
    (ofOption internal).string?⟩ : Settings) = _
  rw [hstring, hstring, hstring, Platform.ofName?_name, Option.getD_some]

private theorem Written.not_none {type : MemberType} {v : MemberValue} :
    ¬Written none type v := fun ⟨_, h, _⟩ ↦ nomatch h

private theorem Written.valueText {type : MemberType} {v : MemberValue}
    {text : Option (List Char)} {w : List Char} (h : Written text type v) (hw : text = some w) :
    ValueText type w v := by
  obtain ⟨w', he, h⟩ := h
  obtain rfl := Option.some.inj (hw.symm.trans he)
  exact h

private theorem WrittenOr.valueText {type : MemberType} {usual v : MemberValue}
    {text : Option (List Char)} {w : List Char} (h : WrittenOr usual text type v)
    (hw : text = some w) : ValueText type w v := by
  obtain ⟨hnone, -⟩ | h := h
  · rw [hw] at hnone
    contradiction
  · exact h.valueText hw

private theorem WrittenOr.eq_usual {type : MemberType} {usual v : MemberValue}
    (h : WrittenOr usual none type v) : v = usual :=
  h.elim And.right fun h ↦ absurd h Written.not_none

private theorem isKnown_shape (name : String) :
    isKnown shape.members name = decide (name ∈ names) := by
  rw [isKnown, Bool.eq_iff_iff, List.find?_isSome, decide_eq_true_eq]
  simp [shape, names, eq_comm]

/-- A name of a kind that is written at most once is found with the text written for it. -/
theorem lookup_of_mem {kind : String → Bool} {texts : List (String × List Char)}
    (h : ((texts.map Prod.fst).filter kind).Nodup) {name : String} {w : List Char}
    (hk : kind name) (hm : (name, w) ∈ texts) : texts.lookup name = some w := by
  induction texts with
  | nil => simp at hm
  | cons t texts ih =>
    obtain ⟨n, v⟩ := t
    rw [List.map_cons] at h
    by_cases he : name = n
    · subst he
      rw [List.filter_cons_of_pos hk, List.nodup_cons] at h
      obtain hm | hm := List.mem_cons.mp hm
      · rw [List.lookup_cons_self, (Prod.mk.inj hm).2]
      · exact absurd (List.mem_filter.mpr ⟨List.mem_map_of_mem hm, hk⟩) h.1
    · rw [List.lookup_cons, beq_eq_false_iff_ne.mpr he]
      refine ih (h.sublist ((List.sublist_cons_self ..).filter _)) ?_
      exact (List.mem_cons.mp hm).resolve_left fun hm ↦ he (Prod.mk.inj hm).1

/-- What settings are written as describes their members. -/
theorem IsWritten.describes {s : Settings} {texts : List (String × List Char)}
    (h : s.IsWritten texts) : Describes shape.members s.value texts where
  fits := by
    rintro ⟨name, w⟩ hw
    by_cases hn : name ∈ names
    · have hl : texts.lookup name = some w := lookup_of_mem h.once (by simpa using hn) hw
      simp only [names, List.mem_cons, List.not_mem_nil, or_false] at hn
      rcases hn with rfl | rfl | rfl | rfl | rfl | rfl | rfl | rfl
      · exact .known rfl (h.dependencyRoots.valueText hl)
      · exact .known rfl (h.root.valueText hl)
      · exact .known rfl (h.output.valueText hl)
      · exact .known rfl (h.source.valueText hl)
      · obtain ⟨hp⟩ := h.platform.valueText hl
        exact .known rfl (.variant hp (List.mem_map_of_mem (by cases s.platform <;> decide)))
      · exact .known rfl (h.keepsPackages.valueText hl)
      · exact .known rfl (h.runtimePackage.valueText hl)
      · exact .known rfl (h.internalPackage.valueText hl)
    · have hk := isKnown_shape name
      rw [decide_eq_false hn, isKnown, Option.isSome_eq_false_iff,
        Option.isNone_iff_eq_none] at hk
      exact .other hk (h.others _ hw hn)
  once := by
    rw [knownNames, funext isKnown_shape]
    exact h.once
  absent := by
    intro m hm hn
    have hl := Reading.lookup_of_notMem hn
    simp only [shape, List.mem_cons, List.not_mem_nil, or_false] at hm
    rcases hm with rfl | rfl | rfl | rfl | rfl | rfl | rfl | rfl
    · exact absurd (hl ▸ h.dependencyRoots) Written.not_none
    · exact absurd (hl ▸ h.root) Written.not_none
    · exact absurd (hl ▸ h.output) Written.not_none
    · exact congrArg some (WrittenOr.eq_usual (hl ▸ h.source)).symm
    · exact absurd (hl ▸ h.platform) Written.not_none
    · exact congrArg some (WrittenOr.eq_usual (hl ▸ h.keepsPackages)).symm
    · exact congrArg some (WrittenOr.eq_usual (hl ▸ h.runtimePackage)).symm
    · exact congrArg some (WrittenOr.eq_usual (hl ▸ h.internalPackage)).symm

/-- A text is read as the settings that it says. -/
theorem parse_eq {s : Settings} {texts : List (String × List Char)} {text : String}
    (h : s.IsWritten texts) (ht : ObjectText texts text.toList) : parse text = .ok s := by
  rw [parse, ← bytesOf_toList, readRecord_eq h.describes ht, Except.map, ofValues_value]

end Settings

/-- A text that says what settings are is read as their project, whatever the order in which it
says so. There is a project exactly if all its paths are absolute, and then it has what the
settings say; otherwise the first path that is not is reported. -/
theorem ofJson_written {s : Settings} {texts : List (String × List Char)} {text : String}
    (h : s.IsWritten texts) (ht : ObjectText texts text.toList) :
    ofJson text = s.toProject ∧
      ((∃ p, ofJson text = .ok p) ↔ ∀ x ∈ s.paths, (Path.ofString x.2).isAbsolute) ∧
      (∀ p, ofJson text = .ok p →
        s.Agrees p ∧ p.searchPaths = (s.dependencyRoots.map Path.ofString).reverse) ∧
      ∀ f, ofJson text = .error f → ∃ purpose path,
        s.paths.find? (fun x ↦ !(Path.ofString x.2).isAbsolute) = some (purpose, path) ∧
          f = .notAbsolute purpose (Path.ofString path) ∧
          f.message = purpose.name ++ " must be an absolute path, got " ++ path := by
  have hproject : ofJson text = s.toProject := by
    rw [ofJson, Settings.parse_eq h ht]
    rfl
  have hs := s.settles_toProject
  rw [← hproject] at hs
  refine ⟨hproject, hs.exists_ok_iff, fun p hp ↦ ?_, fun f hf ↦ ?_⟩
  · have hagrees : s.Agrees p := hs.kind_of_ok hp
    exact ⟨hagrees, hagrees.searchPaths⟩
  · obtain ⟨⟨purpose, path⟩, hx, rfl⟩ := hs.exists_of_error hf
    exact ⟨purpose, path, hx, rfl, message_notAbsolute purpose path⟩

/-! ### Settings in an unusual order -/

namespace Settings

/-- Settings two of whose paths are relative. -/
def disordered : Settings where
  dependencyRoots := ["n"]
  root := "/r"
  output := "/o"
  source := some "s"
  platform := .ali
  keepsPackages := false
  runtimePackage := none
  internalPackage := none

/-- The members that say so, in an unusual order and with one of another name among them. -/
def disorderedTexts : List (String × List Char) :=
  [("sourcePath", quote "s".toList), ("other", '[' :: ("null".toList ++ [']'])),
    ("platform", quote "ali".toList), ("outputPath", quote "\\/o".toList),
    ("nodeModulesPathList", '[' :: (quote "n".toList ++ [']'])),
    ("rootContext", quote "/r".toList)]

/-- The text of these members. -/
def disorderedText : String :=
  "\x7b\"sourcePath\":\"s\", \"other\":[null],\"platform\":\"ali\",\"outputPath\":\"\\/o\"," ++
    "\"nodeModulesPathList\":[\"n\"],\"rootContext\":\"/r\"\x7d"

private theorem isWritten_disordered : disordered.IsWritten disorderedTexts where
  dependencyRoots :=
    ⟨_, rfl, .strings (.cons (stringText_quote (by decide)) .nil) (listed_singleton _)⟩
  root := ⟨_, rfl, .string (stringText_quote (by decide))⟩
  output := by
    have hslash : Letter ['\\', '/'] '/' := .short (by decide)
    have ho : Letter ['o'] 'o' := .plain (by decide)
    exact ⟨_, rfl, .string ⟨[['\\', '/'], ['o']], .cons hslash (.cons ho .nil), rfl⟩⟩
  source := .inr ⟨_, rfl, .optional (stringText_quote (by decide))⟩
  platform := ⟨_, rfl, .string (stringText_quote (by decide))⟩
  keepsPackages := .inl ⟨rfl, rfl⟩
  runtimePackage := .inl ⟨rfl, rfl⟩
  internalPackage := .inl ⟨rfl, rfl⟩
  once := by decide
  others := by
    have hother : IsValue ('[' :: ("null".toList ++ [']'])) :=
      .array (List.forall_mem_singleton.mpr (.word (by decide))) (listed_singleton _)
    simp only [disorderedTexts, List.forall_mem_cons]
    exact ⟨fun h ↦ absurd (by decide) h, fun _ ↦ hother, fun h ↦ absurd (by decide) h,
      fun h ↦ absurd (by decide) h, fun h ↦ absurd (by decide) h, fun h ↦ absurd (by decide) h,
      List.forall_mem_nil _⟩

private theorem objectText_disordered : ObjectText disorderedTexts disorderedText.toList := by
  have hplain : disorderedTexts.all (·.1.toList.all IsPlain) := by decide
  have hmembers : List.Forall₂
      (fun m item ↦ ∃ n, StringText n m.1 ∧ MemberText n m.2 item) disorderedTexts
      (disorderedTexts.map fun m ↦ quote m.1.toList ++ ':' :: m.2) := by
    rw [List.forall₂_map_right_iff, List.forall₂_same]
    exact fun m hm ↦ ⟨_, stringText_quote (List.all_eq_true.mp hplain m hm),
      .intro blanks_nil blanks_nil⟩
  have hcomma : Leads false [','] := .comma blanks_nil blanks_nil
  have hspace : Leads false [',', ' '] :=
    @Leads.comma [] [' '] blanks_nil (by decide)
  have hobject := ObjectText.intro blanks_nil blanks_nil hmembers
    (.item (.first blanks_nil) <| .item hspace <| .item hcomma <| .item hcomma <|
      .item hcomma <| .item hcomma <| .done blanks_nil)
  exact cast (congrArg _ (by decide +kernel)) hobject

/-- The relative directory of packages is reported, although a relative path of another kind
stands in front of it in the text. -/
theorem ofJson_written_of_disordered :
    disordered.IsWritten disorderedTexts ∧
      ObjectText disorderedTexts disorderedText.toList ∧
      ofJson disorderedText = .error (.notAbsolute .dependencyRoot (Path.ofString "n")) := by
  obtain ⟨hproject, -⟩ := ofJson_written isWritten_disordered objectText_disordered
  refine ⟨isWritten_disordered, objectText_disordered, ?_⟩
  rw [hproject]
  rfl

end Settings

end Relocation.Project

import Relocation.Proofs.Path.Spelling
import Relocation.Proofs.Resolver.Found
import Relocation.Proofs.Specifier.PackageName

/-!
# The search for packages

A bare specifier is looked for in one directory of packages after the other, and the first that
holds something for it decides. In each it stands for the path that it spells there, except that a
package's name that is followed by two slashes leads to where the rest leads from the root.
-/

namespace Relocation.Resolver

open Relocation.Path (Plain Named Component dot dotDot slash segmentsOf)
open Specifier (Splits isPath splitPackage)
open Text.Utf8 (IsText encode encode_append encode_inj)

variable {r : Resolver} {t : FileTree} {s : String} {d p f : Path}

/-! ### Spelled specifiers -/

/-- A text that is spelled with a character of one byte in front begins with it. -/
theorem exists_of_encode_eq_cons {c : Char} {b : UInt8} {bs : List UInt8} (hb : b.toNat < 0x80)
    (hc : encode (String.ofList [c]) = [b]) (h : encode s = b :: bs) :
    ∃ u, s = String.ofList [c] ++ u := by
  have ht : IsText ([] ++ b :: bs) := ⟨s, h.symm⟩
  obtain ⟨-, u, hu⟩ := ht.split hb
  refine ⟨u, encode_inj.mp ?_⟩
  rw [encode_append, hc, h, hu, List.singleton_append]

/-- A specifier that is no path is not spelled as one. -/
theorem head?_encode_of_not_isPath (h : isPath s.toList = false) :
    (encode s).head? ≠ some 46 ∧ (encode s).head? ≠ some slash := by
  have hno {c : Char} {b : UInt8} (hb : b.toNat < 0x80) (hc : encode (String.ofList [c]) = [b])
      (hpath : isPath [c] = true) : (encode s).head? ≠ some b := by
    intro hh
    obtain ⟨bs, hbs⟩ := List.head?_eq_some_iff.mp hh
    obtain ⟨u, rfl⟩ := exists_of_encode_eq_cons hb hc hbs
    rw [String.toList_append, String.toList_ofList, List.singleton_append] at h
    simp [isPath] at h hpath
    rcases hpath with rfl | rfl <;> simp at h
  exact ⟨hno (c := '.') (by decide) (by decide) rfl, hno (c := '/') (by decide) (by decide) rfl⟩

private theorem isAbsolute_of_not_isPath (h : isPath s.toList = false) :
    (Path.ofString s).isAbsolute = false :=
  decide_eq_false (head?_encode_of_not_isPath h).2

/-- A text that begins with a slash is spelled as an absolute path. -/
theorem isAbsolute_of_slash (cs : List Char) :
    (Path.ofString (String.ofList ('/' :: cs))).isAbsolute := by
  have hs : String.ofList ('/' :: cs) = "/" ++ String.ofList cs :=
    String.toList_injective (by simp)
  rw [Path.isAbsolute, Path.ofString, hs, encode_append]
  rfl

/-- The first segment of a specifier that is no path is a plain name. -/
theorem exists_segments_of_not_isPath (h : isPath s.toList = false) (hs : s ≠ "") :
    ∃ y ys, (Path.ofString s).segments = y :: ys ∧ Plain y := by
  obtain ⟨hdot, -⟩ := head?_encode_of_not_isPath h
  obtain ⟨y, ys, hy⟩ := List.exists_cons_of_ne_nil (Path.segments_ne_nil (Path.ofString s))
  have hjoin : Path.joinSegments (y :: ys) = encode s := by
    rw [← hy]
    exact Path.joinSegments_segmentsOf (encode s)
  have hne : y ≠ [] := by
    rintro rfl
    cases ys with
    | nil => exact hs (encode_inj.mp hjoin.symm)
    | cons z zs =>
      have ha := Path.isAbsolute_of_segments_nil hy
      rw [isAbsolute_of_not_isPath h] at ha
      cases ha
  obtain ⟨b, bs, rfl⟩ := List.exists_cons_of_ne_nil hne
  have hhead : (encode s).head? = some b := by
    rw [← hjoin]
    cases ys <;> rfl
  have hb : b ≠ 46 := fun h0 ↦ hdot (h0 ▸ hhead)
  refine ⟨b :: bs, ys, hy, ⟨hne, ?_, ?_, ?_⟩⟩
  · exact fun h0 ↦ hb (List.cons.inj h0).1
  · exact fun h0 ↦ hb (List.cons.inj h0).1
  · exact Path.slash_notMem_of_mem_segmentsOf (hy ▸ List.mem_cons_self)

/-- The bytes of a specifier around the slash behind a package's name. -/
theorem ofString_eq_of_splits {name rest : List Char}
    (h : Splits s.toList name ('/' :: rest)) :
    Path.ofString s =
      ⟨encode (String.ofList name) ++ slash :: encode (String.ofList rest)⟩ := by
  have hs : s = String.ofList name ++ "/" ++ String.ofList rest :=
    String.toList_injective (by simp [h.split])
  show (⟨encode s⟩ : Path) = _
  rw [hs, encode_append, encode_append, List.append_assoc]
  rfl

section

variable {cs name rest : List Char}

/-- The name of a package is not empty. -/
theorem encode_ne_nil_of_splits (h : Splits cs name rest) :
    encode (String.ofList name) ≠ [] := by
  intro h0
  apply h.name_ne_nil
  rw [← String.toList_ofList (l := name), encode_inj.mp (h0.trans Text.Utf8.encode_empty.symm)]
  rfl

/-- A package's name does not begin at the root. -/
theorem isAbsolute_of_splits (h : Splits cs name rest) :
    (Path.ofString (String.ofList name)).isAbsolute = false :=
  isAbsolute_of_not_isPath (by rw [String.toList_ofList]; exact h.name_not_path)

end

/-! ### The path of a specifier in a directory -/

/-- Where a specifier leads in a directory of packages. -/
inductive LeadsIn (t : FileTree) (s : String) (d p : Path) : Prop where
  /-- No package is named. -/
  | whole (split : splitPackage s.toList = none) (eq : p = d.join (.ofString s))
  /-- Nothing but a package is named, and the directory holds it. -/
  | package (split : splitPackage s.toList = some (s.toList, []))
      (holds : t.pathExists (d.join (.ofString s))) (eq : p = d.join (.ofString s))
  /-- Something in a package is named, and the directory holds the package. -/
  | inside {name rest : List Char} (split : splitPackage s.toList = some (name, '/' :: rest))
      (holds : t.pathExists (d.join (.ofString (String.ofList name))))
      (eq : p = (d.join (.ofString (String.ofList name))).join (.ofString (String.ofList rest)))

/-- The path that is computed for a specifier is where it leads. -/
theorem candidate_eq_some_iff : candidate t s d = some p ↔ LeadsIn t s d p := by
  unfold candidate Specifier.packageImport
  cases hsplit : splitPackage s.toList with
  | none =>
    constructor
    · intro h
      exact .whole hsplit (Option.some.inj h).symm
    · rintro (⟨-, rfl⟩ | ⟨h, -⟩ | ⟨h, -⟩)
      · rfl
      · cases hsplit.symm.trans h
      · cases hsplit.symm.trans h
  | some parts =>
    obtain ⟨name, rest⟩ := parts
    have hsplits := Specifier.splits_of_splitPackage hsplit
    simp only [Option.map_some, String.toList_ofList]
    rcases hsplits.rest_cases with rfl | ⟨rest, rfl⟩
    · obtain rfl : name = s.toList := by rw [hsplits.split, List.append_nil]
      rw [String.ofList_toList]
      cases hexists : t.pathExists (d.join (.ofString s)) with
      | false =>
        refine iff_of_false (by simp) ?_
        rintro (⟨h, -⟩ | ⟨-, h, -⟩ | ⟨h, -⟩)
        · cases hsplit.symm.trans h
        · cases hexists.symm.trans h
        · cases (Prod.mk.inj (Option.some.inj (hsplit.symm.trans h))).2
      | true =>
        constructor
        · intro h
          exact .package hsplit hexists (Option.some.inj h).symm
        · rintro (⟨h, -⟩ | ⟨-, -, rfl⟩ | ⟨h, -⟩)
          · cases hsplit.symm.trans h
          · rfl
          · cases (Prod.mk.inj (Option.some.inj (hsplit.symm.trans h))).2
    · cases hexists : t.pathExists (d.join (.ofString (String.ofList name))) with
      | false =>
        refine iff_of_false (by simp) ?_
        rintro (⟨h, -⟩ | ⟨h, -⟩ | ⟨h, hholds, -⟩)
        · cases hsplit.symm.trans h
        · cases (Prod.mk.inj (Option.some.inj (hsplit.symm.trans h))).2
        · obtain ⟨rfl, -⟩ := Prod.mk.inj (Option.some.inj (hsplit.symm.trans h))
          cases hexists.symm.trans hholds
      | true =>
        constructor
        · intro h
          exact .inside hsplit hexists (Option.some.inj h).symm
        · rintro (⟨h, -⟩ | ⟨h, -⟩ | ⟨h, -, rfl⟩)
          · cases hsplit.symm.trans h
          · cases (Prod.mk.inj (Option.some.inj (hsplit.symm.trans h))).2
          · obtain ⟨rfl, hrest⟩ := Prod.mk.inj (Option.some.inj (hsplit.symm.trans h))
            obtain rfl := (List.cons.inj hrest).2
            rfl

/-- No path is computed for a specifier if it leads nowhere. -/
theorem candidate_eq_none_iff : candidate t s d = none ↔ ∀ p, ¬LeadsIn t s d p := by
  simp only [Option.eq_none_iff_forall_ne_some, ne_eq, candidate_eq_some_iff]

/-- Two slashes stand behind the name of the package that a specifier names. -/
def DoublesSlash (s : String) : Prop :=
  ∃ name rest, splitPackage s.toList = some (name, '/' :: '/' :: rest)

/-- Else what stands behind the name does not begin at the root. -/
theorem isAbsolute_of_not_doublesSlash {name rest : List Char}
    (h : splitPackage s.toList = some (name, '/' :: rest)) (hs : ¬DoublesSlash s) :
    (Path.ofString (String.ofList rest)).isAbsolute = false := by
  rw [← Bool.not_eq_true]
  intro ha
  obtain ⟨bs, hbs, -⟩ := Path.segments_of_isAbsolute ha
  obtain ⟨u, hu⟩ := exists_of_encode_eq_cons (c := '/') (by decide) (by decide) hbs
  refine hs ⟨name, u.toList, ?_⟩
  rw [h, ← String.toList_ofList (l := rest), hu, String.toList_append]
  rfl

namespace LeadsIn

/-- The path of a specifier ends as the specifier does. -/
theorem getLast?_segments (h : LeadsIn t s d p) :
    p.segments.getLast? = (Path.ofString s).segments.getLast? := by
  cases h with
  | whole _ eq => rw [eq, Path.getLast?_segments_join]
  | package _ _ eq => rw [eq, Path.getLast?_segments_join]
  | @inside name rest split _ eq =>
    rw [eq, Path.getLast?_segments_join,
      ofString_eq_of_splits (Specifier.splits_of_splitPackage split), Path.segments,
      Path.segments, Path.segmentsOf_append_slash,
      List.getLast?_append_of_ne_nil _ (Path.segmentsOf_ne_nil _)]
    rfl

/-- A specifier means the path that it spells in the directory, unless two slashes stand behind
the name of its package. -/
theorem same (h : LeadsIn t s d p) (hs : ¬DoublesSlash s) : p.same (d.join (.ofString s)) := by
  cases h with
  | whole _ eq => exact decide_eq_true (by rw [eq])
  | package _ _ eq => exact decide_eq_true (by rw [eq])
  | @inside name rest split _ eq =>
    have hsplits := Specifier.splits_of_splitPackage split
    have hname := isAbsolute_of_splits hsplits
    have hne := encode_ne_nil_of_splits hsplits
    have hrest := isAbsolute_of_not_doublesSlash split hs
    have hjoin : (d.join (.ofString (String.ofList name))).bytes ≠ [] := by
      unfold Path.join
      rw [hname, if_neg Bool.false_ne_true]
      split
      · simp
      · exact List.append_ne_nil_of_right_ne_nil _ hne
    rw [eq, ofString_eq_of_splits hsplits, Path.join_append_slash d hne hname]
    exact Path.same_join hjoin hrest

end LeadsIn

/-! ### Directories of packages -/

/-- The directories above an absolute path begin at the root. -/
theorem isAbsolute_of_mem_ancestors (hp : p.isAbsolute) (h : d ∈ p.ancestors) : d.isAbsolute := by
  have hall (ss : List Name) : ∀ a ∈ Path.ancestorsOf true ss, a.isAbsolute := by
    induction ss with
    | nil => simp [Path.ancestorsOf]
    | cons s ss ih =>
      rw [Path.ancestorsOf]
      split
      · exact List.forall_mem_cons.mpr ⟨rfl, ih⟩
      · exact ih
  rw [Path.ancestors, hp] at h
  rcases List.mem_cons.mp h with rfl | h
  · exact hp
  · exact hall _ d h

/-- The directories of packages above an absolute path are named so. -/
theorem named_of_mem_modulePaths (hp : p.isAbsolute) (h : d ∈ modulePaths p) : Named d := by
  obtain ⟨a, ha, rfl⟩ := List.mem_map.mp h
  have hname : Plain modulesName := ⟨by decide, by decide, by decide, by decide⟩
  have hlast : (⟨modulesName⟩ : Path).segments.getLast? = some modulesName :=
    congrArg List.getLast? (Path.segmentsOf_of_notMem hname.noSlash)
  exact Path.named_join (isAbsolute_of_mem_ancestors hp (List.mem_filter.mp ha).1) hlast hname

private theorem mem_of_mem_distinct {seen ps : List Path} (h : p ∈ distinct seen ps) : p ∈ ps := by
  induction ps generalizing seen with
  | nil => exact h
  | cons q ps ih =>
    rw [distinct] at h
    split at h
    · exact List.mem_cons_of_mem _ (ih h)
    · rcases List.mem_cons.mp h with rfl | h
      · exact List.mem_cons_self
      · exact List.mem_cons_of_mem _ (ih h)

/-- What is searched is a directory of packages above a search path. -/
theorem mem_of_mem_searchList {searchPaths : List Path} (h : d ∈ searchList searchPaths) :
    d ∈ searchPaths.flatMap modulePaths :=
  mem_of_mem_distinct h

/-- The directories that are searched are named. -/
theorem named_of_mem_searchList {searchPaths : List Path} (hp : ∀ p ∈ searchPaths, p.isAbsolute)
    (h : d ∈ searchList searchPaths) : Named d := by
  obtain ⟨p, hmem, hd⟩ := List.mem_flatMap.mp (mem_of_mem_searchList h)
  exact named_of_mem_modulePaths (hp p hmem) hd

/-! ### The first directory that holds something -/

/-- In one directory, what the path of the specifier leads to is found. -/
theorem probe_eq_ok_some_iff :
    r.probe t s d = .ok (some f) ↔
      ∃ p, LeadsIn t s d p ∧ r.asFileOrDirectory t p = .ok (some f) := by
  unfold probe
  simp only [← candidate_eq_some_iff]
  cases candidate t s d with
  | none => simp
  | some p => simp

/-- The first of what a probe finds in one directory after the other. A fault in one of them ends
the search. -/
def firstFound (probe : Path → Except Error (Option Path)) :
    List Path → Except Error (Option Path)
  | [] => .ok none
  | d :: ds =>
    match probe d with
    | .ok (some f) => .ok (some f)
    | .ok none => firstFound probe ds
    | .error e => .error e

/-- A resolver's first hit is what its probe finds first. -/
theorem firstHit_eq_firstFound {ds : List Path} :
    r.firstHit t s ds = firstFound (r.probe t s) ds := by
  induction ds with
  | nil => rfl
  | cons d ds ih =>
    unfold firstHit firstFound
    cases r.probe t s d with
    | error e => rfl
    | ok found =>
      cases found with
      | none => exact ih
      | some f => rfl

/-- What the first directory holds that holds something for a probe. -/
inductive HitsIn (probe : Path → Except Error (Option Path)) : List Path → Path → Path → Prop where
  | here {d f : Path} {ds : List Path} (holds : probe d = .ok (some f)) :
      HitsIn probe (d :: ds) d f
  | behind {b d f : Path} {ds : List Path} (lacks : probe b = .ok none)
      (rest : HitsIn probe ds d f) : HitsIn probe (b :: ds) d f

section

variable {probe : Path → Except Error (Option Path)} {ds : List Path}

/-- The directory of the first hit is one of those that are searched. -/
theorem HitsIn.mem (h : HitsIn probe ds d f) : d ∈ ds := by
  induction h with
  | here => exact List.mem_cons_self
  | behind _ _ ih => exact List.mem_cons_of_mem _ ih

/-- At the first hit the probe finds what is found. -/
theorem HitsIn.probe_eq (h : HitsIn probe ds d f) : probe d = .ok (some f) := by
  induction h with
  | here holds => exact holds
  | behind _ _ ih => exact ih

private theorem firstFound_eq_ok_some_iff :
    firstFound probe ds = .ok (some f) ↔ ∃ d, HitsIn probe ds d f := by
  constructor
  · intro h
    induction ds with
    | nil => cases h
    | cons b ds ih =>
      rw [firstFound] at h
      split at h
      · next holds =>
        cases h
        exact ⟨b, .here holds⟩
      · next lacks =>
        obtain ⟨d, hd⟩ := ih h
        exact ⟨d, .behind lacks hd⟩
      · cases h
  · rintro ⟨d, h⟩
    induction h with
    | here holds => simp only [firstFound, holds]
    | behind lacks _ ih => simp only [firstFound, lacks, ih]

end

/-- A package is resolved to the answer for what the first directory holds that holds anything. -/
theorem resolvePackage_eq_ok_iff {searchPaths : List Path} {file : Path} :
    r.resolvePackage t s searchPaths = .ok file ↔
      ∃ d f, HitsIn (r.probe t s) (searchList searchPaths) d f ∧ r.settle t f = .ok file := by
  unfold resolvePackage
  rw [bind_eq_ok_iff]
  simp only [firstHit_eq_firstFound]
  constructor
  · rintro ⟨found, hfound, hs⟩
    cases found with
    | none => cases hs
    | some f =>
      obtain ⟨d, hd⟩ := firstFound_eq_ok_some_iff.mp hfound
      exact ⟨d, f, hd, hs⟩
  · rintro ⟨d, f, hd, hs⟩
    exact ⟨some f, firstFound_eq_ok_some_iff.mpr ⟨d, hd⟩, hs⟩

end Relocation.Resolver

import Relocation.Proofs.FileTree.Existing
import Relocation.Proofs.FileTree.Worded

/-!
# Canonical paths of canonical paths

The longest beginning of a path that leads somewhere is found again in what the path is replaced
by: its canonical path leads to the same position, and from there the rest leads nowhere as
before. This needs that the rest did not fail for the number of links in front of it only, and
that the canonical path is text, without which there is no clean form to begin with.
-/

namespace Relocation.FileTree

open Relocation.Path (Plain dot dotDot rooted slash)
open Text.Utf8 (IsText encode)

variable {t : FileTree} {ns head tail above more : List Name} {q : Position}

/-! ### Links without end -/

/-- Segments that lead somewhere are followed there, or through too many links. -/
theorem Follows.walkLinks_cases {k : Nat} {p : Position} {ss : List Name}
    (h : Follows k p ss q) (n : Nat) :
    walkLinks n p ss = .ok q ∨ walkLinks n p ss = .error .tooManyLinks := by
  induction h generalizing n with
  | done k p => cases n <;> exact .inl rfl
  | stay here dots _ ih =>
    have hrest := ih n
    cases n <;> simpa [walkLinks, walk, here, dots] using hrest
  | up here _ ih =>
    have hrest := ih n
    have hn : ¬(dotDot = [] ∨ dotDot = dot) := by decide
    cases n <;> simpa [walkLinks, walk, here, hn] using hrest
  | @enter _ _ _ _ _ _ e here named short found noLink _ ih =>
    have hrest := ih n
    have hlen := Nat.not_lt.mpr short
    cases e with
    | link target => exact absurd rfl (noLink target)
    | directory | file =>
      cases n <;> simpa [walkLinks, walk, here, named, hlen, found] using hrest
  | follow here named short found noNul _ ih =>
    have hlen := Nat.not_lt.mpr short
    cases n with
    | zero => exact .inr (by simp [walkLinks, walk, here, named, hlen, found, noNul])
    | succ n => simpa [walkLinks, walk, here, named, hlen, found, noNul] using ih n

/-- The path of names that lead somewhere is located there, or on a way through too many links. -/
theorem Follows.locate_cases {k : Nat} (h : Follows k ⟨t, []⟩ ns q)
    (hn : ∀ n ∈ ns, slash ∉ n ∧ 0 ∉ n) :
    t.locate (rooted ns) = .ok q ∨ t.locate (rooted ns) = .error .tooManyLinks := by
  have hnul := nul_notMem_rooted fun n hm ↦ (hn n hm).2
  rw [locate, if_neg (by simpa using hnul), Path.isAbsolute_rooted, if_neg (by simp)]
  exact (h.segments_rooted fun n hm ↦ (hn n hm).1).walkLinks_cases maxLinks

/-- Where a beginning of names leads nowhere for the number of the links on the way, the links go
round in a circle: no number of them would be enough. -/
def CirclesOnly (t : FileTree) (ns : List Name) : Prop :=
  ∀ head, head <+: ns → t.locate (rooted head) = .error .tooManyLinks →
    ∀ k q, walkLinks k ⟨t, []⟩ head ≠ .ok q

/-- The beginnings of a path that leads somewhere do, too. -/
theorem circlesOnly_of_locate (hn : ∀ n ∈ ns, slash ∉ n) (h : t.locate (rooted ns) = .ok q) :
    t.CirclesOnly ns := by
  rintro head ⟨rest, rfl⟩ htooMany
  have hnul := nul_notMem_of_locate_rooted hn h
  obtain ⟨j, l, m, hk, hhead, -⟩ := (follows_of_locate_rooted hn h).through
  have hlocate := locate_rooted (fun n hm ↦
    ⟨hn n (List.mem_append_left rest hm), hnul n (List.mem_append_left rest hm)⟩)
    (hhead.mono (show j ≤ maxLinks by omega))
  rw [hlocate] at htooMany
  cases htooMany

/-- A link to itself is followed to itself. -/
private theorem Follows.of_link_self {k : Nat} {p : Position} {n : Name} {ss : List Name}
    {entries : Entries} (hn : Plain n) (here : p.here = .directory entries)
    (found : entries.lookup n = some (.link ⟨n⟩)) (h : Follows k p (n :: ss) q) :
    ∃ m, k = m + 1 ∧ Follows m p (n :: ss) q := by
  cases h with
  | stay _ dots => exact absurd dots (not_or.mpr ⟨hn.ne_nil, hn.ne_dot⟩)
  | up => exact absurd rfl hn.ne_dotDot
  | enter here' _ _ found' noLink =>
    obtain rfl := Entry.directory.inj (here.symm.trans here')
    exact absurd (Option.some.inj (found'.symm.trans found)) (noLink ⟨n⟩)
  | @follow k _ _ _ _ _ _ here' _ _ found' _ rest =>
    obtain rfl := Entry.directory.inj (here.symm.trans here')
    obtain rfl := Entry.link.inj (Option.some.inj (found'.symm.trans found))
    rw [Path.isAbsolute_of_slash_notMem hn.noSlash, Path.segments,
      Path.segmentsOf_of_notMem hn.noSlash] at rest
    exact ⟨k, rfl, rest⟩

/-- A link to itself leads nowhere, through any number of links. -/
theorem not_follows_of_link_self {k : Nat} {p : Position} {n : Name} {ss : List Name}
    {entries : Entries} (hn : Plain n) (here : p.here = .directory entries)
    (found : entries.lookup n = some (.link ⟨n⟩)) : ¬Follows k p (n :: ss) q := by
  induction k with
  | zero =>
    intro h
    obtain ⟨m, hm, -⟩ := h.of_link_self hn here found
    cases hm
  | succ k ih =>
    intro h
    obtain ⟨m, hm, hrest⟩ := h.of_link_self hn here found
    obtain rfl := Nat.succ.inj hm
    exact ih hrest

/-- A link to itself in a directory that a path leads to is a circle. -/
theorem circlesOnly_of_link_self {n : Name} {ss : List Name} {entries : Entries}
    (hns : ∀ m ∈ ns, slash ∉ m) (h : t.locate (rooted ns) = .ok q)
    (here : q.here = .directory entries) (hn : Plain n)
    (found : entries.lookup n = some (.link ⟨n⟩)) : t.CirclesOnly (ns ++ n :: ss) := by
  intro head hprefix htooMany k r hwalk
  have hconcat : ns ++ [n] <+: ns ++ n :: ss := ⟨ss, by simp⟩
  have hcases : head <+: ns ∨ ns ++ [n] <+: head := by
    rcases List.prefix_or_prefix_of_prefix hprefix hconcat with hshort | hlong
    · rcases List.prefix_concat_iff.mp hshort with rfl | hshort
      · exact .inr (List.prefix_refl _)
      · exact .inl hshort
    · exact .inr hlong
  rcases hcases with hshort | ⟨more, rfl⟩
  · exact circlesOnly_of_locate hns h head hshort htooMany k r hwalk
  · rw [List.append_assoc, List.singleton_append] at hwalk
    obtain ⟨j, l, b, -, hb, hcircle⟩ := (walkLinks_eq_ok_iff.mp hwalk).through
    obtain rfl := hb.unique (follows_of_locate_rooted hns h)
    exact not_follows_of_link_self hn here found hcircle

/-! ### Behind a canonical path -/

/-- What leads somewhere behind the canonical path of names leads there behind these names. -/
theorem exists_follows_behind {k : Nat} (hn : ∀ n ∈ head, slash ∉ n)
    (hplain : ∀ n ∈ above, Plain n) (h : t.canonicalize (rooted head) = .ok (rooted above))
    (hf : Follows k ⟨t, []⟩ (above ++ more) q) : ∃ j, Follows j ⟨t, []⟩ (head ++ more) q := by
  obtain ⟨a, ha, hpath⟩ := canonicalize_eq_ok_iff.mp h
  have hra := reached_of_locate ha
  obtain ⟨j, l, b, -, hb, hmore⟩ := hf.through
  have hnames := hra.follows_names
  rw [hra.names_eq_of_path hplain hpath] at hnames
  obtain rfl := hb.unique hnames
  exact ⟨_, (follows_of_locate_rooted hn ha).append hmore⟩

/-- What the longest beginning of names is replaced by leads no further, either. -/
theorem Replaces.leadsNoFurther {result : Path} (h : Replaces t ns result head tail above)
    (hn : ∀ n ∈ ns, Plain n) (hc : t.CirclesOnly ns) : t.LeadsNoFurther above tail := by
  intro more rest htail hne c hcanonical
  have hsplit : ns = (head ++ more) ++ rest := by rw [h.split, htail, List.append_assoc]
  have hslash : ∀ n ∈ ns, slash ∉ n := fun n hm ↦ (hn n hm).noSlash
  have hhead : ∀ n ∈ head, slash ∉ n := fun n hm ↦
    hslash n (h.split ▸ List.mem_append_left tail hm)
  have hmore : ∀ n ∈ more, slash ∉ n := fun n hm ↦
    hslash n (hsplit ▸ List.mem_append_left rest (List.mem_append_right head hm))
  obtain ⟨q, hq, -⟩ := canonicalize_eq_ok_iff.mp hcanonical
  obtain ⟨a, ha, -⟩ := canonicalize_eq_ok_iff.mp h.canonical
  have habove : ∀ n ∈ above ++ more, slash ∉ n := List.forall_mem_append.mpr
    ⟨fun n hm ↦ (h.plain n hm).noSlash, hmore⟩
  obtain ⟨j, hj⟩ := exists_follows_behind hhead h.plain h.canonical
    (follows_of_locate_rooted habove hq)
  have hsolid : ∀ n ∈ head ++ more, slash ∉ n ∧ 0 ∉ n := List.forall_mem_append.mpr
    ⟨fun n hm ↦ ⟨hhead n hm, nul_notMem_of_locate_rooted hhead ha n hm⟩, fun n hm ↦
      ⟨hmore n hm, nul_notMem_of_locate_rooted habove hq n (List.mem_append_right above hm)⟩⟩
  rcases hj.locate_cases hsolid with hok | htooMany
  · exact h.longest more rest htail hne _ (canonicalize_eq_ok_iff.mpr ⟨q, hok, rfl⟩)
  · exact hc _ ⟨rest, hsplit.symm⟩ htooMany j q (walkLinks_eq_ok_iff.mpr hj)

/-- One beginning of names only leads somewhere, but no further. -/
theorem LeadsNoFurther.unique {head' tail' : List Name} {c c' : Path}
    (h : t.LeadsNoFurther head tail) (h' : t.LeadsNoFurther head' tail')
    (hc : t.canonicalize (rooted head) = .ok c) (hc' : t.canonicalize (rooted head') = .ok c')
    (hsplit : head ++ tail = head' ++ tail') : head = head' := by
  rcases List.append_eq_append_iff.mp hsplit with ⟨more, rfl, htail⟩ | ⟨more, rfl, htail⟩
  · by_cases hmore : more = []
    · rw [hmore, List.append_nil]
    · exact absurd hc' (h more tail' htail hmore c')
  · by_cases hmore : more = []
    · rw [hmore, List.append_nil]
    · exact absurd hc (h' more tail htail hmore c)

/-- The replacement of the path of plain names by its longest beginning. -/
theorem canonicalizeExisting_rooted (hn : ∀ n ∈ head ++ tail, Plain n)
    (ht : IsText (rooted (head ++ tail)).bytes) (hplain : ∀ n ∈ above, Plain n)
    (hc : t.canonicalize (rooted head) = .ok (rooted above)) (hl : t.LeadsNoFurther head tail) :
    t.canonicalizeExisting (rooted (head ++ tail)) = rooted (above ++ tail) := by
  obtain ⟨head', tail', above', hrep⟩ :=
    t.exists_replaces_of_canonicalizeExisting (Path.isAbsolute_rooted _) ht
  have hsplit := hrep.split
  rw [Path.names_rooted hn] at hsplit
  obtain rfl := hl.unique hrep.longest hc hrep.canonical hsplit
  obtain rfl := List.append_cancel_left hsplit
  have habove := Except.ok.inj (hc.symm.trans hrep.canonical)
  rw [hrep.result_eq, (Path.rooted_inj hplain hrep.plain).mp habove]

/-! ### Taken twice -/

/-- An absolute path that is text is replaced by the canonical path of its longest beginning that
leads somewhere, with the other names of its clean form behind it; it is its canonical path if it
leads somewhere. Where links fail only for what is not there or for going round in a circle, this
changes nothing the second time, unless the canonical path is no text: then nothing of it is left
in the clean form. -/
theorem canonicalizeExisting_projects (t : FileTree) {p : Path} (ha : p.isAbsolute)
    (ht : IsText p.bytes) :
    (∃ head tail above, p.clean = rooted (head ++ tail) ∧ (∀ n ∈ head ++ tail, Plain n) ∧
      t.canonicalize (rooted head) = .ok (rooted above) ∧ t.LeadsNoFurther head tail ∧
      t.canonicalizeExisting p = rooted (above ++ tail)) ∧
    (∀ c, t.canonicalize p.clean = .ok c → t.canonicalizeExisting p = c) ∧
    (t.CirclesOnly p.names → IsText (t.canonicalizeExisting p).bytes →
      t.canonicalizeExisting (t.canonicalizeExisting p) = t.canonicalizeExisting p) ∧
    (¬IsText (t.canonicalizeExisting p).bytes → (t.canonicalizeExisting p).clean = ⟨dot⟩) ∧
    (t.Worded → IsText (t.canonicalizeExisting p).bytes) := by
  obtain ⟨head, tail, above, hrep⟩ := t.exists_replaces_of_canonicalizeExisting ha ht
  have hclean := Path.clean_of_isAbsolute ha ht
  have hplain : ∀ n ∈ head ++ tail, Plain n := hrep.split ▸ Path.plain_of_mem_names
  have htail : ∀ n ∈ tail, Plain n := fun n hm ↦ hplain n (List.mem_append_right head hm)
  refine ⟨⟨head, tail, above, hrep.split ▸ hclean, hplain, hrep.canonical, hrep.longest,
    hrep.result_eq⟩, fun c hc ↦ ?_, fun hcircles htext ↦ ?_, Path.clean_of_not_isText, fun hw ↦ ?_⟩
  · rw [hclean] at hc
    exact canonicalizeExisting_of_canonicalize ha ht hc
  · rw [hrep.result_eq] at htext ⊢
    exact canonicalizeExisting_rooted (List.forall_mem_append.mpr ⟨hrep.plain, htail⟩) htext
      hrep.plain (canonicalize_of_canonicalize hrep.canonical)
      (hrep.leadsNoFurther Path.plain_of_mem_names hcircles)
  · have habove := hw.isText_of_canonicalize hrep.canonical
    rw [hrep.result_eq]
    refine Path.isText_rooted (List.forall_mem_append.mpr ⟨fun n hm ↦ ?_, fun n hm ↦ ?_⟩)
    · rw [← Path.names_rooted hrep.plain] at hm
      exact Path.isText_of_mem_names habove n hm
    · exact Path.isText_of_mem_names ht n (hrep.split ▸ List.mem_append_right head hm)

/-- A directory behind a link, with a link to itself and a link to nothing. -/
def circleBehindLink : FileTree :=
  ⟨[(encode "p", .directory
    [(encode "link", .link (.ofString "real")),
      (encode "real", .directory
        [(encode "circle", .link (.ofString "circle")),
          (encode "gone", .link (.ofString "/nowhere/x"))])])]⟩

/-- Behind a link to a directory and a link that goes round in a circle, what was canonicalized is
canonicalized to itself. -/
theorem canonicalizeExisting_projects_behind_circle :
    let p : Path := .ofString "/p/./link/circle/x.js"
    let r : Path := .ofString "/p/real/circle/x.js"
    circleBehindLink.CirclesOnly p.names ∧ circleBehindLink.canonicalizeExisting p = r ∧
      circleBehindLink.canonicalizeExisting r = r := by
  intro p r
  have hnames : p.names = [encode "p", encode "link"] ++ encode "circle" :: [encode "x.js"] := by
    decide
  have hplain : ∀ n ∈ p.names, Plain n := Path.plain_of_mem_names
  rw [hnames] at hplain
  have hcircles : circleBehindLink.CirclesOnly p.names := by
    rw [hnames]
    exact circlesOnly_of_link_self (fun n hn ↦ (hplain n (List.mem_append_left _ hn)).noSlash)
      rfl rfl (hplain _ (by simp)) rfl
  have hr : circleBehindLink.canonicalizeExisting p = r := by decide +kernel
  have hagain := (canonicalizeExisting_projects circleBehindLink (p := p) (by decide)
    (Path.isText_ofString _)).2.2.1 hcircles
  rw [hr] at hagain
  exact ⟨hcircles, hr, hagain (Path.isText_ofString _)⟩

/-- A link to a directory whose name is no text. -/
def linkToBytes : FileTree :=
  ⟨[(encode "p", .directory [(encode "link", .link ⟨[255]⟩), ([255], .directory [])])]⟩

/-- The canonical path of a directory whose name is no text is replaced by something else. -/
theorem canonicalizeExisting_moves_linkToBytes :
    ((Path.ofString "/p/link").isAbsolute ∧ IsText (Path.ofString "/p/link").bytes ∧
      linkToBytes.CirclesOnly (Path.ofString "/p/link").names) ∧
    linkToBytes.canonicalizeExisting (.ofString "/p/link") = ⟨encode "/p/" ++ [255]⟩ ∧
    linkToBytes.canonicalizeExisting (linkToBytes.canonicalizeExisting (.ofString "/p/link")) ≠
      linkToBytes.canonicalizeExisting (.ofString "/p/link") := by
  have hlocate : linkToBytes.locate (rooted (Path.ofString "/p/link").names) =
      .ok ⟨linkToBytes, [([255], .directory []),
        (encode "p", .directory [(encode "link", .link ⟨[255]⟩), ([255], .directory [])])]⟩ := rfl
  exact ⟨⟨by decide, Path.isText_ofString _,
    circlesOnly_of_locate (fun n hn ↦ (Path.plain_of_mem_names n hn).noSlash) hlocate⟩,
    by decide +kernel, by decide +kernel⟩

end Relocation.FileTree

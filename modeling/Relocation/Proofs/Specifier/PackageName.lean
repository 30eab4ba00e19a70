import Relocation.Specifier.PackageName

/-!
# Package names in specifiers

A package's name is a beginning of its specifiers. What stands behind it is nothing, or begins
with a slash. A complete name is a segment, or a scope with a segment (`CompleteName`); it is what
splits off from all specifiers of the package. A scope that is followed by two slashes has an empty
segment, and what splits off from there is no complete name.
-/

namespace Relocation.Specifier

private theorem dropWhile_slash_cases (cs : List Char) :
    cs.dropWhile (· ≠ '/') = [] ∨ ∃ tail, cs.dropWhile (· ≠ '/') = '/' :: tail := by
  cases h : cs.dropWhile (· ≠ '/') with
  | nil => exact .inl rfl
  | cons c tail =>
    have hc := List.head?_dropWhile_not (· ≠ '/') cs
    rw [h] at hc
    have hslash : c = '/' := by simpa using hc
    exact .inr ⟨tail, by rw [hslash]⟩

/-- The parts of a specifier that names a package. -/
structure Splits (cs name rest : List Char) : Prop where
  split : cs = name ++ rest
  name_ne_nil : name ≠ []
  name_not_path : isPath name = false
  rest_cases : rest = [] ∨ ∃ tail, rest = '/' :: tail

/-- The two parts that a specifier is split into are a name and what is inside. -/
theorem splits_of_splitPackage {cs name rest : List Char}
    (h : splitPackage cs = some (name, rest)) : Splits cs name rest := by
  unfold splitPackage at h
  split at h
  · cases h
  · next hpath =>
    rw [not_or, Bool.not_eq_true] at hpath
    obtain ⟨hne, hpath⟩ := hpath
    obtain ⟨c, cs, rfl⟩ := List.exists_cons_of_ne_nil hne
    have hc : c ≠ '/' := by
      rintro rfl
      simp [isPath] at hpath
    have hfirst : (c :: cs).takeWhile (· ≠ '/') = c :: cs.takeWhile (· ≠ '/') := by
      rw [List.takeWhile_cons_of_pos (by simpa using hc)]
    have hsplit := (List.takeWhile_append_dropWhile (p := (· ≠ '/')) (l := c :: cs)).symm
    have hpathFirst (ds : List Char) : isPath (c :: ds) = false := hpath
    dsimp only at h
    split at h
    · -- a scope goes on behind its slash
      split at h
      · next slash second tail hrest =>
        obtain ⟨rfl, rfl⟩ := Prod.mk.inj (Option.some.inj h)
        obtain rfl : slash = '/' := by
          rcases dropWhile_slash_cases (c :: cs) with hd | ⟨ds, hd⟩
          · rw [hd] at hrest
            cases hrest
          · rw [hd] at hrest
            exact (List.cons.inj hrest).1.symm
        refine ⟨?_, by simp, by rw [hfirst]; exact hpathFirst _, dropWhile_slash_cases _⟩
        rw [List.append_assoc, List.cons_append, List.takeWhile_append_dropWhile, ← hrest]
        exact hsplit
      · cases h
    · obtain ⟨rfl, rfl⟩ := Prod.mk.inj (Option.some.inj h)
      refine ⟨hsplit, by rw [hfirst]; simp, by rw [hfirst]; exact hpathFirst _,
        dropWhile_slash_cases _⟩

/-! ### Complete names -/

/-- What stands behind the name of a package in its specifiers. -/
def IsInside (rest : List Char) : Prop := rest = [] ∨ ∃ tail, rest = '/' :: tail

/-- A package's name by itself: one segment, or a scope and one segment. -/
inductive CompleteName : List Char → Prop where
  | segment {cs : List Char} (nonempty : cs ≠ []) (notPath : isPath cs = false)
      (noScope : cs.head? ≠ some '@') (noSlash : '/' ∉ cs) : CompleteName cs
  | inScope {scope cs : List Char} (scopeNoSlash : '/' ∉ scope) (nonempty : cs ≠ [])
      (noSlash : '/' ∉ cs) : CompleteName ('@' :: scope ++ '/' :: cs)

private theorem exists_first_segment (cs : List Char) :
    ∃ first rest, cs = first ++ rest ∧ '/' ∉ first ∧ IsInside rest :=
  ⟨_, _, (List.takeWhile_append_dropWhile (p := (· ≠ '/'))).symm,
    fun h ↦ by simpa using List.all_eq_true.mp List.all_takeWhile _ h, dropWhile_slash_cases cs⟩

private theorem takeWhile_slash {first rest : List Char} (hfirst : '/' ∉ first)
    (hrest : IsInside rest) : (first ++ rest).takeWhile (· ≠ '/') = first := by
  rw [List.takeWhile_append_of_pos fun c hc ↦ by
    rw [decide_eq_true_iff]
    rintro rfl
    exact hfirst hc]
  rcases hrest with rfl | ⟨tail, rfl⟩ <;> simp

private theorem dropWhile_slash {first rest : List Char} (hfirst : '/' ∉ first)
    (hrest : IsInside rest) : (first ++ rest).dropWhile (· ≠ '/') = rest := by
  rw [List.dropWhile_append_of_pos fun c hc ↦ by
    rw [decide_eq_true_iff]
    rintro rfl
    exact hfirst hc]
  rcases hrest with rfl | ⟨tail, rfl⟩ <;> simp

/-- Of a specifier without a scope, the first segment splits off. -/
private theorem splitPackage_segment {cs rest : List Char} (hne : cs ≠ [])
    (hpath : isPath cs = false) (hscope : cs.head? ≠ some '@') (hslash : '/' ∉ cs)
    (hrest : IsInside rest) : splitPackage (cs ++ rest) = some (cs, rest) := by
  obtain ⟨c, cs, rfl⟩ := List.exists_cons_of_ne_nil hne
  have hwhole : ¬(c :: cs ++ rest = [] ∨ isPath (c :: cs ++ rest)) :=
    not_or.mpr ⟨List.cons_ne_nil _ _, Bool.eq_false_iff.mp hpath⟩
  unfold splitPackage
  rw [if_neg hwhole]
  dsimp only
  rw [if_neg (show (c :: cs ++ rest).head? ≠ some '@' from hscope), takeWhile_slash hslash hrest,
    dropWhile_slash hslash hrest]

/-- Of a specifier with a scope, the scope splits off with what follows up to the next slash, if
anything follows. -/
private theorem splitPackage_inScope {scope cs rest : List Char} (hscope : '/' ∉ scope)
    (hslash : '/' ∉ cs) (hrest : IsInside rest) :
    splitPackage ('@' :: scope ++ '/' :: (cs ++ rest)) =
      if cs ++ rest = [] then none else some ('@' :: scope ++ '/' :: cs, rest) := by
  have hfirst : '/' ∉ '@' :: scope := List.not_mem_cons_of_ne_of_not_mem (by decide) hscope
  have hinside : IsInside ('/' :: (cs ++ rest)) := .inr ⟨_, rfl⟩
  have hwhole : ¬('@' :: scope ++ '/' :: (cs ++ rest) = [] ∨
      isPath ('@' :: scope ++ '/' :: (cs ++ rest))) :=
    not_or.mpr ⟨List.cons_ne_nil _ _, by simp [isPath]⟩
  unfold splitPackage
  rw [if_neg hwhole]
  dsimp only
  rw [if_pos (by rfl), takeWhile_slash hfirst hinside, dropWhile_slash hfirst hinside]
  cases hall : cs ++ rest with
  | nil => rfl
  | cons c tail =>
    dsimp only
    rw [← hall, takeWhile_slash hslash hrest, dropWhile_slash hslash hrest, hall,
      if_neg (List.cons_ne_nil c tail)]

/-- A scope by itself names no package. -/
private theorem splitPackage_scope {scope : List Char} (hscope : '/' ∉ scope) :
    splitPackage ('@' :: scope) = none := by
  have hfirst : '/' ∉ '@' :: scope := List.not_mem_cons_of_ne_of_not_mem (by decide) hscope
  have hdrop : ('@' :: scope).dropWhile (· ≠ '/') = [] := by
    simpa using dropWhile_slash hfirst (.inl rfl)
  unfold splitPackage
  rw [if_neg (not_or.mpr ⟨List.cons_ne_nil _ _, by simp [isPath]⟩)]
  dsimp only
  rw [if_pos (by rfl), hdrop]

/-- A complete name splits off from the specifiers of its package. -/
theorem CompleteName.splitPackage_append {name rest : List Char} (h : CompleteName name)
    (hrest : IsInside rest) : splitPackage (name ++ rest) = some (name, rest) := by
  cases h with
  | segment nonempty notPath noScope noSlash =>
    exact splitPackage_segment nonempty notPath noScope noSlash hrest
  | inScope scopeNoSlash nonempty noSlash =>
    have hsplit := splitPackage_inScope scopeNoSlash noSlash hrest
    rw [if_neg fun h ↦ nonempty (List.append_eq_nil_iff.mp h).1] at hsplit
    rwa [List.append_assoc]

/-- What splits off behind an at sign is a complete name, or a scope with an empty segment. -/
private theorem splitPackage_cases_of_scope {cs name rest : List Char}
    (h : splitPackage ('@' :: cs) = some (name, rest)) :
    CompleteName name ∨
      ∃ scope tail, '/' ∉ scope ∧ name = '@' :: scope ++ ['/'] ∧ rest = '/' :: tail := by
  obtain ⟨scope, inside, rfl, hscope, rfl | ⟨tail, rfl⟩⟩ := exists_first_segment cs
  · rw [List.append_nil, splitPackage_scope hscope] at h
    cases h
  · obtain ⟨second, deeper, rfl, hsecond, hdeeper⟩ := exists_first_segment tail
    have hsplit := splitPackage_inScope hscope hsecond hdeeper
    rw [List.cons_append, h] at hsplit
    split at hsplit
    · cases hsplit
    · next hmore =>
      obtain ⟨rfl, rfl⟩ := Prod.mk.inj (Option.some.inj hsplit)
      by_cases hs : second = []
      · subst hs
        obtain ⟨tail, rfl⟩ := hdeeper.resolve_left hmore
        exact .inr ⟨scope, tail, hscope, rfl, rfl⟩
      · exact .inl (.inScope hscope hs hsecond)

/-- What splits off is a complete name, or a scope with an empty segment. -/
theorem splitPackage_cases {cs name rest : List Char} (h : splitPackage cs = some (name, rest)) :
    CompleteName name ∨
      ∃ scope tail, '/' ∉ scope ∧ name = '@' :: scope ++ ['/'] ∧ rest = '/' :: tail := by
  have hwhole : ¬(cs = [] ∨ isPath cs) := by
    intro hw
    rw [splitPackage, if_pos hw] at h
    cases h
  obtain ⟨hne, hpath⟩ := not_or.mp hwhole
  obtain ⟨c, cs, rfl⟩ := List.exists_cons_of_ne_nil hne
  by_cases hc : c = '@'
  · subst hc
    exact splitPackage_cases_of_scope h
  · obtain ⟨first, inside, hsplit, hfirst, hinside⟩ := exists_first_segment cs
    have hslash : '/' ∉ c :: first := by
      refine List.not_mem_cons_of_ne_of_not_mem ?_ hfirst
      rintro rfl
      exact hpath rfl
    have hscope : (c :: first).head? ≠ some '@' := fun hs ↦ hc (Option.some.inj hs)
    have hfirstPath : isPath (c :: first) = false := Bool.eq_false_iff.mpr hpath
    rw [hsplit, ← List.cons_append,
      splitPackage_segment (List.cons_ne_nil c first) hfirstPath hscope hslash hinside] at h
    obtain ⟨rfl, rfl⟩ := Prod.mk.inj (Option.some.inj h)
    exact .inl (.segment (List.cons_ne_nil c first) hfirstPath hscope hslash)

/-- Nothing but a complete name splits off from itself. -/
theorem splitPackage_eq_self_iff {name : List Char} :
    splitPackage name = some (name, []) ↔ CompleteName name := by
  constructor
  · intro h
    rcases splitPackage_cases h with hn | ⟨scope, tail, -, -, hrest⟩
    · exact hn
    · cases hrest
  · intro h
    simpa using h.splitPackage_append (.inl rfl)

/-- The name of a package is the first part of its specifier. -/
theorem packageName_eq_some_iff {s name : String} :
    packageName s = some name ↔ ∃ rest, splitPackage s.toList = some (name.toList, rest) := by
  unfold packageName
  cases hs : splitPackage s.toList with
  | none => simp
  | some parts =>
    obtain ⟨cs, rest⟩ := parts
    simp [← @String.toList_inj _ name]

private theorem packageImport_eq_some_iff {s name inside : String} :
    packageImport s = some (name, inside) ↔
      ∃ rest, splitPackage s.toList = some (name.toList, rest) ∧
        inside = "." ++ String.ofList rest := by
  unfold packageImport
  cases hs : splitPackage s.toList with
  | none => simp
  | some parts =>
    obtain ⟨cs, rest⟩ := parts
    have hdot : String.ofList ('.' :: rest) = "." ++ String.ofList rest :=
      @String.ofList_append ['.'] rest
    simp only [Option.map_some, Option.some.injEq, Prod.mk.injEq, hdot]
    rw [← String.toList_inj, String.toList_ofList]
    constructor
    · rintro ⟨hcs, rfl⟩
      exact ⟨rest, ⟨hcs, rfl⟩, rfl⟩
    · rintro ⟨rest, ⟨hcs, rfl⟩, rfl⟩
      exact ⟨hcs, rfl⟩

/-! ### What is lost and what is not -/

/-- A specifier begins with a scope whose package segment is empty. -/
def LacksSegment (s : String) : Prop :=
  ∃ scope tail : String, '/' ∉ scope.toList ∧ s = "@" ++ scope ++ "//" ++ tail

/-- The name of a package and the path inside it make up the specifier. The name is that of the
package itself, unless the specifier begins with a scope whose package segment is empty: what is
taken for the name there is the scope with its slash, which names no package. -/
theorem packageImport_parts {s name inside : String} (h : packageImport s = some (name, inside)) :
    packageName s = some name ∧
      (∃ rest, inside = "." ++ rest ∧ (rest = "" ∨ ∃ tail, rest = "/" ++ tail) ∧
        name ++ rest = s) ∧
      (¬LacksSegment s → packageName name = some name) ∧
      ∀ scope tail, '/' ∉ scope.toList → s = "@" ++ scope ++ "//" ++ tail →
        name = "@" ++ scope ++ "/" ∧ packageName name = none := by
  obtain ⟨rest, hsplit, rfl⟩ := packageImport_eq_some_iff.mp h
  have hparts := splits_of_splitPackage hsplit
  refine ⟨packageName_eq_some_iff.mpr ⟨rest, hsplit⟩, ⟨String.ofList rest, rfl, ?_, ?_⟩,
    fun hlacks ↦ ?_, fun scope tail hscope hs ↦ ?_⟩
  · rcases hparts.rest_cases with rfl | ⟨tail, rfl⟩
    · exact .inl rfl
    · exact .inr ⟨String.ofList tail, @String.ofList_append ['/'] tail⟩
  · rw [← String.toList_inj, String.toList_append, String.toList_ofList, ← hparts.split]
  · rcases splitPackage_cases hsplit with hname | ⟨scope, tail, hscope, hname, rfl⟩
    · exact packageName_eq_some_iff.mpr ⟨[], splitPackage_eq_self_iff.mpr hname⟩
    · refine absurd ⟨String.ofList scope, String.ofList tail, by simpa using hscope, ?_⟩ hlacks
      rw [← String.toList_inj, hparts.split, hname]
      simp
  · have hchars : s.toList = '@' :: scope.toList ++ '/' :: ([] ++ '/' :: tail.toList) := by
      rw [hs]
      simp
    have hfound := splitPackage_inScope hscope (List.not_mem_nil (a := '/'))
      (.inr ⟨tail.toList, rfl⟩)
    rw [← hchars, hsplit, if_neg (by simp)] at hfound
    have hname : name = "@" ++ scope ++ "/" := by
      rw [← String.toList_inj, (Prod.mk.inj (Option.some.inj hfound)).1]
      simp
    refine ⟨hname, ?_⟩
    have hnone := splitPackage_inScope hscope (List.not_mem_nil (a := '/')) (.inl rfl)
    rw [if_pos (by rfl)] at hnone
    have hnameChars : name.toList = '@' :: scope.toList ++ '/' :: ([] ++ []) := by
      rw [hname]
      simp
    rw [packageName, hnameChars, hnone]
    rfl

/-- A scoped name is kept whole in front of doubled slashes. -/
theorem packageImport_parts_of_scoped :
    packageImport "@ali/xxx//lib" = some ("@ali/xxx", ".//lib") ∧
      (∃ rest, ".//lib" = "." ++ rest ∧ "@ali/xxx" ++ rest = "@ali/xxx//lib") ∧
      ¬LacksSegment "@ali/xxx//lib" ∧ packageName "@ali/xxx" = some "@ali/xxx" := by
  have hparts : packageImport "@ali/xxx//lib" = some ("@ali/xxx", ".//lib") := by decide
  obtain ⟨-, ⟨rest, hinside, -, hwhole⟩, hname, hlacks⟩ := packageImport_parts hparts
  have hsegment : ¬LacksSegment "@ali/xxx//lib" := by
    rintro ⟨scope, tail, hscope, hs⟩
    exact absurd (hlacks scope tail hscope hs).2 (by decide)
  exact ⟨hparts, ⟨rest, hinside, hwhole⟩, hsegment, hname hsegment⟩

/-- Two slashes behind a scope: the scope with its slash is taken for a name, which names
nothing. -/
theorem packageImport_takes_emptySegment :
    packageImport "@scope//x" = some ("@scope/", "./x") ∧
      packageName "@scope/" ≠ some "@scope/" := by
  decide

end Relocation.Specifier

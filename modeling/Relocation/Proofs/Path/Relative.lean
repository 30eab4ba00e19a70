import Relocation.Path.Relative
import Relocation.Proofs.Path.Clean

/-!
# Ways between paths

The way from one list of names to another goes up to their last common directory and down from
there. It is what `Path.relative` writes and, marked as relative or not, what any directory reads
back: from its own start it leads to its target, and from any other directory it climbs as far
and comes down by the same names. A way out of a directory is the same from a place further down
in that directory.
-/

namespace Relocation.Path

open Text.Utf8 (IsText encode)

/-! ### The way between names -/

/-- How many names two lists begin with in common. -/
def commonLength : List Name → List Name → Nat
  | a :: as, b :: bs => if a = b then commonLength as bs + 1 else 0
  | _, _ => 0

/-- How far up the way between two lists of names goes. -/
def climb (start target : List Name) : Nat := start.length - commonLength start target

/-- By which names the way between two lists of names comes down. -/
def descent (start target : List Name) : List Name := target.drop (commonLength start target)

/-- The segments of the way between two lists of names. -/
def wayBetween (start target : List Name) : List Name :=
  List.replicate (climb start target) dotDot ++ descent start target

/-- A name that both lists begin with is common. -/
@[simp] theorem commonLength_cons_self (n : Name) (as bs : List Name) :
    commonLength (n :: as) (n :: bs) = commonLength as bs + 1 := by
  simp [commonLength]

/-- With no names, none are in common. -/
@[simp] theorem commonLength_nil_right (as : List Name) : commonLength as [] = 0 := by
  cases as <;> rfl

/-- No more names are in common than the first list has. -/
theorem commonLength_le_left (as bs : List Name) : commonLength as bs ≤ as.length := by
  fun_induction commonLength with
  | case1 as b bs ih => simpa using ih
  | case2 => exact Nat.zero_le _
  | case3 => exact Nat.zero_le _

/-- The common beginning of two lists. -/
theorem take_commonLength (as bs : List Name) :
    as.take (commonLength as bs) = bs.take (commonLength as bs) := by
  fun_induction commonLength with
  | case1 as b bs ih => simp [ih]
  | case2 => rfl
  | case3 => rfl

/-- The names that the way comes down by stand behind the common beginning. -/
theorem take_append_descent (as bs : List Name) :
    as.take (commonLength as bs) ++ descent as bs = bs := by
  rw [take_commonLength, descent, List.take_append_drop]

/-- So they do behind what is left of the start when the way has climbed. -/
theorem take_append_descent_of_climb (as bs : List Name) :
    as.take (as.length - climb as bs) ++ descent as bs = bs := by
  rw [climb, Nat.sub_sub_self (commonLength_le_left as bs), take_append_descent]

/-- The way between names comes down by names of the target. -/
theorem mem_of_mem_descent {as bs : List Name} {n : Name} (h : n ∈ descent as bs) : n ∈ bs :=
  List.mem_of_mem_drop h

/-- A property of pairs of dots and of the target's names holds along the way. -/
theorem forall_mem_wayBetween {P : Name → Prop} (hd : P dotDot) {as bs : List Name}
    (hb : ∀ b ∈ bs, P b) : ∀ s ∈ wayBetween as bs, P s := by
  intro s hs
  rcases List.mem_append.mp hs with h | h
  · rwa [List.eq_of_mem_replicate h]
  · exact hb s (mem_of_mem_descent h)

/-- Where the way between two lists of names leads from a third. -/
theorem reach_wayBetween {ns bs : List Name} (hn : ∀ n ∈ ns, Plain n) (hb : ∀ b ∈ bs, Plain b)
    (as : List Name) :
    reach ns (wayBetween as bs) = ns.take (ns.length - climb as bs) ++ descent as bs := by
  rw [wayBetween, reach_replicate fun n h ↦ (hn n h).ne_dotDot,
    reach_of_plain fun b h ↦ hb b (mem_of_mem_descent h)]

/-- From its start, the way leads to its target. -/
theorem reach_wayBetween_self {as bs : List Name} (ha : ∀ a ∈ as, Plain a)
    (hb : ∀ b ∈ bs, Plain b) : reach as (wayBetween as bs) = bs := by
  rw [reach_wayBetween ha hb, take_append_descent_of_climb]

private theorem commonLength_append (as xs bs : List Name) :
    commonLength (as ++ xs) bs =
      if commonLength as bs = as.length then as.length + commonLength xs (bs.drop as.length)
      else commonLength as bs := by
  induction as generalizing bs with
  | nil => simp [commonLength]
  | cons a as ih =>
    cases bs with
    | nil => simp [commonLength]
    | cons b bs =>
      by_cases h : a = b
      · subst h
        simp only [List.cons_append, commonLength_cons_self, ih, List.length_cons,
          List.drop_succ_cons, Nat.add_right_cancel_iff]
        split <;> omega
      · simp [commonLength, h]

private theorem commonLength_append_right (as xs : List Name) :
    commonLength as (as ++ xs) = as.length := by
  induction as with
  | nil => simp [commonLength]
  | cons a as ih => rw [List.cons_append, commonLength_cons_self, ih, List.length_cons]

/-- Nothing is climbed to what lies below the start. -/
@[simp] theorem climb_append_right (as xs : List Name) : climb as (as ++ xs) = 0 := by
  rw [climb, commonLength_append_right, Nat.sub_self]

/-- The way down goes by the names behind those of the start. -/
@[simp] theorem descent_append_right (as xs : List Name) : descent as (as ++ xs) = xs := by
  rw [descent, commonLength_append_right, List.drop_left]

/-- The way to names that go on behind others consists of those that they go on by. -/
theorem wayBetween_append_right (as xs : List Name) : wayBetween as (as ++ xs) = xs := by
  simp [wayBetween]

/-- A way that begins further down leads, from as much further down elsewhere, to the same
place. -/
theorem reach_wayBetween_append {os ss xs ts : List Name} (ho : ∀ o ∈ os, Plain o)
    (hx : ∀ x ∈ xs, Plain x) (ht : ∀ t ∈ ts, Plain t) :
    reach (os ++ xs) (wayBetween (ss ++ xs) ts) = reach os (wayBetween ss ts) := by
  have hox : ∀ n ∈ os ++ xs, Plain n := by
    intro n hn
    rcases List.mem_append.mp hn with h | h
    · exact ho n h
    · exact hx n h
  have hs := commonLength_le_left ss ts
  have hd := commonLength_le_left xs (ts.drop ss.length)
  rw [reach_wayBetween hox ht, reach_wayBetween ho ht]
  simp only [climb, descent, commonLength_append, List.length_append]
  split
  · next h =>
    -- the target stands below the start's directory, so nothing is climbed outside it
    rw [h, Nat.sub_self, Nat.sub_zero, List.take_length, ← List.drop_drop,
      show os.length + xs.length - (ss.length + xs.length -
        (ss.length + commonLength xs (ts.drop ss.length))) =
          os.length + commonLength xs (ts.drop ss.length) by omega,
      List.take_length_add_append, List.append_assoc]
    exact congrArg (os ++ ·) (take_append_descent xs (ts.drop ss.length))
  · next h =>
    rw [show os.length + xs.length - (ss.length + xs.length - commonLength ss ts) =
        os.length - (ss.length - commonLength ss ts) by omega,
      List.take_append_of_le_length (Nat.sub_le _ _)]

/-! ### The way between paths -/

private theorem stepsBetween_nil (ss : List Component) (begun : Bool) :
    stepsBetween [] ss begun = some (List.replicate ss.length .parent) := by
  induction ss generalizing begun with
  | nil => rfl
  | cons s ss ih => simp [stepsBetween, ih, List.replicate_succ]

private theorem stepsBetween_names (as bs : List Name) :
    stepsBetween (bs.map .name) (as.map .name) false =
      some (List.replicate (climb as bs) .parent ++ (descent as bs).map .name) := by
  induction as generalizing bs with
  | nil => cases bs <;> simp [stepsBetween, climb, descent, commonLength]
  | cons a as ih =>
    cases bs with
    | nil => simp [stepsBetween_nil, climb, descent]
    | cons b bs =>
      by_cases h : a = b
      · subst h
        simp [stepsBetween, ih, climb, descent]
      · have hb : b ≠ a := Ne.symm h
        simp [stepsBetween, hb, h, climb, descent, commonLength, List.replicate_succ,
          Function.comp_def]

private theorem join_joinSegments {ss : List Name} {s : Name} (hs : ss ≠ [])
    (h : ∀ t ∈ ss, t ≠ [] ∧ slash ∉ t) (hn : slash ∉ s) :
    (⟨joinSegments ss⟩ : Path).join ⟨s⟩ = ⟨joinSegments (ss ++ [s])⟩ := by
  rw [join, isAbsolute_of_slash_notMem hn, if_neg Bool.false_ne_true,
    if_pos (getLast?_joinSegments hs h), joinSegments_append hs (by simp)]
  rfl

private theorem foldl_join {cs : List Component} {ss : List Name} (hs : ss ≠ [])
    (h : ∀ t ∈ ss, t ≠ [] ∧ slash ∉ t) (hc : ∀ c ∈ cs, c.spelling ≠ [] ∧ slash ∉ c.spelling) :
    cs.foldl (fun p c ↦ p.join ⟨c.spelling⟩) (⟨joinSegments ss⟩ : Path) =
      ⟨joinSegments (ss ++ cs.map Component.spelling)⟩ := by
  induction cs generalizing ss with
  | nil => simp
  | cons c cs ih =>
    have hm := hc c (List.mem_cons_self ..)
    rw [List.foldl_cons, join_joinSegments hs h hm.2, ih (by simp), List.map_cons]
    · simp
    · intro t ht
      rcases List.mem_append.mp ht with ht | ht
      · exact h t ht
      · rwa [List.mem_singleton.mp ht]
    · exact fun d hd ↦ hc d (List.mem_cons_of_mem _ hd)

/-- The path of components that are spelled by segments is these segments put together. -/
theorem ofComponents_eq {cs : List Component}
    (hc : ∀ c ∈ cs, c.spelling ≠ [] ∧ slash ∉ c.spelling) :
    ofComponents cs = ⟨joinSegments (cs.map Component.spelling)⟩ := by
  cases cs with
  | nil => rfl
  | cons c cs =>
    have hm := hc c (List.mem_cons_self ..)
    have h1 : (⟨[]⟩ : Path).join ⟨c.spelling⟩ = ⟨joinSegments [c.spelling]⟩ := by
      simp [join, joinSegments]
    rw [ofComponents, List.foldl_cons, h1, foldl_join (by simp) (by simpa using hm) fun d hd ↦
      hc d (List.mem_cons_of_mem _ hd)]
    rfl

private theorem slash_notMem_dotDot : slash ∉ dotDot := by decide

/-- The segments of a way are no empty ones and hold no slash. -/
theorem solid_of_mem_wayBetween (as : List Name) {bs : List Name} (hb : ∀ b ∈ bs, Plain b) :
    ∀ s ∈ wayBetween as bs, s ≠ [] ∧ slash ∉ s :=
  forall_mem_wayBetween ⟨by decide, slash_notMem_dotDot⟩ fun b h ↦
    ⟨(hb b h).ne_nil, (hb b h).noSlash⟩

private theorem difference?_rooted {as bs : List Name} (ha : ∀ a ∈ as, Plain a)
    (hb : ∀ b ∈ bs, Plain b) :
    difference? (rooted bs) (rooted as) = some ⟨joinSegments (wayBetween as bs)⟩ := by
  have hs : (List.replicate (climb as bs) Component.parent ++
      (descent as bs).map Component.name).map Component.spelling = wayBetween as bs := by
    simp [wayBetween, Component.spelling, Function.comp_def]
  have hc : stepsBetween (.root :: bs.map .name) (.root :: as.map .name) false =
      some (List.replicate (climb as bs) .parent ++ (descent as bs).map .name) := by
    simpa [stepsBetween] using stepsBetween_names as bs
  rw [difference?, isAbsolute_rooted, isAbsolute_rooted, if_pos rfl, components_rooted ha,
    components_rooted hb, hc, Option.map_some, ofComponents_eq, hs]
  intro c hm
  have hw := solid_of_mem_wayBetween as hb c.spelling
  rw [← hs] at hw
  exact hw (List.mem_map_of_mem hm)

/-- Between absolute paths that are text, the way is written by its segments. -/
theorem relative_eq_ok {p q : Path} (hp : p.isAbsolute) (hpt : IsText p.bytes)
    (hq : q.isAbsolute) (hqt : IsText q.bytes) :
    ∃ way, relative p q = .ok way ∧ encode way = joinSegments (wayBetween p.names q.names) := by
  have ht : IsText (joinSegments (wayBetween p.names q.names)) :=
    isText_joinSegments (forall_mem_wayBetween ⟨"..", rfl⟩ (isText_of_mem_names hqt))
  obtain ⟨way, hw⟩ := ht
  refine ⟨way, ?_, hw.symm⟩
  have hd : (⟨joinSegments (wayBetween p.names q.names)⟩ : Path).text? = some way :=
    Text.Utf8.decode?_eq_some_iff.mpr hw
  simp only [relative, clean_of_isAbsolute hp hpt, clean_of_isAbsolute hq hqt,
    difference?_rooted plain_of_mem_names plain_of_mem_names, hd]

/-! ### Marked ways -/

/-- Marking leaves a way as it is or puts a dot in front of it. -/
theorem markRelative_eq (way : String) :
    markRelative way = way ∨ markRelative way = "./" ++ way := by
  unfold markRelative
  split
  · exact .inl rfl
  · exact .inr rfl

/-- A dot in front of a way is a segment of its own. -/
theorem segments_dot_slash (way : String) :
    (ofString ("./" ++ way)).segments = dot :: (ofString way).segments := by
  change segmentsOf (encode ("./" ++ way)) = _
  rw [Text.Utf8.encode_append]
  exact segmentsOf_append_slash dot (encode way)

/-- A path that begins with a dot and a slash is relative. -/
theorem isAbsolute_dot_slash (way : String) : (ofString ("./" ++ way)).isAbsolute = false := by
  change decide ((encode ("./" ++ way)).head? = some slash) = false
  rw [Text.Utf8.encode_append]
  rfl

/-- A way written as segments leads where they lead. -/
theorem reach_segments_ofString {way : String} {ss : List Name}
    (hw : encode way = joinSegments ss) (hs : ∀ s ∈ ss, slash ∉ s) (ns : List Name) :
    reach ns (ofString way).segments = reach ns ss := by
  change reach ns (segmentsOf (encode way)) = reach ns ss
  rw [hw]
  by_cases hn : ss = []
  · subst hn
    exact reach_cons_nil ns []
  · rw [segmentsOf_joinSegments hn hs]

/-- A marked way leads where its segments lead. -/
theorem reach_markRelative {way : String} {ss : List Name} (hw : encode way = joinSegments ss)
    (hs : ∀ s ∈ ss, slash ∉ s) (ns : List Name) :
    reach ns (ofString (markRelative way)).segments = reach ns ss := by
  rcases markRelative_eq way with h | h
  · rw [h, reach_segments_ofString hw hs]
  · rw [h, segments_dot_slash, reach_cons_dot, reach_segments_ofString hw hs]

/-- A way between names does not begin at the root, marked or not. -/
theorem isAbsolute_ofString_wayBetween {way : String} {as bs : List Name}
    (hb : ∀ b ∈ bs, Plain b) (hw : encode way = joinSegments (wayBetween as bs)) :
    (ofString way).isAbsolute = false ∧ (ofString (markRelative way)).isAbsolute = false := by
  have h0 : (ofString way).isAbsolute = false := by
    have hs := solid_of_mem_wayBetween as hb
    change decide ((encode way).head? = some slash) = false
    rw [hw, decide_eq_false_iff_not]
    intro hh
    cases hss : wayBetween as bs with
    | nil => simp [hss, joinSegments] at hh
    | cons s ss =>
      rw [hss] at hs hh
      obtain ⟨hne, hns⟩ := hs s (List.mem_cons_self ..)
      cases s with
      | nil => exact hne rfl
      | cons c s =>
        have hc := (List.ne_and_not_mem_of_not_mem_cons hns).1
        cases ss <;> exact hc (Option.some.inj hh).symm
  refine ⟨h0, ?_⟩
  rcases markRelative_eq way with h | h
  · rwa [h]
  · rw [h, isAbsolute_dot_slash]

end Relocation.Path

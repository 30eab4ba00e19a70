import Relocation.Proofs.Pass.Rest
import Relocation.Syntax.Exchange

/-!
# Trees that are read from their JSON form

Lists of items stand in files and in namespaces only, so in a tree that was read no call has one
for a child.
-/

namespace Relocation.Syntax.Exchange

open Json (Document Members)
open Pass (CallsApart)

private theorem roleOf_ne_items (place : Place) (attributes : Members) (names : List String) :
    roleOf place attributes names ≠ .items := by
  unfold roleOf
  dsimp only
  split
  · split <;> simp
  all_goals try (split <;> simp)
  all_goals simp

/-- Only where items stand is a list read as one of items. -/
theorem role_read_ne_items {place : Place} (h : place ≠ .items) (d : Document) :
    (read place d).role ≠ .items := by
  cases d with
  | array items => simp [read, Tree.role, Dialect.role, Label.role, h]
  | object members => exact roleOf_ne_items _ _ _
  | _ => simp [read, Tree.role, Dialect.role, Label.role]

/-- The type of a call is that of its attributes. -/
theorem type_of_roleOf_eq_call {place : Place} {attributes : Members} {names : List String}
    (h : roleOf place attributes names = .call) :
    (attributes.lookup "type").bind Document.string? = some "CallExpression" := by
  unfold roleOf at h
  dsimp only at h
  split at h
  · split at h <;> cases h
  · assumption
  all_goals first | cases h | (split at h <;> cases h)

/-- A member that is a string is found among the attributes too. -/
theorem lookup_filter_of_string? {members : Members} {name v : String}
    (h : (members.lookup name).bind Document.string? = some v) :
    ((members.filter fun m ↦ !holdsNodes m.2).lookup name).bind Document.string? = some v := by
  induction members with
  | nil => cases h
  | cons m members ih =>
    obtain ⟨key, d⟩ := m
    rw [List.lookup_cons] at h
    cases hk : name == key with
    | true =>
      rw [hk] at h
      have hd : holdsNodes d = false := by
        cases d <;> first | rfl | cases h
      rw [List.filter_cons_of_pos (by simp [hd]), List.lookup_cons, hk]
      exact h
    | false =>
      rw [hk] at h
      rw [List.filter_cons]
      split
      · rw [List.lookup_cons, hk]
        exact ih h
      · exact ih h

/-- No member comes twice in the order of traversal. -/
theorem nodup_order (type : Option String) : (order type).Nodup := by
  unfold order
  split <;> decide

/-- Taking out the members of one name after the other leaves nothing out. -/
private theorem flatMap_filter_perm {α : Type} {names : List String} (h : names.Nodup)
    (members : List (String × α)) :
    (names.flatMap fun name ↦ members.filter (·.1 = name)).Perm
      (members.filter fun m ↦ names.contains m.1) := by
  induction names with
  | nil => simp
  | cons name names ih =>
    obtain ⟨hname, hnames⟩ := List.nodup_cons.mp h
    have hfirst : (members.filter fun m ↦ (name :: names).contains m.1).filter (·.1 = name) =
        members.filter (·.1 = name) := by
      rw [List.filter_filter]
      refine List.filter_congr fun m _ ↦ ?_
      simp only [List.contains_cons, Bool.and_eq_left_iff_imp, decide_eq_true_eq]
      rintro rfl
      simp
    have hothers : (members.filter fun m ↦ (name :: names).contains m.1).filter
        (fun m ↦ !decide (m.1 = name)) = members.filter fun m ↦ names.contains m.1 := by
      rw [List.filter_filter]
      refine List.filter_congr fun m _ ↦ ?_
      by_cases hm : m.1 = name
      · simp [hm, hname]
      · simp [hm]
    rw [List.flatMap_cons]
    refine ((ih hnames).append_left _).trans ?_
    rw [← hfirst, ← hothers]
    exact List.filter_append_perm _ _

/-- Members that are put in order are the members that there were. -/
theorem arrange_perm {α : Type} (type : Option String) (members : List (String × α)) :
    (arrange type members).Perm members := by
  refine ((flatMap_filter_perm (nodup_order type) members).append_right _).trans ?_
  exact List.filter_append_perm _ _

/-- In what is no file and no namespace, no member is a list of items. -/
theorem role_readMembers_ne_items {type : Option String}
    (h : type ≠ some "Module" ∧ type ≠ some "TsModuleBlock") {members : Members}
    {m : String × Tree Label} (hm : m ∈ readMembers type members) : m.2.role ≠ .items := by
  induction members with
  | nil => cases hm
  | cons member members ih =>
    obtain ⟨name, d⟩ := member
    rw [readMembers] at hm
    split at hm
    · rcases List.mem_cons.mp hm with rfl | hm
      · refine role_read_ne_items ?_ d
        unfold placeOf
        rw [if_neg (fun hand ↦ hand.2.elim h.1 h.2)]
        split <;> simp
      · exact ih hm
    · exact ih hm

mutual

/-- In a tree that is read from its JSON form, the children of calls are no lists of items. -/
theorem callsApart_read (place : Place) (d : Document) : CallsApart (read place d) := by
  cases d with
  | array items =>
    rw [read]
    refine .node (fun hcall ↦ ?_) (callsApart_readAll items)
    simp only [Dialect.role, Label.role] at hcall
    split at hcall <;> cases hcall
  | object members =>
    rw [read]
    refine .node (fun hcall c hc ↦ ?_) fun c hc ↦ ?_
    · obtain ⟨m, hm, rfl⟩ := List.mem_map.mp hc
      have htype := type_of_roleOf_eq_call hcall
      have hother {name : String} (hn : name ≠ "CallExpression") :
          (members.lookup "type").bind Document.string? ≠ some name := fun h ↦
        hn (Option.some.inj ((lookup_filter_of_string? h).symm.trans htype))
      exact role_readMembers_ne_items ⟨hother (by decide), hother (by decide)⟩
        ((arrange_perm _ _).mem_iff.mp hm)
    · obtain ⟨m, hm, rfl⟩ := List.mem_map.mp hc
      exact callsApart_readMembers _ members m ((arrange_perm _ _).mem_iff.mp hm)
  | null | boolean | number | string => exact .node (fun h ↦ by cases h) (by simp)

/-- So are those of the elements of an array. -/
theorem callsApart_readAll (ds : List Document) : ∀ c ∈ readAll ds, CallsApart c := by
  cases ds with
  | nil => simp [readAll]
  | cons d ds =>
    intro c hc
    rw [readAll] at hc
    rcases List.mem_cons.mp hc with rfl | hc
    · exact callsApart_read .elsewhere d
    · exact callsApart_readAll ds c hc

/-- So are those of the members of an object. -/
theorem callsApart_readMembers (type : Option String) (members : List (String × Document)) :
    ∀ m ∈ readMembers type members, CallsApart m.2 := by
  cases members with
  | nil => simp [readMembers]
  | cons member members =>
    obtain ⟨name, d⟩ := member
    intro m hm
    rw [readMembers] at hm
    split at hm
    · rcases List.mem_cons.mp hm with rfl | hm
      · exact callsApart_read _ d
      · exact callsApart_readMembers type members m hm
    · exact callsApart_readMembers type members m hm

end

end Relocation.Syntax.Exchange

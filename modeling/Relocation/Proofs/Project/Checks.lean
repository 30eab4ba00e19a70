import Relocation.Project.Basic
import Relocation.Proofs.Text.Utf8

/-!
# Checks of paths in their order

Each path of a project is checked by itself, and the first one that is not absolute is reported.
What is put together from such checks checks the paths of all of them, one after the other.
-/

namespace Relocation.Project

/-- Tests whether a path does not begin at the root. -/
def isRelative (x : Purpose × String) : Bool := !(Path.ofString x.2).isAbsolute

/-- The result of checks of paths in their order: the first one that is relative is reported; if
there is none, there is a result of a kind. -/
structure Settles {α : Type} (xs : List (Purpose × String)) (r : Except Fault α)
    (kind : α → Prop) : Prop where
  failed : ∀ x, xs.find? isRelative = some x → r = .error (.notAbsolute x.1 (Path.ofString x.2))
  passed : xs.find? isRelative = none → ∃ a, r = .ok a ∧ kind a

/-- A path that is text is named as it is written. -/
theorem message_notAbsolute (purpose : Purpose) (path : String) :
    (Fault.notAbsolute purpose (Path.ofString path)).message =
      purpose.name ++ " must be an absolute path, got " ++ path :=
  congrArg (purpose.name ++ " must be an absolute path, got " ++ ·)
    (Text.Utf8.decodeLossy_encode path)

section
variable {α β : Type} {xs ys : List (Purpose × String)} {r : Except Fault α} {kind : α → Prop}

/-- There is a result exactly if all paths are absolute. -/
theorem Settles.exists_ok_iff (h : Settles xs r kind) :
    (∃ a, r = .ok a) ↔ ∀ x ∈ xs, (Path.ofString x.2).isAbsolute := by
  have hall : xs.find? isRelative = none ↔ ∀ x ∈ xs, (Path.ofString x.2).isAbsolute := by
    simp [List.find?_eq_none, isRelative]
  rw [← hall]
  constructor
  · rintro ⟨a, ha⟩
    refine Option.eq_none_iff_forall_ne_some.mpr fun x hx ↦ ?_
    rw [h.failed x hx] at ha
    contradiction
  · intro hnone
    obtain ⟨a, ha, -⟩ := h.passed hnone
    exact ⟨a, ha⟩

/-- What passes the checks is of the kind. -/
theorem Settles.kind_of_ok {a : α} (h : Settles xs r kind) (ha : r = .ok a) : kind a := by
  cases hx : xs.find? isRelative with
  | some x =>
    rw [h.failed x hx] at ha
    contradiction
  | none =>
    obtain ⟨b, hb, hk⟩ := h.passed hx
    obtain rfl := Except.ok.inj (ha.symm.trans hb)
    exact hk

/-- What fails the checks fails at the first relative path. -/
theorem Settles.exists_of_error {f : Fault} (h : Settles xs r kind) (hf : r = .error f) :
    ∃ x, xs.find? isRelative = some x ∧ f = .notAbsolute x.1 (Path.ofString x.2) := by
  cases hx : xs.find? isRelative with
  | some x => exact ⟨x, rfl, Except.error.inj (hf.symm.trans (h.failed x hx))⟩
  | none =>
    obtain ⟨a, ha, -⟩ := h.passed hx
    rw [ha] at hf
    contradiction

/-- Without checks, there is a result. -/
theorem settles_pure {a : α} (h : kind a) : Settles [] (pure a : Except Fault α) kind :=
  ⟨fun _ hx ↦ by simp at hx, fun _ ↦ ⟨a, rfl, h⟩⟩

/-- Checks one after the other report the first relative path of both. -/
theorem Settles.bind {f : α → Except Fault β} {kind' : β → Prop} (hr : Settles xs r kind)
    (hf : ∀ a, kind a → Settles ys (f a) kind') : Settles (xs ++ ys) (r >>= f) kind' := by
  cases hx : xs.find? isRelative with
  | some x =>
    have hfirst : (xs ++ ys).find? isRelative = some x := by rw [List.find?_append, hx]; rfl
    rw [hr.failed x hx]
    refine ⟨fun y hy ↦ ?_, fun hnone ↦ ?_⟩
    · obtain rfl := Option.some.inj (hfirst.symm.trans hy)
      rfl
    · rw [hfirst] at hnone
      contradiction
  | none =>
    obtain ⟨a, rfl, ha⟩ := hr.passed hx
    have hrest : (xs ++ ys).find? isRelative = ys.find? isRelative := by
      rw [List.find?_append, hx]
      rfl
    exact ⟨fun y hy ↦ (hf a ha).failed y (hrest ▸ hy), fun hy ↦ (hf a ha).passed (hrest ▸ hy)⟩

/-- One path is checked for beginning at the root. -/
theorem settles_checkAbsolute (purpose : Purpose) (s : String) :
    Settles [(purpose, s)] (checkAbsolute purpose (Path.ofString s))
      (·.val = Path.ofString s) := by
  unfold checkAbsolute
  by_cases h : (Path.ofString s).isAbsolute
  · have hs : isRelative (purpose, s) = false := by simp [isRelative, h]
    rw [dif_pos h]
    refine ⟨fun x hx ↦ ?_, fun _ ↦ ⟨_, rfl, rfl⟩⟩
    simp [hs] at hx
  · have hs : isRelative (purpose, s) = true := by simp [isRelative, h]
    rw [dif_neg h]
    refine ⟨fun x hx ↦ ?_, fun hx ↦ ?_⟩ <;> rw [List.find?_cons_of_pos hs] at hx
    · obtain rfl := Option.some.inj hx
      rfl
    · contradiction

/-- Paths are checked one after the other. -/
theorem settles_mapM (purpose : Purpose) (ss : List String) :
    Settles (ss.map (purpose, ·)) ((ss.map Path.ofString).mapM (checkAbsolute purpose))
      (·.map (·.val) = ss.map Path.ofString) := by
  induction ss with
  | nil => exact settles_pure rfl
  | cons s ss ih =>
    rw [List.map_cons, List.map_cons, List.mapM_cons, ← List.singleton_append]
    refine (settles_checkAbsolute purpose s).bind fun p hp ↦ ?_
    rw [← List.append_nil (ss.map _)]
    refine ih.bind fun ps hps ↦ settles_pure ?_
    rw [List.map_cons, hp, hps]

end

end Relocation.Project

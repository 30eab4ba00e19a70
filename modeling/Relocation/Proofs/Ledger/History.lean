import Mathlib.Data.Set.Card
import Relocation.Proofs.Address.Basic
import Relocation.Proofs.Decision.Basic
import Relocation.Proofs.Ledger.Invariant

/-!
# Histories of a ledger

A ledger comes about by calls: marks, and decisions about specifiers, each in a situation of its
own. What it holds can be read off the calls and their answers. A specifier is written exactly if
it was marked, or was the answer to a decision about the framework, its runtime or a package; and
the file of a package is the first one that was found for it.
-/

namespace Relocation

open Text.Utf8 (encode)

namespace Ledger

/-- A call on a ledger, with its answer. -/
inductive Event where
  | marked (value : String)
  | decided (s : Situation) (site : Site) (specifier : String) (answer : Except Error Action)

namespace Event

/-- A call writes a specifier that the ledger notes. -/
def Writes (v : String) : Event → Prop
  | marked value => value = v
  | decided s _ specifier answer => answer = .ok (.replace v) ∧
      (s.classOf specifier = .runtime ∨ s.classOf specifier = .internal ∨
        s.classOf specifier = .package)

/-- The file that a call would find for a package of which nothing is remembered. -/
def found? (specifier : String) : Event → Option Path
  | marked _ => none
  | decided s _ asked _ =>
    if asked = specifier ∧ s.classOf asked = .package ∧ s.project.keepsPackages = false then
      (s.resolver.resolvePackage s.tree asked s.project.searchPaths).toOption
    else none

/-- What is found for one specifier is not found for another. -/
theorem found?_of_ne {s : Situation} {site : Site} {specifier r : String}
    {answer : Except Error Action} (h : specifier ≠ r) :
    (decided s site specifier answer).found? r = none :=
  if_neg fun hand ↦ h hand.1

/-- What a call finds is what its package resolves to. -/
theorem resolved_of_found? {s : Situation} {site : Site} {specifier r : String} {file : Path}
    {answer : Except Error Action} (h : (decided s site specifier answer).found? r = some file) :
    s.resolver.resolvePackage s.tree r s.project.searchPaths = .ok file := by
  rw [found?] at h
  by_cases hand : specifier = r ∧ s.classOf specifier = .package ∧ s.project.keepsPackages = false
  · rw [if_pos hand, hand.1] at h
    exact eq_ok_of_toOption h
  · rw [if_neg hand] at h
    cases h

end Event

/-- Calls that lead from one ledger to another, in their order. -/
inductive History : Ledger → List Event → Ledger → Prop where
  | nil (l : Ledger) : History l [] l
  | mark {l m : Ledger} {es : List Event} (before : History l es m) (value : String) :
      History l (es ++ [.marked value]) (m.mark value)
  | decide {l m m' : Ledger} {es : List Event} {s : Situation} {site : Site} {specifier : String}
      {answer : Except Error Action} (before : History l es m)
      (run : (s.action site specifier).run m = (answer, m')) :
      History l (es ++ [.decided s site specifier answer]) m'

private theorem nodup_mark {l : Ledger} (h : l.written.Nodup) (v : String) :
    (l.mark v).written.Nodup := by
  unfold mark
  split
  · exact h
  · next hv => exact List.nodup_cons.mpr ⟨fun hm ↦ hv (List.contains_iff_mem.mpr hm), h⟩

private theorem nodup_noting {l : Ledger} (h : l.written.Nodup) (x : Except Error String) :
    (l.noting x).written.Nodup := by
  cases x with
  | ok v => exact nodup_mark h v
  | error e => exact h

end Ledger

open Ledger (Event History)

namespace Situation

variable {s : Situation} {site : Site} {specifier : String} {l l' : Ledger}
  {answer : Except Error Action}

/-- A specifier is replaced by what its relocation comes to. -/
theorem map_replace_eq_ok_iff {x : Except Error String} {v : String} :
    x.map Action.replace = .ok (.replace v) ↔ x = .ok v := by
  cases x <;> simp [Except.map]

/-! ### What one decision writes and remembers -/

/-- A search for a package writes nothing. -/
theorem Finds.written_eq {file : Path} {m : Ledger} (h : s.Finds specifier l file m) :
    m.written = l.written := by
  cases h <;> rfl

namespace Comes

/-- A decision adds to what is written the answer that is noted. -/
theorem contains_iff (h : s.Comes specifier l site answer l') (v : String) :
    l'.contains v ↔ l.contains v ∨ (Event.decided s site specifier answer).Writes v := by
  cases h with
  | dropped | nulled | kept | known | missing => simp [Event.Writes]
  | located _ class_eq => simp [Event.Writes, class_eq]
  | directed _ class_eq =>
    have hclass : s.classOf specifier = .runtime ∨ s.classOf specifier = .internal ∨
        s.classOf specifier = .package := class_eq.imp_right .inl
    rw [Ledger.contains_noting, or_comm, Event.Writes, map_replace_eq_ok_iff,
      and_iff_left hclass]
  | copied _ class_eq _ finds =>
    rw [Ledger.contains_noting, or_comm, Event.Writes, map_replace_eq_ok_iff,
      and_iff_left (.inr (.inr class_eq)), Ledger.contains, finds.written_eq, Ledger.contains]

/-- A decision remembers the file of a package only if none is remembered. -/
theorem target?_eq (h : s.Comes specifier l site answer l') (r : String) :
    l'.target? r = (l.target? r).or ((Event.decided s site specifier answer).found? r) := by
  cases h with
  | dropped class_eq | nulled class_eq | known class_eq | located _ class_eq =>
    simp [Event.found?, class_eq]
  | kept _ _ keeps => simp [Event.found?, keeps]
  | directed _ class_eq =>
    rcases class_eq with class_eq | class_eq <;> simp [Event.found?, class_eq]
  | missing _ _ _ _ unresolved => simp [Event.found?, unresolved, Except.toOption]
  | copied _ class_eq copies finds =>
    rw [Ledger.target?_noting]
    by_cases hr : r = specifier
    · subst hr
      cases finds with
      | remembered target => rw [target, Option.some_or]
      | found target resolved =>
        rw [Ledger.target?_remember_self, target, Option.none_or, Event.found?,
          if_pos ⟨rfl, class_eq, copies⟩, resolved, Except.toOption]
    · rw [Event.found?_of_ne (Ne.symm hr), Option.or_none]
      cases finds with
      | remembered => rfl
      | found => exact Ledger.target?_remember_of_ne l _ hr

/-- Local ways and whatever is no replacement leave what is written as it is. -/
theorem written_eq (h : s.Comes specifier l site answer l')
    (hn : s.classOf specifier = .path ∨ ∀ v, answer ≠ .ok (.replace v)) :
    l'.written = l.written := by
  have hnoting {x : Except Error String} {m : Ledger}
      (hx : ∀ v, x.map Action.replace ≠ .ok (.replace v)) : m.noting x = m := by
    cases x with
    | ok v => exact absurd rfl (hx v)
    | error e => rfl
  cases h with
  | dropped | nulled | kept | known | located | missing => rfl
  | directed _ class_eq =>
    rcases hn with hn | hn
    · rw [hn] at class_eq
      simp at class_eq
    · rw [hnoting hn]
  | copied _ class_eq _ finds =>
    rcases hn with hn | hn
    · cases hn.symm.trans class_eq
    · rw [hnoting hn, finds.written_eq]

private theorem nodup (h : s.Comes specifier l site answer l') (hl : l.written.Nodup) :
    l'.written.Nodup := by
  cases h with
  | dropped | nulled | kept | known | located | missing => exact hl
  | directed => exact Ledger.nodup_noting hl _
  | copied _ _ _ finds => exact Ledger.nodup_noting (by rwa [finds.written_eq]) _

end Comes

/-- A project with one package. -/
def installed : Situation where
  project :=
    { dependencyRoots := [⟨.ofString "/p/node_modules", .refl true⟩]
      root := ⟨.ofString "/p", .refl true⟩
      output := ⟨.ofString "/p/out", .refl true⟩
      platform := .wechat }
  resolver := {}
  tree :=
    ⟨[(encode "p", .directory [(encode "node_modules", .directory
        [(encode "own", .directory [(encode "index.js", .file [])])])])]⟩
  placement := ⟨.ofString "/p/a.js", .ofString "/p/out/a.js"⟩

end Situation

namespace Ledger

namespace History

variable {l m : Ledger} {es : List Event}

/-- What is written is what was, and what the calls have written. -/
theorem contains_iff (h : History l es m) (v : String) :
    m.contains v ↔ l.contains v ∨ ∃ e ∈ es, e.Writes v := by
  induction h with
  | nil => simp
  | mark _ value ih =>
    simp only [contains_mark, Bool.or_eq_true, beq_iff_eq, ih, List.mem_append,
      List.mem_singleton, or_and_right, exists_or, exists_eq_left]
    rw [or_comm, or_assoc, eq_comm (a := v)]
    rfl
  | decide _ run ih =>
    rw [(Situation.comes_of_run run).contains_iff, ih]
    simp only [List.mem_append, List.mem_singleton, or_and_right, exists_or, exists_eq_left,
      or_assoc]

/-- What is remembered of a package is what was, or else what the first call has found. -/
theorem target?_eq (h : History l es m) (specifier : String) :
    m.target? specifier = (l.target? specifier).or (es.findSome? (·.found? specifier)) := by
  induction h with
  | nil => simp
  | mark _ value ih =>
    rw [target?_mark, ih, List.findSome?_append]
    simp [Event.found?]
  | decide _ run ih =>
    rw [(Situation.comes_of_run run).target?_eq, ih, List.findSome?_append, Option.or_assoc]
    simp

/-- What is remembered of a package stays. -/
theorem target?_eq_some (h : History l es m) {specifier : String} {file : Path}
    (hl : l.target? specifier = some file) : m.target? specifier = some file := by
  rw [h.target?_eq, hl, Option.some_or]

/-- Calls remember only what they can find. -/
theorem recalls {K : String → Path → Prop} (h : History l es m)
    (hes : ∀ s site specifier answer, .decided s site specifier answer ∈ es → s.FindsOnly K)
    (hl : l.Recalls K) : m.Recalls K := by
  induction h with
  | nil => exact hl
  | mark _ value ih =>
    exact (ih fun _ _ _ _ he ↦ hes _ _ _ _ (List.mem_append_left _ he)).mark value
  | @decide _ _ _ s site specifier answer _ run ih =>
    have hkeeps := (Situation.keeps_recalls
      (hes s site specifier answer (List.mem_append_right _ (List.mem_singleton_self _)))
      site specifier).run (ih fun _ _ _ _ he ↦ hes _ _ _ _ (List.mem_append_left _ he))
    rwa [run] at hkeeps

/-- Whatever they remember was found. -/
theorem resolved (h : History l es m) (hl : l.Resolved) : m.Resolved :=
  h.recalls (fun _ _ _ _ _ _ _ hfile ↦ ⟨_, _, _, hfile⟩) hl

/-- A specifier is written once. -/
theorem nodup (h : History l es m) (hl : l.written.Nodup) : m.written.Nodup := by
  induction h with
  | nil => exact hl
  | mark _ value ih => exact nodup_mark ih value
  | decide _ run ih => exact (Situation.comes_of_run run).nodup ih

/-- From the empty ledger, any calls lead to one that holds exactly the specifiers that they have
written, each once. Local ways and whatever is no replacement write nothing. The file that the
first successful search has found for a package is remembered ever after. -/
theorem holds_what_was_written (h : History empty es l) :
    (∀ v, l.contains v ↔ ∃ e ∈ es, e.Writes v) ∧
      l.size = Set.ncard {v | ∃ e ∈ es, e.Writes v} ∧
      (∀ (s : Situation) site specifier answer l',
        (s.action site specifier).run l = (answer, l') →
          s.classOf specifier = .path ∨ (∀ v, answer ≠ .ok (.replace v)) →
            l'.written = l.written) ∧
      (∀ specifier, l.target? specifier = es.findSome? (·.found? specifier)) ∧
      ∀ fs m specifier file, History l fs m → l.target? specifier = some file →
        m.target? specifier = some file := by
  have hcontains (v : String) : l.contains v ↔ ∃ e ∈ es, e.Writes v := by
    rw [h.contains_iff, contains_empty, Bool.false_eq_true, false_or]
  refine ⟨hcontains, ?_,
    fun s site specifier answer l' run ↦ (Situation.comes_of_run run).written_eq,
    fun specifier ↦ ?_, fun fs m specifier file hm ↦ hm.target?_eq_some⟩
  · have hset : {v | ∃ e ∈ es, e.Writes v} = (l.written.toFinset : Set String) := by
      ext v
      rw [Set.mem_ofPred_eq, ← hcontains, List.coe_toFinset, Set.mem_ofPred_eq, contains,
        List.contains_iff_mem]
    rw [hset, Set.ncard_coe_finset, List.toFinset_card_of_nodup (h.nodup List.nodup_nil), size]
  · rw [h.target?_eq, target?_empty, Option.none_or]

/-- After a mark and a decision, the ledger holds the package's way and its file. -/
theorem holds_what_was_written_of_own :
    ∃ es l, History empty es l ∧ es.length = 2 ∧ l.contains "./npm/own/index.js" ∧
      l.target? "own" = some (.ofString "/p/node_modules/own/index.js") := by
  have run : (Situation.installed.action .declaration "own").run (empty.mark "./first") =
      (.ok (.replace "./npm/own/index.js"), _) :=
    Prod.ext (eq_ok_of_toOption (by decide +kernel)) rfl
  have h := ((History.nil empty).mark "./first").decide run
  obtain ⟨hcontains, -, -, htarget, -⟩ := holds_what_was_written h
  have hlast := List.mem_append_right [Event.marked "./first"] (List.mem_singleton_self
    (Event.decided Situation.installed .declaration "own" (.ok (.replace "./npm/own/index.js"))))
  refine ⟨_, _, h, rfl, (hcontains _).mpr ⟨_, hlast, rfl, ?_⟩, ?_⟩
  · decide +kernel
  · rw [htarget]
    decide +kernel

end History

end Ledger

end Relocation

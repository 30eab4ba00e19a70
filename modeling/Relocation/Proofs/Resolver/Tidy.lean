import Relocation.Proofs.Resolver.Found

/-!
# Clean paths among those that are found

What is found from a clean path is clean itself, as long as no extension holds a slash: entries are
cleaned before they are looked for, and an extension only changes the last name.
-/

namespace Relocation.Resolver

open Relocation.Path (Plain slash rooted)
open Text.Utf8 (IsText encode)

variable {r : Resolver} {p : Path}

/-- A text without the character of a slash is without its byte. -/
theorem slash_notMem_encode {s : String} (h : '/' ∉ s.toList) : slash ∉ encode s := by
  rw [Text.Utf8.encode_eq_flatMap, List.mem_flatMap]
  rintro ⟨c, hc, hslash⟩
  have hone := Text.Utf8.encodeChar_of_mem Path.toNat_slash_lt hslash
  have hs : encode (String.ofList [c]) = encode "/" := by
    rw [Text.Utf8.encode_ofList, List.flatMap_singleton, hone]
    rfl
  have hchar : [c] = ['/'] := String.ofList_injective (Text.Utf8.encode_inj.mp hs)
  obtain rfl : c = '/' := List.singleton_inj.mp hchar
  exact h hc

/-- No extension holds a slash. -/
def Slashless (r : Resolver) : Prop := ∀ e ∈ r.extensions, '/' ∉ e.toList

instance (r : Resolver) : Decidable r.Slashless :=
  inferInstanceAs (Decidable (∀ e ∈ r.extensions, '/' ∉ e.toList))

/-- A path of plain names, written without anything else. -/
structure Tidy (p : Path) : Prop where
  textual : Textual p
  eq_rooted : p = rooted p.names

private theorem tidy_rooted {ns : List Name} (hp : ∀ n ∈ ns, Plain n) (ht : ∀ n ∈ ns, IsText n) :
    Tidy (rooted ns) :=
  ⟨textual_rooted ht, by rw [Path.names_rooted hp]⟩

/-- The clean form of an absolute path that is text is tidy. -/
theorem Textual.tidy_clean (h : Textual p) : Tidy p.clean := by
  rw [Path.clean_of_isAbsolute h.isAbsolute h.isText]
  exact tidy_rooted Path.plain_of_mem_names (Path.isText_of_mem_names h.isText)

/-- A clean absolute path is tidy. -/
theorem tidy_of_clean (ha : p.isAbsolute) (hc : p.clean = p) : Tidy p := by
  by_cases ht : IsText p.bytes
  · rw [← hc]
    exact Textual.tidy_clean ⟨ha, ht⟩
  · rw [← hc, Path.clean_of_not_isText ht] at ha
    exact absurd ha (by decide)

/-- An extension stands behind a dot. -/
theorem encode_append_extension (name e : String) :
    encode (name ++ "." ++ e) = encode name ++ 46 :: encode e := by
  rw [Text.Utf8.encode_append, Text.Utf8.encode_append, List.append_assoc]
  rfl

/-- A name with an extension is a name. -/
theorem plain_append_extension {name e : String} (hn : Plain (encode name))
    (he : '/' ∉ e.toList) : Plain (encode (name ++ "." ++ e)) := by
  rw [encode_append_extension]
  exact Path.plain_append_dot hn (slash_notMem_encode he)

namespace Tidy

/-- A tidy path is clean. -/
theorem clean_eq (h : Tidy p) : p.clean = p := by
  rw [Path.clean_of_isAbsolute h.textual.isAbsolute h.textual.isText, ← h.eq_rooted]

private theorem join_name (h : Tidy p) {s : String} (hs : Plain (encode s)) :
    Tidy (p.join (.ofString s)) := by
  refine ⟨h.textual.join_ofString s, ?_⟩
  have hj : p.join (.ofString s) = rooted (p.names ++ [encode s]) := by
    conv_lhs => rw [h.eq_rooted]
    exact Path.join_rooted Path.plain_of_mem_names hs
  have hplain : ∀ n ∈ p.names ++ [encode s], Plain n :=
    Path.plain_of_mem_names_append (List.forall_mem_singleton.mpr hs)
  rw [hj, Path.names_rooted hplain]

private theorem parentDirectory (h : Tidy p) : Tidy p.parentDirectory := by
  refine ⟨h.textual.parentDirectory, ?_⟩
  have hparent : p.parentDirectory = rooted p.names.dropLast := by
    conv_lhs => rw [h.eq_rooted]
    exact Path.parentDirectory_rooted Path.plain_of_mem_names
  rw [hparent, Path.names_rooted fun n hn ↦
    Path.plain_of_mem_names n (List.mem_of_mem_dropLast hn)]

private theorem withExtension (h : Tidy p) {name e : String} (hn : Plain (encode name))
    (he : '/' ∉ e.toList) : Tidy (withExtension p name e) := by
  have hplain := plain_append_extension hn he
  unfold Resolver.withExtension Path.withFileName
  split
  · exact h.parentDirectory.join_name hplain
  · exact h.join_name hplain

/-- The last name of a clean path is a plain one, and text. -/
theorem plain_fileName (h : Tidy p) {n : Name} (hn : p.fileName? = some n) :
    Plain (encode (Text.Utf8.decodeLossy n)) := by
  have hmem : n ∈ p.names := by
    unfold Path.fileName? at hn
    have hb : p.backSegments = p.names.reverse := by
      conv_lhs => rw [h.eq_rooted]
      exact Path.backSegments_rooted Path.plain_of_mem_names
    rw [hb] at hn
    split at hn
    · cases hn
    · next m ms hm =>
      split at hn
      · cases hn
      · cases hn
        rw [← List.mem_reverse, hm]
        exact List.mem_cons_self
  obtain ⟨s, rfl⟩ := Path.isText_of_mem_names h.textual.isText n hmem
  rw [Text.Utf8.decodeLossy_encode]
  exact Path.plain_of_mem_names _ hmem

end Tidy

/-- What is tried for a clean path is clean. -/
theorem closed_tidy (hr : r.Slashless) : r.Closed Tidy where
  extended hp hn hq he := hq.withExtension (hp.plain_fileName hn) (hr _ he)
  index {_ e} hp he := by
    have hindex : Plain (encode ("index" ++ "." ++ e)) :=
      plain_append_extension ⟨by decide, by decide, by decide, by decide⟩ (hr e he)
    exact hp.join_name hindex
  entry entry hp := (hp.textual.join_ofString entry).tidy_clean

end Relocation.Resolver

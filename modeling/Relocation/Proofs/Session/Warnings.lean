import Relocation.Proofs.Pass.Again
import Relocation.Proofs.Pass.Failure
import Relocation.Proofs.Pass.Parts
import Relocation.Session
import Relocation.Syntax.Kind

/-!
# Warnings

A pass warns of the `require` calls that it cannot tell the module of: once of each that lies in no
other reference and stands before the first error, in the order of the file. None of these calls is
left. What lies in a call or declaration with a specifier is never visited, so calls there are left
without a warning.
-/

namespace Relocation

open Syntax (Dialect LawfulDialect Node Span)

namespace Pass

variable {κ : Type} [Dialect κ] {inItems : Bool} {t u : Syntax.Tree κ} {a : Address} {span : Span}

/-! ### Calls that are given no literal -/

/-- An expression is a literal, in any number of parentheses. -/
inductive IsLiteral : Syntax.Tree κ → Prop where
  | text {t : Syntax.Tree κ} {value : String} (role : t.role = .text value) : IsLiteral t
  | parens {t u : Syntax.Tree κ} {rest : List (Syntax.Tree κ)} (role : t.role = .parens)
      (children : t.children = u :: rest) (inner : IsLiteral u) : IsLiteral t

/-- A call of `require` with one argument that is neither spread nor a literal. -/
inductive IsUnknownCall : Syntax.Tree κ → Prop where
  | mk {t callee arguments argument e : Syntax.Tree κ} {rest : List (Syntax.Tree κ)}
      (role : t.role = .call) (children : t.children = callee :: arguments :: rest)
      (name : callee.role = .name "require") (only : arguments.children = [argument])
      (unspread : argument.role = .argument false) (expression : argument.children = [e])
      (unknown : ¬IsLiteral e) : IsUnknownCall t

mutual

private theorem requirement_eq_unknown_iff (t : Syntax.Tree κ) :
    requirement t = .unknown ↔ ¬IsLiteral t := by
  cases t with
  | node kind span children =>
    cases hk : Dialect.role kind with
    | text value =>
      simp only [requirement, hk]
      exact iff_of_false nofun fun h ↦ h (.text hk)
    | parens =>
      simp only [requirement, hk, firstRequirement_eq_unknown_iff children, not_iff_not]
      constructor
      · rintro ⟨u, rest, rfl, hu⟩
        exact .parens hk rfl hu
      · rintro (⟨role⟩ | ⟨-, children, inner⟩)
        · cases role.symm.trans hk
        · exact ⟨_, _, children, inner⟩
    | _ =>
      simp only [requirement, hk]
      refine iff_of_true trivial ?_
      rintro (⟨role⟩ | ⟨role⟩) <;> cases role.symm.trans hk

private theorem firstRequirement_eq_unknown_iff (ts : List (Syntax.Tree κ)) :
    firstRequirement ts = .unknown ↔ ¬∃ u rest, ts = u :: rest ∧ IsLiteral u := by
  cases ts with
  | nil => simp [firstRequirement]
  | cons t ts =>
    rw [firstRequirement, requirement_eq_unknown_iff t]
    simp

end

/-- A call that is given no literal stands at an address, over this stretch of text. -/
def UnknownAt (t : Syntax.Tree κ) (a : Address) (span : Span) : Prop :=
  ∃ stands u, subtree? false t a = some (stands, u) ∧ IsUnknownCall u ∧ u.span = span

private theorem isReference_unknown_iff :
    IsReference inItems t (.call span .unknown) ↔ IsUnknownCall t ∧ t.span = span := by
  constructor
  · intro h
    generalize hr : Reference.call span .unknown = r at h
    cases h with
    | declaration => cases hr
    | call role children name only unspread expression =>
      obtain ⟨hspan, hunknown⟩ := Reference.call.inj hr
      exact ⟨⟨role, children, name, only, unspread, expression,
        (requirement_eq_unknown_iff _).mp hunknown.symm⟩, hspan.symm⟩
  · rintro ⟨⟨role, children, name, only, unspread, expression, unknown⟩, rfl⟩
    rw [← (requirement_eq_unknown_iff _).mpr unknown]
    exact .call role children name only unspread expression

private theorem unknownAt_iff : UnknownAt t a span ↔ RefersAt false t a (.call span .unknown) := by
  simp only [UnknownAt, RefersAt, isReference_unknown_iff]

private theorem unknownAt_iff_eq_some : UnknownAt t a span ↔
    ((subtree? false t a).bind fun x ↦ reference? x.1 x.2) = some (.call span .unknown) := by
  simp [unknownAt_iff, RefersAt, Option.bind_eq_some_iff, reference?_eq_some_iff]

instance (t : Syntax.Tree κ) (a : Address) (span : Span) : Decidable (UnknownAt t a span) :=
  decidable_of_iff _ unknownAt_iff_eq_some.symm

private theorem IsUnknownCall.two_le (h : IsUnknownCall t) : 2 ≤ t.children.length := by
  obtain ⟨-, children⟩ := h
  simp [children]

private theorem Reference.unknown?_eq_some_iff {r : Reference} :
    r.unknown? = some span ↔ r = .call span .unknown := by
  constructor
  · intro h
    match r, h with
    | .call _ .unknown, rfl => rfl
  · rintro rfl
    rfl

/-! ### How far a pass comes -/

/-- A pass decides the sites before one that gets no answer, or all sites. -/
structure Reaches (s : Situation) (t : Syntax.Tree κ) (l l' : Ledger) (out : Outcome κ)
    (stop : Option Address) (ds : List Decision) : Prop where
  /-- The sites before the stop are decided and nothing else is. -/
  sites : ∀ a r, (∃ d ∈ ds, d.site = (a, r)) ↔ IsSite false t a r ∧ ∀ b ∈ stop, a < b
  /-- Each is decided once, in the order of the addresses. -/
  ordered : (ds.map (·.address)).Pairwise (· < ·)
  /-- Without an error there is no stop, and nothing but the decisions changes the ledger. -/
  finished : out.findings.failure = none → stop = none ∧ Decided s.action l ds l'
  /-- An error is that of the site at the stop, on the ledger that the decisions have left. -/
  stopped : ∀ e, out.findings.failure = some e → ∃ b r m site v, stop = some b ∧
    IsSite false t b r ∧ Decided s.action l ds m ∧ r.question? = some (site, v) ∧
    (s.action site v).run m = (.error e, l')

/-- Of listed sites, those before one of them stand before it. -/
theorem mem_before_iff {xs rest : List (Address × Reference)} {f : Address × Reference}
    (h : xs ++ [f] ++ rest = sites false t) {r : Reference} :
    (a, r) ∈ xs ↔ IsSite false t a r ∧ a < f.1 := by
  have hordered := pairwise_sites false t
  rw [← h, List.map_append, List.map_append, List.pairwise_append, List.pairwise_append] at hordered
  obtain ⟨⟨-, -, hbefore⟩, -, hbehind⟩ := hordered
  rw [← mem_sites_iff, ← h, List.mem_append, List.mem_append, List.mem_singleton]
  constructor
  · intro hx
    exact ⟨.inl (.inl hx), hbefore a (List.mem_map_of_mem hx) _ (by simp)⟩
  · rintro ⟨(hx | rfl) | hx, hlt⟩
    · exact hx
    · exact absurd hlt (List.lt_irrefl _)
    · have hgt : f.1 < a := hbehind _ (by simp) a (List.mem_map_of_mem hx)
      exact absurd (List.lt_trans hlt hgt) (List.lt_irrefl _)

/-- Every pass comes as far as to its first error, and finds the calls that are unknown so far. -/
theorem exists_reaches (s : Situation) (t : Syntax.Tree κ) (l : Ledger) :
    let out := ((relocate s.action t).run l).1
    ∃ stop ds, Reaches s t l ((relocate s.action t).run l).2 out stop ds ∧
      out.findings.unknown = ds.filterMap (·.reference.unknown?) := by
  intro out
  have hv := leads_relocate s.action t l
  cases hf : out.findings.failure with
  | none =>
    obtain ⟨ds, hds, -⟩ := covers_visit hv hf
    refine ⟨none, ds, ⟨fun a r ↦ ?_, ?_, fun _ ↦ ⟨rfl, hds.decided⟩, fun e he ↦ ?_⟩, hds.unknown⟩
    · rw [← mem_sites_iff, ← hds.about, List.mem_map]
      simp
    · have hp := pairwise_sites false t
      rwa [← hds.about, List.map_map] at hp
    · cases hf.symm.trans he
  | some e =>
    obtain ⟨ds, ⟨⟨m, f, hfails⟩, hunknown⟩, -⟩ := stops_visit hv rfl hf
    obtain ⟨rest, hrest⟩ := hfails.listed
    obtain ⟨site, v, hq, hrun⟩ := hfails.fails
    have hsite : IsSite false t f.1 f.2 :=
      mem_sites_iff.mp (hrest ▸ List.mem_append_left _ (by simp))
    refine ⟨some f.1, ds, ⟨fun a r ↦ ?_, ?_, fun hn ↦ ?_, fun e' he ↦ ?_⟩, hunknown⟩
    · rw [← List.mem_map, mem_before_iff hrest]
      simp
    · exact (List.pairwise_append.mp (pairwise_of_listed hfails.listed)).1
    · cases hf.symm.trans hn
    · obtain rfl : e = e' := Option.some.inj (hf.symm.trans he)
      exact ⟨f.1, f.2, m, site, v, rfl, hsite, hfails.decided, hq, hrun⟩

namespace Reaches

variable {s : Situation} {l l' : Ledger} {out : Outcome κ} {stop : Option Address}
  {ds : List Decision} {b : Address}

/-- A pass stops only at a site with a specifier. -/
theorem exists_site (h : Reaches s t l l' out stop ds) (hb : b ∈ stop) :
    ∃ r site v, IsSite false t b r ∧ r.question? = some (site, v) := by
  cases hf : out.findings.failure with
  | none =>
    obtain ⟨rfl, -⟩ := h.finished hf
    cases hb
  | some e =>
    obtain ⟨b', r, m, site, v, rfl, hr, -, hq, -⟩ := h.stopped e hf
    cases hb
    exact ⟨r, site, v, hr, hq⟩

/-- Nothing inside a call that is given no literal is decided, nor does a pass stop there. -/
theorem outside (h : Reaches s t l l' out stop ds) (ha : UnknownAt t a span) :
    (∀ d ∈ ds, a <+: d.address → a = d.address) ∧ ∀ b ∈ stop, ¬a <+: b := by
  have hsite {b : Address} {r : Reference} (hr : IsSite false t b r) (hp : a <+: b) : a = b := by
    by_contra hne
    exact hr.2 a hp hne _ (unknownAt_iff.mp ha)
  constructor
  · intro d hd hp
    obtain ⟨hr, -⟩ := (h.sites d.address d.reference).mp ⟨d, hd, rfl⟩
    exact hsite hr hp
  · intro b hb hp
    obtain ⟨r, site, v, hr, hq⟩ := h.exists_site hb
    obtain rfl := hsite hr hp
    -- what stands here would have a specifier and none
    obtain ⟨⟨stands, u, hu, hr⟩, -⟩ := hr
    obtain ⟨stands', u', hu', hr'⟩ := unknownAt_iff.mp ha
    cases hu.symm.trans hu'
    rw [← reference?_eq_some_iff] at hr hr'
    cases hr.symm.trans hr'
    cases hq

end Reaches

/-- Without an error, each call that is given no literal and left lies in a reference, and lay in a
site with a specifier before. -/
theorem exists_site_around [LawfulDialect κ] {s : Situation} {l : Ledger} (hc : CallsApart t)
    (hf : ((relocate s.action t).run l).1.findings.failure = none)
    (h : UnknownAt ((relocate s.action t).run l).1.tree a span) :
    Enclosed false ((relocate s.action t).run l).1.tree a ∧
      ∃ b r site v c, IsSite false t b r ∧ r.question? = some (site, v) ∧ b <+: c ∧ b ≠ c ∧
        UnknownAt t c span := by
  have hbecomes : Becomes s.action false t ((relocate s.action t).run l).1.tree :=
    .visited nofun (leads_relocate s.action t l) hf
  have he : Enclosed false ((relocate s.action t).run l).1.tree a := by
    refine Classical.byContradiction fun he ↦ ?_
    obtain ⟨_, _, _, _, _, -, hleft⟩ :=
      hbecomes.exists_answer hc (isSite_iff.mpr ⟨unknownAt_iff.mp h, he⟩)
    rcases hleft with ⟨-, hq⟩ | ⟨_, -, hq⟩ <;> cases hq
  obtain ⟨stands, u, hu, hcall, hspan⟩ := h
  refine ⟨he, ?_⟩
  rcases hbecomes.exists_inside_before hc hu he with
    ⟨b, r, site, v, c, hr, hq, hbc, hne, hu⟩ | ⟨-, hle⟩
  · exact ⟨b, r, site, v, c, hr, hq, hbc, hne, stands, u, hu, hcall, hspan⟩
  · exact absurd hcall.two_le (by omega)

end Pass

namespace Session

open Pass

variable {κ : Type} [Dialect κ]

/-- The calls among what is decided that are given no literal. -/
def unknownCalls (ds : List Decision) : List (Address × Span) :=
  ds.filterMap fun d ↦ d.reference.unknown?.map (d.address, ·)

private theorem mem_unknownCalls {ds : List Decision} {a : Address} {span : Span} :
    (a, span) ∈ unknownCalls ds ↔ ∃ d ∈ ds, d.site = (a, .call span .unknown) := by
  simp [unknownCalls, Decision.site, Reference.unknown?_eq_some_iff, and_comm]

private theorem pairwise_unknownCalls {ds : List Decision}
    (h : (ds.map (·.address)).Pairwise (· < ·)) :
    ((unknownCalls ds).map (·.1)).Pairwise (· < ·) := by
  rw [List.pairwise_map] at h
  rw [unknownCalls, List.map_filterMap, List.pairwise_filterMap]
  refine h.imp fun hlt b hb b' hb' ↦ ?_
  simp only [Option.map_map, Option.map_eq_some_iff] at hb hb'
  obtain ⟨_, -, rfl⟩ := hb
  obtain ⟨_, -, rfl⟩ := hb'
  exact hlt

/-- A pass warns once of each `require` call that is given no literal, lies in no other reference
and stands before the first error, in the order of the file and of nothing else. What lies in such
a call is not decided. Without an error such calls are left only inside references with a specifier,
where they stood before and were not visited. -/
theorem logs_match_unknown_calls [LawfulDialect κ] (s : Situation) (t : Syntax.Tree κ) (l : Ledger)
    (subject : Diagnostic.Subject) :
    let out := ((relocate s.action t).run l).1
    ∃ stop ds, Reaches s t l ((relocate s.action t).run l).2 out stop ds ∧
      (∃ calls : List (Address × Span),
        logsOf subject out.findings = calls.map (fun c ↦ subject.unknownRequirement c.2) ∧
        (calls.map (·.1)).Pairwise (· < ·) ∧
        ∀ a span, (a, span) ∈ calls ↔
          UnknownAt t a span ∧ ¬Enclosed false t a ∧ ∀ b ∈ stop, a < b) ∧
      (∀ a span, UnknownAt t a span →
        (∀ d ∈ ds, a <+: d.address → a = d.address) ∧ ∀ b ∈ stop, ¬a <+: b) ∧
      (CallsApart t → out.findings.failure = none → ∀ a span, UnknownAt out.tree a span →
        Enclosed false out.tree a ∧
          ∃ b r site v c, IsSite false t b r ∧ r.question? = some (site, v) ∧ b <+: c ∧ b ≠ c ∧
            UnknownAt t c span) := by
  intro out
  obtain ⟨stop, ds, hreaches, hunknown⟩ := exists_reaches s t l
  refine ⟨stop, ds, hreaches, ⟨unknownCalls ds, ?_, ?_, ?_⟩, ?_, ?_⟩
  · rw [logsOf, hunknown, unknownCalls, List.map_filterMap, List.map_filterMap]
    simp [Function.comp_def]
  · exact pairwise_unknownCalls hreaches.ordered
  · intro a span
    rw [mem_unknownCalls, hreaches.sites, isSite_iff, unknownAt_iff, and_assoc]
  · exact fun a span ↦ hreaches.outside
  · exact fun hc hf a span ↦ exists_site_around hc hf

/-- The tree of `require(x)` from an offset on. -/
def requireName (lo : Nat) : Node :=
  .node .call ⟨lo, lo + 10⟩ [.node (.identifier "require" false) ⟨lo, lo + 7⟩ [],
    Node.many [.node (.argument false) ⟨lo + 8, lo + 9⟩
      [.node (.identifier "x" false) ⟨lo + 8, lo + 9⟩ []]],
    Node.absent]

/-- The tree of `require<{ [require(x)]: string }>('./b');` and `require(require(x));`, each on its
own line. -/
def twoInside : Node :=
  .node (.file none) ⟨0, 62⟩
    [.node .expressionStatement ⟨0, 41⟩ [.node .call ⟨0, 40⟩
      [.node (.identifier "require" false) ⟨0, 7⟩ [],
        Node.many [.node (.argument false) ⟨34, 39⟩ [.node (.text "./b" "'./b'") ⟨34, 39⟩ []]],
        .node .typeArguments ⟨7, 33⟩ [.node .typeLiteral ⟨8, 32⟩
          [.node (.propertySignature false false) ⟨10, 30⟩
            [.node .computed ⟨10, 22⟩ [requireName 11],
              .node .ascription ⟨22, 30⟩ [.node (.typeKeyword "string") ⟨24, 30⟩ []]]]]]],
    .node .expressionStatement ⟨42, 62⟩ [.node .call ⟨42, 61⟩
      [.node (.identifier "require" false) ⟨42, 49⟩ [],
        Node.many [.node (.argument false) ⟨50, 60⟩ [requireName 50]], Node.absent]]]

/-- The address of the call in the type arguments. -/
def inTypes : Address := [0, 0, 2, 0, 0, 0, 0]

/-- A file whose text is not known. -/
def textless : Diagnostic.Subject := ⟨.ofString "/p/a.ts", none⟩

/-- Of the three calls that are given no literal, the one that lies in no other is warned of. -/
theorem logs_match_unknown_calls_of_twoInside :
    let out := ((relocate leaving.action twoInside).run .empty).1
    (∃ calls : List (Address × Span),
      logsOf textless out.findings = calls.map (fun c ↦ textless.unknownRequirement c.2) ∧
      ([1, 0], ⟨42, 61⟩) ∈ calls ∧ ([1, 0, 1, 0, 0], ⟨50, 60⟩) ∉ calls ∧
      (inTypes, ⟨11, 21⟩) ∉ calls) ∧
    ∀ a span, UnknownAt out.tree a span → Enclosed false out.tree a := by
  intro out
  have hf : out.findings.failure = none := Option.isNone_iff_eq_none.mp (by decide +kernel)
  have hcalls : CallsApart twoInside := by
    simp [twoInside, requireName, callsApart_node, Node.many, Node.absent, Syntax.Tree.role,
      Syntax.Dialect.role, Syntax.Kind.role]
  have hcall : UnknownAt twoInside [1, 0] ⟨42, 61⟩ := by decide
  have houter : ¬Enclosed false twoInside [1, 0] := by
    rw [enclosed_cons_iff rfl rfl, enclosed_cons_iff rfl rfl]
    exact not_enclosed_nil _ _
  have hinner : Enclosed false twoInside [1, 0, 1, 0, 0] :=
    ⟨[1, 0], by decide, by decide, _, unknownAt_iff.mp hcall⟩
  have htypes : Enclosed false twoInside inTypes :=
    ⟨[0, 0], by decide, by decide, _, _, _, rfl, .call rfl rfl rfl rfl rfl rfl⟩
  obtain ⟨stop, ds, hreaches, ⟨calls, hlogs, -, hmem⟩, -, hleft⟩ :=
    logs_match_unknown_calls leaving twoInside .empty textless
  obtain ⟨rfl, -⟩ := hreaches.finished hf
  refine ⟨⟨calls, hlogs, ?_, ?_, ?_⟩, fun a span h ↦ (hleft hcalls hf a span h).1⟩
  · exact (hmem ..).mpr ⟨hcall, houter, nofun⟩
  · exact fun h ↦ ((hmem ..).mp h).2.1 hinner
  · exact fun h ↦ ((hmem ..).mp h).2.1 htypes

/-- A call in the type arguments of another lies in no call that is given no literal. A pass does
not warn of it and leaves it. -/
theorem logs_miss_call_inTypes :
    let out := ((relocate leaving.action twoInside).run .empty).1
    out.findings.failure = none ∧ UnknownAt twoInside inTypes ⟨11, 21⟩ ∧
      (∀ b, b <+: inTypes → b ≠ inTypes → ∀ span, ¬UnknownAt twoInside b span) ∧
      logsOf textless out.findings = ["WARN: /p/a.ts :: Critical requirement of " ++
        "\"require(<expression>)\" cannot be resolved statically and has been replaced with null"] ∧
      UnknownAt out.tree inTypes ⟨11, 21⟩ := by
  intro out
  have hunknown : out.findings.unknown = [⟨42, 61⟩] := by decide +kernel
  refine ⟨Option.isNone_iff_eq_none.mp (by decide +kernel), by decide, ?_, ?_, by decide +kernel⟩
  · intro b hb hne span h
    rw [unknownAt_iff_eq_some] at h
    have hall : ∀ b ∈ inTypes.inits, b ≠ inTypes →
        ((subtree? false twoInside b).bind fun x ↦ reference? x.1 x.2) ∈
          [none, some (.call ⟨0, 40⟩ (.specifier "./b"))] := by decide +kernel
    have hmem := hall b ((List.mem_inits ..).mpr hb) hne
    rw [h] at hmem
    simp at hmem
  · rw [logsOf, hunknown]
    decide +kernel

end Session

end Relocation

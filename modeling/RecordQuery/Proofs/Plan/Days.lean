import RecordQuery.Proofs.Calendar.Midnight
import RecordQuery.Proofs.Plan.Fields

/-!
# Dates beside instants

A date that an instant is compared with means the whole day: to be equal to it is to be at its
midnight or later, and before the next one; to be before or after it is to be before the first or
from the second on.
-/

namespace RecordQuery

/-- What comparisons with a day answer, by the answers about its midnight and about the next one. -/
structure Comparison.SpansDay (day start finish : Comparison → Bool) : Prop where
  eq : day .eq = (start .gte && finish .lt)
  ne : day .ne = (start .lt || finish .gte)
  lt : day .lt = start .lt
  lte : day .lte = finish .lt
  gt : day .gt = finish .gte
  gte : day .gte = start .gte

/-- The day of an instant compares with a date as the instant does with the midnights around it. -/
lemma Comparison.spansDay_holds (t : Instant) (d : Date) :
    SpansDay (fun k => k.holds (t.date.compare d)) (fun k => k.holds (t.compare (.midnight d)))
      fun k => k.holds (t.compare (.midnight d.next)) := by
  have hstart : (t.compare (.midnight d) == .lt) = (t.date.compare d == .lt) := by
    rw [Bool.eq_iff_iff, beq_iff_eq, beq_iff_eq]
    exact Instant.compare_midnight_eq_lt_iff
  have hfinish : (t.compare (.midnight d.next) == .lt) = (t.date.compare d != .gt) := by
    rw [Bool.eq_iff_iff, beq_iff_eq, bne_iff_ne]
    exact Instant.compare_midnight_next_eq_lt_iff
  constructor <;> simp only [holds, bne, hstart, hfinish] <;> cases t.date.compare d <;> rfl

variable {c : Context} {left : Expr} {r : Resolved}

/-- Comparisons of an instant with a date compile, and so do those with the midnights of the date
and of the next one. Where the instant is there, the answers about the date are those about the time
from the one midnight to the other. -/
theorem Expr.exists_spansDay (limit : Nat) (hr : c.resolveSubject left = .ok r)
    (hs : r.kind.scalar? = some .instant) (d : Date) :
    ∃ day start finish : Comparison → Plan,
      (∀ k, (Expr.binary left (.compare k) (.literal (.date d))).compile limit c =
        .ok (day k)) ∧
      (∀ k, (Expr.binary left (.compare k) (.literal (.instant (.midnight d)))).compile limit c =
        .ok (start k)) ∧
      (∀ k, (Expr.binary left (.compare k)
        (.literal (.instant (.midnight d.next)))).compile limit c = .ok (finish k)) ∧
      ∀ env b t, c.Agrees env b → env.Finds left (.instant t) →
        Comparison.SpansDay (fun k => (day k).holds b) (fun k => (start k).holds b)
          fun k => (finish k).holds b := by
  have hcompile (k : Comparison) (l : Literal) :
      (Expr.binary left (.compare k) (.literal l)).compile limit c = r.plan (.compare k) l :=
    compile_of_resolveSubject hr (Operator.compare_mem_comparisons k)
  have hinstant (k : Comparison) (u : Instant) :
      r.plan (.compare k) (.instant u) = .ok (r.compareValue k (.instant u)) :=
    Resolved.plan_compare_eq_coerce hs Literal.noConfusion fun _ => Literal.noConfusion
  refine ⟨fun k => r.compareDay k d, fun k => r.compareValue k (.instant (.midnight d)),
    fun k => r.compareValue k (.instant (.midnight d.next)),
    fun k => (hcompile k _).trans (Resolved.plan_compare_date hs),
    fun k => (hcompile k _).trans (hinstant k _), fun k => (hcompile k _).trans (hinstant k _),
    fun env b t hagrees hfinds => ?_⟩
  obtain ⟨hreached, hread⟩ := hagrees.reading_of_finds hr hfinds
  simp only [Resolved.holds_compareDay_of_reached hreached hread,
    Resolved.holds_compareValue_of_reached hreached hread]
  exact Comparison.spansDay_holds t d

/-! ### An example -/

namespace Receipts

/-- The last day of the year before the year zero. -/
def lastDay : Date := ⟨Date.dayNumber (-1) 12 31⟩

/-- The end of the leap second of that day. -/
def lastInstant : Instant := ⟨lastDay, 86399, 1999999999, by decide, by decide⟩

lemma civil_lastDay : lastDay.civil = (-1, 12, 31) ∧ lastDay.next.civil = (0, 1, 1) := by
  have hcivil : lastDay.civil = (-1, 12, 31) := by decide +kernel
  exact ⟨hcivil, Date.civil_next hcivil⟩

/-- The leap second at the end of a year is of its last day, and comes before the new year. -/
theorem spansDay_lastInstant :
    (lastDay.civil = (-1, 12, 31) ∧ lastDay.next.civil = (0, 1, 1)) ∧
      Context.resolveSubject ⟨⟨schema, schema.root, [], 3⟩, []⟩ (.path ⟨"sale", ["Time"]⟩) =
      .ok ⟨⟨0, ["Sale", "Time"]⟩, [⟨0, ["Sale"]⟩], .optional (.scalar .instant),
        Path.text ⟨"sale", ["Time"]⟩⟩ ∧
      (Kind.optional (.scalar .instant)).scalar? = some .instant ∧
      ∃ day finish : Comparison → Plan,
        (∀ k, PropertyTree.compile ⟨schema, schema.root, [], 3⟩ 3
          (.binary (.path ⟨"sale", ["Time"]⟩) (.compare k) (.literal (.date lastDay))) =
            .ok (day k)) ∧
        (∀ k, PropertyTree.compile ⟨schema, schema.root, [], 3⟩ 3
          (.binary (.path ⟨"sale", ["Time"]⟩) (.compare k)
            (.literal (.instant (.midnight lastDay.next)))) = .ok (finish k)) ∧
        (day .lte).passes (receipt lastInstant ⟨150, 2⟩ 3) = true ∧
        (finish .lt).passes (receipt lastInstant ⟨150, 2⟩ 3) = true := by
  have hmem : (⟨"Time", none, .optional (.scalar .instant)⟩ : Field) ∈
      (schema.describe ⟨"Sale", 1⟩).fields := List.mem_cons_self
  have hresolve := resolveSubject_sale hmem
  refine ⟨civil_lastDay, hresolve, rfl, ?_⟩
  obtain ⟨day, start, finish, hday, -, hfinish, hspans⟩ :=
    Expr.exists_spansDay 3 hresolve rfl lastDay
  have hlte := (hspans _ _ lastInstant (Context.agrees_root build_root _)
    (finds_sale hmem lastInstant ⟨150, 2⟩ 3)).lte
  have hpasses : (day .lte).passes (receipt lastInstant ⟨150, 2⟩ 3) = true := by
    have hplan := (hday .lte).symm.trans
      ((Expr.compile_of_resolveSubject hresolve (by decide)).trans (Resolved.plan_compare_date rfl))
    rw [Except.ok.inj hplan]
    decide +kernel
  exact ⟨day, finish, hday, hfinish, hpasses, hlte.symm.trans hpasses⟩

end Receipts

end RecordQuery

import RecordQuery.Proofs.Plan.Missing

/-!
# The six comparisons together

Whether a field can be compared with a literal does not depend on the comparison. If it can, all six
comparisons read the same order of the two, if there is one, so that they fit together: one of
"less", "equal" and "greater" is true, and the other three are the opposites of these. Without an
order none of them is true, but for one: a date is not equal to an instant that is missing.
-/

namespace RecordQuery

/-! ### What is no number -/

namespace Number.Binary

variable {f g : Format}

lemma isNaN_ofRatio (negative : Bool) (n d : Nat) :
    (ofRatio negative n d : Binary f).isNaN = false := by
  have hle : magnitudeOf f n d ≤ f.infinity := Nat.min_le_right _ _
  exact decide_eq_false (Nat.not_lt.mpr hle)

/-- In another format a number is still a number, and what is none still none. -/
lemma isNaN_convert (x : Binary f) : (x.convert : Binary g).isNaN = x.isNaN := by
  rw [convert]
  split_ifs with hnan
  · have habove : g.infinity < g.notANumber := Nat.lt_add_of_pos_right (twoTo_pos _)
    rw [hnan]
    exact decide_eq_true habove
  · rw [isNaN_ofRatio, (Bool.not_eq_true _).mp hnan]
  · rw [(Bool.not_eq_true _).mp hnan]
    exact decide_eq_false (Nat.lt_irrefl _)

end Number.Binary

/-- Holds of the literals that are no numbers though they are written as numbers. -/
def Literal.isNaN : Literal → Bool
  | single x => x.isNaN
  | double x => x.isNaN
  | _ => false

lemma Literal.isNaN_of_coerce {l : Literal} {s : Scalar} {property : String} {v : Value}
    (h : l.coerce s property = .ok v) : v.isNaN = l.isNaN := by
  have hvariant {variants : List String} {word : String}
      (hword : coerce.variant property variants word = .ok v) : v.isNaN = false := by
    obtain ⟨found, -, rfl⟩ := variant_eq_ok_iff.mp hword
    rfl
  unfold coerce at h
  -- a binary number is computed in three of the ways: twice from an integer, once from a single
  split at h
  case h_1 =>
    split_ifs at h
    cases h
    rfl
  case h_2 => cases h; exact Number.Binary.isNaN_ofRatio _ _ _
  case h_3 => cases h; exact Number.Binary.isNaN_ofRatio _ _ _
  case h_6 => cases h; exact Number.Binary.isNaN_convert _
  case h_10 => exact hvariant h
  case h_11 => exact hvariant h
  case h_16 => cases h
  all_goals
    cases h
    rfl

lemma Value.compare?_eq_none {v w : Value} (h : v.isNaN ∨ w.isNaN) : v.compare? w = none := by
  have hrank {f : Number.Format} {x : Number.Binary f} (hx : x.isNaN) : x.rank? = none := by
    simp [Number.Binary.rank?, hx]
  rcases h with h | h
  · cases v <;> simp [isNaN] at h <;> cases w <;>
      simp [compare?, Number.Binary.compare?, hrank h]
  · cases w <;> simp [isNaN] at h <;> cases v <;>
      simp [compare?, Number.Binary.compare?, hrank h]

lemma Value.isNull_of_isNaN {v : Value} (h : v.isNaN) : v.isNull = false := by
  cases v with
  | null => cases h
  | _ => rfl

/-! ### Answers of one order -/

/-- What six comparisons answer fits together. -/
structure Comparison.IsCoherent (answer : Comparison → Bool) : Prop where
  existsUnique : ∃! k, k ∈ [lt, eq, gt] ∧ answer k
  ne : answer ne = !answer eq
  lte : answer lte = !answer gt
  gte : answer gte = !answer lt

lemma Comparison.isCoherent_holds (o : Ordering) : IsCoherent fun k => k.holds o := by
  cases o with
  | lt => exact ⟨⟨.lt, by decide, by rintro (_ | _) <;> simp [holds]⟩, rfl, rfl, rfl⟩
  | eq => exact ⟨⟨.eq, by decide, by rintro (_ | _) <;> simp [holds]⟩, rfl, rfl, rfl⟩
  | gt => exact ⟨⟨.gt, by decide, by rintro (_ | _) <;> simp [holds]⟩, rfl, rfl, rfl⟩

/-! ### Plans -/

namespace Resolved

variable {r : Resolved} {l : Literal} {plans : Comparison → Plan} {b : List Value}

/-- The plans that compare a field with a literal, by the two ways in which it can be compared. -/
inductive PlansAll (r : Resolved) : Literal → (Comparison → Plan) → Prop
  /-- An instant and a date are compared by the day. -/
  | day {d : Date} (hs : r.kind.scalar? = some .instant) :
      PlansAll r (.date d) fun k => r.compareDay k d
  /-- All else is compared as values of the field's scalar. -/
  | value {l : Literal} {s : Scalar} {v : Value} (hs : r.kind.scalar? = some s)
      (hday : ∀ d, l = .date d → s ≠ .instant) (hv : l.coerce s r.name = .ok v) :
      PlansAll r l fun k => r.compareValue k v

/-- All six comparisons with a literal have plans, or all fail with one fault. -/
lemma plan_compare_cases (hl : l ≠ .null) :
    (∃ fault, ∀ k, r.plan (.compare k) l = .error fault) ∨
      ∃ plans, r.PlansAll l plans ∧ ∀ k, r.plan (.compare k) l = .ok (plans k) := by
  by_cases hcollection : r.kind.element?.isSome
  · exact .inl ⟨_, fun k => by rw [plan, if_pos hcollection]⟩
  · cases hs : r.kind.scalar? with
    | none =>
      exact .inl ⟨.typeMismatch l r.name r.kind, fun k => by simp [plan, hcollection, hl, hs]⟩
    | some s =>
      have hplan (k : Comparison) : r.plan (.compare k) l = r.compare s k l := by
        simp [plan, hcollection, hl, hs]
      by_cases hday : ∃ d, l = .date d ∧ s = .instant
      · obtain ⟨d, rfl, rfl⟩ := hday
        exact .inr ⟨_, .day hs, hplan⟩
      · have hday' : ∀ d, l = .date d → s ≠ .instant := fun d hd hi => hday ⟨d, hd, hi⟩
        cases hv : l.coerce s r.name with
        | error fault =>
          exact .inl ⟨fault, fun k => by rw [hplan, compare_eq_coerce hday', hv]; rfl⟩
        | ok v =>
          exact .inr ⟨_, .value hs hday' hv, fun k => by
            rw [hplan, compare_eq_coerce hday', hv]
            rfl⟩

/-- What is missing has no order, so that it does not matter whether it is looked for. -/
lemma holds_compareValue (k : Comparison) (v : Value) (b : List Value) :
    (r.compareValue k v).holds b =
      ((r.reading b).isReached && ((r.accessor.read b).compare? v).any k.holds) := by
  rw [compareValue, Plan.holds_guarded, isReached_reading]
  congr 1
  by_cases hnullable : r.kind.isNullable
  · cases hread : r.accessor.read b <;>
      simp [hnullable, Plan.holds, hread, Value.isNull, Value.compare?, Plan.holdsFor_eq_any]
  · simp [hnullable, Plan.holds, Plan.holdsFor_eq_any]

lemma holds_compareDate (k : Comparison) (d : Date) (b : List Value) :
    (r.compareDay k d).holds b =
      ((r.reading b).isReached && ((r.accessor.read b).isNull && r.kind.isNullable && k == .ne ||
        ((Plan.dateOf? (r.accessor.read b)).map (·.compare d)).any k.holds)) := by
  rw [compareDay, Plan.holds_guarded, isReached_reading]
  congr 1
  by_cases hnullable : r.kind.isNullable <;> by_cases hne : k = .ne <;>
    cases hread : r.accessor.read b <;>
    simp [hnullable, hne, Plan.holds, hread, Value.isNull, Plan.dateOf?, Plan.holdsFor]

/-- The comparisons of a field with a literal all read one order, and where there is none they are
true of what is missing at most. -/
lemma PlansAll.exists_order (h : r.PlansAll l plans) (b : List Value) :
    ∃ o : Option Ordering,
      (∀ k, (plans k).holds b = ((r.reading b).isReached &&
        ((r.accessor.read b).isNull && r.kind.admitsMissing (.compare k) l || o.any k.holds))) ∧
      ((r.accessor.read b).isNull ∨ (r.accessor.read b).isNaN ∨ l.isNaN → o = none) ∧
      ∀ s, r.kind.scalar? = some s → s.has (r.accessor.read b) →
        (r.accessor.read b).isNaN = false → l.isNaN = false → o.isSome := by
  cases h with
  | @day d hs =>
    refine ⟨(Plan.dateOf? (r.accessor.read b)).map (·.compare d), fun k => ?_, ?_, ?_⟩
    · have hadmits : r.kind.admitsMissing (.compare k) (.date d) =
          (r.kind.isNullable && k == .ne) := by
        cases k <;> simp [Kind.admitsMissing, hs]
      rw [hadmits, ← Bool.and_assoc]
      exact holds_compareDate k d b
    · rintro (h | h | h)
      · cases hread : r.accessor.read b <;> simp [hread, Value.isNull] at h
        rfl
      · cases hread : r.accessor.read b <;> simp [hread, Value.isNaN] at h <;> rfl
      · cases h
    · intro s hs' hhas _ _
      cases hs.symm.trans hs'
      cases hread : r.accessor.read b <;> simp [hread, Scalar.has] at hhas
      rfl
  | @value l s v hs hday hv =>
    refine ⟨(r.accessor.read b).compare? v, fun k => ?_, ?_, ?_⟩
    · have hadmits : r.kind.admitsMissing (.compare k) l = false := by
        cases l with
        | null => simp [Literal.coerce] at hv
        | date d => cases k <;> simp [Kind.admitsMissing, hs, hday d rfl]
        | _ => cases k <;> rfl
      rw [hadmits, Bool.and_false, Bool.false_or]
      exact holds_compareValue k v b
    · rintro (h | h)
      · cases hread : r.accessor.read b <;> simp [hread, Value.isNull] at h
        rfl
      · exact Value.compare?_eq_none (Literal.isNaN_of_coerce hv ▸ h)
    · intro s' hs' hhas hread hl
      cases hs.symm.trans hs'
      exact Scalar.isSome_compare? hhas (Literal.has_of_coerce hv) hread
        ((Literal.isNaN_of_coerce hv).trans hl)

end Resolved

/-! ### Readings -/

/-- Behind a missing record all is missing. -/
lemma Schema.isReached_of_follow {s : Schema} {t : TypeRef} {v : Value} {first : String}
    {rest : List String} {r : Reading} (h : s.follow t v first rest = some r)
    (hvalue : r.value.isNull = false) : r.isReached := by
  induction rest generalizing t v first r with
  | nil =>
    obtain ⟨f, -, hr⟩ := Option.bind_eq_some_iff.mp h
    cases hr
    rfl
  | cons next rest ih =>
    obtain ⟨f, -, h⟩ := Option.bind_eq_some_iff.mp h
    obtain ⟨u, -, h⟩ := Option.bind_eq_some_iff.mp h
    obtain ⟨q, hq, hr⟩ := Option.bind_eq_some_iff.mp h
    cases hr
    have hpresent : (v.get f.name).isNull = false := by
      cases hget : v.get f.name with
      | null =>
        rw [hget] at hq
        have hnull := (Schema.follow_null hq).1
        simp only [hnull] at hvalue
        cases hvalue
      | _ => rfl
    have hreached : q.isReached := ih hq hvalue
    simpa [Reading.isReached, hpresent] using hreached

lemma Environment.isReached_of_read {env : Environment} {p : Path} {r : Reading}
    (h : env.read p = some r) (hvalue : r.value.isNull = false) : r.isReached := by
  have hfollow {x : Binding} {first : String} {rest : List String}
      (h : env.follow x first rest = some r) : r.isReached := by
    obtain ⟨t, -, h⟩ := Option.bind_eq_some_iff.mp h
    exact Schema.isReached_of_follow h hvalue
  rw [read] at h
  split at h
  · split at h
    · cases h
      rfl
    · exact hfollow h
  · split at h
    · exact hfollow h
    · exact Schema.isReached_of_follow h hvalue

/-- The answers of the six comparisons of a field with a literal, by what the field holds. -/
structure Reading.Answers (r : Reading) (l : Literal) (answer : Comparison → Bool) : Prop where
  /-- Behind a missing record none is true. -/
  of_passed : (∃ v ∈ r.passed, v.isNull) → ∀ k, answer k = false
  /-- Of a missing field none is true, except that no date is equal to an instant that is
  missing where it may be. -/
  of_null : r.isReached → r.value.isNull → ∀ k, answer k ↔
    k = .ne ∧ (∃ d, l = .date d) ∧ r.kind.isNullable ∧ r.kind.scalar? = some .instant
  /-- Of a value of the field's kind they fit together. -/
  coherent : ∀ s, r.kind.scalar? = some s → s.has r.value → r.value.isNaN = false →
    l.isNaN = false → Comparison.IsCoherent answer
  /-- Of what is no number none is true. -/
  of_isNaN : r.value.isNaN ∨ l.isNaN → ∀ k, answer k = false

lemma Kind.admitsMissing_compare_iff {kind : Kind} {k : Comparison} {l : Literal} (hl : l ≠ .null) :
    kind.admitsMissing (.compare k) l ↔
      k = .ne ∧ (∃ d, l = .date d) ∧ kind.isNullable ∧ kind.scalar? = some .instant := by
  cases k <;> cases l <;> simp_all [admitsMissing]

lemma Resolved.PlansAll.answers {r : Resolved} {l : Literal} {plans : Comparison → Plan}
    {b : List Value} (h : r.PlansAll l plans) (hl : l ≠ .null)
    (hreached : (r.reading b).value.isNull = false → (r.reading b).isReached) :
    (r.reading b).Answers l fun k => (plans k).holds b := by
  obtain ⟨o, hholds, hnone, hsome⟩ := h.exists_order b
  refine ⟨fun hpassed k => ?_, fun hfound hnull k => ?_, fun s hs hhas hvalue hliteral => ?_,
    fun hnan k => ?_⟩
  · rw [hholds, Reading.isReached_eq_false hpassed, Bool.false_and]
  · have hnull' : (r.accessor.read b).isNull = true := hnull
    rw [hholds, hfound, hnull', hnone (.inl hnull), Option.any_none, Bool.or_false, Bool.true_and,
      Bool.true_and]
    exact Kind.admitsMissing_compare_iff hl
  · obtain ⟨o', rfl⟩ := Option.isSome_iff_exists.mp (hsome s hs hhas hvalue hliteral)
    have hpresent : (r.accessor.read b).isNull = false := Scalar.isNull_of_has hhas
    simp only [hholds, hreached hpresent, hpresent, Bool.true_and, Bool.false_and, Bool.false_or,
      Option.any_some]
    exact Comparison.isCoherent_holds o'
  · have hadmits : ((r.accessor.read b).isNull && r.kind.admitsMissing (.compare k) l) = false := by
      rw [Bool.and_eq_false_iff, Bool.eq_false_iff (b := Kind.admitsMissing ..)]
      rcases hnan with hvalue | hliteral
      · exact .inl (Value.isNull_of_isNaN hvalue)
      · refine .inr fun hadmits => ?_
        obtain ⟨-, ⟨d, rfl⟩, -⟩ := (Kind.admitsMissing_compare_iff hl).mp hadmits
        cases hliteral
    rw [hholds, hadmits, hnone (.inr hnan), Option.any_none, Bool.or_false, Bool.and_false]

/-- The six comparisons of a field with a literal either all fail, with one fault, or all have
plans, and then the answers of these fit together wherever they are run. -/
theorem Expr.answers_compare (limit : Nat) (c : Context) (left : Expr) {l : Literal}
    (hl : l ≠ .null) :
    (∃ fault, ∀ k, (Expr.binary left (.compare k) (.literal l)).compile limit c = .error fault) ∨
      ∃ plans : Comparison → Plan,
        (∀ k, (Expr.binary left (.compare k) (.literal l)).compile limit c = .ok (plans k)) ∧
        ∀ env b, c.Agrees env b → ∃ path r, left.reference? = some path ∧
          env.read path = some r ∧ r.Answers l fun k => (plans k).holds b := by
  have hcompile (k : Comparison) : (Expr.binary left (.compare k) (.literal l)).compile limit c =
      (do (← c.resolve (← left.subject)).plan (.compare k) l) := rfl
  cases hsubject : left.subject with
  | error fault => exact .inl ⟨fault, fun k => by rw [hcompile, hsubject]; rfl⟩
  | ok path =>
    cases hresolve : c.resolve path with
    | error fault =>
      exact .inl ⟨fault, fun k => by simp [hcompile, hsubject, hresolve, bind, Except.bind]⟩
    | ok resolved =>
      have hplan (k : Comparison) : (Expr.binary left (.compare k) (.literal l)).compile limit c =
          resolved.plan (.compare k) l := by
        simp [hcompile, hsubject, hresolve, bind, Except.bind]
      rcases Resolved.plan_compare_cases hl with ⟨fault, hfault⟩ | ⟨plans, hplans, hok⟩
      · exact .inl ⟨fault, fun k => (hplan k).trans (hfault k)⟩
      · refine .inr ⟨plans, fun k => (hplan k).trans (hok k), fun env b hagrees => ?_⟩
        have hread := hagrees.read_of_resolves (Context.resolves_of_resolve hresolve)
        exact ⟨path, _, reference?_of_subject hsubject, hread,
          hplans.answers hl (Environment.isReached_of_read hread)⟩

/-! ### An example -/

namespace People

/-- Dan is over thirty. -/
def dan : Record := person "Dan" (.integer .i32 31) []

lemma compile_age (k : Comparison) :
    PropertyTree.compile ⟨schema, schema.root, [], 3⟩ 3
      (.binary (.name "age") (.compare k) (.literal (.integer 30))) =
        .ok (.and (.notNull ⟨0, ["Age"]⟩) (.compare ⟨0, ["Age"]⟩ k (.integer .i32 30))) := by
  have hage : people.record.Calls "age" ageField := calls (by decide) (by decide +kernel)
  exact compile_compareAge (.name "age") rfl (Context.resolves_name hage (by decide)) k (by decide)

lemma read_age : Environment.read ⟨schema, dan, []⟩ (.single "age") =
    some ⟨.optional (.scalar (.integer .i32)), .integer .i32 31, []⟩ := by
  have hage : people.record.Calls "age" ageField := calls (by decide) (by decide +kernel)
  exact Environment.read_of_calls hage

/-- As Dan's age is greater than thirty, three comparisons with it are true. -/
theorem answers_age :
    Literal.integer 30 ≠ .null ∧ ∃ plans : Comparison → Plan,
      (∀ k, PropertyTree.compile ⟨schema, schema.root, [], 3⟩ 3
        (.binary (.name "age") (.compare k) (.literal (.integer 30))) = .ok (plans k)) ∧
      ∀ k, (plans k).passes dan ↔ k ∈ [.ne, .gt, .gte] := by
  have hl : Literal.integer 30 ≠ .null := by simp
  refine ⟨hl, ?_⟩
  rcases Expr.answers_compare 3 ⟨⟨schema, schema.root, [], 3⟩, []⟩ (.name "age") hl with
    ⟨fault, hfault⟩ | ⟨plans, hplans, hanswers⟩
  · cases (hfault .eq).symm.trans (compile_age .eq)
  · refine ⟨plans, hplans, ?_⟩
    obtain ⟨path, r, hpath, hread, hr⟩ := hanswers _ _ (Context.agrees_root build_root dan)
    cases hpath
    cases hread.symm.trans read_age
    obtain ⟨hunique, hne, hlte, hgte⟩ := hr.coherent (.integer .i32) rfl (by decide) rfl rfl
    have hgt : (plans .gt).holds [.record dan] = true := by
      rw [Except.ok.inj ((hplans .gt).symm.trans (compile_age .gt))]
      decide +kernel
    have hother (k : Comparison) (hk : k ∈ [Comparison.lt, .eq, .gt]) (hne : k ≠ .gt) :
        (plans k).holds [.record dan] = false := by
      rw [Bool.eq_false_iff]
      exact fun hholds => hne (hunique.unique ⟨hk, hholds⟩ ⟨by decide, hgt⟩)
    have hlt := hother .lt (by decide) (by decide)
    have heq := hother .eq (by decide) (by decide)
    intro k
    rw [Plan.passes]
    cases k <;> simp_all

end People

end RecordQuery

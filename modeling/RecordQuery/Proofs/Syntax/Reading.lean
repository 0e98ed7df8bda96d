import RecordQuery.Proofs.Outcome
import RecordQuery.Proofs.Syntax.Grammar

/-!
# What the reading functions read

For every function of the parser what it reads from some tokens, in terms of the functions that it
calls, and what it finds where these may meet too many levels.
-/

namespace RecordQuery

namespace Parser

variable {α : Type} {ts us rest : List Token} {e : Expr} {inner : Reader}

/-- A function reads a value from the front of some tokens and leaves the others. -/
def Reads (r : Except QueryError (Parsed α ts)) (v : α) (rest : List Token) : Prop :=
  ∃ p, r = .ok p ∧ p.value = v ∧ p.rest = rest

/-- A function reads a value unless there are too many levels. -/
def Finds (r : Except QueryError (Parsed α ts)) (v : α) (rest : List Token) : Prop :=
  r = .error (.nestingTooDeep maxDepth) ∨ Reads r v rest

lemma Reads.length_le {r : Except QueryError (Parsed α ts)} {v : α} (h : Reads r v rest) :
    rest.length ≤ ts.length := by
  obtain ⟨p, -, -, rfl⟩ := h
  exact p.rest_le

@[simp] lemma reads_ok_iff {p : Parsed α ts} {v : α} :
    Reads (.ok p) v rest ↔ p.value = v ∧ p.rest = rest := by
  simp [Reads]

@[simp] lemma not_reads_error {fault : QueryError} {v : α} :
    ¬ Reads (.error fault : Except QueryError (Parsed α ts)) v rest := by
  simp [Reads]

/-- Only one value is read, and only some tokens are left. -/
lemma Reads.unique {r : Except QueryError (Parsed α ts)} {v v' : α} {rest' : List Token}
    (h : Reads r v rest) (h' : Reads r v' rest') : v' = v ∧ rest' = rest := by
  obtain ⟨p, hp, rfl, rfl⟩ := h
  obtain ⟨p', hp', rfl, rfl⟩ := h'
  cases hp.symm.trans hp'
  exact ⟨rfl, rfl⟩

/-- What is read from the end of some tokens is read from all of them. -/
lemma reads_weaken_iff {r : Except QueryError (Parsed α us)} {v : α}
    (h : us.length ≤ ts.length) :
    Reads (r >>= fun p => pure (p.weaken h)) v rest ↔ Reads r v rest := by
  cases r with
  | error fault => exact Iff.rfl.trans (by simp [bind, Except.bind])
  | ok p => simp [bind, Except.bind, pure, Except.pure, Parsed.weaken]

lemma finds_weaken_iff {r : Except QueryError (Parsed α us)} {v : α}
    (h : us.length ≤ ts.length) :
    Finds (r >>= fun p => pure (p.weaken h)) v rest ↔ Finds r v rest := by
  rw [Finds, Finds, reads_weaken_iff]
  cases r with
  | error fault => simp [bind, Except.bind]
  | ok p => simp [bind, Except.bind, pure, Except.pure]

/-! ### Comparisons -/

/-- Every token that stands for a literal is one with a value. -/
lemma isValue_of_literal? {t : Token} {l : Literal} (h : literal? t = some l) : isValue t.kind := by
  unfold literal? at h
  cases hkind : t.kind <;> simp_all [isValue]

lemma operandFault?_eq_none_iff {o : Operator} {k : Token.Kind} :
    operandFault? o k = none ↔ o.Takes k := by
  unfold operandFault? Operator.Takes
  by_cases ho : o = .contains
  · subst ho
    cases k <;> simp [Operator.isOrdering]
  · by_cases hordering : o.isOrdering <;> simp [ho, hordering]

lemma operand_eq_ok_iff {o : Operator} {t : Token} {l : Literal} :
    operand o t = .ok l ↔ o.Takes t.kind ∧ literal? t = some l := by
  rw [← operandFault?_eq_none_iff, operand]
  by_cases hvalue : isValue t.kind
  · cases hfault : operandFault? o t.kind with
    | some fault => simp [hvalue]
    | none =>
      cases hl : literal? t with
      | none => simp [hvalue]
      | some l => simp [hvalue]
  · have hnone : literal? t ≠ some l := fun h => hvalue (isValue_of_literal? h)
    simp [hvalue, hnone]

lemma reads_comparison_iff {left : Expr} :
    Reads (comparison left ts) e rest ↔
      ∃ word value o l, ts = word :: value :: rest ∧ comparison? word = some o ∧
        o.Takes value.kind ∧ literal? value = some l ∧ e = .binary left o (.literal l) := by
  match ts with
  | [] => simp [comparison]
  | [t] => cases h : comparison? t <;> simp [comparison, h]
  | t :: value :: us =>
    cases ho : comparison? t with
    | none => simp +contextual [comparison, ho]
    | some o =>
      constructor
      · rintro ⟨p, hp, rfl, rfl⟩
        simp only [comparison, ho] at hp
        obtain ⟨l, hl, hp⟩ := Outcome.bind_eq_ok_iff.mp hp
        obtain ⟨htakes, hvalue⟩ := operand_eq_ok_iff.mp hl
        cases hp
        exact ⟨t, value, o, l, rfl, ho, htakes, hvalue, rfl⟩
      · rintro ⟨_, _, o', l, hts, ho', htakes, hvalue, rfl⟩
        cases hts
        cases ho.symm.trans ho'
        simp [comparison, ho, operand_eq_ok_iff.mpr ⟨htakes, hvalue⟩, bind, Except.bind, pure,
          Except.pure]

/-! ### Groups -/

lemma reads_group_iff :
    Reads (group inner ts) e rest ↔
      ∃ closing, closing.kind = .closeParen ∧ Reads (inner 0 ts) e (closing :: rest) := by
  constructor
  · rintro ⟨p, hp, rfl, rfl⟩
    obtain ⟨content, hcontent, h⟩ := Outcome.bind_eq_ok_iff.mp hp
    split at h
    · cases h
    · rename_i closing rest hrest
      split_ifs at h with hclosing
      cases h
      exact ⟨closing, not_not.mp hclosing, content, hcontent, rfl, hrest⟩
  · rintro ⟨closing, hclosing, content, hcontent, rfl, hrest⟩
    rw [group, hcontent]
    simp only [bind, Except.bind]
    split
    · rename_i hnil
      rw [hnil] at hrest
      cases hrest
    · rename_i hcons
      rw [hcons] at hrest
      cases hrest
      simp [hclosing, pure, Except.pure]

lemma finds_group {closing : Token} (hclosing : closing.kind = .closeParen)
    (h : Finds (inner 0 ts) e (closing :: rest)) : Finds (group inner ts) e rest := by
  rcases h with h | h
  · left
    rw [group, h]
    rfl
  · right
    exact reads_group_iff.mpr ⟨closing, hclosing, h⟩

/-! ### Subjects -/

lemma quantifier?_eq_some_iff {t : Token} {q : Quantifier} :
    quantifier? t ts = some q ↔
      ∃ opening us, ts = opening :: us ∧ opening.kind = .openParen ∧
        Text.sameWord q.text t.literal := by
  cases ts with
  | nil => simp [quantifier?]
  | cons opening us =>
    rw [quantifier?]
    split_ifs with h
    · simp [h, Quantifier.ofWord?_eq_some_iff]
    · simp [h]

lemma quantifier?_eq_none {t : Token} (h : ∀ u ∈ ts.head?, u.kind ≠ .openParen) :
    quantifier? t ts = none := by
  cases ts with
  | nil => rfl
  | cons u us => simp [quantifier?, h u rfl]

/-- A subject is a path, or a path and a quantifier before an opening parenthesis. -/
lemma names_of_reads_subject {ts rest : List Token} {p : Path} {s : Subject}
    (h : Reads (subject p ts) s rest) :
    ∃ ns us, Names ns us ∧
      (ts = us ++ rest ∧ s = .property ⟨p.first, p.rest ++ ns⟩ ∨
        ∃ slash word opening q, ts = us ++ slash :: word :: opening :: rest ∧
          slash.kind = .slash ∧ word.isKeyword (Quantifier.text q) ∧ opening.kind = .openParen ∧
          s = .collection ⟨p.first, p.rest ++ ns⟩ q) := by
  match ts with
  | [] =>
    rw [subject, reads_ok_iff] at h
    exact ⟨[], [], .nil, .inl ⟨h.2, by simp [← h.1]⟩⟩
  | [t] =>
    rw [subject] at h
    split_ifs at h with hslash
    · exact absurd h not_reads_error
    · rw [reads_ok_iff] at h
      exact ⟨[], [], .nil, .inl ⟨h.2, by simp [← h.1]⟩⟩
  | slash :: word :: us =>
    rw [subject] at h
    split_ifs at h with hslash hname
    · rw [reads_ok_iff] at h
      exact ⟨[], [], .nil, .inl ⟨h.2, by simp [← h.1]⟩⟩
    · exact absurd h not_reads_error
    · rw [not_not] at hslash hname
      cases hq : quantifier? word us with
      | some q =>
        simp only [hq, reads_ok_iff] at h
        obtain ⟨opening, vs, rfl, hopening, hword⟩ := quantifier?_eq_some_iff.mp hq
        obtain ⟨rfl, rfl⟩ := h
        exact ⟨[], [], .nil, .inr ⟨slash, word, opening, q, rfl, hslash,
          Token.isKeyword_iff.mpr ⟨hname, hword⟩, hopening, by simp⟩⟩
      | none =>
        simp only [hq, reads_weaken_iff] at h
        obtain ⟨ns, vs, hnames, hcases⟩ := names_of_reads_subject h
        refine ⟨word.literal :: ns, slash :: word :: vs, .cons hslash hname hnames, ?_⟩
        rcases hcases with ⟨rfl, rfl⟩ | ⟨slash', word', opening, q, rfl, hs, hw, ho, rfl⟩
        · exact .inl ⟨rfl, by simp [Path.push]⟩
        · exact .inr ⟨slash', word', opening, q, rfl, hs, hw, ho, by simp [Path.push]⟩

/-- The names of a path are read one after the other, as no quantifier stands among them. -/
lemma reads_subject_append {ns : List String} (h : Names ns us) {p : Path} {s : Subject}
    (hts : ∀ t ∈ ts.head?, t.kind ≠ .openParen)
    (hs : Reads (subject ⟨p.first, p.rest ++ ns⟩ ts) s rest) :
    Reads (subject p (us ++ ts)) s rest := by
  induction h generalizing p with
  | nil => simpa using hs
  | @cons slash name ns us hslash hname h ih =>
    have hhead : ∀ t ∈ (us ++ ts).head?, t.kind ≠ .openParen := by
      cases h with
      | nil => exact hts
      | cons hslash => simp [hslash]
    rw [List.cons_append, List.cons_append, subject]
    simp only [hslash, hname, quantifier?_eq_none hhead, ne_eq, not_true_eq_false, if_false,
      reads_weaken_iff]
    exact ih (by simpa [Path.push] using hs)

lemma reads_subject_property {ns : List String} (h : Names ns us) {first : String} {t : Token}
    (ht : t.kind = .name) :
    Reads (subject (.single first) (us ++ t :: ts)) (.property ⟨first, ns⟩) (t :: ts) := by
  refine reads_subject_append h (by simp [ht]) ?_
  cases ts <;> simp [subject, ht, Path.single]

lemma reads_subject_collection {ns : List String} (h : Names ns us) {first : String}
    {slash word opening : Token} {q : Quantifier} (hslash : slash.kind = .slash)
    (hword : word.isKeyword q.text) (hopening : opening.kind = .openParen) :
    Reads (subject (.single first) (us ++ slash :: word :: opening :: ts))
      (.collection ⟨first, ns⟩ q) ts := by
  obtain ⟨hname, hword⟩ := Token.isKeyword_iff.mp hword
  have hq : quantifier? word (opening :: ts) = some q :=
    quantifier?_eq_some_iff.mpr ⟨opening, ts, rfl, hopening, hword⟩
  refine reads_subject_append h (by simp [hslash]) ?_
  simp [subject, hslash, hname, hq, Path.single]

/-! ### Quantified conditions -/

lemma reads_lambda_iff {c : Path} {q : Quantifier} :
    Reads (lambda inner c q ts) e rest ↔
      ∃ parameter colon us body closing, ts = parameter :: colon :: us ∧
        parameter.kind = .name ∧ colon.kind = .colon ∧
        Reads (inner 0 us) body (closing :: rest) ∧ closing.kind = .closeParen ∧
        e = .completed c q parameter.literal body := by
  match ts with
  | [] => simp [lambda]
  | [parameter] => by_cases h : parameter.kind = .name <;> simp [lambda, h]
  | parameter :: colon :: us =>
    by_cases hparameter : parameter.kind = .name
    · by_cases hcolon : colon.kind = .colon
      · simp only [lambda, hparameter, hcolon, ne_eq, not_true_eq_false, if_false]
        constructor
        · rintro ⟨p, hp, rfl, rfl⟩
          obtain ⟨body, hbody, h⟩ := Outcome.bind_eq_ok_iff.mp hp
          split at h
          · cases h
          · rename_i closing rest hrest
            split_ifs at h with hclosing
            cases h
            exact ⟨parameter, colon, us, body.value, closing, rfl, hparameter, hcolon,
              ⟨body, hbody, rfl, hrest⟩, hclosing, rfl⟩
        · rintro ⟨_, _, _, _, closing, hts, -, -, ⟨body, hbody, rfl, hrest⟩, hclosing, rfl⟩
          cases hts
          rw [hbody]
          simp only [bind, Except.bind]
          split
          · rename_i hnil
            rw [hnil] at hrest
            cases hrest
          · rename_i hcons
            rw [hcons] at hrest
            cases hrest
            simp [hclosing, pure, Except.pure]
      · simp +contextual [lambda, hparameter, hcolon]
    · simp +contextual [lambda, hparameter]

lemma finds_lambda {c : Path} {q : Quantifier} {parameter colon closing : Token} {body : Expr}
    (hparameter : parameter.kind = .name) (hcolon : colon.kind = .colon)
    (hclosing : closing.kind = .closeParen) (h : Finds (inner 0 ts) body (closing :: rest)) :
    Finds (lambda inner c q (parameter :: colon :: ts))
      (.completed c q parameter.literal body) rest := by
  rcases h with h | h
  · left
    simp [lambda, hparameter, hcolon, h, bind, Except.bind]
  · right
    exact reads_lambda_iff.mpr
      ⟨parameter, colon, ts, body, closing, rfl, hparameter, hcolon, h, hclosing, rfl⟩

/-! ### Terms -/

lemma reads_condition_iff {first : String} :
    Reads (condition inner first ts) e rest ↔
      (∃ p us, Reads (subject (.single first) ts) (.property p) us ∧
        Reads (comparison (property p) us) e rest) ∨
      ∃ p q us, Reads (subject (.single first) ts) (.collection p q) us ∧
        Reads (lambda inner p q us) e rest := by
  constructor
  · rintro ⟨p, hp, rfl, rfl⟩
    obtain ⟨start, hstart, h⟩ := Outcome.bind_eq_ok_iff.mp hp
    split at h
    · rename_i path hpath
      exact .inl ⟨path, start.rest, ⟨start, hstart, hpath, rfl⟩,
        (reads_weaken_iff start.rest_le).mp ⟨p, h, rfl, rfl⟩⟩
    · rename_i path q hpath
      exact .inr ⟨path, q, start.rest, ⟨start, hstart, hpath, rfl⟩,
        (reads_weaken_iff start.rest_le).mp ⟨p, h, rfl, rfl⟩⟩
  · rintro (⟨path, us, hsubject, h⟩ | ⟨path, q, us, hsubject, h⟩)
    · obtain ⟨start, hstart, hpath, rfl⟩ := hsubject
      rw [condition, hstart]
      simp only [bind, Except.bind, hpath]
      exact (reads_weaken_iff start.rest_le).mpr h
    · obtain ⟨start, hstart, hpath, rfl⟩ := hsubject
      rw [condition, hstart]
      simp only [bind, Except.bind, hpath]
      exact (reads_weaken_iff start.rest_le).mpr h

/-- A property is compared with a literal. -/
lemma reads_condition_comparison {first : String} {ns : List String} {word value : Token}
    {o : Operator} {l : Literal} (hnames : Names ns us) (ho : o ∈ Operator.comparisons)
    (hword : word.isKeyword o.text) (htakes : o.Takes value.kind)
    (hvalue : literal? value = some l) :
    Reads (condition inner first (us ++ word :: value :: rest))
      (.binary (property ⟨first, ns⟩) o (.literal l)) rest := by
  have hkind := (Token.isKeyword_iff.mp hword).1
  refine reads_condition_iff.mpr (.inl ⟨_, _, reads_subject_property hnames hkind,
    reads_comparison_iff.mpr ?_⟩)
  exact ⟨word, value, o, l, rfl, comparison?_eq_some_iff.mpr ⟨ho, hword⟩, htakes, hvalue, rfl⟩

/-- After a collection and its quantifier a condition is a quantified one. -/
lemma reads_condition_collection_iff {first : String} {p : Path} {q : Quantifier}
    (hs : Reads (subject (.single first) ts) (.collection p q) us) :
    Reads (condition inner first ts) e rest ↔ Reads (lambda inner p q us) e rest := by
  rw [reads_condition_iff]
  constructor
  · rintro (⟨p', us', hs', -⟩ | ⟨p', q', us', hs', h⟩)
    · exact absurd (hs.unique hs').1 (by simp)
    · obtain ⟨heq, rfl⟩ := hs.unique hs'
      cases heq
      exact h
  · exact fun h => .inr ⟨p, q, us, hs, h⟩

lemma finds_condition {first : String} {p : Path} {q : Quantifier}
    (hs : Reads (subject (.single first) ts) (.collection p q) us)
    (h : Finds (lambda inner p q us) e rest) : Finds (condition inner first ts) e rest := by
  rcases h with h | h
  · left
    obtain ⟨start, hstart, hpath, rfl⟩ := hs
    rw [condition, hstart]
    simp [bind, Except.bind, hpath, h]
  · exact .inr (reads_condition_iff.mpr (.inr ⟨p, q, us, hs, h⟩))

lemma reads_term_iff :
    Reads (term inner ts) e rest ↔
      ∃ t us, ts = t :: us ∧ (t.kind = .openParen ∧ Reads (group inner us) e rest ∨
        t.kind = .name ∧ Reads (condition inner t.literal us) e rest) := by
  cases ts with
  | nil => simp [term]
  | cons t us =>
    by_cases hopening : t.kind = .openParen
    · simp only [term, hopening, if_true, reads_weaken_iff]
      simp [hopening]
    · by_cases hname : t.kind = .name
      · simp only [term, hname, reduceCtorEq, if_true, if_false, reads_weaken_iff]
        simp [hname]
      · simp [term, hopening, hname]

lemma finds_term_group {t : Token} (ht : t.kind = .openParen)
    (h : Finds (group inner ts) e rest) : Finds (term inner (t :: ts)) e rest := by
  simp only [term, ht, if_true, finds_weaken_iff]
  exact h

lemma finds_term_condition {t : Token} (ht : t.kind = .name)
    (h : Finds (condition inner t.literal ts) e rest) : Finds (term inner (t :: ts)) e rest := by
  simp only [term, ht, reduceCtorEq, if_true, if_false, finds_weaken_iff]
  exact h

/-! ### Joined conditions -/

/-- Holds if no condition is joined here by an operator that binds tighter than a strength. -/
def Stops (strength : Nat) (ts : List Token) : Prop :=
  ∀ t ∈ ts.head?, ∀ o, logical? t = some o → o.precedence ≤ strength

lemma chain_of_stops {strength : Nat} {left : Expr} (h : Stops strength ts) :
    chain inner strength left ts = .ok ⟨left, ts, Nat.le_refl _⟩ := by
  cases ts with
  | nil => rw [chain]
  | cons t us =>
    rw [chain]
    cases ho : logical? t with
    | none => rfl
    | some o => simp [h t rfl o ho]

lemma reads_chain_of_stops_iff {strength : Nat} {left : Expr} (h : Stops strength ts) :
    Reads (chain inner strength left ts) e rest ↔ e = left ∧ rest = ts := by
  rw [chain_of_stops h, reads_ok_iff, eq_comm, eq_comm (a := ts)]

/-- A chain either goes on with an operator that binds tighter, or stops. -/
lemma reads_chain_cons_iff {strength : Nat} {left : Expr} {t : Token} {o : Operator}
    (ho : logical? t = some o) (hstrength : strength < o.precedence) :
    Reads (chain inner strength left (t :: ts)) e rest ↔
      ∃ right us, Reads (inner o.precedence ts) right us ∧
        (Expr.binary left o right).depth ≤ maxDepth ∧
        Reads (chain inner strength (.binary left o right) us) e rest := by
  rw [chain]
  simp only [ho, Nat.not_le.mpr hstrength, if_false]
  constructor
  · rintro ⟨p, hp, rfl, rfl⟩
    obtain ⟨right, hright, h⟩ := Outcome.bind_eq_ok_iff.mp hp
    split_ifs at h with hdepth
    exact ⟨right.value, right.rest, ⟨right, hright, rfl, rfl⟩, Nat.not_lt.mp hdepth,
      (reads_weaken_iff _).mp ⟨p, h, rfl, rfl⟩⟩
  · rintro ⟨_, _, ⟨right, hright, rfl, rfl⟩, hdepth, h⟩
    rw [hright]
    simp only [bind, Except.bind, Nat.not_lt.mpr hdepth, if_false]
    exact (reads_weaken_iff _).mpr h

/-- A chain stops, or goes on after an operator that binds tighter, on fewer tokens. -/
lemma reads_chain_cases {strength : Nat} {left : Expr}
    (h : Reads (chain inner strength left ts) e rest) :
    (Stops strength ts ∧ e = left ∧ rest = ts) ∨
      ∃ t us o right mid, ts = t :: us ∧ logical? t = some o ∧ strength < o.precedence ∧
        Reads (inner o.precedence us) right mid ∧ (Expr.binary left o right).depth ≤ maxDepth ∧
        Reads (chain inner strength (.binary left o right) mid) e rest ∧
        mid.length < ts.length := by
  by_cases hstops : Stops strength ts
  · rw [chain_of_stops hstops, reads_ok_iff] at h
    exact .inl ⟨hstops, h.1.symm, h.2.symm⟩
  · right
    cases ts with
    | nil => exact absurd (by simp [Stops]) hstops
    | cons t us =>
      simp only [Stops, List.head?_cons, Option.mem_def, Option.some.injEq, forall_eq',
        not_forall, Nat.not_le] at hstops
      obtain ⟨o, ho, hstrength⟩ := hstops
      obtain ⟨right, mid, hright, hdepth, h⟩ := (reads_chain_cons_iff ho hstrength).mp h
      exact ⟨t, us, o, right, mid, rfl, ho, hstrength, hright, hdepth, h,
        Nat.lt_succ_of_le hright.length_le⟩

lemma finds_chain_cons {strength : Nat} {left right : Expr} {t : Token} {o : Operator}
    (ho : logical? t = some o) (hstrength : strength < o.precedence)
    (hright : Finds (inner o.precedence ts) right us)
    (h : Finds (chain inner strength (.binary left o right) us) e rest) :
    Finds (chain inner strength left (t :: ts)) e rest := by
  rw [chain]
  simp only [ho, Nat.not_le.mpr hstrength, if_false]
  rcases hright with hright | ⟨right, hright, rfl, rfl⟩
  · left
    rw [hright]
    rfl
  · rw [hright]
    simp only [bind, Except.bind]
    split_ifs
    · exact .inl rfl
    · exact (finds_weaken_iff _).mpr h

/-! ### Expressions -/

lemma reads_expression_iff {levels strength : Nat} :
    Reads (expression (levels + 1) strength ts) e rest ↔
      ∃ first us, Reads (term (expression levels) ts) first us ∧
        Reads (chain (expression levels) strength first us) e rest := by
  rw [expression]
  constructor
  · rintro ⟨p, hp, rfl, rfl⟩
    obtain ⟨first, hfirst, h⟩ := Outcome.bind_eq_ok_iff.mp hp
    exact ⟨first.value, first.rest, ⟨first, hfirst, rfl, rfl⟩,
      (reads_weaken_iff first.rest_le).mp ⟨p, h, rfl, rfl⟩⟩
  · rintro ⟨_, _, ⟨first, hfirst, rfl, rfl⟩, h⟩
    rw [hfirst]
    exact (reads_weaken_iff first.rest_le).mpr h

lemma finds_expression {levels strength : Nat} {first : Expr}
    (hfirst : Finds (term (expression levels) ts) first us)
    (h : Finds (chain (expression levels) strength first us) e rest) :
    Finds (expression (levels + 1) strength ts) e rest := by
  rw [expression]
  rcases hfirst with hfirst | ⟨first, hfirst, rfl, rfl⟩
  · left
    rw [hfirst]
    rfl
  · rw [hfirst]
    exact (finds_weaken_iff first.rest_le).mpr h

end Parser

end RecordQuery

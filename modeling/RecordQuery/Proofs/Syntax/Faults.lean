import RecordQuery.Proofs.Syntax.Recognition

/-!
# Faults of reading

A text that is no filter is malformed, or has a literal in it that no value is written as. No other
fault comes from reading, whatever the text, and a fault that points at a token points at one of the
text's own.
-/

namespace RecordQuery

/-- A fault of the text alone: it is malformed, or one of its literals stands for no value. -/
def QueryError.IsOfText (fault : QueryError) : Prop :=
  fault.category = .syntactic ∨ ∃ kind literal, fault = .invalidLiteral kind literal

/-- A fault of the text alone which points at no token but these. -/
structure QueryError.IsOfTokens (ts : List Token) (fault : QueryError) : Prop where
  isOfText : fault.IsOfText
  exists_token : ∀ text position, fault = .unexpectedToken text position →
    ∃ t ∈ ts, t.text = text ∧ t.position = position

namespace Parser

open Outcome

variable {α : Type} {inner : Reader} {ts us : List Token}

/-- A reading function fails with faults of the given tokens only. -/
abbrev FailsOn (ts : List Token) (x : Except QueryError α) : Prop :=
  FailsWithin (QueryError.IsOfTokens ts) x

/-- What is left of some tokens is among them. -/
lemma subset_of_eq_append {rest : List Token} (h : ts = us ++ rest) : rest ⊆ ts := by
  subst h
  exact List.subset_append_right us rest

/-- The faults of some tokens are faults of all. -/
lemma FailsOn.mono {x : Except QueryError α} (h : FailsOn us x) (hsub : us ⊆ ts) :
    FailsOn ts x := by
  intro fault hfault
  obtain ⟨htext, hplace⟩ := h fault hfault
  refine ⟨htext, fun text position heq => ?_⟩
  obtain ⟨t, ht, hpoint⟩ := hplace text position heq
  exact ⟨t, hsub ht, hpoint⟩

lemma failsOn_error {fault : QueryError} (h : fault.category = .syntactic)
    (hplace : ∀ text position, fault ≠ .unexpectedToken text position) :
    FailsOn ts (.error fault : Except QueryError α) :=
  FailsWithin.error_iff.mpr ⟨.inl h, fun text position heq => absurd heq (hplace text position)⟩

lemma failsOn_unexpectedToken {t : Token} (ht : t ∈ ts) :
    FailsOn ts (.error (.unexpectedToken t.text t.position) : Except QueryError α) := by
  refine FailsWithin.error_iff.mpr ⟨.inl rfl, fun text position heq => ?_⟩
  cases heq
  exact ⟨t, ht, rfl, rfl⟩

/-! ### Comparisons and conditions -/

lemma failsOn_operand (o : Operator) (t : Token) : FailsOn ts (operand o t) := by
  rw [operand]
  split_ifs
  · exact failsOn_error rfl (by simp)
  · split
    · exact failsOn_error rfl (by simp)
    · split
      · exact .ok _
      · exact FailsWithin.error_iff.mpr ⟨.inr ⟨_, _, rfl⟩, by simp⟩

lemma failsOn_comparison (left : Expr) : FailsOn ts (comparison left us) := by
  match us with
  | [] => exact failsOn_error rfl (by simp)
  | [t] =>
    cases ho : comparison? t <;> simp only [comparison, ho] <;> exact failsOn_error rfl (by simp)
  | t :: value :: us =>
    cases ho : comparison? t with
    | none =>
      simp only [comparison, ho]
      exact failsOn_error rfl (by simp)
    | some o =>
      simp only [comparison, ho]
      exact (failsOn_operand o value).bind fun _ _ => .pure _

lemma failsOn_subject (p : Path) (us : List Token) : FailsOn ts (subject p us) := by
  match us with
  | [] => exact .ok _
  | [t] =>
    rw [subject]
    split_ifs
    · exact failsOn_error rfl (by simp)
    · exact .ok _
  | t :: s :: us =>
    rw [subject]
    split_ifs
    · exact .ok _
    · exact failsOn_error rfl (by simp)
    · split
      · exact .ok _
      · exact (failsOn_subject _ us).bind fun _ _ => .pure _

/-- The tokens after a subject are among those that it is read from. -/
lemma subset_of_reads_subject {rest : List Token} {p : Path} {s : Subject}
    (h : Reads (subject p ts) s rest) : rest ⊆ ts := by
  obtain ⟨_, us, -, ⟨hts, -⟩ | ⟨slash, word, opening, _, rfl, -⟩⟩ := names_of_reads_subject h
  · exact subset_of_eq_append hts
  · intro t ht
    simp [ht]

/-- A reader fails with faults of its own tokens only. -/
def Reader.FailsOn (inner : Reader) : Prop :=
  ∀ strength ts, Parser.FailsOn ts (inner strength ts)

lemma failsOn_lambda (hinner : inner.FailsOn) (c : Path) (q : Quantifier) :
    FailsOn ts (lambda inner c q ts) := by
  match ts with
  | [] => exact failsOn_error rfl (by simp)
  | [t] =>
    rw [lambda]
    split_ifs <;> exact failsOn_error rfl (by simp)
  | t :: u :: us =>
    rw [lambda]
    split_ifs
    · exact failsOn_error rfl (by simp)
    · exact failsOn_error rfl (by simp)
    · refine ((hinner 0 us).mono (by simp)).bind fun body _ => ?_
      split
      · exact failsOn_error rfl (by simp)
      · split_ifs
        · exact failsOn_error rfl (by simp)
        · exact .pure _

lemma failsOn_condition (hinner : inner.FailsOn) (first : String) :
    FailsOn ts (condition inner first ts) := by
  refine (failsOn_subject _ ts).bind fun start hstart => ?_
  have hrest : start.rest ⊆ ts := subset_of_reads_subject ⟨start, hstart, rfl, rfl⟩
  split
  · exact (failsOn_comparison _).bind fun _ _ => .pure _
  · exact ((failsOn_lambda hinner _ _).mono hrest).bind fun _ _ => .pure _

/-! ### Expressions -/

lemma failsOn_group (hinner : inner.FailsOn) : FailsOn ts (group inner ts) := by
  refine (hinner 0 ts).bind fun content _ => ?_
  split
  · exact failsOn_error rfl (by simp)
  · split_ifs
    · exact failsOn_error rfl (by simp)
    · exact .pure _

lemma failsOn_term (hinner : inner.FailsOn) : FailsOn ts (term inner ts) := by
  cases ts with
  | nil => exact failsOn_error rfl (by simp)
  | cons t us =>
    have htail : us ⊆ t :: us := List.subset_cons_self t us
    rw [term]
    split_ifs
    · exact ((failsOn_group hinner).mono htail).bind fun _ _ => .pure _
    · exact ((failsOn_condition hinner _).mono htail).bind fun _ _ => .pure _
    · exact failsOn_unexpectedToken List.mem_cons_self

lemma failsOn_chain (hinner : inner.FailsOn) (hsound : inner.IsSound) (strength : Nat)
    (left : Expr) : FailsOn ts (chain inner strength left ts) := by
  induction hlength : ts.length using Nat.strongRecOn generalizing left ts with
  | _ n ih =>
    cases ts with
    | nil =>
      rw [chain]
      exact .ok _
    | cons t more =>
      have htail : more ⊆ t :: more := List.subset_cons_self t more
      rw [chain]
      split
      · exact .ok _
      · split_ifs
        · exact .ok _
        · refine ((hinner _ _).mono htail).bind fun right hright => ?_
          simp only
          split_ifs
          · exact failsOn_error rfl (by simp)
          · have hshorter : right.rest.length < n := by
              have hle := right.rest_le
              rw [← hlength, List.length_cons]
              omega
            obtain ⟨_, us, links, hmore, -⟩ := hsound _ _ _ _ ⟨right, hright, rfl, rfl⟩
            rw [← List.append_assoc] at hmore
            have hrest : right.rest ⊆ t :: more :=
              List.Subset.trans (subset_of_eq_append hmore) htail
            exact ((ih _ hshorter _ rfl).mono hrest).bind fun _ _ => .pure _

lemma failsOn_expression (levels : Nat) : Reader.FailsOn (expression levels) := by
  induction levels with
  | zero => exact fun _ _ => failsOn_error rfl (by simp)
  | succ levels ih =>
    intro strength ts
    have hsound := isSound_expression levels
    refine (failsOn_term ih).bind fun first hfirst => ?_
    obtain ⟨us, hts, -⟩ := derives_of_reads_term hsound ⟨first, hfirst, rfl, rfl⟩
    exact ((failsOn_chain ih hsound _ _).mono (subset_of_eq_append hts)).bind fun _ _ => .pure _

end Parser

namespace Expr

/-- A text that is refused is at fault itself, and where a token of it is refused the fault points
there. -/
theorem failsOn_ofText (s : String) : Parser.FailsOn (Token.ofText s) (ofText s) := by
  rw [ofText]
  split_ifs
  · exact Parser.failsOn_error rfl (by simp)
  · refine (Parser.failsOn_expression _ _ _).bind fun whole hwhole => ?_
    split
    · exact .ok _
    · rename_i t us hrest
      obtain ⟨vs, hall, -⟩ :=
        (Parser.isSound_expression Parser.maxDepth).derives ⟨whole, hwhole, rfl, rfl⟩
      rw [hrest] at hall
      exact Parser.failsOn_unexpectedToken (by simp [hall])

lemma failsOnText_ofText (s : String) : Outcome.FailsWithin QueryError.IsOfText (ofText s) :=
  fun fault hfault => (failsOn_ofText s fault hfault).isOfText

end Expr

end RecordQuery

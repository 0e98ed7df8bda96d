import RecordQuery.Proofs.Plan.Stability
import RecordQuery.Proofs.Query.Page

/-!
# Filters spelled alike

Keywords, bare words and the names of fields may be written in any letter case: the plan of a filter
stays the same. Only a name with the letters of one of the filter's variables has to be kept as it
is, since it may or may not be that variable.
-/

namespace RecordQuery

/-- Two texts have the same tokens, those that are words in any letter case, and wherever a variable
of one of them has the letters of a name both write it the same. -/
structure Expr.SpelledAlike (a b : String) : Prop where
  tokens : List.Forall₂ Token.SameButCase (Token.ofText a) (Token.ofText b)
  names : ∀ e, (ofText a = .ok e ∨ ofText b = .ok e) → ∀ x ∈ e.parameters,
    ∀ tu ∈ (Token.ofText a).zip (Token.ofText b), tu.1.kind = .name →
      Text.sameWord x tu.1.literal → tu.1.literal = tu.2.literal

namespace Expr.SpelledAlike

variable {a b : String} {e : Expr}

/-- The tokens keep the names of the variables of either text. -/
lemma alike (h : SpelledAlike a b) (he : ofText a = .ok e ∨ ofText b = .ok e) :
    List.Forall₂ (Token.Alike e.parameters) (Token.ofText a) (Token.ofText b) :=
  List.forall₂_iff_zip.mpr ⟨h.tokens.length_eq, fun htu =>
    ⟨List.forall₂_zip h.tokens htu, fun hname x hx => h.names e he x hx _ htu hname⟩⟩

/-- What one text is read as the other one is read as too, up to the letter case of names that are
not those of variables. -/
lemma exists_alike (h : SpelledAlike a b) (ha : ofText a = .ok e) :
    ∃ f, ofText b = .ok f ∧ e.Alike e.parameters f :=
  exists_alike_of_ofText (h.alike (.inl ha)) ha

lemma exists_alike_symm (h : SpelledAlike a b) (hb : ofText b = .ok e) :
    ∃ f, ofText a = .ok f ∧ e.Alike e.parameters f :=
  exists_alike_of_ofText ((h.alike (.inr hb)).flip.imp fun _ _ => Token.Alike.symm) hb

end Expr.SpelledAlike

lemma Expr.Alike.planOf {a b : String} {e f : Expr} (h : e.Alike e.parameters f)
    (ha : ofText a = .ok e) (hb : ofText b = .ok f) (t : PropertyTree) (limit : Nat) :
    Outcome.Carries Eq (Query.planOf t limit a) (Query.planOf t limit b) := by
  rw [Query.planOf, Query.planOf, ha, hb]
  exact h.compile (fun _ hx => hx) ⟨⟨rfl, rfl, rfl, le_rfl⟩, .nil, by simp⟩ le_rfl

/-- Of two texts that are spelled alike one is a filter if the other is, and one has a plan if the
other does, the same one. -/
theorem Query.planOf_eq_ok_iff_of_spelledAlike {a b : String} (h : Expr.SpelledAlike a b) :
    ((∃ e, Expr.ofText a = .ok e) ↔ ∃ e, Expr.ofText b = .ok e) ∧
      ∀ t limit p, planOf t limit a = .ok p ↔ planOf t limit b = .ok p := by
  refine ⟨⟨?_, ?_⟩, fun t limit p => ⟨fun ha => ?_, fun hb => ?_⟩⟩
  · rintro ⟨e, ha⟩
    obtain ⟨f, hb, -⟩ := h.exists_alike ha
    exact ⟨f, hb⟩
  · rintro ⟨e, hb⟩
    obtain ⟨f, ha, -⟩ := h.exists_alike_symm hb
    exact ⟨f, ha⟩
  · obtain ⟨e, he, -⟩ := Outcome.bind_eq_ok_iff.mp ha
    obtain ⟨f, hf, halike⟩ := h.exists_alike he
    exact (halike.planOf he hf t limit).eq_ok ha
  · obtain ⟨e, he, -⟩ := Outcome.bind_eq_ok_iff.mp hb
    obtain ⟨f, hf, halike⟩ := h.exists_alike_symm he
    exact (halike.planOf he hf t limit).eq_ok hb

/-! ### An example -/

namespace People

/-- The text of the filter in other letter cases, but for the variable of that name. -/
def shoutedText : String :=
  "FRIENDS/Any(x: x/Friends/ALL(x: x/name EQ 'Ann') AND AGE Gte 30) OR Boss/age lT 7"

lemma spelledAlike_shoutedText : Expr.SpelledAlike filterText shoutedText where
  tokens := by decide +kernel
  names := by
    have hread : (Expr.ofText shoutedText).toOption.map Expr.parameters = some ["x", "x"] := by
      decide +kernel
    have hnames : ∀ tu ∈ (Token.ofText filterText).zip (Token.ofText shoutedText),
        tu.1.kind = .name → Text.sameWord "x" tu.1.literal → tu.1.literal = tu.2.literal := by
      decide +kernel
    have hparameters {e : Expr} (he : Expr.ofText filterText = .ok e ∨
        Expr.ofText shoutedText = .ok e) : e.parameters = ["x", "x"] := by
      rcases he with he | he
      · rw [ofText_filterText] at he
        cases he
        rfl
      · rw [he] at hread
        exact Option.some.inj hread
    intro e he x hx
    rw [hparameters he] at hx
    obtain rfl : x = "x" := by simpa using hx
    exact hnames

/-- The shouted filter has the plan of the quiet one. -/
theorem planOf_shoutedText :
    Expr.SpelledAlike filterText shoutedText ∧
      Query.planOf ⟨schema, schema.root, [], 3⟩ 3 shoutedText = .ok plan :=
  ⟨spelledAlike_shoutedText,
    ((Query.planOf_eq_ok_iff_of_spelledAlike spelledAlike_shoutedText).2 _ _ _).mp
      planOf_filterText⟩

end People

end RecordQuery

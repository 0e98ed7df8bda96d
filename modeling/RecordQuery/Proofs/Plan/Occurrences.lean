import RecordQuery.Proofs.Plan.Fields
import RecordQuery.Proofs.Text.Lowercase

/-!
# Looking for a text

A field is searched for a text with both in lower case. So the text is found in whatever letter case
it occurs, but a capital sigma takes its lower-case form from the letters around it, and they are
not the same for the text alone and for the text in the field: a text that ends with a capital sigma
is not found, as it is, in the middle of a word. Nothing else that occurs in the field is missed.
-/

namespace RecordQuery

variable {c : Context} {left : Expr} {r : Resolved}

/-- The plan of a search. -/
def Resolved.searchPlan (r : Resolved) (needle : String) : Plan :=
  (Plan.and (.notNull r.accessor) (.contains r.accessor (Text.lowercase needle))).guarded r.guards

lemma Expr.compile_contains_eq (limit : Nat) (hr : c.resolveSubject left = .ok r)
    (hs : r.kind.scalar? = some .string) (needle : String) :
    (Expr.binary left .contains (.literal (.string needle))).compile limit c =
      .ok (r.searchPlan needle) :=
  (compile_of_resolveSubject hr (by decide)).trans
    (Resolved.plan_of_plansTo (Kind.element?_eq_none_of_scalar? hs) (.contains hs))

lemma Resolved.holds_searchPlan_of_reached {needle x : String} {b : List Value}
    (hreached : (r.reading b).isReached) (hread : r.accessor.read b = .string x) :
    (r.searchPlan needle).holds b = Text.containsFolded x (Text.lowercase needle) := by
  rw [searchPlan, Plan.holds_guarded, ← isReached_reading, hreached, Bool.true_and]
  simp [Plan.holds, hread, Value.isNull, Value.string?]

/-- A search of a text field always compiles. It finds a text just if the lower-case form of the
text occurs in the one of the field, and so wherever the text occurs and its capital sigmas, if it
has any, end words just where they do in the text alone. -/
theorem Expr.compile_contains (limit : Nat) (hr : c.resolveSubject left = .ok r)
    (hs : r.kind.scalar? = some .string) (needle : String) :
    ∃ plan, (Expr.binary left .contains (.literal (.string needle))).compile limit c = .ok plan ∧
      ∀ env b x, c.Agrees env b → env.Finds left (.string x) →
        (plan.holds b ↔ (Text.lowercase needle).toList <:+: (Text.lowercase x).toList) ∧
        (∀ front back, x.toList = front ++ needle.toList ++ back →
          Text.KeepsSigmas front needle.toList back → plan.holds b) ∧
        ('Σ' ∉ needle.toList → needle.toList <:+: x.toList → plan.holds b) := by
  refine ⟨r.searchPlan needle, compile_contains_eq limit hr hs needle,
    fun env b x hagrees hfinds => ?_⟩
  obtain ⟨hreached, hread⟩ := hagrees.reading_of_finds hr hfinds
  rw [Resolved.holds_searchPlan_of_reached hreached hread]
  refine ⟨Text.containsFolded_iff, fun front back => Text.containsFolded_of_keepsSigmas,
    fun hsigma hoccurs => ?_⟩
  obtain ⟨front, back, hx⟩ := hoccurs
  exact Text.containsFolded_of_keepsSigmas hx.symm (Text.keepsSigmas_of_not_mem hsigma)

/-! ### An example -/

namespace People

/-- Somebody with a Greek name. -/
def odysseus : Record := person "ΟΔΥΣΣΕΥΣ" .null []

lemma calls_name : people.record.Calls "NAME" nameField :=
  calls (by decide) (by decide +kernel)

lemma resolveSubject_name :
    Context.resolveSubject ⟨⟨schema, schema.root, [], 3⟩, []⟩ (.name "NAME") =
      .ok ⟨⟨0, ["Name"]⟩, [], .scalar .string, "NAME"⟩ :=
  Context.resolveSubject_of_resolves rfl (Context.resolves_name calls_name (by decide))

lemma finds_name :
    Environment.Finds ⟨schema, odysseus, []⟩ (.name "NAME") (.string "ΟΔΥΣΣΕΥΣ") :=
  ⟨_, Environment.read_of_calls calls_name, rfl, rfl⟩

/-- Where the sigmas of a text stand as they do in the field, it is found. -/
theorem compile_contains_tail :
    Context.resolveSubject ⟨⟨schema, schema.root, [], 3⟩, []⟩ (.name "NAME") =
      .ok ⟨⟨0, ["Name"]⟩, [], .scalar .string, "NAME"⟩ ∧
      ∃ plan, PropertyTree.compile ⟨schema, schema.root, [], 3⟩ 3
        (.binary (.name "NAME") .contains (.literal (.string "ΣΕΥΣ"))) = .ok plan ∧
          plan.passes odysseus := by
  obtain ⟨plan, hplan, hholds⟩ := Expr.compile_contains 3 resolveSubject_name rfl "ΣΕΥΣ"
  obtain ⟨-, hkeeps, -⟩ := hholds _ _ _ (Context.agrees_root build_root odysseus) finds_name
  refine ⟨resolveSubject_name, plan, hplan, ?_⟩
  apply hkeeps "ΟΔΥΣ".toList [] (by decide)
  exact Text.lowerBetween_eq_lowerAfter_iff.mp (by decide +kernel)

lemma conforms_odysseus : schema.Conforms odysseus :=
  conforms_person (.null _) (by simp)

/-- A text that ends with a capital sigma is not found in the middle of a word. -/
theorem not_passes_of_occurs :
    ¬ ∀ (needle x : String) (plan : Plan) (person : Record),
      PropertyTree.compile ⟨schema, schema.root, [], 3⟩ 3
        (.binary (.name "NAME") .contains (.literal (.string needle))) = .ok plan →
      schema.Conforms person → Environment.Finds ⟨schema, person, []⟩ (.name "NAME") (.string x) →
      needle.toList <:+: x.toList → plan.passes person := by
  intro h
  have hoccurs : "ΟΔΥΣ".toList <:+: "ΟΔΥΣΣΕΥΣ".toList := ⟨[], "ΣΕΥΣ".toList, by decide⟩
  have hpasses := h _ _ _ _ (Expr.compile_contains_eq 3 resolveSubject_name rfl "ΟΔΥΣ")
    conforms_odysseus finds_name hoccurs
  revert hpasses
  decide +kernel

end People

end RecordQuery

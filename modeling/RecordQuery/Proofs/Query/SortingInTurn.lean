import RecordQuery.Proofs.Query.Sorting

/-!
# Sorting by one key after another

To sort by several keys is to sort by each of them alone, by the last one first and by the foremost
one last. Each of these sorts must be stable, so that it leaves what the later keys have told apart
in order; which stable sorts they are does not matter.
-/

namespace RecordQuery

open Sorting

variable {ρ : Type} [HasFields ρ]

/-- Holds of a list and of what sorts by one key each can make of it, the last key first. -/
inductive SortOrder.SortsInTurn : List SortKey → List ρ → List ρ → Prop
  | nil (l : List ρ) : SortsInTurn [] l l
  | cons {k : SortKey} {keys : List SortKey} {l s t : List ρ} (hs : SortsInTurn keys l s)
      (ht : IsStableSort (compareRecords ⟨[k]⟩) s t) : SortsInTurn (k :: keys) l t

namespace SortOrder

variable {k : SortKey} {keys : List SortKey} {l s : List ρ}

/-- A key and the later ones suit records if all do. -/
lemma suits_cons_iff {rs : List Record} :
    Suits ⟨k :: keys⟩ rs ↔ Suits ⟨[k]⟩ rs ∧ Suits ⟨keys⟩ rs := by
  simp [Suits]

lemma Suits.of_perm {o : SortOrder} {rs qs : List Record} (h : o.Suits rs) (hperm : qs.Perm rs) :
    o.Suits qs := by
  intro k hk
  obtain ⟨c, hc⟩ := h k hk
  exact ⟨c, fun r hr => hc r (hperm.mem_iff.mp hr)⟩

lemma SortsInTurn.perm (h : SortsInTurn keys l s) : s.Perm l := by
  induction h with
  | nil l => exact .refl l
  | cons _ ht ih => exact ht.perm.trans ih

/-- Sorts in turn make up the one sort by all keys. -/
lemma SortsInTurn.isStableSort (h : SortsInTurn keys l s)
    (hl : Suits ⟨keys⟩ (l.map HasFields.record)) :
    IsStableSort (compareRecords ⟨keys⟩) l s := by
  induction h with
  | nil l => exact isStableSort_self (fun _ _ => rfl) l
  | @cons k keys l s t _ ht ih =>
    obtain ⟨hk, hkeys⟩ := suits_cons_iff.mp hl
    have hlex : compareRecords (ρ := ρ) ⟨k :: keys⟩ = fun a b =>
        (compareRecords ⟨[k]⟩ a b).then (compareRecords ⟨keys⟩ a b) := by
      funext a b
      simp [compareRecords, compare]
    rw [hlex]
    exact (ih hkeys).lex (isPreorderOn_compareRecords hk) ht

/-- The sort of a list by single keys, the last one first, is one of the sorts in turn. -/
lemma sortsInTurn_foldr (hl : Suits ⟨keys⟩ (l.map HasFields.record)) :
    SortsInTurn keys l
      (keys.foldr (fun k sorted => Sequence.sort (⟨[k]⟩ : SortOrder) sorted) l) := by
  induction keys with
  | nil => exact .nil l
  | cons k keys ih =>
    obtain ⟨hk, hkeys⟩ := suits_cons_iff.mp hl
    have hperm := (ih hkeys).perm.map HasFields.record
    exact .cons (ih hkeys)
      (isStableSort_sort (isPreorderOn_compareRecords (hk.of_perm hperm)))

/-- To sort a list of records by a compiled order is to sort it by the keys alone, the last one
first, whatever stable sorts are used for that. -/
theorem sort_eq_foldr_keys {t : PropertyTree} {terms : List SortTerm} {o : SortOrder} {l : List ρ}
    (ho : compile t terms = .ok o)
    (hl : ∀ term ∈ terms, ∀ r ∈ l, term.Suits t (HasFields.record r)) :
    Sequence.sort o l =
        o.keys.foldr (fun k sorted => Sequence.sort (⟨[k]⟩ : SortOrder) sorted) l ∧
      ∀ s, SortsInTurn o.keys l s → s = Sequence.sort o l := by
  have hsuits : o.Suits (l.map HasFields.record) := by
    apply suits_of_compile ho
    intro term hterm r hr
    obtain ⟨a, ha, rfl⟩ := List.mem_map.mp hr
    exact hl term hterm a ha
  have hpreorder : IsPreorderOn (· ∈ l) o.compareRecords := isPreorderOn_compareRecords hsuits
  have hunique : ∀ s, SortsInTurn o.keys l s → s = Sequence.sort o l := fun s hs =>
    (hs.isStableSort hsuits).unique hpreorder (isStableSort_sort hpreorder)
  exact ⟨(hunique _ (sortsInTurn_foldr hsuits)).symm, hunique⟩

end SortOrder

/-! ### An example -/

namespace People

lemma conforms_eve : schema.Conforms eve :=
  conforms_person (.optional (.scalar (by decide)))
    (by simpa using conforms_person (.null _) (List.forall_mem_nil _))

/-- To have people by age, and from the last name on where that is the same, they are sorted by name
and then by age. -/
theorem sort_order_eq :
    SortOrder.compile ⟨schema, schema.root, [], 3⟩ terms = .ok order ∧
      (∀ term ∈ terms, ∀ r ∈ eve :: crowd, term.Suits ⟨schema, schema.root, [], 3⟩ r) ∧
      Sequence.sort order (eve :: crowd) =
        Sequence.sort (⟨[⟨⟨0, ["Age"]⟩, .ascending⟩]⟩ : SortOrder)
          (Sequence.sort (⟨[⟨⟨0, ["Name"]⟩, .descending⟩]⟩ : SortOrder) (eve :: crowd)) ∧
      (Sequence.sort (⟨[⟨⟨0, ["Name"]⟩, .descending⟩]⟩ : SortOrder) (eve :: crowd)).map
          (fun r => ((Value.record r).get "Name").text) =
        ["'Zoe'", "'Eve'", "'Cy'", "'Bob'", "'Ann'"] := by
  have hsuits : ∀ term ∈ terms, ∀ r ∈ eve :: crowd,
      term.Suits ⟨schema, schema.root, [], 3⟩ r :=
    fun term _ r hr => term.suits_of_conforms build_root
      (List.forall_mem_cons.mpr ⟨conforms_eve, conforms_of_mem_crowd⟩ r hr)
  exact ⟨compile_terms, hsuits, (SortOrder.sort_eq_foldr_keys compile_terms hsuits).1, rfl⟩

end People

end RecordQuery

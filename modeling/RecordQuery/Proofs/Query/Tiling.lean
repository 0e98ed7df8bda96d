import RecordQuery.Proofs.Query.Page

/-!
# Pages one after the other

A query that is asked page by page gives its whole result in pieces. Every page is cut from the same
sorted list, so that put together in order the pages are that list, as soon as there are enough of
them.
-/

namespace RecordQuery

/-! ### Pieces of a list -/

/-- The pieces of a size at the front of a list, put together, are the front of the list. -/
lemma Query.flatMap_pieces {α : Type} (l : List α) (size n : Nat) :
    ((List.range n).flatMap fun k => (l.drop (k * size)).take size) = l.take (n * size) := by
  induction n with
  | zero => simp
  | succ n ih =>
    rw [List.range_succ, List.flatMap_append, ih, List.flatMap_singleton, Nat.succ_mul,
      List.take_add]

/-! ### Queries for single pages -/

/-- Options without a greatest page. -/
def Options.unlimited (o : Options) : Options := ⟨none, o.depth⟩

namespace Query

/-- The query for all pages at once. -/
def whole (q : Query) : Query := { q with skip := none, top := none }

/-- The query for one page of a size, the pages counted from zero. -/
def pageAt (q : Query) (size k : Nat) : Query :=
  { q with skip := some (k * size), top := some size }

section List

variable {ρ : Type} [HasFields ρ] {q : Query} {schema : Schema} {o : Options}
variable {binder : Option (SearchBinder ρ)} {l : List ρ} {size : Nat}

lemma checkTop_pageAt (hsize : ∀ n, o.maxTop = some n → size ≤ n) (k : Nat) :
    (q.pageAt size k).checkTop o = .ok () := by
  rw [checkTop]
  cases hmax : o.maxTop with
  | none => rfl
  | some n => simp [pageAt, Nat.not_lt.mpr (hsize n hmax)]

lemma pageSize?_pageAt (hpos : 0 < size) (k : Nat) :
    (q.pageAt size k).pageSize? o = some size := by
  obtain ⟨n, rfl⟩ := Nat.exists_eq_succ_of_ne_zero (Nat.pos_iff_ne_zero.mp hpos)
  rfl

/-- A page is a piece of the whole result. -/
lemma page_pageAt (hvalid : o.validate = .ok ()) (hpos : 0 < size)
    (hsize : ∀ n, o.maxTop = some n → size ≤ n) {full : Page (List ρ)}
    (hfull : q.whole.page schema o.unlimited binder l = .ok full) (k : Nat) :
    (q.pageAt size k).page schema o binder l =
      .ok ⟨(full.value.drop (k * size)).take size, full.count⟩ := by
  rw [page_eq] at hfull
  obtain ⟨_, -, hfull⟩ := Outcome.bind_eq_ok_iff.mp hfull
  obtain ⟨_, -, hfull⟩ := Outcome.bind_eq_ok_iff.mp hfull
  obtain ⟨keep, hkeep, hfull⟩ := Outcome.bind_eq_ok_iff.mp hfull
  obtain ⟨test, htest, hfull⟩ := Outcome.bind_eq_ok_iff.mp hfull
  obtain ⟨order, horder, hfull⟩ := Outcome.bind_eq_ok_iff.mp hfull
  -- the tests and the order do not depend on the page that is asked for
  have hkeep : (q.pageAt size k).filterTest schema o = .ok keep := hkeep
  have htest : (q.pageAt size k).searchTest binder = .ok test := htest
  have horder : (q.pageAt size k).sortOrder schema o = .ok order := horder
  rw [Outcome.pure_eq_ok_iff.mp hfull, page_eq, checkTop_pageAt hsize, hvalid, hkeep, htest, horder,
    pageSize?_pageAt hpos]
  rfl

/-- A query that succeeds as a whole succeeds on every page of a size that the options allow for,
with the same count, and enough pages put together are the whole result. -/
theorem flatMap_pages (hvalid : o.validate = .ok ()) (hpos : 0 < size)
    (hsize : ∀ n, o.maxTop = some n → size ≤ n) {full : Page (List ρ)}
    (hfull : q.whole.page schema o.unlimited binder l = .ok full) :
    ∃ pages : Nat → List ρ,
      (∀ k, (q.pageAt size k).page schema o binder l = .ok ⟨pages k, full.count⟩) ∧
        ∀ n, full.value.length ≤ n * size → (List.range n).flatMap pages = full.value := by
  refine ⟨fun k => (full.value.drop (k * size)).take size, page_pageAt hvalid hpos hsize hfull, ?_⟩
  intro n hn
  rw [flatMap_pieces, List.take_of_length_le hn]

end List

end Query

/-! ### An example -/

namespace People

/-- Zoe has a friend like Bob's. -/
def zoe : Record :=
  person "Zoe" .null [person "Eve" (.integer .i32 31) [person "Ann" .null []]]

lemma page_whole :
    query.whole.page schema options.unlimited none crowd = .ok ⟨[zoe, bob], some 2⟩ := by
  have hpage : Query.upTo (query.whole.pageSize? options.unlimited)
      ((Sequence.sort ⟨[⟨⟨0, ["Name"]⟩, .descending⟩]⟩
        (crowd.filter fun r => plan.passes r && true)).drop 0) = [zoe, bob] := by
    rfl
  have hfilter : query.whole.filterTest schema options.unlimited = .ok plan.passes :=
    filterTest_query
  have horder : query.whole.sortOrder schema options.unlimited =
      .ok ⟨[⟨⟨0, ["Name"]⟩, .descending⟩]⟩ := sortOrder_query
  rw [Query.page_eq, hfilter, horder]
  exact congrArg (fun l => Except.ok (Page.mk l (some 2))) hpage

/-- Pages of one person each show Zoe and then Bob. -/
theorem flatMap_pages_query :
    options.validate = .ok () ∧ 0 < 1 ∧ (∀ n, options.maxTop = some n → 1 ≤ n) ∧
      query.whole.page schema options.unlimited none crowd = .ok ⟨[zoe, bob], some 2⟩ ∧
      ∃ pages : Nat → List Record,
        (∀ k, (query.pageAt 1 k).page schema options none crowd = .ok ⟨pages k, some 2⟩) ∧
          (List.range 2).flatMap pages = [zoe, bob] := by
  have hsize : ∀ n, options.maxTop = some n → 1 ≤ n := by
    intro n hn
    cases hn
    decide
  obtain ⟨pages, hpages, hall⟩ :=
    Query.flatMap_pages (o := options) rfl (by decide) hsize page_whole
  exact ⟨rfl, by decide, hsize, page_whole, pages, hpages, hall 2 (by decide)⟩

end People

end RecordQuery

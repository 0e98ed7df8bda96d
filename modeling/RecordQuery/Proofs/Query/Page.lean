import RecordQuery.Query
import RecordQuery.Proofs.Order.Values
import RecordQuery.Proofs.Plan.Typing

/-!
# Pages of lists

What a query gives for a list of records: of the records that match, in the order asked for, those
after the skipped ones, up to the size of a page.
-/

namespace RecordQuery

open Sorting

/-! ### Keys of compiled orders -/

/-- The accessor of a key leads to a plain value. -/
lemma SortOrder.hasKind_of_key {s : Schema} {t : PropertyTree} {depth : Nat} {term : SortTerm}
    {k : SortKey} (ht : PropertyTree.build s s.root depth = .ok t) (hk : key t term = .ok k) :
    ∃ kind c, k.accessor.HasKind s [.record s.root] kind ∧ kind.scalar? = some c := by
  obtain ⟨resolved, hresolved, hk⟩ := Outcome.bind_eq_ok_iff.mp hk
  split_ifs at hk with hprimitive
  rw [Outcome.pure_eq_ok_iff.mp hk]
  obtain ⟨-, rfl⟩ := PropertyTree.build_eq_ok_iff.mp ht
  obtain ⟨c, hc⟩ := Option.isSome_iff_exists.mp hprimitive
  have htyped : resolved.Typed s [.record s.root] :=
    Resolved.typed_of_walkFrom hresolved rfl rfl rfl
  exact ⟨resolved.kind, c, htyped.accessor, hc⟩

lemma SortOrder.hasKind_of_mem_keys {s : Schema} {t : PropertyTree} {depth : Nat}
    {terms : List SortTerm} {o : SortOrder} {k : SortKey}
    (ht : PropertyTree.build s s.root depth = .ok t) (ho : compile t terms = .ok o)
    (hk : k ∈ o.keys) :
    ∃ kind c, k.accessor.HasKind s [.record s.root] kind ∧ kind.scalar? = some c := by
  obtain ⟨keys, hkeys, ho⟩ := Outcome.bind_eq_ok_iff.mp ho
  rw [Outcome.pure_eq_ok_iff.mp ho] at hk
  obtain ⟨term, -, hterm⟩ := Outcome.exists_of_mem_mapM hkeys hk
  exact hasKind_of_key ht hterm

/-- A plain field is sorted by through the name that calls it. -/
lemma SortOrder.key_of_calls {t : PropertyTree} {name : String} {f : Field}
    (h : t.record.Calls name f) (hdepth : t.above.length < t.limit) (hplain : f.kind.isPrimitive)
    (direction : Direction) :
    key t ⟨⟨name, []⟩, direction⟩ = .ok ⟨⟨0, [f.name]⟩, direction⟩ := by
  refine Outcome.bind_eq_ok_iff.mpr ⟨_, PropertyTree.walkFrom_of_calls h hdepth, ?_⟩
  exact if_pos hplain

/-- The key of the first term comes before those of the others. -/
lemma SortOrder.compile_cons {t : PropertyTree} {term : SortTerm} {terms : List SortTerm}
    {k : SortKey} {ks : List SortKey} (hk : key t term = .ok k)
    (hks : compile t terms = .ok ⟨ks⟩) : compile t (term :: terms) = .ok ⟨k :: ks⟩ := by
  obtain ⟨keys, hkeys, heq⟩ := Outcome.bind_eq_ok_iff.mp hks
  cases heq
  rw [compile, List.mapM_cons, hk, hkeys]
  rfl

/-- An order that a text asks for suits all records that conform to the schema. -/
theorem SortOrder.suits_of_ofText {s : Schema} {t : PropertyTree} {depth : Nat} {text : String}
    {o : SortOrder} {rs : List Record} (ht : PropertyTree.build s s.root depth = .ok t)
    (ho : ofText t text = .ok o) (hrs : ∀ r ∈ rs, s.Conforms r) : o.Suits rs := by
  obtain ⟨terms, -, ho⟩ := Outcome.bind_eq_ok_iff.mp ho
  intro k hk
  obtain ⟨kind, c, haccessor, hc⟩ := hasKind_of_mem_keys ht ho hk
  exact ⟨c, fun r hr => (haccessor.fits (.cons (hrs r hr) .nil)).has_of_scalar? hc⟩

/-- The order of what can be read as records. -/
def SortOrder.compareRecords {ρ : Type} [HasFields ρ] (o : SortOrder) (r s : ρ) : Ordering :=
  o.compare (HasFields.record r) (HasFields.record s)

/-- The records of a list are in a total preorder if the order suits them. -/
lemma SortOrder.isPreorderOn_compareRecords {ρ : Type} [HasFields ρ] {o : SortOrder} {l : List ρ}
    (h : o.Suits (l.map HasFields.record)) : IsPreorderOn (· ∈ l) o.compareRecords :=
  (isPreorderOn_compare h).comap fun _ hr => List.mem_map_of_mem hr

/-- The list of records is sorted as a stable sort does it. -/
lemma SortOrder.isStableSort_sort {ρ : Type} [HasFields ρ] {o : SortOrder} {l : List ρ}
    (h : IsPreorderOn (· ∈ l) o.compareRecords) :
    IsStableSort o.compareRecords l (Sequence.sort o l) := by
  have hsort : Sequence.sort o l = if o.isEmpty then l else Sorting.sort o.compareRecords l := rfl
  rw [hsort]
  split_ifs with hempty
  · have hkeys : o.keys = [] := List.isEmpty_iff.mp hempty
    exact isStableSort_self (fun r s => by simp [compareRecords, compare, hkeys]) l
  · exact Sorting.isStableSort_sort h

/-! ### Guards -/

lemma Query.nonempty?_eq_some_iff {text : Option String} {s : String} :
    nonempty? text = some s ↔ text = some s ∧ s ≠ "" := by
  simp [nonempty?, Option.filter_eq_some_iff]

lemma Query.nonempty?_eq_none_iff {text : Option String} :
    nonempty? text = none ↔ ∀ s, text = some s → s = "" := by
  simp [nonempty?, Option.filter_eq_none_iff]

lemma Query.positive?_eq_some_iff {n : Option Nat} {m : Nat} :
    positive? n = some m ↔ n = some m ∧ 0 < m := by
  simp [positive?, Option.filter_eq_some_iff]

lemma Query.positive?_eq_none_iff {n : Option Nat} :
    positive? n = none ↔ ∀ m, n = some m → m = 0 := by
  simp [positive?, Option.filter_eq_none_iff]

/-- A page is refused if it is asked to be greater than the greatest, and for nothing else. -/
lemma Query.checkTop_eq_error_iff {q : Query} {o : Options} {e : QueryError} :
    q.checkTop o = .error e ↔ ∃ top maxTop, q.top = some top ∧ o.maxTop = some maxTop ∧
      maxTop < top ∧ e = .topExceedsMaximum top maxTop := by
  rw [checkTop]
  cases q.top with
  | none => simp
  | some top =>
    cases o.maxTop with
    | none => simp
    | some maxTop =>
      by_cases h : maxTop < top
      · simp [h, eq_comm]
      · simp [h]

lemma Options.validate_eq_error_iff {o : Options} {e : QueryError} :
    o.validate = .error e ↔ o.depth = 0 ∧ e = .invalidOptions .zeroDepth ∨
      o.depth ≠ 0 ∧ o.maxTop = some 0 ∧ e = .invalidOptions .zeroMaxTop := by
  rw [validate]
  split_ifs with hdepth hmaxTop
  · simp [hdepth, eq_comm]
  · simp [hdepth, hmaxTop, eq_comm]
  · simp [hdepth, hmaxTop]

namespace Query

variable {σ ρ α β : Type}

/-! ### What a query asks for -/

/-- The test that the filter makes; without one all records pass. -/
def filterTest (q : Query) (schema : Schema) (o : Options) : Except QueryError (Record → Bool) :=
  match nonempty? q.filter with
  | none => .ok fun _ => true
  | some text => (planOf ⟨schema, schema.root, [], o.depth⟩ o.depth text).map Plan.passes

/-- The test that the search makes; without a text or a way to bind it all records pass. -/
def searchTest (q : Query) (binder : Option (SearchBinder ρ)) : Except QueryError (ρ → Bool) :=
  match binder, nonempty? q.search with
  | some bind, some text => (bind text).elim (.error .searchBinding) .ok
  | _, _ => .ok fun _ => true

/-- The order that is asked for; without one there are no keys. -/
def sortOrder (q : Query) (schema : Schema) (o : Options) : Except QueryError SortOrder :=
  match nonempty? q.orderBy with
  | none => .ok ⟨[]⟩
  | some text => SortOrder.ofText ⟨schema, schema.root, [], o.depth⟩ text

/-- The size of the page, if it is limited: what is asked for if that is above zero, and else the
greatest size. -/
def pageSize? (q : Query) (o : Options) : Option Nat :=
  match q.top with
  | some (n + 1) => some (n + 1)
  | _ => o.maxTop

/-- The front of a list up to a size, if it is limited. -/
def upTo (size : Option Nat) (l : List α) : List α :=
  match size with
  | some n => l.take n
  | none => l

lemma length_upTo (size : Option Nat) (l : List α) :
    (upTo size l).length = size.elim l.length (min · l.length) := by
  cases size with
  | none => rfl
  | some n => simp [upTo]

/-- What the page of a query is, if some records match. It is cut from the one stable sort of them,
which they are themselves if there are no keys. -/
structure IsPageOf [HasFields ρ] (q : Query) (o : Options) (order : SortOrder) (matching : List ρ)
    (p : Page (List ρ)) : Prop where
  count : p.count = if q.count then some matching.length else none
  value : ∃ sorted, IsStableSort order.compareRecords matching sorted ∧
    p.value = upTo (q.pageSize? o) (sorted.drop (q.skip.getD 0))
  unique : ∀ s t, IsStableSort order.compareRecords matching s →
    IsStableSort order.compareRecords matching t → s = t
  unsorted : order.keys = [] → IsStableSort order.compareRecords matching matching
  length : p.value.length =
    (q.pageSize? o).elim (matching.length - q.skip.getD 0) (min · (matching.length - q.skip.getD 0))
  length_le : ∀ n, o.maxTop = some n → p.value.length ≤ n

/-! ### Steps -/

/-- Valid options leave nothing to fault in the tree. -/
lemma build_of_validate {schema : Schema} {o : Options} (h : o.validate = .ok ()) :
    PropertyTree.build schema schema.root o.depth = .ok ⟨schema, schema.root, [], o.depth⟩ := by
  have hdepth : o.depth ≠ 0 := by
    intro hzero
    simp [Options.validate, hzero] at h
  exact PropertyTree.build_eq_ok_iff.mpr ⟨hdepth, rfl⟩

/-- A step after another one is taken if that succeeds, on what it leaves. -/
lemma run_bind (x : Step σ α) (f : α → Step σ β) (s : σ) :
    (x >>= f).run s = match x.run s with
      | (.ok a, t) => (f a).run t
      | (.error e, t) => (.error e, t) := by
  change (ExceptT.bindCont f (x.run s).1).run (x.run s).2 = _
  rcases x.run s with ⟨a | e, t⟩ <;> rfl

lemma run_lift_bind (e : Except QueryError α) (f : α → Step σ β) (s : σ) :
    ((liftM e : Step σ α) >>= f).run s = match e with
      | .ok a => (f a).run s
      | .error fault => (.error fault, s) := by
  rw [run_bind]
  cases e <;> rfl

section List

variable [HasFields ρ] {q : Query} {schema : Schema} {o : Options}

lemma run_runFilter (l : List ρ) :
    (q.runFilter ⟨schema, schema.root, [], o.depth⟩ o.depth : Step (List ρ) Unit).run l =
      match q.filterTest schema o with
      | .ok keep => (.ok (), l.filter fun r => keep (HasFields.record r))
      | .error e => (.error e, l) := by
  rw [filterTest]
  cases htext : nonempty? q.filter with
  | none =>
    simp only [runFilter, htext, List.filter_true]
    rfl
  | some text =>
    simp only [runFilter, htext, run_lift_bind]
    cases planOf ⟨schema, schema.root, [], o.depth⟩ o.depth text <;> rfl

lemma run_runSearch (binder : Option (SearchBinder ρ)) (l : List ρ) :
    (q.runSearch binder : Step (List ρ) Unit).run l =
      match q.searchTest binder with
      | .ok test => (.ok (), l.filter test)
      | .error e => (.error e, l) := by
  unfold searchTest
  cases binder with
  | none =>
    simp only [List.filter_true]
    rfl
  | some bind =>
    cases htext : nonempty? q.search with
    | none =>
      simp only [runSearch, htext, List.filter_true]
      rfl
    | some text =>
      simp only [runSearch, htext]
      cases bind text <;> rfl

lemma run_runCount (l : List ρ) :
    (q.runCount : Step (List ρ) (Option Nat)).run l =
      (.ok (if q.count then some l.length else none), l) := by
  unfold runCount
  split_ifs <;> rfl

lemma run_runSort (l : List ρ) :
    (q.runSort ⟨schema, schema.root, [], o.depth⟩ : Step (List ρ) Unit).run l =
      match q.sortOrder schema o with
      | .ok order => (.ok (), Sequence.sort order l)
      | .error e => (.error e, l) := by
  rw [sortOrder]
  cases htext : nonempty? q.orderBy with
  | none =>
    simp only [runSort, htext]
    rfl
  | some text =>
    simp only [runSort, htext, run_lift_bind]
    cases SortOrder.ofText ⟨schema, schema.root, [], o.depth⟩ text <;> rfl

/-- Skipping nothing is no step of its own. -/
lemma run_runSkip (l : List ρ) :
    (q.runSkip : Step (List ρ) Unit).run l = (.ok (), l.drop (q.skip.getD 0)) := by
  rw [runSkip]
  match q.skip with
  | none => rfl
  | some 0 => rfl
  | some (n + 1) => rfl

lemma run_runTake (l : List ρ) :
    (q.runTake o : Step (List ρ) Unit).run l = (.ok (), upTo (q.pageSize? o) l) := by
  have hsize : (positive? q.top <|> o.maxTop) = q.pageSize? o := by
    rw [pageSize?]
    match q.top with
    | none => rfl
    | some 0 => rfl
    | some (n + 1) => rfl
  rw [runTake, hsize]
  cases q.pageSize? o <;> rfl

/-- The steps of a query make tests and an order, or fail. The page is then worked out from these
alone. -/
theorem page_eq (binder : Option (SearchBinder ρ)) (l : List ρ) :
    q.page schema o binder l = (do
      q.checkTop o
      o.validate
      let keep ← q.filterTest schema o
      let test ← q.searchTest binder
      let order ← q.sortOrder schema o
      let matching := l.filter fun r => keep (HasFields.record r) && test r
      return ⟨upTo (q.pageSize? o) ((Sequence.sort order matching).drop (q.skip.getD 0)),
        if q.count then some matching.length else none⟩) := by
  have hmatching (keep : Record → Bool) (test : ρ → Bool) :
      (l.filter fun r => keep (HasFields.record r) && test r) =
        (l.filter fun r => keep (HasFields.record r)).filter test := by
    simp only [List.filter_filter, Bool.and_comm]
  rw [page, apply, run, run_lift_bind]
  cases q.checkTop o with
  | error e => rfl
  | ok =>
    simp only [run_lift_bind]
    cases hvalid : o.validate with
    | error e => rfl
    | ok =>
      simp only [build_of_validate hvalid, run_bind, run_runFilter]
      cases q.filterTest schema o with
      | error e => rfl
      | ok keep =>
        simp only [run_runSearch]
        cases q.searchTest binder with
        | error e => rfl
        | ok test =>
          simp only [run_runCount, run_runSort]
          cases q.sortOrder schema o with
          | error e => rfl
          | ok order =>
            simp only [run_runSkip, run_runTake, ← hmatching]
            rfl

/-- No page is greater than the greatest one. -/
lemma pageSize?_le {n : Nat} (h : q.checkTop o = .ok ()) (hn : o.maxTop = some n) :
    ∃ size, q.pageSize? o = some size ∧ size ≤ n := by
  unfold pageSize?
  match htop : q.top with
  | none => exact ⟨n, hn, Nat.le_refl n⟩
  | some 0 => exact ⟨n, hn, Nat.le_refl n⟩
  | some (m + 1) =>
    refine ⟨m + 1, rfl, Nat.not_lt.mp fun hlt => ?_⟩
    cases h.symm.trans (checkTop_eq_error_iff.mpr ⟨m + 1, n, htop, hn, hlt, rfl⟩)

/-- What is cut from a stable sort of the records that match is the page of these. -/
lemma isPageOf_cut {order : SortOrder} {matching sorted : List ρ} (htop : q.checkTop o = .ok ())
    (hpreorder : IsPreorderOn (· ∈ matching) order.compareRecords)
    (hsort : IsStableSort order.compareRecords matching sorted) :
    q.IsPageOf o order matching
      ⟨upTo (q.pageSize? o) (sorted.drop (q.skip.getD 0)),
        if q.count then some matching.length else none⟩ := by
  have hlength : (upTo (q.pageSize? o) (sorted.drop (q.skip.getD 0))).length =
      (q.pageSize? o).elim (matching.length - q.skip.getD 0)
        (min · (matching.length - q.skip.getD 0)) := by
    rw [length_upTo, List.length_drop, hsort.perm.length_eq]
  refine ⟨rfl, ⟨sorted, hsort, rfl⟩, ?_, ?_, hlength, ?_⟩
  · intro s t hs ht
    exact hs.unique hpreorder ht
  · intro hkeys
    have heq (r s : ρ) : order.compareRecords r s = .eq := by
      simp [SortOrder.compareRecords, SortOrder.compare, hkeys]
    exact isStableSort_self heq matching
  · intro n hn
    obtain ⟨size, hsize, hle⟩ := pageSize?_le htop hn
    rw [hlength, hsize]
    exact Nat.le_trans (Nat.min_le_left _ _) hle

/-- A query that succeeds on a list gives the page of the records that pass its tests, sorted by its
keys. -/
theorem isPageOf_of_page {binder : Option (SearchBinder ρ)} {l : List ρ} {p : Page (List ρ)}
    (h : q.page schema o binder l = .ok p)
    (hsuits : ∀ order, q.sortOrder schema o = .ok order → order.Suits (l.map HasFields.record)) :
    ∃ keep test order, q.filterTest schema o = .ok keep ∧ q.searchTest binder = .ok test ∧
      q.sortOrder schema o = .ok order ∧
      q.IsPageOf o order (l.filter fun r => keep (HasFields.record r) && test r) p := by
  rw [page_eq] at h
  obtain ⟨_, htop, h⟩ := Outcome.bind_eq_ok_iff.mp h
  obtain ⟨_, -, h⟩ := Outcome.bind_eq_ok_iff.mp h
  obtain ⟨keep, hkeep, h⟩ := Outcome.bind_eq_ok_iff.mp h
  obtain ⟨test, htest, h⟩ := Outcome.bind_eq_ok_iff.mp h
  obtain ⟨order, horder, h⟩ := Outcome.bind_eq_ok_iff.mp h
  rw [Outcome.pure_eq_ok_iff.mp h]
  refine ⟨keep, test, order, hkeep, htest, horder, ?_⟩
  have hpreorder := SortOrder.isPreorderOn_compareRecords (hsuits order horder)
  have hmatching : IsPreorderOn
      (· ∈ l.filter fun r => keep (HasFields.record r) && test r) order.compareRecords :=
    hpreorder.mono fun r hr => List.mem_of_mem_filter hr
  exact isPageOf_cut htop hmatching (SortOrder.isStableSort_sort hmatching)

end List

end Query

/-! ### An example -/

namespace People

instance : HasFields Record := ⟨id⟩

/-- The text of the filter. -/
def filterText : String :=
  "friends/any(x: x/friends/all(x: x/NAME eq 'Ann') and age gte 30) or boss/age lt 7"

/-- Asks for all whom the filter finds, from the last name on, but not for the first of these. -/
def query : Query where
  filter := some filterText
  orderBy := some "NAME desc"
  skip := some 1
  count := true

def options : Options where
  maxTop := some 10
  depth := 3

/-- The filter finds Bob and Zoe. -/
def crowd : List Record :=
  [person "Ann" .null [], bob, person "Cy" .null [person "Eve" (.integer .i32 31) []],
    person "Zoe" .null [person "Eve" (.integer .i32 31) [person "Ann" .null []]]]

lemma conforms_of_mem_crowd : ∀ r ∈ crowd, schema.Conforms r := by
  have hann : schema.Conforms (person "Ann" .null []) := conforms_person (.null _) (by simp)
  have heve {friends : List Record} (h : ∀ r ∈ friends, schema.Conforms r) :
      schema.Conforms (person "Eve" (.integer .i32 31) friends) :=
    conforms_person (.optional (.scalar (by decide))) h
  simp only [crowd, List.forall_mem_cons, List.not_mem_nil, false_implies, implies_true, and_true]
  refine ⟨hann, conforms_bob, conforms_person (.null _) ?_, conforms_person (.null _) ?_⟩
  · simpa using heve (List.forall_mem_nil _)
  · simpa using heve (by simpa using hann)

lemma ofText_filterText : Expr.ofText filterText = .ok filter :=
  Outcome.eq_ok_of_toOption (by decide +kernel)

lemma planOf_filterText :
    Query.planOf ⟨schema, schema.root, [], 3⟩ 3 filterText = .ok plan := by
  rw [Query.planOf, ofText_filterText]
  exact compile_filter

lemma filterTest_query : query.filterTest schema options = .ok plan.passes := by
  have htext : Query.nonempty? query.filter = some filterText := by decide +kernel
  rw [Query.filterTest, htext]
  exact congrArg (Except.map Plan.passes) planOf_filterText

lemma key_name (direction : Direction) :
    SortOrder.key people ⟨⟨"NAME", []⟩, direction⟩ = .ok ⟨⟨0, ["Name"]⟩, direction⟩ :=
  SortOrder.key_of_calls (calls (f := nameField) (by decide) (by decide +kernel)) (by decide)
    (by decide) direction

lemma compile_name :
    SortOrder.compile ⟨schema, schema.root, [], 3⟩ [⟨⟨"NAME", []⟩, .descending⟩] =
      .ok ⟨[⟨⟨0, ["Name"]⟩, .descending⟩]⟩ :=
  SortOrder.compile_cons (key_name .descending) rfl

lemma ofText_name :
    SortOrder.ofText ⟨schema, schema.root, [], 3⟩ "NAME desc" =
      .ok ⟨[⟨⟨0, ["Name"]⟩, .descending⟩]⟩ := by
  have hterms : SortTerm.listOfText "NAME desc" = .ok [⟨⟨"NAME", []⟩, .descending⟩] :=
    Outcome.eq_ok_of_toOption (by decide +kernel)
  rw [SortOrder.ofText, hterms]
  exact compile_name

lemma sortOrder_query :
    query.sortOrder schema options = .ok ⟨[⟨⟨0, ["Name"]⟩, .descending⟩]⟩ := by
  have htext : Query.nonempty? query.orderBy = some "NAME desc" := by decide +kernel
  rw [Query.sortOrder, htext]
  exact ofText_name

/-- Zoe comes before Bob, and the page starts after her. -/
lemma page_query : query.page schema options none crowd = .ok ⟨[bob], some 2⟩ := by
  have hpage : Query.upTo (query.pageSize? options)
      ((Sequence.sort ⟨[⟨⟨0, ["Name"]⟩, .descending⟩]⟩
        (crowd.filter fun r => plan.passes r && true)).drop 1) = [bob] := by
    rfl
  rw [Query.page_eq, filterTest_query, sortOrder_query]
  exact congrArg (fun l => Except.ok (Page.mk l (some 2))) hpage

lemma suits_crowd {order : SortOrder} (h : query.sortOrder schema options = .ok order) :
    order.Suits (crowd.map HasFields.record) := by
  have htext : Query.nonempty? query.orderBy = some "NAME desc" := by decide +kernel
  have hrecords : crowd.map HasFields.record = crowd := List.map_id crowd
  rw [Query.sortOrder, htext] at h
  rw [hrecords]
  exact SortOrder.suits_of_ofText build_root h conforms_of_mem_crowd

/-- The page is that of those whom the filter finds, sorted by their names. -/
theorem isPageOf_query :
    query.page schema options none crowd = .ok ⟨[bob], some 2⟩ ∧
      ∃ keep test order, query.filterTest schema options = .ok keep ∧
        query.searchTest (none : Option (SearchBinder Record)) = .ok test ∧
        query.sortOrder schema options = .ok order ∧
        query.IsPageOf options order
          (crowd.filter fun r => keep (HasFields.record r) && test r) ⟨[bob], some 2⟩ :=
  ⟨page_query, Query.isPageOf_of_page page_query fun _ => suits_crowd⟩

end People

end RecordQuery

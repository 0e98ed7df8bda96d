import Mathlib.Data.List.ReduceOption
import RecordQuery.Proofs.Query.Page

/-!
# Calls of queries

A query goes through its stages in their order. Each stage fails, or it makes at most one call on
the sequence. None of this depends on the sequence, so all sequences get the same calls: those of
the stages before the first that fails.
-/

namespace RecordQuery

namespace Query

variable {σ ρ : Type}

/-! ### Stages -/

/-- A call on a sequence, with what is handed over. -/
inductive Call (ρ : Type) where
  | filter (plan : Plan)
  | search (test : ρ → Bool)
  | count
  | sort (order : SortOrder)
  | skip (n : Nat)
  | take (n : Nat)

/-- What a stage comes to: a fault, or the call that it makes, if it makes one. -/
abbrev Stage (ρ : Type) := Except QueryError (Option (Call ρ))

/-- A stage that makes no call. -/
def checkStage (check : Except QueryError Unit) : Stage ρ := check.map fun _ => none

/-- A stage that makes a call with what a text is read as, if there is one that says something. -/
def textStage {α : Type} (text : Option String) (read : String → Except QueryError α)
    (call : α → Call ρ) : Stage ρ :=
  match nonempty? text with
  | none => .ok none
  | some text => (read text).map fun a => some (call a)

def filterStage (q : Query) (schema : Schema) (o : Options) : Stage ρ :=
  textStage q.filter (planOf ⟨schema, schema.root, [], o.depth⟩ o.depth) .filter

/-- There is a search only if there is a way to bind its text. -/
def searchStage (q : Query) : Option (SearchBinder ρ) → Stage ρ
  | none => .ok none
  | some bind =>
    textStage q.search (fun text => (bind text).elim (.error .searchBinding) .ok) .search

def countStage (q : Query) : Stage ρ := .ok (if q.count then some .count else none)

def sortStage (q : Query) (schema : Schema) (o : Options) : Stage ρ :=
  textStage q.orderBy (SortOrder.ofText ⟨schema, schema.root, [], o.depth⟩) .sort

def skipStage (q : Query) : Stage ρ := .ok ((positive? q.skip).map .skip)

def takeStage (q : Query) (o : Options) : Stage ρ :=
  .ok ((positive? q.top <|> o.maxTop).map .take)

/-- The stages of a query in their order. -/
def stages (q : Query) (schema : Schema) (o : Options) (binder : Option (SearchBinder ρ)) :
    List (Stage ρ) :=
  [checkStage (q.checkTop o), checkStage o.validate, q.filterStage schema o, q.searchStage binder,
    q.countStage, q.sortStage schema o, q.skipStage, q.takeStage o]

/-! ### What is asked and what is refused -/

/-- What a query asks of a sequence, and by what. -/
inductive Asks (q : Query) (schema : Schema) (o : Options) (binder : Option (SearchBinder ρ)) :
    Call ρ → Prop
  | filter {text : String} {plan : Plan} (htext : q.filter = some text) (hne : text ≠ "")
      (hplan : planOf ⟨schema, schema.root, [], o.depth⟩ o.depth text = .ok plan) :
      Asks q schema o binder (.filter plan)
  | search {bind : SearchBinder ρ} {text : String} {test : ρ → Bool} (hbinder : binder = some bind)
      (htext : q.search = some text) (hne : text ≠ "") (htest : bind text = some test) :
      Asks q schema o binder (.search test)
  | count (hcount : q.count = true) : Asks q schema o binder .count
  | sort {text : String} {order : SortOrder} (htext : q.orderBy = some text) (hne : text ≠ "")
      (horder : SortOrder.ofText ⟨schema, schema.root, [], o.depth⟩ text = .ok order) :
      Asks q schema o binder (.sort order)
  | skip {n : Nat} (hskip : q.skip = some n) (hn : 0 < n) : Asks q schema o binder (.skip n)
  | top {n : Nat} (htop : q.top = some n) (hn : 0 < n) : Asks q schema o binder (.take n)
  /-- A query that asks for no page gets the greatest one. -/
  | maxTop {n : Nat} (htop : ∀ m, q.top = some m → m = 0) (hmaxTop : o.maxTop = some n) :
      Asks q schema o binder (.take n)

/-- What is refused of a query, and with which fault. -/
inductive Refuses (q : Query) (schema : Schema) (o : Options) (binder : Option (SearchBinder ρ)) :
    QueryError → Prop
  | top {top maxTop : Nat} (htop : q.top = some top) (hmaxTop : o.maxTop = some maxTop)
      (hlt : maxTop < top) : Refuses q schema o binder (.topExceedsMaximum top maxTop)
  | depth (hdepth : o.depth = 0) : Refuses q schema o binder (.invalidOptions .zeroDepth)
  | maxTop (hdepth : o.depth ≠ 0) (hmaxTop : o.maxTop = some 0) :
      Refuses q schema o binder (.invalidOptions .zeroMaxTop)
  | filter {text : String} {e : QueryError} (htext : q.filter = some text) (hne : text ≠ "")
      (he : planOf ⟨schema, schema.root, [], o.depth⟩ o.depth text = .error e) :
      Refuses q schema o binder e
  | search {bind : SearchBinder ρ} {text : String} (hbinder : binder = some bind)
      (htext : q.search = some text) (hne : text ≠ "") (hbind : bind text = none) :
      Refuses q schema o binder .searchBinding
  | sort {text : String} {e : QueryError} (htext : q.orderBy = some text) (hne : text ≠ "")
      (he : SortOrder.ofText ⟨schema, schema.root, [], o.depth⟩ text = .error e) :
      Refuses q schema o binder e

section Stages

variable {α : Type} {text : Option String} {read : String → Except QueryError α}
  {toCall : α → Call ρ} {call : Call ρ} {e : QueryError} {check : Except QueryError Unit}
  {q : Query} {schema : Schema} {o : Options} {binder : Option (SearchBinder ρ)}

lemma checkStage_ne_ok_some : (checkStage check : Stage ρ) ≠ .ok (some call) := by
  cases check <;> nofun

lemma checkStage_eq_error_iff : (checkStage check : Stage ρ) = .error e ↔ check = .error e := by
  cases check <;> simp [checkStage, Except.map]

lemma textStage_eq_ok_some_iff :
    textStage text read toCall = .ok (some call) ↔
      ∃ s a, text = some s ∧ s ≠ "" ∧ read s = .ok a ∧ call = toCall a := by
  rw [textStage]
  cases htext : nonempty? text with
  | none =>
    have hempty := nonempty?_eq_none_iff.mp htext
    simp only [Except.ok.injEq, reduceCtorEq, false_iff]
    rintro ⟨s, a, hs, hne, -⟩
    exact hne (hempty s hs)
  | some s =>
    obtain ⟨rfl, hne⟩ := nonempty?_eq_some_iff.mp htext
    cases hread : read s with
    | error e => simp [hread, Except.map]
    | ok a => simp [hread, hne, Except.map, eq_comm]

lemma textStage_eq_error_iff :
    textStage text read toCall = .error e ↔ ∃ s, text = some s ∧ s ≠ "" ∧ read s = .error e := by
  rw [textStage]
  cases htext : nonempty? text with
  | none =>
    have hempty := nonempty?_eq_none_iff.mp htext
    simp only [reduceCtorEq, false_iff]
    rintro ⟨s, hs, hne, -⟩
    exact hne (hempty s hs)
  | some s =>
    obtain ⟨rfl, hne⟩ := nonempty?_eq_some_iff.mp htext
    cases hread : read s with
    | error e => simp [hread, hne, Except.map]
    | ok a => simp [hread, Except.map]

lemma searchStage_eq_ok_some_iff :
    q.searchStage binder = .ok (some call) ↔ ∃ bind text test, binder = some bind ∧
      q.search = some text ∧ text ≠ "" ∧ bind text = some test ∧ call = .search test := by
  cases binder with
  | none => simp [searchStage]
  | some bind =>
    have hread {text : String} {test : ρ → Bool} :
        (bind text).elim (.error .searchBinding) .ok = (.ok test : Except QueryError (ρ → Bool)) ↔
          bind text = some test := by
      cases bind text <;> simp
    simp [searchStage, textStage_eq_ok_some_iff, hread]

lemma searchStage_eq_error_iff :
    q.searchStage binder = .error e ↔ ∃ bind text, binder = some bind ∧
      q.search = some text ∧ text ≠ "" ∧ bind text = none ∧ e = .searchBinding := by
  cases binder with
  | none => simp [searchStage]
  | some bind =>
    have hread {text : String} :
        (bind text).elim (.error .searchBinding) .ok = (.error e : Except QueryError (ρ → Bool)) ↔
          bind text = none ∧ e = .searchBinding := by
      cases bind text <;> simp [eq_comm]
    simp [searchStage, textStage_eq_error_iff, hread]

lemma countStage_eq_ok_some_iff :
    q.countStage = .ok (some call) ↔ q.count = true ∧ call = .count := by
  rw [countStage]
  split_ifs with hcount
  · simp [hcount, eq_comm]
  · simp [hcount]

lemma skipStage_eq_ok_some_iff :
    q.skipStage = .ok (some call) ↔ ∃ n, (q.skip = some n ∧ 0 < n) ∧ .skip n = call := by
  simp [skipStage, positive?_eq_some_iff]

lemma takeStage_eq_ok_some_iff :
    q.takeStage o = .ok (some call) ↔ ∃ n, (q.top = some n ∧ 0 < n ∨
      (∀ m, q.top = some m → m = 0) ∧ o.maxTop = some n) ∧ .take n = call := by
  simp [takeStage, positive?_eq_some_iff, positive?_eq_none_iff]

/-- The calls that stages make are those that the query asks for. -/
lemma ok_some_mem_stages_iff :
    .ok (some call) ∈ q.stages schema o binder ↔ q.Asks schema o binder call := by
  constructor
  · intro h
    simp only [stages, List.mem_cons, List.not_mem_nil, or_false] at h
    rcases h with h | h | h | h | h | h | h | h
    · exact absurd h.symm checkStage_ne_ok_some
    · exact absurd h.symm checkStage_ne_ok_some
    · obtain ⟨text, plan, htext, hne, hplan, rfl⟩ := textStage_eq_ok_some_iff.mp h.symm
      exact .filter htext hne hplan
    · obtain ⟨bind, text, test, hbinder, htext, hne, htest, rfl⟩ :=
        searchStage_eq_ok_some_iff.mp h.symm
      exact .search hbinder htext hne htest
    · obtain ⟨hcount, rfl⟩ := countStage_eq_ok_some_iff.mp h.symm
      exact .count hcount
    · obtain ⟨text, order, htext, hne, horder, rfl⟩ := textStage_eq_ok_some_iff.mp h.symm
      exact .sort htext hne horder
    · obtain ⟨n, ⟨hskip, hn⟩, rfl⟩ := skipStage_eq_ok_some_iff.mp h.symm
      exact .skip hskip hn
    · obtain ⟨n, ⟨htop, hn⟩ | ⟨htop, hmaxTop⟩, rfl⟩ := takeStage_eq_ok_some_iff.mp h.symm
      · exact .top htop hn
      · exact .maxTop htop hmaxTop
  · intro h
    cases h with
    | @filter text plan htext hne hplan =>
      have hstage : q.filterStage schema o = .ok (some (.filter plan : Call ρ)) :=
        textStage_eq_ok_some_iff.mpr ⟨text, plan, htext, hne, hplan, rfl⟩
      exact List.mem_of_getElem? (i := 2) (congrArg some hstage)
    | search hbinder htext hne htest =>
      have hstage := searchStage_eq_ok_some_iff.mpr ⟨_, _, _, hbinder, htext, hne, htest, rfl⟩
      exact List.mem_of_getElem? (i := 3) (congrArg some hstage)
    | count hcount =>
      have hstage : q.countStage = .ok (some (.count : Call ρ)) :=
        countStage_eq_ok_some_iff.mpr ⟨hcount, rfl⟩
      exact List.mem_of_getElem? (i := 4) (congrArg some hstage)
    | @sort text order htext hne horder =>
      have hstage : q.sortStage schema o = .ok (some (.sort order : Call ρ)) :=
        textStage_eq_ok_some_iff.mpr ⟨text, order, htext, hne, horder, rfl⟩
      exact List.mem_of_getElem? (i := 5) (congrArg some hstage)
    | @skip n hskip hn =>
      have hstage : q.skipStage = .ok (some (.skip n : Call ρ)) :=
        skipStage_eq_ok_some_iff.mpr ⟨n, ⟨hskip, hn⟩, rfl⟩
      exact List.mem_of_getElem? (i := 6) (congrArg some hstage)
    | @top n htop hn =>
      have hstage : q.takeStage o = .ok (some (.take n : Call ρ)) :=
        takeStage_eq_ok_some_iff.mpr ⟨n, .inl ⟨htop, hn⟩, rfl⟩
      exact List.mem_of_getElem? (i := 7) (congrArg some hstage)
    | @maxTop n htop hmaxTop =>
      have hstage : q.takeStage o = .ok (some (.take n : Call ρ)) :=
        takeStage_eq_ok_some_iff.mpr ⟨n, .inr ⟨htop, hmaxTop⟩, rfl⟩
      exact List.mem_of_getElem? (i := 7) (congrArg some hstage)

/-- The faults of stages are those with which something is refused. -/
lemma error_mem_stages_iff :
    .error e ∈ q.stages schema o binder ↔ q.Refuses schema o binder e := by
  constructor
  · intro h
    simp only [stages, List.mem_cons, List.not_mem_nil, or_false] at h
    rcases h with h | h | h | h | h | h | h | h
    · obtain ⟨top, maxTop, htop, hmaxTop, hlt, rfl⟩ :=
        checkTop_eq_error_iff.mp (checkStage_eq_error_iff.mp h.symm)
      exact .top htop hmaxTop hlt
    · obtain ⟨hdepth, rfl⟩ | ⟨hdepth, hmaxTop, rfl⟩ :=
        Options.validate_eq_error_iff.mp (checkStage_eq_error_iff.mp h.symm)
      · exact .depth hdepth
      · exact .maxTop hdepth hmaxTop
    · obtain ⟨text, htext, hne, he⟩ := textStage_eq_error_iff.mp h.symm
      exact .filter htext hne he
    · obtain ⟨bind, text, hbinder, htext, hne, hbind, rfl⟩ := searchStage_eq_error_iff.mp h.symm
      exact .search hbinder htext hne hbind
    · cases h
    · obtain ⟨text, htext, hne, he⟩ := textStage_eq_error_iff.mp h.symm
      exact .sort htext hne he
    · cases h
    · cases h
  · intro h
    cases h with
    | top htop hmaxTop hlt =>
      have hcheck := checkTop_eq_error_iff.mpr ⟨_, _, htop, hmaxTop, hlt, rfl⟩
      exact List.mem_of_getElem? (i := 0) (congrArg some (checkStage_eq_error_iff.mpr hcheck))
    | depth hdepth =>
      have hcheck := Options.validate_eq_error_iff.mpr (.inl ⟨hdepth, rfl⟩)
      exact List.mem_of_getElem? (i := 1) (congrArg some (checkStage_eq_error_iff.mpr hcheck))
    | maxTop hdepth hmaxTop =>
      have hcheck := Options.validate_eq_error_iff.mpr (.inr ⟨hdepth, hmaxTop, rfl⟩)
      exact List.mem_of_getElem? (i := 1) (congrArg some (checkStage_eq_error_iff.mpr hcheck))
    | @filter text e htext hne he =>
      have hstage : (q.filterStage schema o : Stage ρ) = .error e :=
        textStage_eq_error_iff.mpr ⟨text, htext, hne, he⟩
      exact List.mem_of_getElem? (i := 2) (congrArg some hstage)
    | search hbinder htext hne hbind =>
      have hstage := searchStage_eq_error_iff.mpr ⟨_, _, hbinder, htext, hne, hbind, rfl⟩
      exact List.mem_of_getElem? (i := 3) (congrArg some hstage)
    | @sort text e htext hne he =>
      have hstage : (q.sortStage schema o : Stage ρ) = .error e :=
        textStage_eq_error_iff.mpr ⟨text, htext, hne, he⟩
      exact List.mem_of_getElem? (i := 5) (congrArg some hstage)

end Stages

/-! ### How stages end -/

/-- How stages end: with the first fault, if there is one, and after the calls of all stages before
it. -/
inductive Ends : List (Stage ρ) → Option QueryError → List (Call ρ) → Prop where
  | finished : Ends [] none []
  | fault (e : QueryError) (after : List (Stage ρ)) : Ends (.error e :: after) (some e) []
  | passed {stages : List (Stage ρ)} {fault : Option QueryError} {calls : List (Call ρ)}
    (call : Option (Call ρ)) (h : Ends stages fault calls) :
    Ends (.ok call :: stages) fault (call.toList ++ calls)

namespace Ends

variable {stages after : List (Stage ρ)} {fault : Option QueryError} {calls : List (Call ρ)}

lemma exists_of_stages (stages : List (Stage ρ)) : ∃ fault calls, Ends stages fault calls := by
  induction stages with
  | nil => exact ⟨none, [], finished⟩
  | cons stage stages ih =>
    cases stage with
    | error e => exact ⟨some e, [], Ends.fault e stages⟩
    | ok call =>
      obtain ⟨fault, calls, h⟩ := ih
      exact ⟨fault, call.toList ++ calls, passed call h⟩

/-- Stages end in one way. -/
lemma unique {fault' : Option QueryError} {calls' : List (Call ρ)} (h : Ends stages fault calls)
    (h' : Ends stages fault' calls') : fault = fault' ∧ calls = calls' := by
  induction h generalizing calls' with
  | finished =>
    cases h'
    exact ⟨rfl, rfl⟩
  | fault e after =>
    cases h'
    exact ⟨rfl, rfl⟩
  | passed call _ ih =>
    cases h' with
    | passed _ h' =>
      obtain ⟨rfl, rfl⟩ := ih h'
      exact ⟨rfl, rfl⟩

/-- Stages fall into those that pass, which make the calls, and what the fault keeps from being
done. -/
lemma exists_passed (h : Ends stages fault calls) :
    ∃ (passed : List (Option (Call ρ))) (rest : List (Stage ρ)),
      stages = passed.map .ok ++ rest ∧ calls = passed.reduceOption ∧
        (fault = none ∧ rest = [] ∨ ∃ e after, fault = some e ∧ rest = .error e :: after) := by
  induction h with
  | finished => exact ⟨[], [], rfl, rfl, .inl ⟨rfl, rfl⟩⟩
  | fault e after => exact ⟨[], .error e :: after, rfl, rfl, .inr ⟨e, after, rfl, rfl⟩⟩
  | passed call h ih =>
    obtain ⟨passed, rest, rfl, rfl, hrest⟩ := ih
    refine ⟨call :: passed, rest, rfl, ?_, hrest⟩
    cases call <;> rfl

/-- There is a fault if and only if some stage fails. -/
lemma isSome_iff (h : Ends stages fault calls) : fault.isSome ↔ ∃ e, .error e ∈ stages := by
  obtain ⟨passed, rest, rfl, -, ⟨rfl, rfl⟩ | ⟨e, after, rfl, rfl⟩⟩ := h.exists_passed
  · simp
  · simp only [Option.isSome_some, true_iff]
    exact ⟨e, List.mem_append_right _ List.mem_cons_self⟩

/-- No call is made if a stage fails before which none makes a call. -/
lemma calls_eq_nil (before : List (Stage ρ)) {e : QueryError}
    (h : Ends (before ++ .error e :: after) fault calls)
    (hbefore : ∀ call, .ok (some call) ∉ before) : calls = [] := by
  induction before generalizing fault calls with
  | nil =>
    cases h
    rfl
  | cons stage before ih =>
    cases h with
    | fault e => rfl
    | passed call h =>
      -- a stage that passes here has made no call, so the fault is still ahead of all calls
      cases call with
      | some call => exact absurd List.mem_cons_self (hbefore call)
      | none => exact ih h fun call hcall => hbefore call (List.mem_cons_of_mem _ hcall)

end Ends

/-! ### Runs -/

section Runs

variable [Sequence σ ρ]

/-- What a call makes of the number that was counted and of the sequence. -/
def Call.perform (p : Option Nat × σ) : Call ρ → Option Nat × σ
  | filter plan => (p.1, Sequence.filter plan p.2)
  | search test => (p.1, Sequence.search test p.2)
  | count => (some (Sequence.count p.2).1, (Sequence.count p.2).2)
  | sort order => (p.1, Sequence.sort order p.2)
  | skip n => (p.1, Sequence.skip n p.2)
  | take n => (p.1, Sequence.take n p.2)

/-- The number that was counted, or a fault, and the sequence, after some calls. -/
def outcome (fault : Option QueryError) (calls : List (Call ρ)) (p : Option Nat × σ) :
    Except QueryError (Option Nat) × σ :=
  let p := calls.foldl Call.perform p
  (fault.elim (.ok p.1) .error, p.2)

lemma outcome_cons (fault : Option QueryError) (call : Call ρ) (calls : List (Call ρ))
    (p : Option Nat × σ) : outcome fault (call :: calls) p = outcome fault calls (call.perform p) :=
  rfl

/-- With a number counted, steps go through some stages if they make their calls and end as they
do, on every sequence. -/
def GoesThrough (x : Step σ (Option Nat)) (count : Option Nat) (stages : List (Stage ρ)) : Prop :=
  ∀ fault calls, Ends stages fault calls → ∀ s, x.run s = outcome fault calls (count, s)

variable {x : Step σ (Option Nat)} {f : Unit → Step σ (Option Nat)} {count : Option Nat}
  {rest : List (Stage ρ)} {q : Query} {schema : Schema} {o : Options}

lemma goesThrough_nil : GoesThrough (pure count : Step σ (Option Nat)) count [] := by
  intro fault calls h s
  cases h
  rfl

lemma goesThrough_error {e : QueryError} (h : ∀ s, x.run s = (.error e, s)) :
    GoesThrough x count (.error e :: rest) := by
  intro fault calls hends s
  cases hends
  exact h s

lemma goesThrough_ok {call : Option (Call ρ)}
    (h : ∀ s, ∃ (y : Step σ (Option Nat)) (n : Option Nat) (t : σ), GoesThrough y n rest ∧
      x.run s = y.run t ∧ call.toList.foldl Call.perform (count, s) = (n, t)) :
    GoesThrough x count (.ok call :: rest) := by
  intro fault calls hends s
  cases hends with
  | passed _ hends =>
    obtain ⟨y, n, t, hy, hx, ht⟩ := h s
    rw [hx, hy _ _ hends, outcome, outcome, List.foldl_append, ht]

lemma goesThrough_pure (hf : GoesThrough (f ()) count rest) :
    GoesThrough ((pure () : Step σ Unit) >>= f) count (.ok none :: rest) :=
  goesThrough_ok fun s => ⟨f (), count, s, hf, run_bind (pure ()) f s, rfl⟩

/-- A change of the sequence goes through a stage with the call that makes this change. -/
lemma goesThrough_modify {call : Call ρ} {g : σ → σ}
    (hcall : ∀ s, call.perform (count, s) = (count, g s)) (hf : GoesThrough (f ()) count rest) :
    GoesThrough ((modify g : Step σ Unit) >>= f) count (.ok (some call) :: rest) :=
  goesThrough_ok fun s => ⟨f (), count, g s, hf, run_bind (modify g) f s, hcall s⟩

/-- A check goes through its stage. What follows may take it that the check passes. -/
lemma goesThrough_check {check : Except QueryError Unit}
    (hf : check = .ok () → GoesThrough (f ()) count rest) :
    GoesThrough ((liftM check : Step σ Unit) >>= f) count (checkStage check :: rest) := by
  cases check with
  | error e => exact goesThrough_error fun s => run_lift_bind _ f s
  | ok => exact goesThrough_pure (hf rfl)

/-- Reading a text and changing the sequence by it goes through the stage of the text. -/
lemma goesThrough_text {α : Type} {text : Option String} {read : String → Except QueryError α}
    {call : α → Call ρ} {g : α → σ → σ} {x : Step σ Unit}
    (hx : x = match nonempty? text with
      | none => pure ()
      | some text => (liftM (read text) : Step σ α) >>= fun a => modify (g a))
    (hcall : ∀ a s, (call a).perform (count, s) = (count, g a s))
    (hf : GoesThrough (f ()) count rest) :
    GoesThrough (x >>= f) count (textStage text read call :: rest) := by
  rw [hx, textStage]
  cases nonempty? text with
  | none => exact goesThrough_pure hf
  | some text =>
    simp only [bind_assoc]
    cases read text with
    | error e => exact goesThrough_error fun s => run_lift_bind _ _ s
    | ok a => exact goesThrough_modify (hcall a) hf

lemma goesThrough_filter (hf : GoesThrough (f ()) count rest) :
    GoesThrough (q.runFilter ⟨schema, schema.root, [], o.depth⟩ o.depth >>= f) count
      (q.filterStage schema o :: rest) :=
  goesThrough_text rfl (fun _ _ => rfl) hf

lemma goesThrough_search {binder : Option (SearchBinder ρ)} (hf : GoesThrough (f ()) count rest) :
    GoesThrough (q.runSearch binder >>= f) count (q.searchStage binder :: rest) := by
  cases binder with
  | none => exact goesThrough_pure hf
  | some bind =>
    refine goesThrough_text ?_ (fun _ _ => rfl) hf
    unfold runSearch
    cases nonempty? q.search with
    | none => rfl
    | some text =>
      dsimp only
      cases bind text <;> rfl

/-- What follows a count goes on with the number counted. -/
lemma goesThrough_count {f : Option Nat → Step σ (Option Nat)}
    (hf : ∀ n, GoesThrough (f n) n rest) :
    GoesThrough (q.runCount >>= f) none (q.countStage :: rest) := by
  rw [runCount, countStage]
  cases q.count with
  | false => exact goesThrough_ok fun s => ⟨f none, none, s, hf none, run_bind _ f s, rfl⟩
  | true =>
    -- the number differs from sequence to sequence, and so does what goes on from here
    refine goesThrough_ok fun s => ?_
    exact ⟨f (some (Sequence.count s).1), _, (Sequence.count s).2, hf _, run_bind _ f s, rfl⟩

lemma goesThrough_sort (hf : GoesThrough (f ()) count rest) :
    GoesThrough (q.runSort ⟨schema, schema.root, [], o.depth⟩ >>= f) count
      (q.sortStage schema o :: rest) :=
  goesThrough_text rfl (fun _ _ => rfl) hf

lemma goesThrough_skip (hf : GoesThrough (f ()) count rest) :
    GoesThrough (q.runSkip >>= f) count (q.skipStage :: rest) := by
  rw [runSkip, skipStage]
  cases positive? q.skip with
  | none => exact goesThrough_pure hf
  | some n => exact goesThrough_modify (fun _ => rfl) hf

lemma goesThrough_take (hf : GoesThrough (f ()) count rest) :
    GoesThrough (q.runTake o >>= f) count (q.takeStage o :: rest) := by
  rw [runTake, takeStage]
  cases positive? q.top <|> o.maxTop with
  | none => exact goesThrough_pure hf
  | some n => exact goesThrough_modify (fun _ => rfl) hf

/-- All steps of a query go through its stages. The tree is no stage of its own. -/
lemma goesThrough_stages (q : Query) (schema : Schema) (o : Options)
    (binder : Option (SearchBinder ρ)) :
    GoesThrough (q.run schema o binder : Step σ (Option Nat)) none
      (q.stages schema o binder) := by
  rw [run, stages]
  apply goesThrough_check
  intro _
  apply goesThrough_check
  intro hvalid
  rw [build_of_validate hvalid]
  apply goesThrough_filter
  apply goesThrough_search
  apply goesThrough_count
  intro n
  apply goesThrough_sort
  apply goesThrough_skip
  apply goesThrough_take
  exact goesThrough_nil

end Runs

/-! ### Recording -/

/-- A sequence that takes note of the calls that are made on it. -/
structure Recorder (σ ρ : Type) where
  sequence : σ
  calls : List (Call ρ)

section Recording

variable [Sequence σ ρ]

/-- Hands a call on to the sequence and takes note of it. -/
def Recorder.note (r : Recorder σ ρ) (call : Call ρ) : Recorder σ ρ :=
  ⟨(call.perform (none, r.sequence)).2, r.calls ++ [call]⟩

instance : Sequence (Recorder σ ρ) ρ where
  filter plan r := r.note (.filter plan)
  search test r := r.note (.search test)
  count r := ((Sequence.count r.sequence).1, r.note .count)
  sort order r := r.note (.sort order)
  skip n r := r.note (.skip n)
  take n r := r.note (.take n)

lemma Call.perform_recorder (count : Option Nat) (r : Recorder σ ρ) (call : Call ρ) :
    call.perform (count, r) =
      ((call.perform (count, r.sequence)).1,
        ⟨(call.perform (count, r.sequence)).2, r.calls ++ [call]⟩) := by
  cases call <;> rfl

/-- Calls on a recorder have the outcome that they have on its sequence, and they are noted. -/
lemma outcome_recorder (fault : Option QueryError) (calls : List (Call ρ)) (count : Option Nat)
    (r : Recorder σ ρ) :
    outcome fault calls (count, r) =
      ((outcome fault calls (count, r.sequence)).1,
        ⟨(outcome fault calls (count, r.sequence)).2, r.calls ++ calls⟩) := by
  induction calls generalizing count r with
  | nil => simp [outcome]
  | cons call calls ih =>
    rw [outcome_cons, outcome_cons, Call.perform_recorder, ih, List.append_assoc]
    rfl

end Recording

/-! ### Outcomes -/

lemma apply_of_page [Sequence σ ρ] {q : Query} {schema : Schema} {o : Options}
    {binder : Option (SearchBinder ρ)} {s : σ} {p : Page σ} (h : q.page schema o binder s = .ok p) :
    q.apply schema o binder s = (.ok p.count, p.value) := by
  rw [page] at h
  split at h
  case h_1 count t happly =>
    cases h
    exact happly
  case h_2 => cases h

variable {q : Query} {schema : Schema} {o : Options} {binder : Option (SearchBinder ρ)}
  {fault : Option QueryError} {calls : List (Call ρ)}

lemma apply_of_ends [Sequence σ ρ] (h : Ends (q.stages schema o binder) fault calls) (s : σ) :
    q.apply schema o binder s = outcome fault calls (none, s) :=
  goesThrough_stages q schema o binder fault calls h s

/-- No call is made if the page is too great, the options are not valid or the filter is refused. -/
lemma calls_eq_nil_of_ends {e : QueryError} (h : Ends (q.stages schema o binder) fault calls)
    (he : q.checkTop o = .error e ∨ o.validate = .error e ∨
      (q.filterStage schema o : Stage ρ) = .error e) : calls = [] := by
  have hcheck (check : Except QueryError Unit) (call : Call ρ) :
      .ok (some call) ≠ checkStage check := checkStage_ne_ok_some.symm
  rw [stages] at h
  rcases he with he | he | he
  · rw [he] at h
    exact Ends.calls_eq_nil [] h (by simp)
  · rw [he] at h
    exact Ends.calls_eq_nil [checkStage (q.checkTop o)] h (by simp [hcheck])
  · rw [he] at h
    exact Ends.calls_eq_nil [checkStage (q.checkTop o), checkStage o.validate] h
      (by simp [hcheck])

/-- A page that is too great is the first to be refused, and no call is made then. -/
lemma fault_eq_of_maxTop_lt {top maxTop : Nat} (h : Ends (q.stages schema o binder) fault calls)
    (htop : q.top = some top) (hmaxTop : o.maxTop = some maxTop) (hlt : maxTop < top) :
    fault = some (.topExceedsMaximum top maxTop) ∧ calls = [] := by
  have hcheck := checkTop_eq_error_iff.mpr ⟨top, maxTop, htop, hmaxTop, hlt, rfl⟩
  rw [stages, hcheck] at h
  cases h
  exact ⟨rfl, rfl⟩

/-- A query has one fault or none, and some calls, which are those of its stages before the first
that fails. A stage fails with what it refuses, and its call is what the query asks for. On every
sequence the query ends with this fault and makes these calls. -/
theorem exists_ends_stages (q : Query) (schema : Schema) (o : Options)
    (binder : Option (SearchBinder ρ)) :
    (∀ call, .ok (some call) ∈ q.stages schema o binder ↔ q.Asks schema o binder call) ∧
    (∀ e, .error e ∈ q.stages schema o binder ↔ q.Refuses schema o binder e) ∧
    ∃ (fault : Option QueryError) (calls : List (Call ρ)),
      Ends (q.stages schema o binder) fault calls ∧
      (fault.isSome ↔ ∃ e, .error e ∈ q.stages schema o binder) ∧
      (∀ e, q.checkTop o = .error e ∨ o.validate = .error e ∨
        (q.filterStage schema o : Stage ρ) = .error e → calls = []) ∧
      (∀ top maxTop, q.top = some top → o.maxTop = some maxTop → maxTop < top →
        fault = some (.topExceedsMaximum top maxTop) ∧ calls = []) ∧
      ∀ (σ : Type) [Sequence σ ρ] (s : σ),
        q.apply schema o binder s = outcome fault calls (none, s) ∧
        q.apply schema o binder (⟨s, []⟩ : Recorder σ ρ) =
          ((q.apply schema o binder s).1, ⟨(q.apply schema o binder s).2, calls⟩) := by
  obtain ⟨fault, calls, h⟩ := Ends.exists_of_stages (q.stages schema o binder)
  refine ⟨fun _ => ok_some_mem_stages_iff, fun _ => error_mem_stages_iff, ?_⟩
  refine ⟨fault, calls, h, h.isSome_iff, ?_, ?_, ?_⟩
  · intro e he
    exact calls_eq_nil_of_ends h he
  · intro top maxTop htop hmaxTop hlt
    exact fault_eq_of_maxTop_lt h htop hmaxTop hlt
  · intro σ _ s
    refine ⟨apply_of_ends h s, ?_⟩
    rw [apply_of_ends h s, apply_of_ends h (⟨s, []⟩ : Recorder σ ρ), outcome_recorder]
    rfl

end Query

/-! ### An example -/

namespace People

open Query

/-- The calls of the query: all but that of a search. -/
def queryCalls : List (Call Record) :=
  [.filter plan, .count, .sort ⟨[⟨⟨0, ["Name"]⟩, .descending⟩]⟩, .skip 1, .take 10]

lemma ends_stages_query : Ends (query.stages schema options none) none queryCalls := by
  have hfilter : query.filterStage schema options = .ok (some (.filter plan : Call Record)) :=
    textStage_eq_ok_some_iff.mpr ⟨filterText, plan, rfl, by decide, planOf_filterText, rfl⟩
  have hsort : query.sortStage schema options =
      .ok (some (.sort ⟨[⟨⟨0, ["Name"]⟩, .descending⟩]⟩ : Call Record)) :=
    textStage_eq_ok_some_iff.mpr ⟨"NAME desc", _, rfl, by decide, ofText_name, rfl⟩
  rw [stages, hfilter, hsort]
  exact .passed none (.passed none (.passed (some _) (.passed none (.passed (some .count)
    (.passed (some _) (.passed (some _) (.passed (some _) .finished)))))))

/-- The query finds Bob and Zoe, and makes its calls in their order. -/
theorem apply_query_recorder :
    query.apply schema options none (⟨crowd, []⟩ : Recorder (List Record) Record) =
      (.ok (some 2), ⟨[bob], queryCalls⟩) := by
  obtain ⟨-, -, fault, calls, hends, -, -, -, hrun⟩ :=
    exists_ends_stages query schema options (none : Option (SearchBinder Record))
  obtain ⟨-, rfl⟩ := hends.unique ends_stages_query
  rw [(hrun (List Record) crowd).2, apply_of_page page_query]

end People

end RecordQuery

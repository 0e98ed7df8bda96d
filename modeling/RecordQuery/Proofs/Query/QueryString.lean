import RecordQuery.Proofs.Number.Digits
import RecordQuery.Proofs.Text.FormEncoding
import RecordQuery.Query.QueryString
import Mathlib.Data.List.ReduceOption

/-!
# Queries are read as they are written

A query string says what a query is, whatever the order of its parameters, by which of their names
they go and what else stands among them.
-/

namespace RecordQuery

/-! ### Names of parameters -/

namespace Parameter

variable {p : Parameter} {s : String}

/-- All names by which a parameter is known. -/
def names (p : Parameter) : List String := p.name :: p.aliases

example : all.map names =
    [["filter", "$filter"], ["orderBy", "orderby", "$orderby", "$orderBy"], ["skip", "$skip"],
      ["top", "$top"], ["count", "$count"], ["search", "$search"]] := rfl

lemma mem_all (p : Parameter) : p ∈ all := by
  cases p <;> decide

lemma ofName?_of_mem_names (h : s ∈ p.names) : ofName? s = some p := by
  cases p <;> simp only [names, name, aliases, List.mem_cons, List.not_mem_nil, or_false] at h <;>
    rcases h with rfl | rfl | rfl | rfl <;> decide

lemma ofName?_eq_none (h : ∀ p : Parameter, s ∉ p.names) : ofName? s = none := by
  rw [ofName?, List.find?_eq_none]
  intro p _
  have hp := h p
  rw [names, List.mem_cons, not_or] at hp
  simp [Ne.symm hp.1, hp.2]

end Parameter

namespace Query

variable {q : Query} {p : Parameter} {value : String} {n : Nat} {cs : List Char}

/-! ### Values of parameters -/

lemma readDigits_eq (hdigits : ∀ c ∈ cs, c.isDigit)
    (hle : Nat.ofDigitChars 10 cs n ≤ Parameter.greatest) :
    readDigits n cs = .ok (Nat.ofDigitChars 10 cs n) := by
  induction cs generalizing n with
  | nil => rfl
  | cons c cs ih =>
    obtain ⟨hc, hcs⟩ := List.forall_mem_cons.mp hdigits
    have hstep : Nat.ofDigitChars 10 (c :: cs) n =
        Nat.ofDigitChars 10 cs (10 * n + Number.digitValue c) := rfl
    rw [hstep] at hle ⊢
    have hnext := (Number.le_ofDigitChars cs (10 * n + Number.digitValue c)).trans hle
    rw [readDigits]
    simp only [hc, Bool.not_true, Bool.false_eq_true, if_false, Nat.not_lt.mpr hnext]
    exact ih hcs hle

/-- A number is read as it is written. -/
lemma readNumber_toString (h : n ≤ Parameter.greatest) : readNumber (toString n) = .ok n := by
  have hdigits : (toString n).toList = Number.digits n := Nat.toList_repr
  have hread : readDigits 0 (Number.digits n) = .ok n := by
    have hvalue : Nat.ofDigitChars 10 (Number.digits n) 0 = n := Number.ofDigits_digits n
    rw [readDigits_eq (fun c => Number.isDigit_of_mem_digits) (hvalue.trans_le h), hvalue]
  rw [readNumber, hdigits]
  split
  · rename_i hnil
    exact absurd hnil (Number.digits_ne_nil n)
  · rename_i hplus
    exact absurd (Number.isDigit_of_mem_digits (hplus ▸ List.mem_cons_self)) (by decide)
  · rename_i cs hplus
    exact absurd (Number.isDigit_of_mem_digits (hplus ▸ List.mem_cons_self)) (by decide)
  · exact hread

/-- What a query says of a parameter, if it says anything. -/
def value? (q : Query) : Parameter → Option String
  | .filter => q.filter
  | .orderBy => q.orderBy
  | .skip => q.skip.map toString
  | .top => q.top.map toString
  | .count => some (if q.count then "true" else "false")
  | .search => q.search

lemma parameters_eq (q : Query) :
    q.parameters = (Parameter.all.map fun p => (q.value? p).map (p, ·)).reduceOption := by
  simp only [parameters, Parameter.all, List.map_cons, List.map_nil, value?, Option.map_map]
  rfl

/-- The parameters of a query are those of which it says something. -/
lemma mem_parameters_iff : (p, value) ∈ q.parameters ↔ q.value? p = some value := by
  rw [parameters_eq, List.reduceOption_mem_iff, List.mem_map]
  constructor
  · rintro ⟨p', -, hvalue⟩
    obtain ⟨value', hvalue, heq⟩ := Option.map_eq_some_iff.mp hvalue
    cases heq
    exact hvalue
  · intro hvalue
    exact ⟨p, p.mem_all, by rw [hvalue]; rfl⟩

lemma map_fst_parameters (q : Query) :
    q.parameters.map Prod.fst = Parameter.all.filter fun p => (q.value? p).isSome := by
  rw [parameters_eq]
  induction Parameter.all with
  | nil => rfl
  | cons p ps ih =>
    cases hvalue : q.value? p with
    | none => simpa [hvalue] using ih
    | some value => simpa [hvalue] using ih

/-- A query has each parameter once. -/
lemma nodup_map_fst_parameters (q : Query) : (q.parameters.map Prod.fst).Nodup := by
  have hall : Parameter.all.Nodup := by decide
  rw [map_fst_parameters]
  exact hall.filter _

/-- Queries that say the same are the same. -/
lemma ext_value? {a b : Query} (h : ∀ p, a.value? p = b.value? p) : a = b := by
  have htoString : Function.Injective (toString : Nat → String) := by
    intro m n hmn
    have hdigits : Number.digits m = Number.digits n := by
      rw [Number.digits, ← Nat.toList_repr, Number.digits, ← Nat.toList_repr]
      exact congrArg String.toList hmn
    rw [← Number.ofDigits_digits m, hdigits, Number.ofDigits_digits]
  have hcount : a.count = b.count := by
    have hword := h .count
    cases ha : a.count <;> cases hb : b.count <;> simp [value?, ha, hb] at hword <;> rfl
  obtain ⟨filter, orderBy, skip, top, count, search⟩ := a
  obtain ⟨filter', orderBy', skip', top', count', search'⟩ := b
  have hskip : skip = skip' := Option.map_injective htoString (h .skip)
  have htop : top = top' := Option.map_injective htoString (h .top)
  rw [show filter = filter' from h .filter, show orderBy = orderBy' from h .orderBy, hskip, htop,
    show count = count' from hcount, show search = search' from h .search]

/-! ### Reading parameters -/

/-- The numbers of a query are no greater than a parameter can be. -/
structure InRange (q : Query) : Prop where
  skip : ∀ n, q.skip = some n → n ≤ Parameter.greatest
  top : ∀ n, q.top = some n → n ≤ Parameter.greatest

/-- A query that says of one parameter what another query does. -/
def adopt (a q : Query) : Parameter → Query
  | .filter => { a with filter := q.filter }
  | .orderBy => { a with orderBy := q.orderBy }
  | .skip => { a with skip := q.skip }
  | .top => { a with top := q.top }
  | .count => { a with count := q.count }
  | .search => { a with search := q.search }

lemma value?_adopt_self (a q : Query) (p : Parameter) : (a.adopt q p).value? p = q.value? p := by
  cases p <;> rfl

lemma value?_adopt_of_ne {a q : Query} {p' : Parameter} (h : p' ≠ p) :
    (a.adopt q p).value? p' = a.value? p' := by
  cases p <;> cases p' <;> first | rfl | exact absurd rfl h

/-- With a parameter of `q` read, a query says of it what `q` does. -/
lemma withParameter_eq_ok (hq : q.InRange) (hvalue : q.value? p = some value) (a : Query) :
    a.withParameter p value = .ok (a.adopt q p) := by
  cases p with
  | filter => rw [adopt, show q.filter = some value from hvalue]; rfl
  | orderBy => rw [adopt, show q.orderBy = some value from hvalue]; rfl
  | skip =>
    obtain ⟨n, hn, rfl⟩ := Option.map_eq_some_iff.mp hvalue
    rw [withParameter, readNumber_toString (hq.skip n hn), adopt, hn]
    rfl
  | top =>
    obtain ⟨n, hn, rfl⟩ := Option.map_eq_some_iff.mp hvalue
    rw [withParameter, readNumber_toString (hq.top n hn), adopt, hn]
    rfl
  | count =>
    cases hvalue
    rw [adopt]
    cases q.count <;> rfl
  | search => rw [adopt, show q.search = some value from hvalue]; rfl

/-- Parameters with their values are listed by pairs of names and values: in the same order, each by
one of its names, with pairs of other names anywhere among them. -/
inductive Lists : List (Parameter × String) → List (String × String) → Prop
  | nil : Lists [] []
  | known {p : Parameter} {name value : String} {params : List (Parameter × String)}
      {pairs : List (String × String)} (hname : name ∈ p.names) (h : Lists params pairs) :
      Lists ((p, value) :: params) ((name, value) :: pairs)
  | other {name value : String} {params : List (Parameter × String)}
      {pairs : List (String × String)} (hname : ∀ p : Parameter, name ∉ p.names)
      (h : Lists params pairs) : Lists params ((name, value) :: pairs)

/-- Reading listed parameters of `q` gives `q`, if of all others the query says already what `q`
does. -/
lemma readPairs_eq_ok (hq : q.InRange) {params : List (Parameter × String)}
    {pairs : List (String × String)} (h : Lists params pairs)
    (hmem : ∀ x ∈ params, x ∈ q.parameters) (hnodup : (params.map Prod.fst).Nodup)
    {seen : List Parameter} (hseen : ∀ p ∈ params.map Prod.fst, p ∉ seen) {a : Query}
    (ha : ∀ p, p ∉ params.map Prod.fst → a.value? p = q.value? p) :
    readPairs a seen pairs = .ok q := by
  -- with each parameter there is one less of which the query may say something else than `q`
  induction h generalizing seen a with
  | nil => rw [readPairs, ext_value? fun p => ha p (by simp)]
  | @known p name value params pairs hname h ih =>
    obtain ⟨hx, hmem⟩ := List.forall_mem_cons.mp hmem
    rw [List.map_cons, List.nodup_cons] at hnodup
    rw [List.map_cons, List.forall_mem_cons] at hseen
    have ha' := withParameter_eq_ok hq (mem_parameters_iff.mp hx) a
    rw [readPairs, Parameter.ofName?_of_mem_names hname]
    simp only [hseen.1, if_false, ha']
    refine ih hmem hnodup.2 ?_ ?_
    · intro p' hp' hmem'
      rcases List.mem_cons.mp hmem' with rfl | hmem'
      · exact hnodup.1 hp'
      · exact hseen.2 p' hp' hmem'
    · intro p' hp'
      by_cases heq : p' = p
      · rw [heq, value?_adopt_self]
      · rw [value?_adopt_of_ne heq]
        exact ha p' (by simpa [heq] using hp')
  | other hname h ih =>
    rw [readPairs, Parameter.ofName?_eq_none hname]
    exact ih hmem hnodup hseen ha

/-! ### Query strings -/

/-- A query string spells a query: it has its parameters, each once and by any of its names, in any
order and with any others. That there is no count to take need not be said. -/
def SpelledBy (q : Query) (s : String) : Prop :=
  ∃ params pairs,
    (params.Perm q.parameters ∨
      q.count = false ∧ params.Perm (q.parameters.filter fun x => x.1 ≠ .count)) ∧
    Lists params pairs ∧ FormEncoding.WritesAll s pairs

lemma lists_names (params : List (Parameter × String)) :
    Lists params (params.map fun (p, value) => (p.name, value)) := by
  induction params with
  | nil => exact .nil
  | cons x params ih => exact .known List.mem_cons_self ih

lemma spelledBy_toQueryString (q : Query) : q.SpelledBy q.toQueryString :=
  ⟨q.parameters, _, .inl (.refl _), lists_names q.parameters, FormEncoding.writesAll_ofPairs _⟩

/-- The empty query says of a parameter what a query does that says nothing of it. -/
lemma value?_empty (hcount : p = .count → q.count = false)
    (hvalue : p ≠ .count → q.value? p = none) : ({} : Query).value? p = q.value? p := by
  by_cases hp : p = .count
  · rw [hp, value?, value?, hcount hp]
  · rw [hvalue hp]
    cases p <;> first | rfl | exact absurd rfl hp

lemma value?_eq_none (h : p ∉ q.parameters.map Prod.fst) : q.value? p = none := by
  rw [Option.eq_none_iff_forall_ne_some]
  intro value hvalue
  exact h (List.mem_map_of_mem (mem_parameters_iff.mpr hvalue))

/-- Some parameters of a query are enough if the empty query says the same of the others. -/
lemma readPairs_of_perm (hq : q.InRange) {params given : List (Parameter × String)}
    {pairs : List (String × String)} (hlists : Lists params pairs) (hperm : params.Perm given)
    (hgiven : given.Sublist q.parameters)
    (hothers : ∀ p, p ∉ given.map Prod.fst → ({} : Query).value? p = q.value? p) :
    readPairs {} [] pairs = .ok q := by
  have hkeys := hperm.map Prod.fst
  have hnodup := q.nodup_map_fst_parameters.sublist (hgiven.map Prod.fst)
  exact readPairs_eq_ok hq hlists (fun x hx => hgiven.mem (hperm.mem_iff.mp hx))
    (hkeys.nodup_iff.mpr hnodup) (fun _ _ => List.not_mem_nil)
    fun p hp => hothers p (hkeys.mem_iff.not.mp hp)

/-- A query string that spells a query is read as this query. -/
lemma ofQueryString_of_spelledBy (hq : q.InRange) {s : String} (h : q.SpelledBy s) :
    ofQueryString s = .ok q := by
  obtain ⟨params, pairs, hparams, hlists, hwrites⟩ := h
  have hread : readPairs {} [] pairs = .ok q := by
    rcases hparams with hperm | ⟨hcount, hperm⟩
    · refine readPairs_of_perm hq hlists hperm (.refl _) fun p hp => ?_
      have hnone : q.value? p = none := value?_eq_none hp
      refine value?_empty ?_ fun _ => hnone
      rintro rfl
      cases hnone
    · refine readPairs_of_perm hq hlists hperm List.filter_sublist fun p hp => ?_
      refine value?_empty (fun _ => hcount) fun hne => value?_eq_none fun hmem => hp ?_
      obtain ⟨x, hx, rfl⟩ := List.mem_map.mp hmem
      exact List.mem_map_of_mem (List.mem_filter.mpr ⟨hx, by simpa using hne⟩)
  rw [ofQueryString, FormEncoding.pairs_of_writesAll hwrites, hread]

/-- A query is read from the query string that is written for it, and from every other one that
spells it. -/
theorem ofQueryString_toQueryString (hq : q.InRange) :
    ofQueryString q.toQueryString = .ok q ∧ ∀ s, q.SpelledBy s → ofQueryString s = .ok q :=
  ⟨ofQueryString_of_spelledBy hq q.spelledBy_toQueryString,
    fun _ => ofQueryString_of_spelledBy hq⟩

/-! ### An example -/

/-- The first five records with a text full of marks, in an order. -/
def firstFive : Query :=
  { orderBy := some "name desc", top := some 5, search := some "r&d = 100%+é?" }

lemma inRange_firstFive : firstFive.InRange where
  skip := nofun
  top := by
    rintro _ ⟨⟩
    decide

/-- Signs in front of the names, another order and a parameter that is not known. -/
def firstFiveText : String :=
  "?$search=r%26d+%3D+100%25%2B%C3%A9%3F&$expand=manager&$top=5&orderby=name+desc"

lemma spelledBy_firstFive : firstFive.SpelledBy firstFiveText := by
  refine ⟨[(.search, "r&d = 100%+é?"), (.top, "5"), (.orderBy, "name desc")],
    [("$search", "r&d = 100%+é?"), ("$expand", "manager"), ("$top", "5"),
      ("orderby", "name desc")],
    .inr ⟨rfl, by decide +kernel⟩, ?_, _, FormEncoding.writesPairs_names ?_, .inl ?_⟩
  · have hexpand : ∀ p : Parameter, "$expand" ∉ p.names := fun p => by cases p <;> decide
    exact .known (by decide) (.other hexpand (.known (by decide) (.known (by decide) .nil)))
  · decide +kernel
  · decide +kernel

/-- The query of the first five is read as it is written, and in other words. -/
theorem ofQueryString_firstFive :
    ofQueryString firstFive.toQueryString = .ok firstFive ∧
      ofQueryString firstFiveText = .ok firstFive := by
  obtain ⟨hwritten, hspelled⟩ := ofQueryString_toQueryString inRange_firstFive
  exact ⟨hwritten, hspelled _ spelledBy_firstFive⟩

end Query

end RecordQuery

import RecordQuery.Proofs.Syntax.Printing

/-!
# Sort terms are read as they are written

Which sort terms the tokens of a text list, as rules. The words for directions are names as well:
one that stands after a path is its direction, and one that stands elsewhere starts a path. So the
terms that are read from a text are read again from their own texts with commas between them,
whatever the properties are called.
-/

namespace RecordQuery

open Lexer

/-! ### Paths and directions -/

namespace Parser

variable {p q : Path} {t : Token} {ts us rest : List Token} {terms more : List SortTerm}

/-- A path is read to its end: no slash follows what is read. -/
lemma names_of_reads_path {ts rest : List Token} {p q : Path} (h : Reads (path p ts) q rest) :
    ∃ ns us, Names ns us ∧ ts = us ++ rest ∧ (∀ t ∈ rest.head?, t.kind ≠ .slash) ∧
      q = ⟨p.first, p.rest ++ ns⟩ := by
  match ts with
  | [] =>
    rw [path, reads_ok_iff] at h
    obtain ⟨rfl, rfl⟩ := h
    exact ⟨[], [], .nil, rfl, by simp, by simp⟩
  | [t] =>
    rw [path] at h
    split_ifs at h with hslash
    · exact absurd h not_reads_error
    · obtain ⟨rfl, rfl⟩ := reads_ok_iff.mp h
      exact ⟨[], [], .nil, rfl, by simpa using hslash, by simp⟩
  | slash :: name :: us =>
    rw [path] at h
    split_ifs at h with hslash hname
    · obtain ⟨rfl, rfl⟩ := reads_ok_iff.mp h
      exact ⟨[], [], .nil, rfl, by simpa using hslash, by simp⟩
    · exact absurd h not_reads_error
    · rw [not_not] at hslash hname
      obtain ⟨ns, vs, hnames, rfl, hrest, rfl⟩ := names_of_reads_path ((reads_weaken_iff _).mp h)
      exact ⟨name.literal :: ns, slash :: name :: vs, .cons hslash hname hnames, rfl, hrest,
        by simp [Path.push]⟩

lemma reads_path_append {ns : List String} (h : Names ns us)
    (hrest : ∀ t ∈ rest.head?, t.kind ≠ .slash) (p : Path) :
    Reads (path p (us ++ rest)) ⟨p.first, p.rest ++ ns⟩ rest := by
  induction h generalizing p with
  | nil =>
    match rest with
    | [] => simp [path]
    | [t] => simp [path, hrest t rfl]
    | t :: u :: rest => simp [path, hrest t rfl]
  | @cons slash name ns us hslash hname _ ih =>
    rw [List.cons_append, List.cons_append, path]
    simp only [hslash, hname, ne_eq, not_true_eq_false, if_false, reads_weaken_iff]
    simpa [Path.push] using ih (p.push name.literal)

lemma direction_of_isKeyword {word : Token} {d : Direction} (h : word.isKeyword d.text) :
    (direction (word :: ts)).value = d ∧ (direction (word :: ts)).rest = ts := by
  cases d with
  | ascending =>
    have hother : word.isKeyword Direction.descending.text = false := by
      rw [Bool.eq_false_iff]
      intro hdescending
      have hsame := Text.sameWord_trans (Token.isKeyword_iff.mp h).2
        ((Text.sameWord_comm _ _).trans (Token.isKeyword_iff.mp hdescending).2)
      revert hsame
      decide
    rw [direction, hother, h]
    exact ⟨rfl, rfl⟩
  | descending =>
    rw [direction, h]
    exact ⟨rfl, rfl⟩

lemma direction_of_not_isKeyword (h : ∀ t ∈ ts.head?, ∀ d : Direction, ¬ t.isKeyword d.text) :
    (direction ts).value = .ascending ∧ (direction ts).rest = ts := by
  cases ts with
  | nil => exact ⟨rfl, rfl⟩
  | cons t ts =>
    rw [direction, if_neg (h t rfl _), if_neg (h t rfl _)]
    exact ⟨rfl, rfl⟩

/-! ### Lists of sort terms -/

/-- The sort terms that tokens list: paths, each with the word for its direction or without one. A
token that starts no path is passed over. -/
inductive Lists : List SortTerm → List Token → Prop
  | nil : Lists [] []
  | other {t : Token} {ts : List Token} {terms : List SortTerm} (ht : t.kind ≠ .name)
      (h : Lists terms ts) : Lists terms (t :: ts)
  | directed {name word : Token} {ns : List String} {us ts : List Token} {d : Direction}
      {terms : List SortTerm} (hname : name.kind = .name) (hnames : Names ns us)
      (hword : word.isKeyword d.text) (h : Lists terms ts) :
      Lists (⟨⟨name.literal, ns⟩, d⟩ :: terms) (name :: (us ++ word :: ts))
  | plain {name : Token} {ns : List String} {us ts : List Token} {terms : List SortTerm}
      (hname : name.kind = .name) (hnames : Names ns us)
      (hslash : ∀ t ∈ ts.head?, t.kind ≠ .slash)
      (hword : ∀ t ∈ ts.head?, ∀ d : Direction, ¬ t.isKeyword d.text) (h : Lists terms ts) :
      Lists (⟨⟨name.literal, ns⟩, .ascending⟩ :: terms) (name :: (us ++ ts))

lemma sortTerms_other (ht : t.kind ≠ .name) : sortTerms (t :: ts) = sortTerms ts := by
  rw [sortTerms, if_pos ht]

lemma sortTerms_name_eq_ok_iff (ht : t.kind = .name) :
    sortTerms (t :: ts) = .ok terms ↔
      ∃ p rest more, Reads (path (.single t.literal) ts) p rest ∧
        sortTerms (direction rest).rest = .ok more ∧
        terms = ⟨p, (direction rest).value⟩ :: more := by
  rw [sortTerms, if_neg (not_not.mpr ht)]
  constructor
  · intro h
    obtain ⟨p, hp, h⟩ := Outcome.bind_eq_ok_iff.mp h
    obtain ⟨more, hmore, h⟩ := Outcome.bind_eq_ok_iff.mp h
    exact ⟨p.value, p.rest, more, ⟨p, hp, rfl, rfl⟩, hmore, Outcome.pure_eq_ok_iff.mp h⟩
  · rintro ⟨_, _, more, ⟨p, hp, rfl, rfl⟩, hmore, rfl⟩
    simp [hp, hmore, bind, Except.bind, pure, Except.pure]

/-- A path and a direction are read as a sort term before the others. -/
lemma sortTerms_append_eq_ok {name : Token} {ns : List String} {d : Direction}
    (hname : name.kind = .name) (hnames : Names ns us)
    (hslash : ∀ t ∈ rest.head?, t.kind ≠ .slash)
    (hd : (direction rest).value = d ∧ (direction rest).rest = ts)
    (hmore : sortTerms ts = .ok terms) :
    sortTerms (name :: (us ++ rest)) = .ok (⟨⟨name.literal, ns⟩, d⟩ :: terms) := by
  obtain ⟨rfl, rfl⟩ := hd
  exact (sortTerms_name_eq_ok_iff hname).mpr
    ⟨_, rest, terms, reads_path_append hnames hslash _, hmore, rfl⟩

lemma Lists.sortTerms_eq_ok (h : Lists terms ts) : sortTerms ts = .ok terms := by
  induction h with
  | nil => rw [sortTerms]
  | other ht _ ih => rw [sortTerms_other ht, ih]
  | directed hname hnames hword _ ih =>
    have hslash := (Token.isKeyword_iff.mp hword).1
    exact sortTerms_append_eq_ok hname hnames (by simp [hslash]) (direction_of_isKeyword hword) ih
  | plain hname hnames hslash hword _ ih =>
    exact sortTerms_append_eq_ok hname hnames hslash (direction_of_not_isKeyword hword) ih

lemma lists_of_sortTerms (h : sortTerms ts = .ok terms) : Lists terms ts := by
  induction hlength : ts.length using Nat.strongRecOn generalizing ts terms with
  | _ n ih =>
    cases ts with
    | nil =>
      rw [sortTerms] at h
      cases h
      exact .nil
    | cons t ts =>
      rw [List.length_cons] at hlength
      by_cases ht : t.kind = .name
      · obtain ⟨p, rest, more, hp, hmore, rfl⟩ := (sortTerms_name_eq_ok_iff ht).mp h
        obtain ⟨ns, us, hnames, rfl, hslash, rfl⟩ := names_of_reads_path hp
        have hle := (direction rest).rest_le
        rw [List.length_append] at hlength
        have hlists := ih _ (by omega) hmore rfl
        by_cases hword : ∀ t ∈ rest.head?, ∀ d : Direction, ¬ t.isKeyword d.text
        · obtain ⟨hvalue, hrest⟩ := direction_of_not_isKeyword hword
          rw [hvalue]
          rw [hrest] at hlists
          exact .plain ht hnames hslash hword hlists
        · push Not at hword
          obtain ⟨word, hhead, d, hword⟩ := hword
          obtain ⟨ts, rfl⟩ := List.head?_eq_some_iff.mp hhead
          obtain ⟨hvalue, hrest⟩ :
              (direction (word :: ts)).value = d ∧ (direction (word :: ts)).rest = ts :=
            direction_of_isKeyword hword
          rw [hvalue]
          rw [hrest] at hlists
          exact .directed ht hnames hword hlists
      · rw [sortTerms_other ht] at h
        exact .other ht (ih _ (by omega) h rfl)

/-- The tokens of a text are read as the sort terms that they list. -/
lemma sortTerms_eq_ok_iff : sortTerms ts = .ok terms ↔ Lists terms ts :=
  ⟨lists_of_sortTerms, Lists.sortTerms_eq_ok⟩

/-- The paths of listed terms are made of the names of tokens. -/
lemma Lists.spells {T : Token → Prop} (h : Lists terms ts) (hT : ∀ t ∈ ts, T t) :
    ∀ term ∈ terms, ∀ name ∈ term.path.segments, Token.Spells T name := by
  induction h with
  | nil => simp
  | other _ _ ih => exact ih (List.forall_mem_cons.mp hT).2
  | directed hname hnames _ _ ih =>
    simp only [List.forall_mem_cons, List.forall_mem_append] at hT
    obtain ⟨hTname, hTnames, -, hTmore⟩ := hT
    exact List.forall_mem_cons.mpr ⟨List.forall_mem_cons.mpr
      ⟨⟨_, hTname, hname, rfl⟩, hnames.forall_spells hTnames⟩, ih hTmore⟩
  | plain hname hnames _ _ _ ih =>
    simp only [List.forall_mem_cons, List.forall_mem_append] at hT
    obtain ⟨hTname, hTnames, hTmore⟩ := hT
    exact List.forall_mem_cons.mpr ⟨List.forall_mem_cons.mpr
      ⟨⟨_, hTname, hname, rfl⟩, hnames.forall_spells hTnames⟩, ih hTmore⟩

/-! ### Faults -/

lemma failsWithin_path (p : Path) (ts : List Token) :
    Outcome.FailsWithin (· = .invalidPropertyPath) (path p ts) := by
  match ts with
  | [] => exact .ok _
  | [t] =>
    rw [path]
    split_ifs
    · exact Outcome.FailsWithin.error_iff.mpr rfl
    · exact .ok _
  | t :: u :: ts =>
    rw [path]
    split_ifs
    · exact .ok _
    · exact Outcome.FailsWithin.error_iff.mpr rfl
    · exact (failsWithin_path _ ts).bind fun _ _ => .pure _

/-- Nothing but a path without its last name is refused. -/
lemma failsWithin_sortTerms (ts : List Token) :
    Outcome.FailsWithin (· = .invalidPropertyPath) (sortTerms ts) := by
  induction ts using sortTerms.induct with
  | case1 =>
    rw [sortTerms]
    exact .ok _
  | case2 t ts ht ih =>
    rw [sortTerms_other ht]
    exact ih
  | case3 t ts ht ih =>
    rw [sortTerms, if_neg ht]
    exact (failsWithin_path _ ts).bind fun p _ => (ih p).bind fun _ _ => .pure _

end Parser

/-! ### Texts of sort terms -/

/-- The text of sort terms, with commas between them. -/
def SortTerm.listText (terms : List SortTerm) : String := ", ".intercalate (terms.map SortTerm.text)

namespace Parser

variable {terms more : List SortTerm} {ts us : List Token}

/-- Some tokens list some terms before whatever else is listed. -/
def ListsFirst (terms : List SortTerm) (ts : List Token) : Prop :=
  ∀ more us, Lists more us → Lists (terms ++ more) (ts ++ us)

lemma ListsFirst.append (h : ListsFirst terms ts) (h' : ListsFirst more us) :
    ListsFirst (terms ++ more) (ts ++ us) := by
  intro last vs hlast
  rw [List.append_assoc, List.append_assoc]
  exact h _ _ (h' _ _ hlast)

lemma ListsFirst.lists (h : ListsFirst terms ts) : Lists terms ts := by
  have hall := h [] [] .nil
  rwa [List.append_nil, List.append_nil] at hall

end Parser

open RecordQuery.Parser

namespace SortTerm

/-- A sort term is one wherever it is written, before whatever does not go on with it. -/
lemma splitsBefore_text {term : SortTerm} (h : ∀ name ∈ term.path.segments, isName name.toList) :
    SplitsBefore (Ends isWordChar) term.text.toList (ListsFirst [term]) := by
  obtain ⟨⟨first, rest⟩, d⟩ := term
  have hd : isName d.text.toList := by
    cases d <;> decide
  have hblank : Splits [' '] fun ts => ts = [] := splits_gap (by decide)
  have hword : SplitsBefore (Ends isWordChar) ([' '] ++ d.text.toList) fun ts =>
      ∃ word, ts = [word] ∧ word.isKeyword d.text := by
    apply (splitsBefore_name hd).after_splits hblank
    rintro _ _ rfl ⟨p, rfl⟩
    exact ⟨_, rfl, by simp [Token.isKeyword, Text.sameWord]⟩
  have htext : (SortTerm.mk ⟨first, rest⟩ d).text.toList =
      (Path.mk first rest).text.toList ++ ([' '] ++ d.text.toList) := by
    simp [text]
  rw [htext]
  apply (Path.splitsBefore_text h).append hword
  · intro rest _
    exact Ends.cons_iff.mpr (by decide)
  · rintro _ _ ⟨name, us, rfl, hname, rfl, hus⟩ ⟨word, rfl, hword⟩ more vs hmore
    have hall := Lists.directed hname hus hword hmore
    simpa using hall

/-- The comma between two sort terms starts none. -/
lemma splits_comma : Splits [',', ' '] (ListsFirst []) := by
  have hcomma : Splits [','] fun ts => ∃ p, ts = [⟨.illegal, String.ofList [','], p⟩] :=
    splits_mark (by decide) fun rest => by simp [Lexeme.read, isLetter]
  have hblank : Splits [' '] fun ts => ts = [] := splits_gap (by decide)
  apply hcomma.append hblank
  rintro _ _ ⟨p, rfl⟩ rfl more us hmore
  exact .other (by simp) hmore

lemma splitsBefore_listText {terms : List SortTerm}
    (h : ∀ term ∈ terms, ∀ name ∈ term.path.segments, isName name.toList) :
    SplitsBefore (Ends isWordChar) (listText terms).toList (ListsFirst terms) := by
  induction terms with
  | nil => exact fun rest p _ => ⟨[], p, rfl, fun _ _ => id⟩
  | cons term terms ih =>
    obtain ⟨hterm, hterms⟩ := List.forall_mem_cons.mp h
    cases terms with
    | nil =>
      rw [listText, List.map_singleton, String.intercalate_singleton]
      exact splitsBefore_text hterm
    | cons next terms =>
      have hmore : SplitsBefore (Ends isWordChar) ([',', ' '] ++ (listText (next :: terms)).toList)
          (ListsFirst (next :: terms)) :=
        (ih hterms).after_splits splits_comma fun _ _ => ListsFirst.append
      have htext : (listText (term :: next :: terms)).toList =
          term.text.toList ++ ([',', ' '] ++ (listText (next :: terms)).toList) := by
        simp [listText]
      rw [htext]
      apply (splitsBefore_text hterm).append hmore
      · intro rest _
        exact Ends.cons_iff.mpr (by decide)
      · exact fun _ _ => ListsFirst.append

/-- A text is read as the sort terms that its tokens list, and these are read again from their own
text. Nothing is refused but a path that lacks a name after a slash. -/
theorem listOfText_listText (s : String) :
    (∀ terms, listOfText s = .ok terms ↔ Lists terms (Token.ofText s)) ∧
      (∀ terms, listOfText s = .ok terms → listOfText (listText terms) = .ok terms) ∧
      ∀ fault, listOfText s = .error fault → fault = .invalidPropertyPath := by
  refine ⟨fun terms => sortTerms_eq_ok_iff, fun terms h => ?_, failsWithin_sortTerms _⟩
  have hspells := (sortTerms_eq_ok_iff.mp h).spells fun _ => Cursor.isLexed_of_mem_tokens
  have hpiece := splitsBefore_listText fun term hterm name hname =>
    (hspells term hterm name hname).isName
  have hlists := hpiece.ofText .nil
  rw [String.ofList_toList] at hlists
  exact sortTerms_eq_ok_iff.mpr hlists.lists

/-- Properties that are called like keywords. -/
def keywordTerms : List SortTerm :=
  [⟨⟨"desc", []⟩, .ascending⟩, ⟨⟨"any", ["all"]⟩, .descending⟩, ⟨⟨"asc", ["eq"]⟩, .ascending⟩]

/-- The words of such terms do not run into each other, however the terms are written. -/
theorem listOfText_keywordTerms :
    listOfText "desc ASC any/all Desc, /asc/eq" = .ok keywordTerms ∧
      listText keywordTerms = "desc asc, any/all desc, asc/eq asc" ∧
      listOfText (listText keywordTerms) = .ok keywordTerms := by
  have hread : listOfText "desc ASC any/all Desc, /asc/eq" = .ok keywordTerms :=
    Outcome.eq_ok_of_toOption (by decide +kernel)
  obtain ⟨-, hagain, -⟩ := listOfText_listText "desc ASC any/all Desc, /asc/eq"
  exact ⟨hread, by decide, hagain _ hread⟩

end SortTerm

end RecordQuery

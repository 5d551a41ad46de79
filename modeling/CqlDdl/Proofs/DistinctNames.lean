import Mathlib.Data.List.Nodup
import Mathlib.Order.Bounds.Defs
import CqlDdl.Proofs.Runs

/-! Names that are declared once. Two names are one to the database when their canonical names are:
the name as it stands for a quoted identifier, and in small letters for a bare one. A list of
columns or fields is scanned with the canonical names before each place kept aside, so that the scan
stops at the first place that repeats an earlier one. Main statement: `build_of_declared`. -/

namespace CqlDdl

open Identifier (canonicalName)

/-! ### Repetitions in a list of names -/

/-- At a place of a list stands a name that is one with a name before it. -/
def RepeatsAt (names : List Identifier) (place : Nat) : Prop :=
  place < names.length ∧
    ∃ earlier < place, (names.map canonicalName)[earlier]? = (names.map canonicalName)[place]?

/-- The name that stands at the least place with a repetition. -/
def IsFirstRepeated (names : List Identifier) (name : Identifier) : Prop :=
  ∃ place, IsLeast {place | RepeatsAt names place} place ∧ names[place]? = some name

theorem nodup_iff_not_repeatsAt {names : List Identifier} :
    (names.map canonicalName).Nodup ↔ ∀ place, ¬ RepeatsAt names place := by
  rw [List.nodup_iff_getElem?_ne_getElem?]
  constructor
  · rintro hne place ⟨hplace, earlier, hearlier, heq⟩
    exact hne earlier place hearlier (by simpa using hplace) heq
  · intro hnone earlier place hearlier hplace heq
    exact hnone place ⟨by simpa using hplace, earlier, hearlier, heq⟩

/-- The first repeated name parts its list: before it all names are different, and it is one of
them. -/
theorem isFirstRepeated_iff {names : List Identifier} {name : Identifier} :
    IsFirstRepeated names name ↔ ∃ before after, names = before ++ name :: after ∧
      (before.map canonicalName).Nodup ∧ name.canonicalName ∈ before.map canonicalName := by
  constructor
  · rintro ⟨place, ⟨⟨hplace, earlier, hearlier, heq⟩, hleast⟩, hname⟩
    refine ⟨names.take place, names.drop (place + 1), ?_, ?_, ?_⟩
    · obtain ⟨_, rfl⟩ := List.getElem?_eq_some_iff.mp hname
      rw [List.getElem_cons_drop, List.take_append_drop]
    · -- A repetition before the place would be a lesser one.
      refine nodup_iff_not_repeatsAt.mpr fun other hother => ?_
      obtain ⟨hlt, first, hfirst, hsame⟩ := hother
      rw [List.length_take] at hlt
      have hrepeats : RepeatsAt names other := by
        refine ⟨by omega, first, hfirst, ?_⟩
        rwa [List.map_take, List.getElem?_take_of_lt (by omega),
          List.getElem?_take_of_lt (by omega)] at hsame
      have := hleast hrepeats
      omega
    · rw [List.map_take]
      refine List.mem_of_getElem? (i := earlier) ?_
      rw [List.getElem?_take_of_lt hearlier, heq, List.getElem?_map, hname]
      rfl
  · rintro ⟨before, after, rfl, hnodup, hmem⟩
    obtain ⟨earlier, hearlier⟩ := List.mem_iff_getElem?.mp hmem
    have hlt : earlier < before.length := by
      obtain ⟨hlt, -⟩ := List.getElem?_eq_some_iff.mp hearlier
      simpa using hlt
    have hbefore : ∀ {i : Nat}, i < before.length →
        ((before ++ name :: after).map canonicalName)[i]? = (before.map canonicalName)[i]? :=
      fun hi => by rw [List.map_append, List.getElem?_append_left (by simpa using hi)]
    refine ⟨before.length, ⟨⟨by simp, earlier, hlt, ?_⟩, ?_⟩, by simp⟩
    · rw [hbefore hlt, hearlier]
      simp
    · rintro other ⟨-, first, hfirst, hsame⟩
      by_contra hother
      rw [hbefore (by omega), hbefore (by omega)] at hsame
      exact nodup_iff_not_repeatsAt.mp hnodup other ⟨by omega, first, hfirst, hsame⟩

/-! ### The scan -/

/-- No name is found twice, nor in what was seen before, when all names are different. -/
theorem repeatedName?_eq_none_iff {seen : List Text} {names : List Identifier} :
    repeatedName? seen names = none ↔
      (names.map Identifier.canonicalName).Nodup ∧ ∀ name ∈ names, name.canonicalName ∉ seen := by
  induction names generalizing seen with
  | nil => simp [repeatedName?]
  | cons name rest ih =>
    by_cases hseen : name.canonicalName ∈ seen
    · simp [repeatedName?, hseen]
    · simp only [repeatedName?, List.contains_eq_mem, hseen, decide_false, Bool.false_eq_true,
        if_false, ih, List.mem_cons, not_or, List.map_cons, List.nodup_cons, List.mem_map,
        not_exists, not_and, forall_eq_or_imp, not_false_eq_true, true_and]
      constructor
      · rintro ⟨hnodup, hrest⟩
        exact ⟨⟨fun n hn => (hrest n hn).1, hnodup⟩, fun n hn => (hrest n hn).2⟩
      · rintro ⟨⟨hname, hnodup⟩, hrest⟩
        exact ⟨hnodup, fun n hn => ⟨hname n hn, hrest n hn⟩⟩

/-- A scan passes the names before the one it finds, which was seen, or is one with one of them. -/
theorem repeatedName?_eq_some_iff {seen : List Text} {names : List Identifier}
    {name : Identifier} : repeatedName? seen names = some name ↔ ∃ before after,
      names = before ++ name :: after ∧ repeatedName? seen before = none ∧
        (name.canonicalName ∈ before.map canonicalName ∨ name.canonicalName ∈ seen) := by
  induction names generalizing seen with
  | nil => simp [repeatedName?]
  | cons first rest ih =>
    by_cases hseen : first.canonicalName ∈ seen
    · have hscan : ∀ more, repeatedName? seen (first :: more) = some first := fun more => by
        simp [repeatedName?, hseen]
      rw [hscan]
      constructor
      · rintro ⟨⟩
        exact ⟨[], rest, rfl, rfl, .inr hseen⟩
      · rintro ⟨_ | ⟨other, before⟩, after, heq, hbefore, -⟩
        · rw [(List.cons.inj heq).1]
        · obtain rfl := (List.cons.inj heq).1
          simp [hscan] at hbefore
    · -- The first name joins those that were seen, for every list that may follow it.
      have hscan : ∀ more, repeatedName? seen (first :: more) =
          repeatedName? (first.canonicalName :: seen) more := fun more => by
        simp [repeatedName?, hseen]
      rw [hscan, ih]
      constructor
      · rintro ⟨before, after, rfl, hbefore, hname⟩
        exact ⟨first :: before, after, rfl, (hscan before).trans hbefore, by
          simpa [or_left_comm, or_assoc] using hname⟩
      · rintro ⟨_ | ⟨other, before⟩, after, heq, hbefore, hname⟩
        · obtain rfl := (List.cons.inj heq).1
          simp [hseen] at hname
        · obtain ⟨rfl, rfl⟩ := List.cons.inj heq
          exact ⟨before, after, rfl, (hscan before).symm.trans hbefore, by
            simpa [or_left_comm, or_assoc] using hname⟩

theorem repeatedName?_nil_eq_none_iff {names : List Identifier} :
    repeatedName? [] names = none ↔ (names.map canonicalName).Nodup := by
  simp [repeatedName?_eq_none_iff]

theorem repeatedName?_nil_eq_some_iff {names : List Identifier} {name : Identifier} :
    repeatedName? [] names = some name ↔ IsFirstRepeated names name := by
  simp [repeatedName?_eq_some_iff, repeatedName?_nil_eq_none_iff, isFirstRepeated_iff]

/-! ### Columns and fields of drafts -/

namespace Draft

/-- What a draft declares: the columns of a table, or the fields of a user type. -/
def declared : {kind : StatementKind} → Draft kind → List Column
  | .createTable, draft => CreateTable.columns draft
  | .createUserType, draft => CreateUserType.fields draft
  | _, _ => []

/-- The column or field that a request adds, if it adds one and does not fail. -/
def added? : {kind : StatementKind} → Edit kind → Option Column
  | .createTable, .column name type => (Column.make name type .none none).toOption
  | .createTable, .partitionKeyColumn name type =>
    (Column.make name type .partitioned none).toOption
  | .createTable, .clusteredKeyColumn name type order =>
    (Column.make name type .clustered order).toOption
  | .createTable, .addColumn made => some made
  | .createTable, .addDraft draft => draft.build.toOption
  | .createUserType, .field name type => (Column.make name type .none none).toOption
  | _, _ => none

theorem declared_attempt_of_map {kind : StatementKind} {draft : Draft kind} {edit : Edit kind}
    {add : Column → Draft kind} (made : Except Error Column)
    (happly : draft.apply edit = made.map add)
    (hadd : ∀ column, (add column).declared = draft.declared ++ [column]) :
    (draft.attempt edit).declared = draft.declared ++ made.toOption.toList := by
  cases made with
  | ok column =>
    rw [attempt_of_ok happly, hadd]
    rfl
  | error e =>
    rw [attempt_of_error happly]
    exact (List.append_nil _).symm

theorem declared_attempt {kind : StatementKind} (draft : Draft kind) (edit : Edit kind) :
    (draft.attempt edit).declared = draft.declared ++ (added? edit).toList := by
  cases kind with
  | createTable =>
    cases edit with
    | ifNotExists flag => exact (List.append_nil _).symm
    | column name type | partitionKeyColumn name type | clusteredKeyColumn name type order
    | addDraft made => exact declared_attempt_of_map _ rfl fun _ => rfl
    | addColumn column => exact declared_attempt_of_map (.ok column) rfl fun _ => rfl
    | option request =>
      cases happly : draft.apply (.option request) with
      | ok next =>
        obtain ⟨options, -, rfl⟩ := Outcome.map_eq_ok_iff.mp happly
        rw [attempt_of_ok happly]
        exact (List.append_nil _).symm
      | error e =>
        rw [attempt_of_error happly]
        exact (List.append_nil _).symm
  | createUserType =>
    cases edit with
    | ifNotExists flag => exact (List.append_nil _).symm
    | field name type => exact declared_attempt_of_map _ rfl fun _ => rfl
  | createKeyspace | alterKeyspace | dropKeyspace | alterTable | dropTable | createIndex
  | dropIndex | alterUserType | dropUserType => rfl

/-- The columns of a draft are told from its requests alone: whether one adds a column does not
depend on those before it. -/
theorem declared_run {kind : StatementKind} (draft : Draft kind) (edits : List (Edit kind)) :
    (draft.run edits).declared = draft.declared ++ edits.filterMap added? := by
  induction edits generalizing draft with
  | nil => exact (List.append_nil _).symm
  | cons edit rest ih =>
    rw [run_cons, ih, declared_attempt, List.append_assoc]
    cases h : added? edit <;> simp [h]

end Draft

/-! ### Complete drafts -/

theorem any_isPartitioned_iff {columns : List Column} :
    columns.any Column.isPartitioned = true ↔ ∃ c ∈ columns, c.role = .partitioned := by
  simp [Column.isPartitioned]

theorem CreateTable.build_eq_ok_iff {s t : CreateTable} :
    s.build = .ok t ↔ t = s ∧ s.columns ≠ [] ∧ (∃ c ∈ s.columns, c.role = .partitioned) ∧
      ((s.columns.map Column.name).map canonicalName).Nodup := by
  rw [← any_isPartitioned_iff, ← repeatedName?_nil_eq_none_iff]
  constructor
  · intro h
    obtain ⟨rfl, hpartitioned, hnames⟩ := of_build h
    refine ⟨rfl, ?_, hpartitioned, hnames⟩
    rintro hempty
    simp [hempty] at hpartitioned
  · rintro ⟨rfl, hcolumns, hpartitioned, hnames⟩
    simp [build, hcolumns, hpartitioned, hnames]

theorem CreateTable.build_eq_error_iff {s : CreateTable} {e : Error} :
    s.build = .error e ↔
      (s.columns = [] ∧ e = .invalidSpecification (.noColumns s.name)) ∨
      (s.columns ≠ [] ∧ (∀ c ∈ s.columns, c.role ≠ .partitioned) ∧
        e = .invalidSpecification (.noPartitionKey s.name)) ∨
      ((∃ c ∈ s.columns, c.role = .partitioned) ∧
        ∃ name, IsFirstRepeated (s.columns.map Column.name) name ∧
          e = .invalidSpecification (.repeatedName (.table s.name) name)) := by
  have hnone : (∀ c ∈ s.columns, c.role ≠ .partitioned) ↔
      ¬ s.columns.any Column.isPartitioned = true := by
    rw [any_isPartitioned_iff, not_exists]
    simp only [not_and, ne_eq]
  rw [← any_isPartitioned_iff, hnone]
  simp only [← repeatedName?_nil_eq_some_iff]
  by_cases hcolumns : s.columns = []
  · simp [build, hcolumns, @eq_comm _ e]
  by_cases hpartitioned : s.columns.any Column.isPartitioned = true
  · cases hnames : repeatedName? [] (s.columns.map Column.name) with
    | none => simp [build, hcolumns, hpartitioned, hnames]
    | some name => simp [build, hcolumns, hpartitioned, hnames, @eq_comm _ e]
  · simp [build, hcolumns, hpartitioned, @eq_comm _ e]

theorem CreateUserType.build_eq_ok_iff {s t : CreateUserType} :
    s.build = .ok t ↔ t = s ∧ s.fields ≠ [] ∧
      ((s.fields.map Column.name).map canonicalName).Nodup := by
  rw [← repeatedName?_nil_eq_none_iff]
  by_cases hfields : s.fields = []
  · simp [build, hfields]
  cases hnames : repeatedName? [] (s.fields.map Column.name) with
  | none => simp [build, hfields, hnames, @eq_comm _ s]
  | some name => simp [build, hfields, hnames]

theorem CreateUserType.build_eq_error_iff {s : CreateUserType} {e : Error} :
    s.build = .error e ↔
      (s.fields = [] ∧ e = .invalidSpecification (.noFields s.name)) ∨
      (s.fields ≠ [] ∧ ∃ name, IsFirstRepeated (s.fields.map Column.name) name ∧
        e = .invalidSpecification (.repeatedName (.userType s.name) name)) := by
  simp only [← repeatedName?_nil_eq_some_iff]
  by_cases hfields : s.fields = []
  · simp [build, hfields, @eq_comm _ e]
  cases hnames : repeatedName? [] (s.fields.map Column.name) with
  | none => simp [build, hfields, hnames]
  | some name => simp [build, hfields, hnames, @eq_comm _ e]

/-- A repetition is told with what declares the name, and with the name as it is written. -/
theorem eq_repeatedName_iff {e : Error} {owner : Owner} {name : Identifier} :
    e = .invalidSpecification (.repeatedName owner name) ↔
      e = .invalidSpecification (.repeatedName owner name) ∧
        e.message = owner.describe ++ " declares ".toList ++ name.render ++
          " more than once".toList :=
  ⟨fun h => ⟨h, h ▸ rfl⟩, And.left⟩

/-- A table or a user type is built exactly when it declares something, a table among others a
column of its partition key, and the canonical names of all that it declares are different. What
fails first tells why it cannot be built, in this order; a repetition is told by the name at the
least place that repeats an earlier one, as it is written there. What a draft declares is what the
requests have added that did not fail. -/
theorem build_of_declared :
    (∀ (draft : Draft .createTable) (edits : List (Draft.Edit .createTable)),
      let s : CreateTable := draft.run edits
      let names := s.columns.map Column.name
      s.columns = draft.declared ++ edits.filterMap Draft.added? ∧
        (∀ built, (draft.run edits).build = .ok built ↔
          built = .createTable s ∧ s.columns ≠ [] ∧
            (∃ column ∈ s.columns, column.role = .partitioned) ∧
            (names.map canonicalName).Nodup) ∧
        ∀ e, (draft.run edits).build = .error e ↔
          (s.columns = [] ∧ e = .invalidSpecification (.noColumns s.name)) ∨
          (s.columns ≠ [] ∧ (∀ column ∈ s.columns, column.role ≠ .partitioned) ∧
            e = .invalidSpecification (.noPartitionKey s.name)) ∨
          ((∃ column ∈ s.columns, column.role = .partitioned) ∧
            ∃ name, IsFirstRepeated names name ∧
              e = .invalidSpecification (.repeatedName (.table s.name) name) ∧
              e.message = "Table ".toList ++ s.name.render ++ " declares ".toList ++
                name.render ++ " more than once".toList)) ∧
    ∀ (draft : Draft .createUserType) (edits : List (Draft.Edit .createUserType)),
      let s : CreateUserType := draft.run edits
      let names := s.fields.map Column.name
      s.fields = draft.declared ++ edits.filterMap Draft.added? ∧
        (∀ built, (draft.run edits).build = .ok built ↔
          built = .createUserType s ∧ s.fields ≠ [] ∧ (names.map canonicalName).Nodup) ∧
        ∀ e, (draft.run edits).build = .error e ↔
          (s.fields = [] ∧ e = .invalidSpecification (.noFields s.name)) ∨
          (s.fields ≠ [] ∧ ∃ name, IsFirstRepeated names name ∧
            e = .invalidSpecification (.repeatedName (.userType s.name) name) ∧
            e.message = "User type ".toList ++ s.name.render ++ " declares ".toList ++
              name.render ++ " more than once".toList) := by
  refine ⟨fun draft edits => ?_, fun draft edits => ?_⟩
  · intro s names
    have hbuild : (draft.run edits).build = s.build.map .createTable := rfl
    refine ⟨Draft.declared_run draft edits, ?_, fun e => ?_⟩
    · rw [hbuild]
      exact Outcome.map_eq_ok_iff_of_forall fun _ => CreateTable.build_eq_ok_iff
    · rw [hbuild, Outcome.map_eq_error_iff, CreateTable.build_eq_error_iff]
      exact or_congr_right (or_congr_right (and_congr_right fun _ => exists_congr fun _ =>
        and_congr_right fun _ => eq_repeatedName_iff))
  · intro s names
    have hbuild : (draft.run edits).build = s.build.map .createUserType := rfl
    refine ⟨Draft.declared_run draft edits, ?_, fun e => ?_⟩
    · rw [hbuild]
      exact Outcome.map_eq_ok_iff_of_forall fun _ => CreateUserType.build_eq_ok_iff
    · rw [hbuild, Outcome.map_eq_error_iff, CreateUserType.build_eq_error_iff]
      exact or_congr_right (and_congr_right fun _ => exists_congr fun _ =>
        and_congr_right fun _ => eq_repeatedName_iff)

/-- A quoted name in small letters is one with a bare name, in whatever case, and with no other
quoted one. -/
example : repeatedName? [] [⟨"Id".toList, true, by decide, by decide⟩,
      ⟨"ID".toList, false, by decide, by decide⟩, ⟨"id".toList, true, by decide, by decide⟩] =
    some ⟨"id".toList, true, by decide, by decide⟩ := by
  decide

end CqlDdl

import CqlDdl.Proofs.IndexWords
import CqlDdl.Proofs.NamedEntries

/-! Indexes told from the requests that their drafts were given, some of which may have failed. The
last request for each part counts, and a class may be given, taken back and given again: whether
options are legal is known only in the end. Main statement: `IndexDraft.build_of_run`. -/

namespace CqlDdl

open Text (bareWords)

namespace IndexDraft

/-! ### What requests ask for -/

namespace Edit

/-- The table of a request that names one, if the name can be read. -/
def table? : Edit → Option Identifier
  | tableName name => name.resolve.toOption
  | _ => none

/-- The column of a request that names one, if the name can be read. -/
def column? : Edit → Option Identifier
  | columnName name => name.resolve.toOption
  | _ => none

def function? : Edit → Option ColumnFunction
  | columnFunction function => some function
  | _ => none

def guard? : Edit → Option Bool
  | ifNotExists flag => some flag
  | _ => none

/-- The class of a request for one, which may take it back. -/
def class? : Edit → Option (Option Text)
  | «using» className => some className
  | _ => none

def option? : Edit → Option (Text × Text)
  | setOption name value => some (name, value)
  | _ => none

end Edit

/-- What the last request asks for of those that `ask` finds something in. -/
def last? {α : Type} (ask : Edit → Option α) (edits : List Edit) : Option α :=
  edits.reverse.findSome? ask

section

variable {α : Type} {ask : Edit → Option α}

@[simp] theorem last?_nil : last? ask [] = none := rfl

theorem last?_cons (edit : Edit) (rest : List Edit) :
    last? ask (edit :: rest) = (last? ask rest).or (ask edit) := by
  simp [last?, List.findSome?_append]

@[simp] theorem last?_singleton (edit : Edit) : last? ask [edit] = ask edit := by
  simp [last?_cons]

theorem exists_last?_iff {edits : List Edit} :
    (∃ a, last? ask edits = some a) ↔ ∃ edit ∈ edits, ∃ a, ask edit = some a := by
  simp [last?, ← Option.isSome_iff_exists, List.findSome?_isSome_iff]

end

/-- The options that requests set. -/
def puts (edits : List Edit) : List (Text × Text) :=
  edits.filterMap Edit.option?

/-- A class name, unless it is blank. -/
def named (className : Option Text) : Option Text :=
  className.filter fun c => !Text.isBlank c

/-- A draft after requests, told from the draft before them: each part is what the last request for
it asked for, and the options are put one after another. -/
structure Follows (before : IndexDraft) (edits : List Edit) (after : IndexDraft) : Prop where
  keyspace : after.keyspace = before.keyspace
  name : after.name = before.name
  table : after.table = (last? Edit.table? edits).or before.table
  column : after.column = (last? Edit.column? edits).or before.column
  function : after.function = (last? Edit.function? edits).getD before.function
  ifNotExists : after.ifNotExists = (last? Edit.guard? edits).getD before.ifNotExists
  className : after.className = ((last? Edit.class? edits).map named).getD before.className
  options : after.options = (puts edits).foldl (Entries.putNamed id) before.options

theorem Follows.refl (draft : IndexDraft) : Follows draft [] draft := by
  constructor <;> rfl

theorem Follows.cons {before next after : IndexDraft} {edit : Edit} {rest : List Edit}
    (hfirst : Follows before [edit] next) (hrest : Follows next rest after) :
    Follows before (edit :: rest) after where
  keyspace := hrest.keyspace.trans hfirst.keyspace
  name := hrest.name.trans hfirst.name
  -- A request among the rest hides the first one for the same part.
  table := by
    rw [hrest.table, hfirst.table, last?_cons, last?_cons]
    cases last? Edit.table? rest <;> rfl
  column := by
    rw [hrest.column, hfirst.column, last?_cons, last?_cons]
    cases last? Edit.column? rest <;> rfl
  function := by
    rw [hrest.function, hfirst.function, last?_cons, last?_cons]
    cases last? Edit.function? rest <;> rfl
  ifNotExists := by
    rw [hrest.ifNotExists, hfirst.ifNotExists, last?_cons, last?_cons]
    cases last? Edit.guard? rest <;> rfl
  className := by
    rw [hrest.className, hfirst.className, last?_cons, last?_cons]
    cases last? Edit.class? rest <;> rfl
  options := by
    rw [hrest.options, hfirst.options, ← List.foldl_append, puts, puts, ← List.filterMap_append]
    rfl

/-! ### One request, and a run of them -/

theorem attempt_tableName (draft : IndexDraft) (name : Name) :
    @Draft.attempt .createIndex draft (.tableName name) =
      { draft with table := name.resolve.toOption.or draft.table } := by
  simp only [Draft.attempt, Draft.apply, apply]
  cases name.resolve <;> rfl

theorem attempt_columnName (draft : IndexDraft) (name : Name) :
    @Draft.attempt .createIndex draft (.columnName name) =
      { draft with column := name.resolve.toOption.or draft.column } := by
  simp only [Draft.attempt, Draft.apply, apply]
  cases name.resolve <;> rfl

theorem putOption_eq_putNamed (options : List (Text × Text)) (name value : Text) :
    putOption options name value = Entries.putNamed id options (name, value) := by
  have hsame : (fun key => key == name) = fun key => decide (name = key) := by
    funext key
    rw [Bool.eq_iff_iff, beq_iff_eq, decide_eq_true_iff, eq_comm]
  exact congrArg (fun same => Entries.put same name value options) hsame

theorem follows_attempt (draft : IndexDraft) (edit : Edit) :
    Follows draft [edit] (@Draft.attempt .createIndex draft edit) := by
  cases edit with
  | tableName name =>
    rw [attempt_tableName]
    refine ⟨rfl, rfl, ?_, rfl, rfl, rfl, rfl, rfl⟩
    rw [last?_singleton, Edit.table?]
  | columnName name =>
    rw [attempt_columnName]
    refine ⟨rfl, rfl, rfl, ?_, rfl, rfl, rfl, rfl⟩
    rw [last?_singleton, Edit.column?]
  | setOption name value =>
    refine ⟨rfl, rfl, rfl, rfl, rfl, rfl, rfl, ?_⟩
    exact putOption_eq_putNamed draft.options name value
  | ifNotExists | columnFunction | «using» => constructor <;> rfl

theorem follows_run (draft : IndexDraft) (edits : List Edit) :
    Follows draft edits (@Draft.run .createIndex draft edits) := by
  induction edits generalizing draft with
  | nil => exact .refl draft
  | cons edit rest ih => exact .cons (follows_attempt draft edit) (ih _)

/-! ### Building -/

/-- A draft as it starts has no parts of its own but names. -/
theorem eq_of_start {first second : Option Name} {draft : IndexDraft}
    (h : start first second = .ok draft) :
    draft = { keyspace := draft.keyspace, name := draft.name } := by
  unfold start at h
  split at h
  · obtain rfl := Except.ok.inj h
    rfl
  · obtain ⟨-, -, rfl⟩ := Outcome.map_eq_ok_iff.mp h
    rfl

/-- Some request of a kind gives a name that can be read, and so succeeds. -/
def Gives (request : Name → Edit) (edits : List Edit) : Prop :=
  ∃ name i, request name ∈ edits ∧ name.resolve = .ok i

/-- No request sets an option, or the last one for a class gives a name that is not blank. -/
def SuitsOptions (edits : List Edit) : Prop :=
  (∀ name value, Edit.setOption name value ∉ edits) ∨
    ∃ className, last? Edit.class? edits = some (some className) ∧
      Text.isBlank className = false

theorem gives_iff {request : Name → Edit} {ask : Edit → Option Identifier}
    (hask : ∀ name, ask (request name) = name.resolve.toOption)
    (honly : ∀ edit i, ask edit = some i → ∃ name, edit = request name) {edits : List Edit} :
    Gives request edits ↔ ∃ i, last? ask edits = some i := by
  rw [exists_last?_iff]
  constructor
  · rintro ⟨name, i, hmem, hname⟩
    exact ⟨request name, hmem, i, by rw [hask, hname]; rfl⟩
  · rintro ⟨edit, hmem, i, hi⟩
    obtain ⟨name, rfl⟩ := honly edit i hi
    rw [hask] at hi
    cases hname : name.resolve with
    | ok read => exact ⟨name, read, hmem, hname⟩
    | error e => simp [hname, Except.toOption] at hi

theorem gives_table_iff {edits : List Edit} :
    Gives .tableName edits ↔ ∃ table, last? Edit.table? edits = some table :=
  gives_iff (fun _ => rfl) fun edit i h => by cases edit <;> simp_all [Edit.table?]

theorem gives_column_iff {edits : List Edit} :
    Gives .columnName edits ↔ ∃ column, last? Edit.column? edits = some column :=
  gives_iff (fun _ => rfl) fun edit i h => by cases edit <;> simp_all [Edit.column?]

theorem isSome_named_iff {className : Option (Option Text)} :
    (named className.join).isSome = true ↔
      ∃ c, className = some (some c) ∧ Text.isBlank c = false := by
  rcases className with _ | _ | c
  · simp [named]
  · simp [named]
  · simp [named, Option.filter]

theorem puts_eq_nil_iff {edits : List Edit} :
    puts edits = [] ↔ ∀ name value, Edit.setOption name value ∉ edits := by
  rw [puts, List.filterMap_eq_nil_iff]
  constructor
  · intro h name value hmem
    exact nomatch h _ hmem
  · intro h edit hmem
    cases edit with
    | setOption name value => exact absurd hmem (h name value)
    | tableName | columnName | ifNotExists | columnFunction | «using» => rfl

theorem suitsOptions_iff {edits : List Edit} : SuitsOptions edits ↔
    ¬ (puts edits ≠ [] ∧ named (last? Edit.class? edits).join = none) := by
  rw [SuitsOptions, ← isSome_named_iff, ← puts_eq_nil_iff, ← Option.not_isSome_iff_eq_none]
  tauto

/-- The draft that requests make of one that has only its names. -/
def made (keyspace name : Option Identifier) (edits : List Edit) : IndexDraft where
  keyspace
  name
  table := last? Edit.table? edits
  column := last? Edit.column? edits
  function := (last? Edit.function? edits).getD .none
  ifNotExists := (last? Edit.guard? edits).getD false
  className := named (last? Edit.class? edits).join
  options := Entries.byName id (puts edits)

theorem Follows.eq_made {keyspace name : Option Identifier} {edits : List Edit}
    {draft : IndexDraft} (h : Follows { keyspace, name } edits draft) :
    draft = made keyspace name edits := by
  obtain ⟨hkeyspace, hname, htable, hcolumn, hfunction, hguard, hclass, hoptions⟩ := h
  rw [Option.or_none] at htable hcolumn
  have hnamed : draft.className = named (last? Edit.class? edits).join := by
    rw [hclass]
    rcases last? Edit.class? edits with _ | className <;> rfl
  rw [Entries.foldl_putNamed] at hoptions
  cases draft
  simp_all [made]

theorem run_eq_made {first second : Option Name} {draft : IndexDraft}
    (hstart : start first second = .ok draft) (edits : List Edit) :
    @Draft.run .createIndex draft edits = made draft.keyspace draft.name edits := by
  have hfollows := follows_run draft edits
  rw [eq_of_start hstart] at hfollows
  rw [← hfollows.eq_made, ← eq_of_start hstart]

theorem keys_byName (entries : List (Text × Text)) :
    (Entries.byName id entries).map Prod.fst = (entries.map Prod.fst).eraseDups := by
  have hnames : Entries.names id (entries.foldl (Entries.putNamed id) []) =
      (Entries.names id entries).eraseDups := Entries.names_foldl_putNamed entries
  rwa [Entries.foldl_putNamed] at hnames

theorem byName_eq_nil_iff {entries : List (Text × Text)} :
    Entries.byName id entries = [] ↔ entries = [] := by
  constructor
  · intro h
    have hkeys : (entries.map Prod.fst).eraseDups = [] := by rw [← keys_byName, h, List.map_nil]
    refine List.eq_nil_iff_forall_not_mem.mpr fun entry hentry => ?_
    have hmem : entry.1 ∈ (entries.map Prod.fst).eraseDups :=
      List.mem_eraseDups.mpr (List.mem_map_of_mem hentry)
    rw [hkeys] at hmem
    exact nomatch hmem
  · rintro rfl
    rfl

/-- What the built statement says: the last table, column, function, guard and class that requests
gave, where a blank class is none, and for each key its last value, in the order in which the keys
came first. -/
structure Makes (draft : IndexDraft) (edits : List Edit) (s : CreateIndex) : Prop where
  keyspace : s.keyspace = draft.keyspace
  name : s.name = draft.name
  table : last? Edit.table? edits = some s.table
  column : last? Edit.column? edits = some s.column
  function : s.function = (last? Edit.function? edits).getD .none
  ifNotExists : s.ifNotExists = (last? Edit.guard? edits).getD false
  className : s.className = named (last? Edit.class? edits).join
  keys : s.options.map Prod.fst = ((puts edits).map Prod.fst).eraseDups
  values : ∀ option ∈ s.options,
    (puts edits).reverse.find? (fun last => last.1 = option.1) = some option

theorem values_byName {entries : List (Text × Text)} :
    ∀ entry ∈ Entries.byName id entries,
      entries.reverse.find? (fun last => last.1 = entry.1) = some entry := by
  intro entry hentry
  rw [← Entries.foldl_putNamed] at hentry
  have hnamed := Entries.named?_of_mem (Entries.nodup_names_foldl_putNamed entries) hentry
  rwa [Entries.named?_foldl_putNamed] at hnamed

/-- The four ways in which building ends, in the order of its tests. -/
theorem build_made (draft : IndexDraft) (edits : List Edit) :
    let result := build (made draft.keyspace draft.name edits)
    (¬ Gives .tableName edits ∧ result = .error (.invalidSpecification .noIndexTable)) ∨
      Gives .tableName edits ∧
        ((¬ Gives .columnName edits ∧ result = .error (.invalidSpecification .noIndexColumn)) ∨
          Gives .columnName edits ∧
            ((¬ SuitsOptions edits ∧
                result = .error (.invalidSpecification .indexOptionsWithoutClass)) ∨
              SuitsOptions edits ∧ ∃ s, result = .ok s ∧ Makes draft edits s)) := by
  have hrefused : (!(Entries.byName id (puts edits)).isEmpty &&
      (named (last? Edit.class? edits).join).isNone) = true ↔ ¬ SuitsOptions edits := by
    rw [suitsOptions_iff, not_not, Bool.and_eq_true, Bool.not_eq_true', List.isEmpty_eq_false_iff,
      Option.isNone_iff_eq_none, ne_eq, byName_eq_nil_iff]
  simp only [gives_table_iff, gives_column_iff, build, made]
  cases htable : last? Edit.table? edits with
  | none => exact .inl ⟨by simp, rfl⟩
  | some table =>
    refine .inr ⟨⟨table, rfl⟩, ?_⟩
    cases hcolumn : last? Edit.column? edits with
    | none => exact .inl ⟨by simp, rfl⟩
    | some column =>
      refine .inr ⟨⟨column, rfl⟩, ?_⟩
      by_cases hsuits : SuitsOptions edits
      · refine .inr ⟨hsuits, _, if_neg fun h => hrefused.mp h hsuits, ?_⟩
        exact ⟨rfl, rfl, htable, hcolumn, rfl, rfl, rfl, keys_byName _, values_byName⟩
      · exact .inl ⟨hsuits, if_pos (hrefused.mpr hsuits)⟩

theorem isBuilt_of_build {first second : Option Name} {draft : IndexDraft} {edits : List Edit}
    {s : CreateIndex} (hstart : start first second = .ok draft)
    (hbuild : build (@Draft.run .createIndex draft edits) = .ok s) :
    (Statement.createIndex s).IsBuilt :=
  ⟨.createIndex, first, second, draft, edits, hstart, Outcome.map_eq_ok_iff.mpr ⟨s, hbuild, rfl⟩⟩

/-- A draft is built exactly when some table and some column were given that can be read, and either
no option was set or the last class is not blank. What is missing is told in this order. The
statement is what the last requests for its parts make of it; in its text a custom index and the
clause of a class come together, and options come only with both. -/
theorem build_of_run {first second : Option Name} {draft : IndexDraft}
    (hstart : start first second = .ok draft) (edits : List Edit) :
    let result := build (@Draft.run .createIndex draft edits)
    ((∃ s, result = .ok s) ↔
        Gives .tableName edits ∧ Gives .columnName edits ∧ SuitsOptions edits) ∧
      (result = .error (.invalidSpecification .noIndexTable) ↔ ¬ Gives .tableName edits) ∧
      (result = .error (.invalidSpecification .noIndexColumn) ↔
        Gives .tableName edits ∧ ¬ Gives .columnName edits) ∧
      (result = .error (.invalidSpecification .indexOptionsWithoutClass) ↔
        Gives .tableName edits ∧ Gives .columnName edits ∧ ¬ SuitsOptions edits) ∧
      ∀ s, result = .ok s → Makes draft edits s ∧
        ∃ text, (Statement.createIndex s).render = .ok text ∧
          let isCustom := ["CREATE".toList, "CUSTOM".toList] <+: bareWords text
          let hasClass := "USING".toList ∈ bareWords text
          let hasOptions := ["WITH".toList, "OPTIONS".toList] <:+: bareWords text
          (isCustom ↔ hasClass) ∧ (hasOptions → isCustom ∧ hasClass) ∧
            (hasClass ↔ s.className.isSome = true) ∧ (hasOptions ↔ s.options ≠ []) := by
  intro result
  have hresult : result = build (made draft.keyspace draft.name edits) :=
    congrArg build (run_eq_made hstart edits)
  rcases build_made draft edits with ⟨htable, herror⟩ | ⟨htable, ⟨hcolumn, herror⟩ |
    ⟨hcolumn, ⟨hsuits, herror⟩ | ⟨hsuits, s, hok, hmakes⟩⟩⟩
  · rw [← hresult] at herror
    simp [herror, htable]
  · rw [← hresult] at herror
    simp [herror, htable, hcolumn]
  · rw [← hresult] at herror
    simp [herror, htable, hcolumn, hsuits]
  · rw [← hresult] at hok
    refine ⟨by simp [hok, htable, hcolumn, hsuits], by simp [hok, htable], by simp [hok, hcolumn],
      by simp [hok, hsuits], fun t ht => ?_⟩
    obtain rfl : s = t := Except.ok.inj (hok.symm.trans ht)
    exact ⟨hmakes, s.render, rfl, CreateIndex.clauses_of_isBuilt (isBuilt_of_build hstart hok)⟩

/-- Requests of which the second fails, and the class comes after a blank one and after an option
that is set again. -/
def bookRequests : List Edit :=
  [.setOption "mode".toList "PREFIX".toList, .tableName (.text "my books".toList),
    .using (some " ".toList), .tableName (.text "books".toList),
    .columnName (.text "using".toList), .using (some "SASI".toList),
    .setOption "mode".toList "WITH OPTIONS".toList]

/-- The index on books is custom; a blank class in the end would leave its option without one. -/
theorem build_bookRequests : ∃ (draft : IndexDraft) (s : CreateIndex),
    start none none = .ok draft ∧
      build (@Draft.run .createIndex draft bookRequests) = .ok s ∧
      s.options = [("mode".toList, "WITH OPTIONS".toList)] ∧
      s.render = "CREATE CUSTOM INDEX ON books (\"using\") USING 'SASI'".toList ++
        " WITH OPTIONS = \x7b'mode': 'WITH OPTIONS'\x7d;".toList ∧
      Makes draft bookRequests s ∧
      build (@Draft.run .createIndex draft (bookRequests ++ [.using (some "\t".toList)])) =
        .error (.invalidSpecification .indexOptionsWithoutClass) := by
  let draft : IndexDraft := { keyspace := none, name := none }
  have hstart : start none none = .ok draft := rfl
  refine ⟨draft, _, hstart, rfl, rfl, rfl,
    ((build_of_run hstart bookRequests).2.2.2.2 _ rfl).1, ?_⟩
  refine (build_of_run hstart _).2.2.2.1.mpr ⟨⟨.text "books".toList, _, ?_, rfl⟩,
    ⟨.text "using".toList, _, ?_, rfl⟩, ?_⟩
  · simp [bookRequests]
  · simp [bookRequests]
  · rintro (hnone | ⟨className, hclass, hblank⟩)
    · exact hnone _ _ List.mem_cons_self
    · obtain rfl : "\t".toList = className := Option.some.inj (Option.some.inj hclass)
      exact absurd hblank (by decide)

end IndexDraft

end CqlDdl

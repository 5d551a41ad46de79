import Mathlib.Data.List.Chain
import CqlDdl.Proofs.AlterationText
import CqlDdl.Proofs.Words

/-! Clauses of statements that alter a user type. Changes are appended one by one, each with the
kind of the one before it at hand; what comes of it is a clause for each maximal run of renames, and
one for every other change. Main statement: `AlterUserType.clauses_of_render`. -/

namespace CqlDdl

/-- A clause of a statement that alters a user type: a field that is added or takes another type, or
fields that are renamed together. -/
inductive FieldClause
  | add (name : Identifier) (type : DataType)
  | alter (name : Identifier) (type : DataType)
  | rename (pairs : List (Identifier × Identifier))

namespace FieldClause

def isRename : FieldClause → Bool
  | rename _ => true
  | add .. | alter .. => false

/-- The changes that a clause makes, in order. -/
def changes : FieldClause → List FieldChange
  | add name type => [.add name type]
  | alter name type => [.alter name type]
  | rename pairs => pairs.map fun pair => .rename pair.1 pair.2

/-- Old and new names with `TO` between them, one pair after another. -/
def pairsText (pairs : List (Identifier × Identifier)) : Text :=
  Text.joined " AND ".toList
    (pairs.map fun pair => pair.1.render ++ " TO ".toList ++ pair.2.render)

/-- The text of a clause. Renames go on with the clause before it, if that is `continued`. -/
def renderAfter (continued : Bool) : FieldClause → Text
  | add name type => "ADD ".toList ++ name.render ++ ' ' :: type.render
  | alter name type => "ALTER ".toList ++ name.render ++ " TYPE ".toList ++ type.render
  | rename pairs => (if continued then "AND ".toList else "RENAME ".toList) ++ pairsText pairs

def render (clause : FieldClause) : Text :=
  clause.renderAfter false

/-- Clauses, each after a blank, of which the first may go on with the clause before it. -/
def textAfter (continued : Bool) : List FieldClause → Text
  | [] => []
  | clause :: rest =>
    ' ' :: clause.renderAfter continued ++ rest.flatMap fun clause => ' ' :: clause.render

@[simp] theorem renderAfter_add (continued : Bool) (name : Identifier) (type : DataType) :
    (add name type).renderAfter continued =
      "ADD ".toList ++ name.render ++ ' ' :: type.render := rfl

@[simp] theorem renderAfter_alter (continued : Bool) (name : Identifier) (type : DataType) :
    (alter name type).renderAfter continued =
      "ALTER ".toList ++ name.render ++ " TYPE ".toList ++ type.render := rfl

@[simp] theorem renderAfter_rename (continued : Bool) (pairs : List (Identifier × Identifier)) :
    (rename pairs).renderAfter continued =
      (if continued then "AND ".toList else "RENAME ".toList) ++ pairsText pairs := rfl

@[simp] theorem textAfter_nil (continued : Bool) : textAfter continued [] = [] := rfl

@[simp] theorem textAfter_cons (continued : Bool) (clause : FieldClause)
    (rest : List FieldClause) : textAfter continued (clause :: rest) =
      ' ' :: clause.renderAfter continued ++ rest.flatMap fun clause => ' ' :: clause.render := rfl

theorem textAfter_false (clauses : List FieldClause) :
    textAfter false clauses = clauses.flatMap fun clause => ' ' :: clause.render := by
  cases clauses <;> rfl

theorem textAfter_of_isRename_eq_false {continued : Bool} {clauses : List FieldClause}
    (h : ∀ clause, clauses.head? = some clause → clause.isRename = false) :
    textAfter continued clauses = textAfter false clauses := by
  cases clauses with
  | nil => rfl
  | cons clause rest =>
    cases clause with
    | add | alter => rfl
    | rename pairs => simp [isRename] at h

theorem pairsText_cons (pair : Identifier × Identifier) {pairs : List (Identifier × Identifier)}
    (h : pairs ≠ []) : pairsText (pair :: pairs) =
      pair.1.render ++ " TO ".toList ++ pair.2.render ++ " AND ".toList ++ pairsText pairs := by
  obtain ⟨next, rest, rfl⟩ := List.exists_cons_of_ne_nil h
  simp [pairsText, Text.joined_cons]

end FieldClause

/-! ### Grouping -/

/-- Clauses that make changes in their order, all renames of a run in one clause: no clause is
empty, and no two clauses of renames are neighbours. -/
structure IsGrouping (changes : List FieldChange) (clauses : List FieldClause) : Prop where
  changes_eq : clauses.flatMap FieldClause.changes = changes
  nonempty : ∀ clause ∈ clauses, clause.changes ≠ []
  maximal : clauses.IsChain fun a b => ¬ (a.isRename = true ∧ b.isRename = true)

namespace FieldClause

/-- The clauses with one more rename before them, which joins those that come first. -/
def push (pair : Identifier × Identifier) : List FieldClause → List FieldClause
  | rename pairs :: rest => rename (pair :: pairs) :: rest
  | clauses => rename [pair] :: clauses

/-- The clauses of changes, grouped from the right. -/
def grouped : List FieldChange → List FieldClause
  | [] => []
  | .add name type :: rest => add name type :: grouped rest
  | .alter name type :: rest => alter name type :: grouped rest
  | .rename name target :: rest => push (name, target) (grouped rest)

theorem push_of_isRename_eq_false (pair : Identifier × Identifier) {clauses : List FieldClause}
    (h : ∀ clause, clauses.head? = some clause → clause.isRename = false) :
    push pair clauses = rename [pair] :: clauses := by
  cases clauses with
  | nil => rfl
  | cons clause rest =>
    cases clause with
    | add | alter => rfl
    | rename pairs => simp [isRename] at h

end FieldClause

theorem isGrouping_nil_iff {changes : List FieldChange} : IsGrouping changes [] ↔ changes = [] :=
  ⟨fun h => h.changes_eq.symm, fun h => h ▸ ⟨rfl, by simp, .nil⟩⟩

theorem isGrouping_cons_iff {changes : List FieldChange} {clause : FieldClause}
    {clauses : List FieldClause} : IsGrouping changes (clause :: clauses) ↔
      ∃ rest, changes = clause.changes ++ rest ∧ clause.changes ≠ [] ∧
        (∀ next, clauses.head? = some next → ¬ (clause.isRename = true ∧ next.isRename = true)) ∧
        IsGrouping rest clauses := by
  constructor
  · rintro ⟨rfl, hne, hchain⟩
    obtain ⟨hclause, hclauses⟩ := List.forall_mem_cons.mp hne
    obtain ⟨hhead, hchain⟩ := List.isChain_cons.mp hchain
    exact ⟨_, rfl, hclause, hhead, rfl, hclauses, hchain⟩
  · rintro ⟨rest, rfl, hclause, hhead, rfl, hclauses, hchain⟩
    exact ⟨rfl, List.forall_mem_cons.mpr ⟨hclause, hclauses⟩,
      List.isChain_cons.mpr ⟨hhead, hchain⟩⟩

namespace FieldClause

theorem isGrouping_push {changes : List FieldChange} {clauses : List FieldClause}
    (h : IsGrouping changes clauses) (name target : Identifier) :
    IsGrouping (.rename name target :: changes) (push (name, target) clauses) := by
  cases clauses with
  | nil => exact isGrouping_cons_iff.mpr ⟨changes, rfl, by simp [FieldClause.changes], by simp, h⟩
  | cons clause rest =>
    cases clause with
    | add | alter =>
      exact isGrouping_cons_iff.mpr ⟨changes, rfl, by simp [FieldClause.changes],
        by simp [isRename], h⟩
    | rename pairs =>
      obtain ⟨after, rfl, -, hhead, hrest⟩ := isGrouping_cons_iff.mp h
      exact isGrouping_cons_iff.mpr ⟨after, rfl, by simp [FieldClause.changes], hhead, hrest⟩

theorem isGrouping_grouped (changes : List FieldChange) : IsGrouping changes (grouped changes) := by
  induction changes with
  | nil => exact isGrouping_nil_iff.mpr rfl
  | cons change rest ih =>
    cases change with
    | add name type | alter name type =>
      exact isGrouping_cons_iff.mpr ⟨rest, rfl, by simp [FieldClause.changes],
        by simp [isRename], ih⟩
    | rename name target => exact isGrouping_push ih name target

/-- A run of renames before changes that start otherwise is one clause. -/
theorem grouped_renames {pairs : List (Identifier × Identifier)} (hpairs : pairs ≠ [])
    {changes : List FieldChange}
    (h : ∀ clause, (grouped changes).head? = some clause → clause.isRename = false) :
    grouped ((rename pairs).changes ++ changes) = rename pairs :: grouped changes := by
  induction pairs with
  | nil => exact absurd rfl hpairs
  | cons pair rest ih =>
    have hpush : grouped ((rename (pair :: rest)).changes ++ changes) =
        push pair (grouped ((rename rest).changes ++ changes)) := rfl
    rw [hpush]
    cases rest with
    | nil => exact push_of_isRename_eq_false pair h
    | cons next more =>
      rw [ih (List.cons_ne_nil next more)]
      rfl

theorem eq_grouped_of_isGrouping {changes : List FieldChange} {clauses : List FieldClause}
    (h : IsGrouping changes clauses) : clauses = grouped changes := by
  induction clauses generalizing changes with
  | nil =>
    rw [isGrouping_nil_iff.mp h]
    rfl
  | cons clause rest ih =>
    obtain ⟨after, rfl, hclause, hhead, hrest⟩ := isGrouping_cons_iff.mp h
    obtain rfl := ih hrest
    cases clause with
    | add name type | alter name type => rfl
    | rename pairs =>
      have hpairs : pairs ≠ [] := by
        rintro rfl
        exact hclause rfl
      -- The clause after the run is no rename, so that the run takes in no more.
      refine (grouped_renames hpairs fun next hnext => ?_).symm
      simpa [isRename] using hhead next hnext

end FieldClause

/-! ### The text of clauses -/

namespace FieldClause

/-- A rename before clauses is written before them, and they go on with it. -/
theorem textAfter_push {clauses : List FieldClause}
    (hne : ∀ clause ∈ clauses, clause.changes ≠ []) (continued : Bool)
    (pair : Identifier × Identifier) : textAfter continued (push pair clauses) =
      ' ' :: ((if continued then "AND ".toList else "RENAME ".toList) ++ pair.1.render ++
        " TO ".toList ++ pair.2.render ++ textAfter true clauses) := by
  -- Only a clause of renames takes in the pair; before all else it is a clause of its own.
  have hother : (∀ clause, clauses.head? = some clause → clause.isRename = false) →
      textAfter continued (push pair clauses) =
        ' ' :: ((if continued then "AND ".toList else "RENAME ".toList) ++ pair.1.render ++
          " TO ".toList ++ pair.2.render ++ textAfter true clauses) := by
    intro hhead
    have htrue : textAfter true clauses = textAfter false clauses :=
      textAfter_of_isRename_eq_false hhead
    have hpair : pairsText [pair] = pair.1.render ++ " TO ".toList ++ pair.2.render := by
      rw [pairsText, List.map_singleton, Text.joined_cons, List.flatMap_nil, List.append_nil]
    rw [push_of_isRename_eq_false pair hhead, textAfter_cons, ← textAfter_false, htrue,
      renderAfter_rename, hpair]
    simp only [List.append_assoc, List.cons_append]
  cases clauses with
  | nil => exact hother (by simp)
  | cons clause rest =>
    cases clause with
    | add | alter => exact hother (by simp [isRename])
    | rename pairs =>
      have hpairs : pairs ≠ [] := by
        rintro rfl
        exact hne _ List.mem_cons_self rfl
      have hpush : push pair (rename pairs :: rest) = rename (pair :: pairs) :: rest := rfl
      have hand : " AND ".toList ++ pairsText pairs =
          ' ' :: (rename pairs).renderAfter true := rfl
      rw [hpush, textAfter_cons, textAfter_cons, renderAfter_rename, pairsText_cons pair hpairs,
        List.append_assoc _ " AND ".toList, hand]
      simp only [List.append_assoc, List.cons_append]

theorem clausesAfter_eq_textAfter (previous : Option FieldChange.Kind)
    (changes : List FieldChange) : AlterUserType.clausesAfter previous changes =
      textAfter (previous = some .rename) (grouped changes) := by
  -- The kind before the list changes with every step: a rename starts what the next one goes on
  -- with, and any other change ends it.
  induction changes generalizing previous with
  | nil => rfl
  | cons change rest ih =>
    rw [AlterUserType.clausesAfter, ih]
    cases change with
    | add name type | alter name type =>
      change ' ' :: (_ ++ textAfter false (grouped rest)) = _
      rw [textAfter_false]
      rfl
    | rename name target =>
      change ' ' :: (_ ++ textAfter true (grouped rest)) =
        textAfter _ (push (name, target) (grouped rest))
      rw [textAfter_push (isGrouping_grouped rest).nonempty]
      simp only [FieldChange.clauseAfter_rename, decide_eq_true_eq]

end FieldClause

/-! ### The word of renames -/

/-- The word that a clause of renames starts with. It is reserved, so that no name is written like
it. -/
def renameWord : Text := "RENAME".toList

theorem Identifier.renameWord_not_mem (i : Identifier) : renameWord ∉ Text.words i.render := by
  rw [Identifier.words_render, List.mem_singleton]
  exact reserved_ne_render (by decide) (by decide) i

theorem QualifiedName.renameWord_not_mem (n : QualifiedName) :
    renameWord ∉ Text.words n.render := by
  unfold QualifiedName.render
  split
  · exact (Text.not_mem_words_append_cons (by decide)).mpr
      ⟨Identifier.renameWord_not_mem _, n.name.renameWord_not_mem⟩
  · exact n.name.renameWord_not_mem

theorem DataType.renameWord_not_mem (type : DataType) :
    renameWord ∉ Text.words type.render := by
  induction type using induction_on_parameters with
  | step type ih =>
    cases happlied : type.applied? with
    | none =>
      cases type with
      | native native => cases native <;> decide
      | declared name => exact name.renameWord_not_mem
      | list element | set element | map key value | tuple elements | frozen inner =>
        simp [applied?] at happlied
    | some applied =>
      obtain ⟨word, parameters⟩ := applied
      have hword : renameWord ∉ Text.words word := by
        cases type with
        | native type | declared name => simp [applied?] at happlied
        | list element | set element | map key value | tuple elements | frozen inner =>
          obtain ⟨rfl, rfl⟩ := Prod.mk.inj (Option.some.inj happlied)
          decide
      have hparameters : renameWord ∉
          Text.words (Text.joined ", ".toList (parameters.map DataType.render)) :=
        Text.not_mem_words_joined [] (by decide) (by decide) (by decide)
          (List.forall_mem_map.mpr (ih word parameters happlied))
      rw [render_of_applied? happlied, Text.not_mem_words_append_cons (by decide),
        Text.not_mem_words_append_cons (by decide)]
      exact ⟨hword, hparameters, by simp⟩

namespace FieldClause

theorem renameWord_not_mem_pairsText (pairs : List (Identifier × Identifier)) :
    renameWord ∉ Text.words (pairsText pairs) := by
  refine Text.not_mem_words_joined "AND".toList (by decide) (by decide) (by decide)
    (List.forall_mem_map.mpr fun pair _ => ?_)
  have hpair : pair.1.render ++ " TO ".toList ++ pair.2.render =
      pair.1.render ++ ' ' :: ("TO".toList ++ ' ' :: pair.2.render) := by
    rw [List.append_assoc]
    rfl
  rw [hpair, Text.not_mem_words_append_blank, Text.not_mem_words_append_blank]
  exact ⟨pair.1.renameWord_not_mem, by decide, pair.2.renameWord_not_mem⟩

/-- The word of renames is the first one of a clause of renames, and stands nowhere else. -/
theorem count_renameWord (clause : FieldClause) :
    (Text.words clause.render).count renameWord = clause.isRename.toNat := by
  cases clause with
  | add name type =>
    have htext : (add name type).render =
        "ADD".toList ++ ' ' :: (name.render ++ ' ' :: type.render) := rfl
    refine List.count_eq_zero.mpr ?_
    rw [htext, Text.not_mem_words_append_blank, Text.not_mem_words_append_blank]
    exact ⟨by decide, name.renameWord_not_mem, type.renameWord_not_mem⟩
  | alter name type =>
    have htext : (alter name type).render =
        "ALTER".toList ++ ' ' :: (name.render ++ ' ' :: ("TYPE".toList ++ ' ' :: type.render)) := by
      rw [render, renderAfter_alter, List.append_assoc, List.append_assoc]
      rfl
    refine List.count_eq_zero.mpr ?_
    rw [htext, Text.not_mem_words_append_blank, Text.not_mem_words_append_blank,
      Text.not_mem_words_append_blank]
    exact ⟨by decide, name.renameWord_not_mem, by decide, type.renameWord_not_mem⟩
  | rename pairs =>
    have htext : (rename pairs).render = renameWord ++ ' ' :: pairsText pairs := rfl
    rw [htext, Text.words_append_blank, List.count_append,
      List.count_eq_zero.mpr (renameWord_not_mem_pairsText pairs)]
    rfl

theorem count_renameWord_flatMap (clauses : List FieldClause) :
    ((clauses.map render).flatMap Text.words).count renameWord = clauses.countP isRename := by
  induction clauses with
  | nil => rfl
  | cons clause rest ih =>
    rw [List.map_cons, List.flatMap_cons, List.count_append, ih, count_renameWord,
      List.countP_cons, Nat.add_comm]
    cases clause.isRename <;> rfl

end FieldClause

/-! ### Whole statements -/

theorem AlterTable.render_of_options_eq_nil {s : AlterTable} (hoptions : s.options = [])
    (hchanges : s.changes ≠ []) : s.render = .ok (s.text []) := by
  have hsome : s.changes.isEmpty = false := by simpa using hchanges
  rw [render, hoptions, hsome]
  rfl

namespace AlterUserType

theorem foldl_append (changes : List FieldChange) (progress : Progress) :
    changes.foldl Progress.append progress =
      { text := progress.text ++
          FieldClause.textAfter (progress.previous = some .rename) (FieldClause.grouped changes)
        previous := (changes.getLast?.map FieldChange.kind).or progress.previous } := by
  have hprevious : (changes.foldl Progress.append progress).previous =
      (changes.getLast?.map FieldChange.kind).or progress.previous := by
    cases changes using List.reverseRecOn with
    | nil => rfl
    | append_singleton rest change => simp [Progress.append]
  rw [← FieldClause.clausesAfter_eq_textAfter, ← text_foldl, ← hprevious]

theorem render_of_changes_ne_nil {s : AlterUserType} (hs : s.changes ≠ []) :
    s.render = .ok ("ALTER TYPE ".toList ++ s.name.render ++ clausesAfter none s.changes ++
      [';']) := by
  rw [render, if_neg (by simpa using hs), text_foldl]
  rfl

theorem clausesAfter_eq_flatMap {previous : Option FieldChange.Kind} {changes : List FieldChange}
    (hprevious : ∀ change, changes.head? = some change →
      ¬ (previous = some .rename ∧ change.kind = .rename))
    (h : changes.IsChain fun a b => ¬ (a.kind = .rename ∧ b.kind = .rename)) :
    clausesAfter previous changes =
      changes.flatMap fun change => ' ' :: change.toColumnChange.render := by
  induction changes generalizing previous with
  | nil => rfl
  | cons change rest ih =>
    obtain ⟨hhead, hrest⟩ := List.isChain_cons.mp h
    have hclause : change.clauseAfter previous = change.toColumnChange.render := by
      rw [FieldChange.clauseAfter_eq_clause, ColumnChange.render_eq_clause]
      cases change with
      | add name type | alter name type => rfl
      | rename name target =>
        have hne : previous ≠ some .rename := fun e => hprevious _ rfl ⟨e, rfl⟩
        rw [decide_eq_false hne]
    rw [clausesAfter, hclause, ih (fun next hnext => by simpa using hhead next hnext) hrest]
    rfl

/-- The text of changes is that of their clauses, in which each maximal run of renames is one: the
statement writes them one after another, and starts with the word of renames as many of them as
there are such runs. Without two renames in a row, they are those that a table's statement has for
the same changes. Changes that are appended to a statement in progress go on with its last clause
where both are renames. -/
theorem clauses_of_render :
    (∀ changes, ∃! clauses, IsGrouping changes clauses) ∧
    (∀ (s : AlterUserType) (clauses : List FieldClause), s.changes ≠ [] →
      IsGrouping s.changes clauses →
        let text := Text.joined [' ']
          (("ALTER TYPE ".toList ++ s.name.render) :: clauses.map FieldClause.render) ++ [';']
        s.render = .ok text ∧
          text.words.count "RENAME".toList = clauses.countP FieldClause.isRename) ∧
    (∀ s : AlterUserType, s.changes ≠ [] →
      (s.changes.IsChain fun a b => ¬ (a.kind = .rename ∧ b.kind = .rename)) →
        let tail := s.changes.flatMap fun change => ' ' :: change.toColumnChange.render
        s.render = .ok ("ALTER TYPE ".toList ++ s.name.render ++ tail ++ [';']) ∧
          ∀ t : AlterTable, t.changes = s.changes.map FieldChange.toColumnChange →
            t.options = [] →
              t.render = .ok ("ALTER TABLE ".toList ++ t.name.render ++ tail ++ [';'])) ∧
    ∀ (progress : Progress) (changes : List FieldChange) (clauses : List FieldClause),
      IsGrouping changes clauses → changes.foldl Progress.append progress =
        { text := progress.text ++
            FieldClause.textAfter (progress.previous = some .rename) clauses
          previous := (changes.getLast?.map FieldChange.kind).or progress.previous } := by
  refine ⟨fun changes => ⟨FieldClause.grouped changes, FieldClause.isGrouping_grouped changes,
    fun _ => FieldClause.eq_grouped_of_isGrouping⟩, ?_, ?_, ?_⟩
  · intro s clauses hs hclauses text
    obtain rfl := FieldClause.eq_grouped_of_isGrouping hclauses
    have htail : Text.joined [' '] (("ALTER TYPE ".toList ++ s.name.render) ::
        (FieldClause.grouped s.changes).map FieldClause.render) =
          "ALTER TYPE ".toList ++ s.name.render ++ clausesAfter none s.changes := by
      rw [Text.joined_cons, List.flatMap_map, FieldClause.clausesAfter_eq_textAfter]
      exact congrArg _ (FieldClause.textAfter_false _).symm
    refine ⟨?_, ?_⟩
    · rw [render_of_changes_ne_nil hs, ← htail]
    · have hname : renameWord ∉ Text.words ("ALTER TYPE ".toList ++ s.name.render) := by
        have htext : "ALTER TYPE ".toList ++ s.name.render =
            "ALTER".toList ++ ' ' :: ("TYPE".toList ++ ' ' :: s.name.render) := rfl
        rw [htext, Text.not_mem_words_append_blank, Text.not_mem_words_append_blank]
        exact ⟨by decide, by decide, s.name.renameWord_not_mem⟩
      change (Text.words text).count renameWord = _
      rw [Text.words_append_cons (by decide), Text.words_nil, List.append_nil,
        Text.words_joined_blank, List.flatMap_cons, List.count_append,
        List.count_eq_zero.mpr hname, FieldClause.count_renameWord_flatMap, Nat.zero_add]
  · intro s hs hchain tail
    have htail : clausesAfter none s.changes = tail :=
      clausesAfter_eq_flatMap (by simp) hchain
    refine ⟨by rw [render_of_changes_ne_nil hs, htail], fun t hchanges hoptions => ?_⟩
    have htable : t.changesText = tail := by
      rw [AlterTable.changesText, hchanges, List.flatMap_map]
    have hsome : t.changes ≠ [] := by simpa [hchanges] using hs
    rw [← htable, AlterTable.render_of_options_eq_nil hoptions hsome, AlterTable.text_nil]
    simp only [List.append_assoc]
  · intro progress changes clauses hclauses
    rw [FieldClause.eq_grouped_of_isGrouping hclauses, foldl_append]

def twoRuns : AlterUserType where
  name := ⟨none, typeName⟩
  changes := [.rename typeName andName, .rename andName addName,
    .alter addName (.native .timestamp), .rename addName typeName]

def twoRunsClauses : List FieldClause :=
  [.rename [(typeName, andName), (andName, addName)], .alter addName (.native .timestamp),
    .rename [(addName, typeName)]]

theorem isGrouping_twoRunsClauses : IsGrouping twoRuns.changes twoRunsClauses where
  changes_eq := rfl
  nonempty := by simp [twoRunsClauses, FieldClause.changes]
  maximal := by simp [twoRunsClauses, FieldClause.isRename]

/-- The two runs are two clauses of the statement. The first one goes on with a clause of renames
that stands before it. Without the first change no rename follows another one, and the text is the
one that the changes have for a table. -/
theorem clauses_twoRuns :
    let start : Progress := ⟨"RENAME a TO b".toList, some .rename⟩
    let fewer : AlterUserType := { twoRuns with changes := twoRuns.changes.tail }
    twoRuns.render =
        .ok ("ALTER TYPE TYPE RENAME TYPE TO \"and\" AND \"and\" TO \"ADD\"".toList ++
          " ALTER \"ADD\" TYPE timestamp RENAME \"ADD\" TO TYPE;".toList) ∧
      twoRunsClauses.countP FieldClause.isRename = 2 ∧
      (twoRuns.changes.foldl Progress.append start).text =
        "RENAME a TO b AND TYPE TO \"and\" AND \"and\" TO \"ADD\"".toList ++
          " ALTER \"ADD\" TYPE timestamp RENAME \"ADD\" TO TYPE".toList ∧
      fewer.render =
        .ok ("ALTER TYPE TYPE RENAME \"and\" TO \"ADD\"".toList ++
          " ALTER \"ADD\" TYPE timestamp RENAME \"ADD\" TO TYPE;".toList) := by
  intro start fewer
  have hne : twoRuns.changes ≠ [] := by simp [twoRuns]
  have hfewer : fewer.changes ≠ [] := by simp [fewer, twoRuns]
  have hchain : fewer.changes.IsChain fun a b => ¬ (a.kind = .rename ∧ b.kind = .rename) := by
    simp [fewer, twoRuns, FieldChange.kind]
  refine ⟨(clauses_of_render.2.1 twoRuns twoRunsClauses hne isGrouping_twoRunsClauses).1, rfl,
    ?_, (clauses_of_render.2.2.1 fewer hfewer hchain).1⟩
  rw [clauses_of_render.2.2.2 _ _ _ isGrouping_twoRunsClauses]
  rfl

end AlterUserType

end CqlDdl

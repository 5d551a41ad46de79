import CqlDdl.Proofs.BareWords
import CqlDdl.Proofs.MinimalParts

/-! The words of a statement that creates an index, outside its literals. No name is written like
the words that open its clauses, so that these words tell which clauses are there. Main statement:
`CreateIndex.clauses_of_isBuilt`. -/

namespace CqlDdl

open Text (bareWords)

namespace CreateIndex

/-- The words that the text starts with. -/
def openingWords (custom : Bool) : List Text :=
  if custom then ["CREATE".toList, "CUSTOM".toList, "INDEX".toList]
  else ["CREATE".toList, "INDEX".toList]

/-- The words of the target: the function, if there is one, and the column. -/
def targetWords (s : CreateIndex) : List Text :=
  (match s.function with
    | .none => []
    | function => [function.word]) ++ [s.column.render]

/-- The words between the opening ones and the clauses at the end. -/
def subjectWords (s : CreateIndex) : List Text :=
  (if s.ifNotExists then ["IF".toList, "NOT".toList, "EXISTS".toList] else []) ++
    (s.name.map Identifier.render).toList ++ ["ON".toList] ++ bareWords s.tableName.render ++
    s.targetWords

/-- The words of the clauses at the end: that of the class, and that of the options. -/
def closingWords (s : CreateIndex) : List Text :=
  (if s.implementation?.isSome then ["USING".toList] else []) ++
    if s.options.isEmpty then [] else ["WITH".toList, "OPTIONS".toList]

theorem bareWords_target (s : CreateIndex) :
    bareWords ('(' :: (s.target ++ [')'])) = s.targetWords := by
  rw [Text.bareWords_cons (by decide),
    Text.bareWords_append_cons s.neutral_target.toInert (by decide)]
  have hcolumn := s.column.bareWords_render
  unfold target targetWords
  cases s.function with
  | none => rw [hcolumn, Text.bareWords_nil, List.append_nil]; rfl
  | keys | values | entries | full =>
    simp only
    rw [Text.bareWords_append_cons (Text.Neutral.word (by decide)).toInert (by decide),
      Text.bareWords_append_cons s.column.neutral_render.toInert (by decide), hcolumn]
    rfl

theorem bareWords_renderOptions (options : List (Text × Text)) :
    bareWords (renderOptions options) = [] := by
  have hneutral : ∀ part ∈ options.map renderOption, Text.Neutral part := by
    intro part hpart
    obtain ⟨entry, -, rfl⟩ := List.mem_map.mp hpart
    exact ((Text.Neutral.literal _).append_word (by decide)).append (.literal _)
  have hnone : ∀ part ∈ options.map renderOption, bareWords part = [] := by
    intro part hpart
    obtain ⟨entry, -, rfl⟩ := List.mem_map.mp hpart
    rw [renderOption, List.append_assoc,
      Text.bareWords_append_gap (Text.Neutral.literal _).toInert (by decide) (by decide),
      Text.bareWords_literal, Text.bareWords_literal, List.append_nil]
  have hinert : Text.Inert (Text.joined ", ".toList (options.map renderOption)) :=
    (Text.Neutral.joined (.word (by decide)) hneutral).toInert
  rw [renderOptions, Text.bareWords_cons (by decide),
    Text.bareWords_append_cons hinert (by decide),
    Text.bareWords_joined (by decide) (by decide) fun part hpart => (hneutral part hpart).toInert,
    List.flatMap_eq_nil_iff.mpr hnone]
  rfl

theorem bareWords_render (s : CreateIndex) : bareWords s.render =
    openingWords s.implementation?.isSome ++ s.subjectWords ++ s.closingWords := by
  have hinert : ∀ part ∈ s.parts, Text.Inert part := fun part hpart =>
    (s.neutral_parts part hpart).toInert
  rw [render, Text.bareWords_append_cons (Text.Neutral.joined (.word (by decide))
    s.neutral_parts).toInert (by decide), Text.bareWords_joined (by decide) (by decide) hinert]
  have hopening : ∀ custom : Bool, bareWords (if custom then "CREATE CUSTOM INDEX".toList
      else "CREATE INDEX".toList) = openingWords custom := by
    rintro (_ | _) <;> rfl
  have hguard : bareWords "IF NOT EXISTS".toList =
      ["IF".toList, "NOT".toList, "EXISTS".toList] := rfl
  have hon : bareWords "ON".toList = ["ON".toList] := rfl
  have husing : bareWords "USING".toList = ["USING".toList] := rfl
  have hwith : bareWords "WITH OPTIONS =".toList = ["WITH".toList, "OPTIONS".toList] := rfl
  have hname : (s.name.map Identifier.render).toList.flatMap bareWords =
      (s.name.map Identifier.render).toList := by
    cases s.name with
    | none => rfl
    | some name => exact (List.flatMap_singleton _ _).trans name.bareWords_render
  -- The clauses that may be missing are told apart only at the end, when all else is words.
  unfold parts subjectWords closingWords
  simp only [List.flatMap_append, List.flatMap_cons, List.flatMap_nil, hopening, hname, hon,
    bareWords_target, Text.bareWords_nil, List.append_assoc, List.append_nil]
  cases s.ifNotExists <;> cases s.implementation? <;> cases s.options <;>
    simp only [List.flatMap_cons, List.flatMap_nil, hguard, husing, hwith, Text.bareWords_literal,
      bareWords_renderOptions, List.append_nil, List.nil_append, List.isEmpty_nil,
      List.isEmpty_cons, Option.isSome_some, Option.isSome_none, if_true, if_false,
      Bool.false_eq_true]

/-- A reserved word that neither opens the guard or the place nor names a function is not among the
words between the opening ones and the clauses: no name is written like it. -/
theorem not_mem_subjectWords {word : Text} (hword : Keyword.isReserved word = true)
    (hparts : word.all Text.isNamePart = true)
    (hguard : word ∉ ["IF".toList, "NOT".toList, "EXISTS".toList]) (hon : word ≠ "ON".toList)
    (hfunction : ∀ function : ColumnFunction, word ≠ function.word) (s : CreateIndex) :
    word ∉ s.subjectWords := by
  have hname : ∀ i : Identifier, word ≠ i.render := Identifier.reserved_ne_render hword hparts
  have hnames : ∀ name : Option Identifier, word ∉ (name.map Identifier.render).toList := by
    rintro (_ | name) hmem
    · exact nomatch hmem
    · exact hname name (List.mem_singleton.mp hmem)
  intro hmem
  unfold subjectWords targetWords at hmem
  rw [QualifiedName.bareWords_render] at hmem
  simp only [List.mem_append, List.mem_singleton] at hmem
  rcases hmem with (((hmem | hmem) | hmem) | (hmem | hmem)) | (hmem | hmem)
  · split at hmem
    · exact hguard hmem
    · exact nomatch hmem
  · exact hnames _ hmem
  · exact hon hmem
  · exact hnames _ hmem
  · exact hname _ hmem
  · split at hmem
    · exact nomatch hmem
    · exact hfunction _ (List.mem_singleton.mp hmem)
  · exact hname _ hmem

theorem custom_prefix_iff (s : CreateIndex) :
    ["CREATE".toList, "CUSTOM".toList] <+: bareWords s.render ↔
      s.implementation?.isSome = true := by
  rw [bareWords_render, openingWords, List.append_assoc]
  cases s.implementation?.isSome with
  | true => exact iff_of_true ⟨_, rfl⟩ rfl
  | false =>
    refine iff_of_false (fun hprefix => ?_) nofun
    have hrest := (List.cons_prefix_cons.mp hprefix).2
    exact absurd (List.cons_prefix_cons.mp hrest).1 (by decide)

theorem using_mem_iff (s : CreateIndex) :
    "USING".toList ∈ bareWords s.render ↔ s.implementation?.isSome = true := by
  have hopening : ∀ custom, "USING".toList ∉ openingWords custom := by decide
  have hsubject : "USING".toList ∉ s.subjectWords :=
    s.not_mem_subjectWords (by decide) (by decide) (by decide) (by decide)
      (by rintro (_ | _) <;> decide)
  rw [bareWords_render, List.mem_append, List.mem_append]
  constructor
  · rintro ((hmem | hmem) | hmem)
    · exact absurd hmem (hopening _)
    · exact absurd hmem hsubject
    · unfold closingWords at hmem
      cases hclass : s.implementation?.isSome with
      | true => rfl
      | false =>
        rw [hclass] at hmem
        cases hempty : s.options.isEmpty <;> rw [hempty] at hmem <;> exact absurd hmem (by decide)
  · intro hclass
    rw [closingWords, if_pos hclass]
    exact .inr (List.mem_append_left _ (List.mem_singleton_self _))

theorem options_infix_iff (s : CreateIndex) :
    ["WITH".toList, "OPTIONS".toList] <:+: bareWords s.render ↔ s.options ≠ [] := by
  have hopening : ∀ custom, "WITH".toList ∉ openingWords custom := by decide
  have hsubject : "WITH".toList ∉ s.subjectWords :=
    s.not_mem_subjectWords (by decide) (by decide) (by decide) (by decide)
      (by rintro (_ | _) <;> decide)
  rw [bareWords_render]
  constructor
  · rintro hinfix hoptions
    have hmem := hinfix.subset List.mem_cons_self
    rw [List.mem_append, List.mem_append] at hmem
    rcases hmem with (hmem | hmem) | hmem
    · exact hopening _ hmem
    · exact hsubject hmem
    · rw [closingWords, hoptions] at hmem
      cases hclass : s.implementation?.isSome <;> rw [hclass] at hmem <;>
        exact absurd hmem (by decide)
  · intro hoptions
    refine List.IsSuffix.isInfix ?_
    have hclosing : closingWords s =
        (if s.implementation?.isSome then ["USING".toList] else []) ++
          ["WITH".toList, "OPTIONS".toList] :=
      congrArg (_ ++ ·) (if_neg (by simpa using hoptions))
    rw [hclosing, ← List.append_assoc]
    exact List.suffix_append _ _

/-- In the text of a built statement the word for a custom index, the clause of the class and the
class itself come together, and options come only with them. -/
theorem clauses_of_isBuilt {s : CreateIndex} (h : (Statement.createIndex s).IsBuilt) :
    let isCustom := ["CREATE".toList, "CUSTOM".toList] <+: bareWords s.render
    let hasClass := "USING".toList ∈ bareWords s.render
    let hasOptions := ["WITH".toList, "OPTIONS".toList] <:+: bareWords s.render
    (isCustom ↔ hasClass) ∧ (hasOptions → isCustom ∧ hasClass) ∧
      (hasClass ↔ s.className.isSome = true) ∧ (hasOptions ↔ s.options ≠ []) := by
  intro isCustom hasClass hasOptions
  have hclass : s.implementation? = s.className := implementation?_of_isBuilt h
  have hcustom : isCustom ↔ s.className.isSome = true := hclass ▸ s.custom_prefix_iff
  have husing : hasClass ↔ s.className.isSome = true := hclass ▸ s.using_mem_iff
  have hoptions : hasOptions ↔ s.options ≠ [] := s.options_infix_iff
  refine ⟨hcustom.trans husing.symm, fun hshown => ?_, husing, hoptions⟩
  obtain ⟨className, hname, -⟩ := exists_className_of_isBuilt h (hoptions.mp hshown)
  have hsome : s.className.isSome = true := by rw [hname]; rfl
  exact ⟨hcustom.mpr hsome, husing.mpr hsome⟩

end CreateIndex

end CqlDdl

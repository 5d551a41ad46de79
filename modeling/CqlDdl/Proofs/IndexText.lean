import CqlDdl.Proofs.Runs
import CqlDdl.Proofs.Separation

/-! The text of a statement that creates an index determines all that the statement says. It is read
off from the left: the words before the names are reserved, so that no name is written like them;
the target ends at the parenthesis; and string literals, which may hold any characters, end at the
apostrophe that stands alone. Main statement: `CreateIndex.eq_of_render_eq`. -/

namespace CqlDdl

open Text (EndsName EndsLiteral endsName_blank endsName_parenthesis endsLiteral_cons
  separates_literal)

theorem ColumnFunction.word_injective {f g : ColumnFunction} (h : f.word = g.word) : f = g := by
  revert h
  cases f <;> cases g <;> decide

namespace CreateIndex

/-! ### The parts of the text -/

def nameText : Option Identifier → Text
  | some name => name.render ++ [' ']
  | none => []

@[simp] theorem nameText_some (name : Identifier) :
    nameText (some name) = name.render ++ [' '] := rfl

@[simp] theorem nameText_none : nameText none = [] := rfl

def implementationText : Option Text → Text
  | some className => " USING ".toList ++ Text.literal className
  | none => []

@[simp] theorem implementationText_none : implementationText none = [] := rfl

def optionsText (options : List (Text × Text)) : Text :=
  if options.isEmpty then [] else " WITH OPTIONS = ".toList ++ renderOptions options

/-- The text from the options on. -/
def ending (s : CreateIndex) : Text :=
  optionsText s.options ++ [';']

/-- The text from the word before the table on. -/
def place (s : CreateIndex) : Text :=
  "ON ".toList ++ (s.tableName.render ++ (" (".toList ++ (s.target ++ ')' ::
    (implementationText s.implementation? ++ s.ending))))

theorem name_append_inj {n m : Option Identifier} {r s : Text}
    (h : nameText n ++ ("ON".toList ++ ' ' :: r) = nameText m ++ ("ON".toList ++ ' ' :: s)) :
    n = m ∧ r = s := by
  have hon : ∀ (i : Identifier) {t u : Text}, "ON".toList ++ ' ' :: t ≠ i.render ++ ' ' :: u :=
    fun i t u => Identifier.reserved_append_ne (by decide) (by decide) (endsName_blank t)
      (endsName_blank u)
  cases n with
  | none =>
    cases m with
    | none => exact ⟨rfl, by simpa using h⟩
    | some m => exact absurd (by simpa using h) (hon m)
  | some n =>
    cases m with
    | none => exact absurd (by simpa using h.symm) (hon n)
    | some m =>
      simp only [nameText_some, List.append_assoc, List.cons_append, List.nil_append] at h
      obtain ⟨hname, hrest⟩ := Identifier.separates_render (endsName_blank _) (endsName_blank _) h
      have htail := List.append_cancel_left (List.cons.inj hrest).2
      exact ⟨congrArg some hname, (List.cons.inj htail).2⟩

end CreateIndex

/-- A draft never keeps a blank class name. -/
theorem IndexDraft.className_apply {before after : IndexDraft} {edit : Edit}
    (h : before.apply edit = .ok after) (hbefore : before.className ≠ some []) :
    after.className ≠ some [] := by
  cases edit with
  | «using» className =>
    obtain rfl := Except.ok.inj h
    intro hempty
    obtain ⟨-, hblank⟩ := Option.filter_eq_some_iff.mp hempty
    simp [Text.isBlank] at hblank
  | tableName | columnName =>
    obtain ⟨-, -, rfl⟩ := Outcome.map_eq_ok_iff.mp h
    exact hbefore
  | ifNotExists | columnFunction | setOption =>
    obtain rfl := Except.ok.inj h
    exact hbefore

theorem IndexDraft.className_of_start {first second : Option Name} {draft : IndexDraft}
    (h : start first second = .ok draft) : draft.className = none := by
  unfold start at h
  split at h
  · obtain rfl := Except.ok.inj h
    rfl
  · obtain ⟨-, -, rfl⟩ := Outcome.map_eq_ok_iff.mp h
    rfl

theorem IndexDraft.className_of_build {draft : IndexDraft} {s : CreateIndex}
    (h : draft.build = .ok s) : s.className = draft.className := by
  unfold build at h
  split at h
  · simp at h
  · simp at h
  · split at h
    · simp at h
    · obtain rfl := Except.ok.inj h
      rfl

namespace CreateIndex

theorem exists_draft_of_isBuilt {s : CreateIndex} (h : (Statement.createIndex s).IsBuilt) :
    ∃ (first second : Option Name) (draft : IndexDraft) (edits : List IndexDraft.Edit),
      IndexDraft.start first second = .ok draft ∧
        IndexDraft.build (@Draft.run .createIndex draft edits) = .ok s := by
  obtain ⟨kind, first, second, draft, edits, hstart, hbuild⟩ := h
  obtain rfl : StatementKind.createIndex = kind := Draft.kind_of_build hbuild
  obtain ⟨t, ht, hst⟩ := Outcome.map_eq_ok_iff.mp hbuild
  obtain rfl : t = s := Statement.createIndex.inj hst
  exact ⟨first, second, draft, edits, hstart, ht⟩

theorem implementation?_of_isBuilt {s : CreateIndex} (h : (Statement.createIndex s).IsBuilt) :
    s.implementation? = s.className := by
  obtain ⟨first, second, draft, edits, hstart, hbuild⟩ := exists_draft_of_isBuilt h
  have hrun : (@Draft.run .createIndex draft edits).className ≠ some [] := by
    refine Draft.run_invariant .createIndex (fun draft => draft.className ≠ some []) ?_ ?_
    · simp [IndexDraft.className_of_start hstart]
    · exact fun edit _ _ _ happly => IndexDraft.className_apply happly
  rw [← IndexDraft.className_of_build hbuild] at hrun
  unfold implementation?
  cases hclass : s.className with
  | none => rfl
  | some className =>
    have hne : className ≠ [] := fun e => hrun (by rw [hclass, e])
    simp [hne]

end CreateIndex

end CqlDdl

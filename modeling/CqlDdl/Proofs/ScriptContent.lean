import CqlDdl.Proofs.Separation
import CqlDdl.Proofs.SingleStatement
import CqlDdl.Script

/-! The text of a migration script: its heading, its statement, and below them the statement that
drops what was created. Both are comments, so that without comments the text is the statement
between line breaks, whatever names and literals it holds. Main statement:
`Script.content_of_guarded`. -/

namespace CqlDdl

/-! ### Undoing -/

/-- The kind and the name of what a statement creates, where it can be dropped by that name. -/
def Statement.creation? : Statement → Option (Text × QualifiedName)
  | createKeyspace s => some ("KEYSPACE".toList, ⟨none, s.name⟩)
  | createTable s => some ("TABLE".toList, s.name)
  | createIndex s => s.name.map fun name => ("INDEX".toList, ⟨s.keyspace, name⟩)
  | createUserType s => some ("TYPE".toList, s.name)
  | alterKeyspace _ | dropKeyspace _ | alterTable _ | dropTable _ | dropIndex _ | alterUserType _
  | dropUserType _ => none

/-- The text that drops what a statement creates, if it is there. -/
def Statement.undoing? (s : Statement) : Option Text :=
  s.creation?.map fun (kind, name) =>
    "DROP ".toList ++ kind ++ " IF EXISTS ".toList ++ name.render ++ [';']

/-- The lines below the statement of a script, which only what can be undone has. -/
def Script.undoLines (s : Statement) (generateDown : Bool) : List Text :=
  match s.undoing? with
  | some undoing =>
    if generateDown then [[], "-- Down migration".toList, "-- ".toList ++ undoing] else []
  | none => []

/-- The name of a kind as a heading has it. -/
def StatementKind.title : StatementKind → Text
  | createKeyspace => "Create keyspace".toList
  | alterKeyspace => "Alter keyspace".toList
  | dropKeyspace => "Drop keyspace".toList
  | createTable => "Create table".toList
  | alterTable => "Alter table".toList
  | dropTable => "Drop table".toList
  | createIndex => "Create index".toList
  | dropIndex => "Drop index".toList
  | createUserType => "Create user type".toList
  | alterUserType => "Alter user type".toList
  | dropUserType => "Drop user type".toList

theorem StatementKind.heading_word (kind : StatementKind) :
    Text.heading kind.word = kind.title := by
  cases kind <;> decide

theorem Statement.inverseText?_eq (s : Statement) :
    (Specification.statement s).inverseText? = .ok s.undoing? := by
  cases s with
  | createIndex s =>
    obtain ⟨_, name⟩ := s
    cases name <;> rfl
  | createKeyspace | createTable | createUserType => rfl
  | alterKeyspace | dropKeyspace | alterTable | dropTable | dropIndex | alterUserType
  | dropUserType => rfl

theorem Script.contentOf_eq {s : Statement} {text : Text} (h : s.render = .ok text)
    (generateDown : Bool) : contentOf s generateDown =
      .ok (Text.joined ['\n'] (header s ++ text :: undoLines s generateDown)) := by
  unfold contentOf undoLines
  rw [h]
  cases generateDown with
  | true =>
    rw [s.inverseText?_eq]
    cases s.undoing? <;> simp [downLines, bind, Except.bind, pure, Except.pure]
  | false => cases s.undoing? <;> simp [bind, Except.bind, pure, Except.pure]

/-! ### Lines that are comments -/

namespace Text

/-- An empty line, or one that is a comment as a whole. -/
def IsCommentLine (line : Text) : Prop :=
  line = [] ∨ ∃ rest, line = "--".toList ++ rest ∧ '\n' ∉ rest

theorem IsCommentLine.withoutComments {line : Text} (h : IsCommentLine line) {rest : Text}
    (hrest : rest.head?.all (· == '\n') = true) :
    withoutComments (line ++ rest) = withoutComments rest := by
  obtain rfl | ⟨line, rfl, hline⟩ := h
  · rfl
  · exact withoutComments_comment hline hrest

theorem withoutComments_newline (rest : Text) :
    withoutComments ('\n' :: rest) = '\n' :: withoutComments rest :=
  withoutComments_cons (by decide) (by decide) rest

theorem withoutComments_above {lines : List Text} (h : ∀ line ∈ lines, IsCommentLine line)
    (rest : Text) : withoutComments (lines.flatMap (· ++ ['\n']) ++ rest) =
      List.replicate lines.length '\n' ++ withoutComments rest := by
  induction lines with
  | nil => rfl
  | cons line lines ih =>
    have hlines := ih fun l hl => h l (List.mem_cons_of_mem line hl)
    rw [List.flatMap_cons, List.append_assoc, List.append_assoc,
      (h line List.mem_cons_self).withoutComments rfl, List.singleton_append,
      withoutComments_newline, hlines]
    rfl

theorem withoutComments_below {lines : List Text} (h : ∀ line ∈ lines, IsCommentLine line) :
    withoutComments (lines.flatMap (['\n'] ++ ·)) = List.replicate lines.length '\n' := by
  induction lines with
  | nil => rfl
  | cons line lines ih =>
    have hlines := ih fun l hl => h l (List.mem_cons_of_mem line hl)
    -- a comment ends at the break before the next line, or at the end of the text
    have hbreak : (lines.flatMap (['\n'] ++ ·)).head?.all (· == '\n') = true := by
      cases lines <;> rfl
    rw [List.flatMap_cons, List.append_assoc, List.singleton_append, withoutComments_newline,
      (h line List.mem_cons_self).withoutComments hbreak, hlines]
    rfl

end Text

theorem QualifiedName.newline_not_mem_render (n : QualifiedName) : '\n' ∉ n.render :=
  fun h => absurd (isInner_of_mem_render _ h) (by decide)

theorem StatementKind.newline_not_mem_title (kind : StatementKind) : '\n' ∉ kind.title := by
  cases kind <;> decide

theorem Statement.newline_not_mem_undoing {s : Statement} {undoing : Text}
    (h : s.undoing? = some undoing) : '\n' ∉ undoing := by
  obtain ⟨⟨kind, name⟩, hcreation, rfl⟩ := Option.map_eq_some_iff.mp h
  have hkind : '\n' ∉ kind := by
    cases s with
    | createKeyspace | createTable | createUserType =>
      obtain ⟨rfl, -⟩ := Prod.mk.inj (Option.some.inj hcreation)
      decide
    | createIndex s =>
      obtain ⟨_, -, hpair⟩ := Option.map_eq_some_iff.mp hcreation
      obtain ⟨rfl, -⟩ := Prod.mk.inj hpair
      decide
    | alterKeyspace | dropKeyspace | alterTable | dropTable | dropIndex | alterUserType
    | dropUserType => simp [creation?] at hcreation
  simp [hkind, name.newline_not_mem_render]

namespace Script

theorem header_eq (s : Statement) : header s =
    ["-- Migration: ".toList ++ s.kind.title ++ ' ' :: s.target.render,
      "-- Generated by cql-schema-generator".toList, []] := by
  rw [header, s.kind.heading_word]

theorem isCommentLine_header (s : Statement) : ∀ line ∈ header s, line.IsCommentLine := by
  intro line hline
  simp only [header_eq, List.mem_cons, List.not_mem_nil, or_false] at hline
  rcases hline with rfl | rfl | rfl
  · refine .inr ⟨" Migration: ".toList ++ s.kind.title ++ ' ' :: s.target.render, rfl, ?_⟩
    simp [s.kind.newline_not_mem_title, s.target.newline_not_mem_render]
  · exact .inr ⟨_, rfl, by decide⟩
  · exact .inl rfl

theorem isCommentLine_undoLines (s : Statement) (generateDown : Bool) :
    ∀ line ∈ undoLines s generateDown, line.IsCommentLine := by
  intro line hline
  unfold undoLines at hline
  split at hline
  · rename_i undoing h
    split at hline
    · simp only [List.mem_cons, List.not_mem_nil, or_false] at hline
      rcases hline with rfl | rfl | rfl
      · exact .inl rfl
      · exact .inr ⟨_, rfl, by decide⟩
      · refine .inr ⟨' ' :: undoing, rfl, ?_⟩
        simp [Statement.newline_not_mem_undoing h]
    · simp at hline
  · simp at hline

/-- The text of a script is a heading that names the kind and the target, the statement and, where
one is asked for and the statement creates what can be dropped by name, the statement that drops it.
Without comments it is the statement between line breaks. -/
theorem content_of_guarded {s : Statement} {text : Text} (hguarded : s.options.Guarded)
    (h : s.render = .ok text) (options : ScriptOptions) (version : Option Binary64) :
    (Specification.statement s).inverseText? = .ok s.undoing? ∧
      ∃ script, ofStatement s options version = .ok script ∧
        script.content = Text.joined ['\n']
          (["-- Migration: ".toList ++ s.kind.title ++ ' ' :: s.target.render,
            "-- Generated by cql-schema-generator".toList, []] ++
              text :: undoLines s options.generateDown) ∧
        script.content.withoutComments = List.replicate 3 '\n' ++ text ++
          List.replicate (undoLines s options.generateDown).length '\n' := by
  have hcontent := contentOf_eq h options.generateDown
  refine ⟨s.inverseText?_eq, ?_⟩
  unfold ofStatement
  simp only [hcontent, Except.map]
  refine ⟨_, rfl, by rw [header_eq], ?_⟩
  -- only the statement is kept, and what stands after it does not change what is read in it
  have hkept := (Statement.isTerminated_of_render hguarded h).kept
  rw [Text.joined_append_cons, List.append_assoc,
    Text.withoutComments_above (isCommentLine_header s), hkept,
    Text.withoutComments_below (isCommentLine_undoLines s _), List.append_assoc]
  rfl

/-- A table with a mark in its name. Its comment goes over two lines and holds two hyphens and both
marks, and its grace period has two signs. -/
def memos : CreateTable where
  name := ⟨none, "me\"mo".toList, true, by decide, by decide⟩
  columns := [⟨⟨"id".toList, false, by decide, by decide⟩, .native .uuid, .partitioned, none⟩]
  options := [(TableOption.comment, .scalar (.text "it's\n-- \"so\"".toList)),
    (TableOption.gcGraceSeconds, .scalar (.text "-1e-5".toList))]

def memosText : Text :=
  "CREATE TABLE \"me\"\"mo\" (id uuid, PRIMARY KEY (id))".toList ++
    " WITH comment = 'it''s\n-- \"so\"' AND gc_grace_seconds = -1e-5;".toList

theorem content_memos :
    (Statement.createTable memos).options.Guarded ∧
      (Statement.createTable memos).render = .ok memosText ∧
      ∃ script, ofStatement (.createTable memos) {} none = .ok script ∧
        script.content.withoutComments = "\n\n\n".toList ++ memosText ++ "\n\n\n".toList := by
  have hguarded : (Statement.createTable memos).options.Guarded := by
    refine ⟨?_, ?_⟩
    · exact List.forall_mem_cons.mpr ⟨by decide, List.forall_mem_singleton.mpr (by decide)⟩
    · exact List.forall_mem_cons.mpr ⟨fun _ => ⟨rfl, .inl rfl⟩,
        List.forall_mem_singleton.mpr fun h => absurd h (by decide)⟩
  have hrender : (Statement.createTable memos).render = .ok memosText := rfl
  obtain ⟨-, script, hscript, -, hstripped⟩ := content_of_guarded hguarded hrender {} none
  exact ⟨hguarded, hrender, script, hscript, hstripped⟩

end Script

end CqlDdl

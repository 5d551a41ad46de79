import CqlDdl.Proofs.DistinctNames
import CqlDdl.Proofs.TypeText

/-! The text of a statement that creates a table determines what a draft has put into the statement,
options aside. Names and types are read off where they end; the roles and orders of the columns
stand in the primary key and in the clustering order by name only, and go to the right column since
a complete draft has no name twice. Main statement: `CreateTable.agree_of_render_eq`. -/

namespace CqlDdl

open Text (EndsName endsName_comma endsName_parenthesis endsName_blank)

/-! ### Columns of a complete draft -/

/-- A column that is made from a name, a type, a role and an order, as a caller may give them. -/
def Column.IsMade (column : Column) : Prop :=
  ∃ name type role order, Column.make name type role order = .ok column

theorem Column.IsMade.order_eq_none {column : Column} (h : column.IsMade)
    (hrole : column.role ≠ .clustered) : column.order = none := by
  obtain ⟨name, type, role, order, h⟩ := h
  unfold make at h
  split at h
  · obtain rfl := Except.ok.inj h
    exact if_neg hrole
  · simp at h

theorem ColumnDraft.isMade_of_build {draft : ColumnDraft} {column : Column}
    (h : draft.build = .ok column) : column.IsMade := by
  unfold build at h
  split at h
  · exact ⟨_, _, _, _, h⟩
  · simp at h

namespace CreateTable

/-- The requests of a caller who adds no columns but those that are made. -/
def Edit.AddsMade : Edit → Prop
  | .addColumn made => made.IsMade
  | _ => True

/-- The statements that drafts describe after any requests, some of which may have failed. -/
def IsBuilt (s : CreateTable) : Prop :=
  ∃ (first second : Option Name) (draft : Draft .createTable)
    (edits : List (Draft.Edit .createTable)),
    Draft.start .createTable first second = .ok draft ∧
      (∀ edit ∈ edits, Edit.AddsMade edit) ∧ (draft.run edits).build = .ok (.createTable s)

theorem apply_columns {s t : CreateTable} {edit : Edit} (hmade : edit.AddsMade)
    (h : s.apply edit = .ok t) :
    t.columns = s.columns ∨ ∃ column, column.IsMade ∧ t.columns = s.columns ++ [column] := by
  cases edit with
  | ifNotExists flag =>
    obtain rfl := Except.ok.inj h
    exact .inl rfl
  | column name type | partitionKeyColumn name type | clusteredKeyColumn name type order =>
    obtain ⟨column, hcolumn, rfl⟩ := Outcome.map_eq_ok_iff.mp h
    exact .inr ⟨column, ⟨_, _, _, _, hcolumn⟩, rfl⟩
  | addColumn column =>
    obtain rfl := Except.ok.inj h
    exact .inr ⟨column, hmade, rfl⟩
  | addDraft draft =>
    obtain ⟨column, hcolumn, rfl⟩ := Outcome.map_eq_ok_iff.mp h
    exact .inr ⟨column, draft.isMade_of_build hcolumn, rfl⟩
  | option edit =>
    obtain ⟨options, -, rfl⟩ := Outcome.map_eq_ok_iff.mp h
    exact .inl rfl

/-- The columns of a built statement are made, one of them is in the partition key, and their names
are different. -/
theorem IsBuilt.columns {s : CreateTable} (h : s.IsBuilt) :
    (∀ column ∈ s.columns, column.IsMade) ∧ s.columns.filter Column.isPartitioned ≠ [] ∧
      (s.columns.map Column.name).Nodup := by
  obtain ⟨first, second, draft, edits, hstart, hmade, hbuild⟩ := h
  obtain ⟨t, ht, hst⟩ := Outcome.map_eq_ok_iff.mp hbuild
  obtain rfl : t = s := Statement.createTable.inj hst
  have hcolumns : ∀ column ∈ CreateTable.columns (draft.run edits), column.IsMade := by
    refine Draft.run_invariant .createTable (fun s => ∀ c ∈ s.columns, c.IsMade) ?_ ?_
    · obtain ⟨name, -, rfl⟩ := Outcome.map_eq_ok_iff.mp hstart
      exact fun _ h => nomatch h
    · intro edit hedit before after happly hbefore
      rcases apply_columns (hmade edit hedit) happly with heq | ⟨column, hcolumn, heq⟩
      · rw [heq]
        exact hbefore
      · rw [heq]
        exact List.forall_mem_append.mpr ⟨hbefore, List.forall_mem_singleton.mpr hcolumn⟩
  obtain ⟨rfl, hpartitioned, hnames⟩ := of_build ht
  refine ⟨hcolumns, ?_, (repeatedName?_eq_none_iff.mp hnames).1.of_map⟩
  intro hnone
  rw [List.filter_eq_nil_iff] at hnone
  obtain ⟨column, hcolumn, hrole⟩ := List.any_eq_true.mp hpartitioned
  exact hnone column hcolumn hrole

end CreateTable

/-! ### Definitions and keys -/

theorem Column.separates_name : Text.Separates (fun column : Column => column.name.render)
    Column.name EndsName :=
  fun hr hs h => Identifier.separates_render hr hs h

theorem Column.definition_append (c : Column) (rest : Text) :
    c.definition ++ rest = c.name.render ++ ' ' :: (c.type.render ++ rest) := by
  simp [definition]

theorem Column.separates_definition :
    Text.Separates definition (fun c => (c.name, c.type.render)) DataType.Ends := by
  intro c d r s hr hs h
  rw [definition_append, definition_append] at h
  obtain ⟨hname, h⟩ := Identifier.separates_render (endsName_blank _) (endsName_blank _) h
  obtain ⟨htype, hrest⟩ := DataType.separates_render hr hs (List.cons.inj h).2
  exact ⟨Prod.ext hname htype, hrest⟩

/-- The definitions of columns end where the word `PRIMARY` stands, which is reserved and so names
no column. -/
theorem definitions_append_inj {cs ds : List Column} {r s : Text}
    (h : cs.flatMap (fun c => c.definition ++ ", ".toList) ++ ("PRIMARY".toList ++ ' ' :: r) =
      ds.flatMap (fun c => c.definition ++ ", ".toList) ++ ("PRIMARY".toList ++ ' ' :: s)) :
    cs.map (fun c => (c.name, c.type.render)) = ds.map (fun c => (c.name, c.type.render)) ∧
      r = s := by
  have hne : ∀ (c : Column) {t u : Text},
      "PRIMARY".toList ++ ' ' :: t ≠ c.name.render ++ ' ' :: u := fun c _ _ =>
    Identifier.reserved_append_ne (by decide) (by decide) (endsName_blank _) (endsName_blank _)
  -- Both lists are read off together; where only one has ended, `PRIMARY` would be a name.
  induction cs generalizing ds with
  | nil =>
    cases ds with
    | nil =>
      rw [List.flatMap_nil, List.nil_append, List.nil_append, List.append_cancel_left_eq] at h
      exact ⟨rfl, (List.cons.inj h).2⟩
    | cons d ds =>
      rw [List.flatMap_nil, List.nil_append, List.flatMap_cons, List.append_assoc,
        List.append_assoc, Column.definition_append] at h
      exact absurd h (hne d)
  | cons c cs ih =>
    cases ds with
    | nil =>
      rw [List.flatMap_nil, List.nil_append, List.flatMap_cons, List.append_assoc,
        List.append_assoc, Column.definition_append] at h
      exact absurd h.symm (hne c)
    | cons d ds =>
      simp only [List.flatMap_cons, List.append_assoc] at h
      obtain ⟨hcolumn, h⟩ :=
        Column.separates_definition (DataType.ends_comma _) (DataType.ends_comma _) h
      obtain ⟨hrest, rfl⟩ := ih (List.append_cancel_left h)
      exact ⟨List.cons_eq_cons.mpr ⟨hcolumn, hrest⟩, rfl⟩

theorem columnNames_append_inj {cs ds : List Column} (hcs : cs ≠ []) (hds : ds ≠ []) {r s : Text}
    (h : columnNames cs ++ ')' :: r = columnNames ds ++ ')' :: s) :
    cs.map Column.name = ds.map Column.name ∧ r = s := by
  obtain ⟨hnames, hrest⟩ := Column.separates_name.joined endsName_comma hcs hds
    (endsName_parenthesis r) (endsName_parenthesis s) (by simp) (by simp) h
  exact ⟨hnames, (List.cons.inj hrest).2⟩

theorem columnNames_append_ne {cs : List Column} (hcs : cs ≠ []) (r s : Text) :
    columnNames cs ++ r ≠ '(' :: s := by
  obtain ⟨c, cs, rfl⟩ := List.exists_cons_of_ne_nil hcs
  obtain ⟨d, t, hd, hclass⟩ := c.name.exists_render_eq_cons
  rw [columnNames, List.map_cons, Text.joined_cons, hd]
  intro h
  obtain rfl : d = '(' := (List.cons.inj h).1
  rcases hclass with ⟨-, h⟩ | ⟨-, h⟩
  · exact absurd h (by decide)
  · exact absurd h (by decide)

/-- The text of a partition key, in parentheses of its own if it has several columns. -/
def partitionText (partitioned : List Column) : Text :=
  if 1 < partitioned.length then '(' :: (columnNames partitioned ++ [')'])
  else columnNames partitioned

theorem partitionText_append_inj {cs ds : List Column} (hcs : cs ≠ []) (hds : ds ≠ []) {r s : Text}
    (hr : EndsName r) (hs : EndsName s) (h : partitionText cs ++ r = partitionText ds ++ s) :
    cs.map Column.name = ds.map Column.name ∧ r = s := by
  unfold partitionText at h
  split at h <;> split at h
  · simp only [List.cons_append, List.append_assoc, List.nil_append, List.cons.injEq,
      true_and] at h
    exact columnNames_append_inj hcs hds h
  · exact absurd h.symm (columnNames_append_ne hds _ _)
  · exact absurd h (columnNames_append_ne hcs _ _)
  · rename_i hc hd
    obtain ⟨c, rfl⟩ := List.length_eq_one_iff.mp
      (show cs.length = 1 by have := List.length_pos_of_ne_nil hcs; omega)
    obtain ⟨d, rfl⟩ := List.length_eq_one_iff.mp
      (show ds.length = 1 by have := List.length_pos_of_ne_nil hds; omega)
    simp only [columnNames, Text.joined, List.map_cons, List.map_nil,
      List.intercalate_singleton] at h
    obtain ⟨hname, hrest⟩ := Column.separates_name hr hs h
    exact ⟨by simp [hname], hrest⟩

/-- Each clustered column follows the partition key after a comma. -/
theorem primaryKey_eq (columns : List Column) :
    primaryKey columns = partitionText (columns.filter Column.isPartitioned) ++
      (columns.filter Column.isClustered).flatMap (", ".toList ++ ·.name.render) := by
  unfold primaryKey partitionText
  simp only
  cases hclustered : columns.filter Column.isClustered with
  | nil => simp
  | cons c cs => simp [columnNames, Text.joined_cons, List.flatMap_map]

theorem primaryKey_append_inj {cs ds : List Column} (hcs : cs.filter Column.isPartitioned ≠ [])
    (hds : ds.filter Column.isPartitioned ≠ []) {r s : Text}
    (h : primaryKey cs ++ ')' :: r = primaryKey ds ++ ')' :: s) :
    (cs.filter Column.isPartitioned).map Column.name =
        (ds.filter Column.isPartitioned).map Column.name ∧
      (cs.filter Column.isClustered).map Column.name =
        (ds.filter Column.isClustered).map Column.name ∧ r = s := by
  have hends : ∀ (es : List Column) (t : Text),
      EndsName (es.flatMap (", ".toList ++ ·.name.render) ++ ')' :: t) := by
    intro es t
    cases es with
    | nil => exact endsName_parenthesis t
    | cons e es =>
      rw [List.flatMap_cons, List.append_assoc, List.append_assoc]
      exact endsName_comma _
  rw [primaryKey_eq, primaryKey_eq, List.append_assoc, List.append_assoc] at h
  obtain ⟨hpartition, h⟩ := partitionText_append_inj hcs hds (hends _ _) (hends _ _) h
  obtain ⟨hclustered, h⟩ := Column.separates_name.flatMap endsName_comma (endsName_parenthesis r)
    (endsName_parenthesis s) (by simp) (by simp) h
  exact ⟨hpartition, hclustered, (List.cons.inj h).2⟩

/-! ### Clustering orders -/

/-- The name and the order of a column, if it is clustered and has one. -/
def Column.orderedName? (column : Column) : Option (Identifier × ClusteringOrder) :=
  if column.isClustered then column.order.map (column.name, ·) else none

/-- A name with an order as it stands in the clause on clustering. -/
def orderedText (entry : Identifier × ClusteringOrder) : Text :=
  entry.1.render ++ ' ' :: entry.2.word

theorem Column.ordered?_eq (column : Column) :
    column.ordered? = column.orderedName?.map orderedText := by
  unfold ordered? orderedName?
  split
  · rw [Option.map_map]
    rfl
  · rfl

theorem separates_orderedText : Text.Separates orderedText id fun _ => True := by
  intro a b r s _ _ h
  obtain ⟨i, o⟩ := a
  obtain ⟨j, p⟩ := b
  simp only [orderedText, List.append_assoc, List.cons_append] at h
  obtain ⟨hname, h⟩ := Identifier.separates_render (endsName_blank _) (endsName_blank _) h
  simp only [id_eq] at hname
  subst hname
  cases o <;> cases p <;> simp_all [ClusteringOrder.word]

theorem clusteringOrder?_eq (columns : List Column) : clusteringOrder? columns =
    if (columns.filterMap Column.orderedName?).isEmpty then none
    else some ("CLUSTERING ORDER BY (".toList ++
      Text.joined ", ".toList ((columns.filterMap Column.orderedName?).map orderedText) ++
        [')']) := by
  have hordered : columns.filterMap Column.ordered? =
      (columns.filterMap Column.orderedName?).map orderedText := by
    rw [List.map_filterMap]
    exact congrArg (fun f => columns.filterMap f) (funext Column.ordered?_eq)
  unfold clusteringOrder?
  simp only [hordered, List.isEmpty_map]

theorem clustering_inj {cs ds : List Column}
    (h : withClauses (clusteringOrder? cs).toList ++ [';'] =
      withClauses (clusteringOrder? ds).toList ++ [';']) :
    cs.filterMap Column.orderedName? = ds.filterMap Column.orderedName? := by
  rw [clusteringOrder?_eq, clusteringOrder?_eq] at h
  generalize cs.filterMap Column.orderedName? = xs at h ⊢
  generalize ds.filterMap Column.orderedName? = ys at h ⊢
  cases xs with
  | nil =>
    cases ys with
    | nil => rfl
    | cons y ys => simp [withClauses] at h
  | cons x xs =>
    cases ys with
    | nil => simp [withClauses] at h
    | cons y ys =>
      have hjoined : Text.joined ", ".toList ((x :: xs).map orderedText) ++ [')', ';'] =
          Text.joined ", ".toList ((y :: ys).map orderedText) ++ [')', ';'] := by
        simpa [withClauses, Text.joined_cons] using h
      obtain ⟨heq, -⟩ := separates_orderedText.joined (fun _ => trivial) (by simp) (by simp)
        trivial trivial (by simp) (by simp) hjoined
      simpa using heq

/-! ### Columns by their names -/

/-- What the text of a table shows of a column: its name, the text of its type, its part in the
primary key, and its order. -/
def Column.shown (column : Column) : Identifier × Text × KeyRole × Option ClusteringOrder :=
  (column.name, column.type.render, column.role, column.order)

section

variable {columns : List Column} {column : Column}

theorem Column.eq_of_name_eq (hnames : (columns.map name).Nodup) {other : Column}
    (hcolumn : column ∈ columns) (hother : other ∈ columns) (h : column.name = other.name) :
    column = other :=
  List.inj_on_of_nodup_map hnames hcolumn hother h

/-- Where names are different, the columns with a property are found by their names. -/
theorem Column.name_mem_filter_iff (hnames : (columns.map name).Nodup) (hcolumn : column ∈ columns)
    (p : Column → Bool) : column.name ∈ (columns.filter p).map name ↔ p column = true := by
  constructor
  · intro h
    obtain ⟨other, hother, heq⟩ := List.mem_map.mp h
    obtain ⟨hother, hp⟩ := List.mem_filter.mp hother
    rwa [← eq_of_name_eq hnames hother hcolumn heq]
  · exact fun h => List.mem_map_of_mem (List.mem_filter.mpr ⟨hcolumn, h⟩)

/-- Where names are different, the order of a clustered column is found by its name. -/
theorem Column.mem_orderedName?_iff (hnames : (columns.map name).Nodup)
    (hcolumn : column ∈ columns) (hclustered : column.isClustered = true)
    (order : ClusteringOrder) :
    (column.name, order) ∈ columns.filterMap orderedName? ↔ column.order = some order := by
  rw [List.mem_filterMap]
  constructor
  · rintro ⟨other, hother, h⟩
    unfold orderedName? at h
    split at h
    · obtain ⟨found, hfound, heq⟩ := Option.map_eq_some_iff.mp h
      obtain ⟨hname, rfl⟩ := Prod.mk.inj heq
      rwa [← eq_of_name_eq hnames hother hcolumn hname]
    · simp at h
  · intro h
    exact ⟨column, hcolumn, by simp [orderedName?, hclustered, h]⟩

end

theorem KeyRole.eq_of_beq_eq {a b : KeyRole}
    (hpartitioned : (a == partitioned) = (b == partitioned))
    (hclustered : (a == clustered) = (b == clustered)) : a = b := by
  cases a <;> cases b <;> revert hpartitioned hclustered <;> decide

/-- Two lists on which a function agrees agree in what the function determines of their elements. -/
theorem map_eq_map_of_map_eq_map {α β γ : Type} {f : α → β} {g : α → γ} {l m : List α}
    (h : l.map f = m.map f) (hfg : ∀ a ∈ l, ∀ b ∈ m, f a = f b → g a = g b) :
    l.map g = m.map g := by
  induction l generalizing m with
  | nil =>
    rw [List.map_nil, eq_comm, List.map_eq_nil_iff] at h
    rw [h]
  | cons a l ih =>
    cases m with
    | nil => simp at h
    | cons b m =>
      obtain ⟨hab, h⟩ := List.cons_eq_cons.mp h
      have hrest := ih h fun c hc d hd => hfg c (by simp [hc]) d (by simp [hd])
      exact List.cons_eq_cons.mpr ⟨hfg a (by simp) b (by simp) hab, hrest⟩

/-- Columns of different names are shown the same when their definitions, their primary keys and
their clauses on clustering are. -/
theorem shown_eq_of_parts {cs ds : List Column} (hcs : (cs.map Column.name).Nodup)
    (hds : (ds.map Column.name).Nodup) (hcmade : ∀ c ∈ cs, c.IsMade) (hdmade : ∀ d ∈ ds, d.IsMade)
    (hdefinitions : cs.map (fun c => (c.name, c.type.render)) =
      ds.map (fun c => (c.name, c.type.render)))
    (hpartitioned : (cs.filter Column.isPartitioned).map Column.name =
      (ds.filter Column.isPartitioned).map Column.name)
    (hclustered : (cs.filter Column.isClustered).map Column.name =
      (ds.filter Column.isClustered).map Column.name)
    (hordered : cs.filterMap Column.orderedName? = ds.filterMap Column.orderedName?) :
    cs.map Column.shown = ds.map Column.shown := by
  refine map_eq_map_of_map_eq_map hdefinitions ?_
  intro c hc d hd heq
  obtain ⟨hname, htype⟩ := Prod.mk.inj heq
  have hp : c.isPartitioned = d.isPartitioned := by
    rw [Bool.eq_iff_iff, ← Column.name_mem_filter_iff hcs hc, hpartitioned, hname,
      Column.name_mem_filter_iff hds hd]
  have hk : c.isClustered = d.isClustered := by
    rw [Bool.eq_iff_iff, ← Column.name_mem_filter_iff hcs hc, hclustered, hname,
      Column.name_mem_filter_iff hds hd]
  have hrole : c.role = d.role := KeyRole.eq_of_beq_eq hp hk
  have horder : c.order = d.order := by
    by_cases h : c.role = .clustered
    · have hcc : c.isClustered = true := by simp [Column.isClustered, h]
      refine Option.ext fun order => ?_
      rw [← Column.mem_orderedName?_iff hcs hc hcc, hordered, hname,
        Column.mem_orderedName?_iff hds hd (hk ▸ hcc)]
    · rw [(hcmade c hc).order_eq_none h, (hdmade d hd).order_eq_none (hrole ▸ h)]
  simp only [Column.shown, hname, htype, hrole, horder]

/-! ### The whole statement -/

/-- Whether the words on an existing object stand before a name can be told, since `IF` is
reserved. -/
theorem guarded_name_append_inj {f g : Bool} {n m : QualifiedName} {r s : Text}
    (hr : QualifiedName.Ends r) (hs : QualifiedName.Ends s)
    (h : Guard.ifNotExists f ++ (n.render ++ r) = Guard.ifNotExists g ++ (m.render ++ s)) :
    f = g ∧ n = m ∧ r = s := by
  obtain ⟨hguard, hrest⟩ := Guard.ifNotExists_append_inj (fun _ => n.ifNotExists_append_ne hr)
    (fun _ => m.ifNotExists_append_ne hs) h
  exact ⟨hguard, QualifiedName.separates_render hr hs hrest⟩

namespace CreateTable

/-- The text of a statement without options, from one part to the next. -/
theorem text_nil (s : CreateTable) : s.text [] =
    "CREATE TABLE ".toList ++ (Guard.ifNotExists s.ifNotExists ++ (s.name.render ++ (" (".toList ++
      (s.columns.flatMap (fun c => c.definition ++ ", ".toList) ++ ("PRIMARY".toList ++ ' ' ::
        ("KEY (".toList ++ (primaryKey s.columns ++ ')' :: ')' ::
          (withClauses (clusteringOrder? s.columns).toList ++ [';'])))))))) := by
  have hkey : "PRIMARY KEY (".toList = "PRIMARY".toList ++ ' ' :: "KEY (".toList := by decide
  unfold text definitions
  rw [Text.joined_append_cons, hkey]
  simp only [List.flatMap_map, List.flatMap_nil, List.append_assoc, List.cons_append,
    List.nil_append, List.append_nil]

theorem render_of_options_eq_nil {s : CreateTable} {text : Text} (hoptions : s.options = [])
    (h : s.render = .ok text) : s.text [] = text := by
  unfold render at h
  split at h
  · rw [hoptions] at h
    exact Except.ok.inj h
  · simp at h

/-- Two built statements without options that have one text agree: in what they do about a table
that is there, in the name of the table, and, column by column, in all that is shown of a column. -/
theorem agree_of_render_eq {s t : CreateTable} {text : Text} (hs : s.IsBuilt) (ht : t.IsBuilt)
    (hso : s.options = []) (hto : t.options = []) (hsr : s.render = .ok text)
    (htr : t.render = .ok text) :
    s.ifNotExists = t.ifNotExists ∧ s.name = t.name ∧
      s.columns.map Column.shown = t.columns.map Column.shown := by
  obtain ⟨hsmade, hskey, hsnames⟩ := hs.columns
  obtain ⟨htmade, htkey, htnames⟩ := ht.columns
  have h : s.text [] = t.text [] :=
    (render_of_options_eq_nil hso hsr).trans (render_of_options_eq_nil hto htr).symm
  rw [text_nil, text_nil] at h
  have hends : ∀ rest, QualifiedName.Ends (" (".toList ++ rest) := fun rest =>
    ⟨endsName_blank _, by simp⟩
  obtain ⟨hguard, hname, h⟩ :=
    guarded_name_append_inj (hends _) (hends _) (List.append_cancel_left h)
  obtain ⟨hdefinitions, h⟩ := definitions_append_inj (List.append_cancel_left h)
  obtain ⟨hpartitioned, hclustered, h⟩ :=
    primaryKey_append_inj hskey htkey (List.append_cancel_left h)
  have hordered := clustering_inj (List.cons.inj h).2
  exact ⟨hguard, hname, shown_eq_of_parts hsnames htnames hsmade htmade hdefinitions hpartitioned
    hclustered hordered⟩

/-- A table of visits, with the newest visit first, whose times are of a given type. -/
def visits (type : DataType) : CreateTable where
  name := ⟨none, "visits".toList, false, by decide, by decide⟩
  columns :=
    [⟨⟨"guest".toList, false, by decide, by decide⟩, .native .uuid, .partitioned, none⟩,
      ⟨⟨"time".toList, false, by decide, by decide⟩, type, .clustered, some .descending⟩]

theorem isBuilt_visits (type : DataType) : (visits type).IsBuilt := by
  refine ⟨some (.text "visits".toList), none, { visits type with columns := [] },
    [.partitionKeyColumn (.text "guest".toList) (.native .uuid),
      .addDraft ⟨⟨"time".toList, false, by decide, by decide⟩, type, .clustered, some .descending⟩],
    rfl, ?_, rfl⟩
  exact List.forall_mem_cons.mpr ⟨trivial, List.forall_mem_singleton.mpr trivial⟩

/-- The text of a table of visits. -/
def visitsText : Text :=
  "CREATE TABLE visits (guest uuid, time timestamp, PRIMARY KEY (guest, time))".toList ++
    " WITH CLUSTERING ORDER BY (time DESC);".toList

/-- A user type may have the name of a native one: tables of both kinds have one text. -/
theorem agree_visits :
    let s := visits (.native .timestamp)
    let t := visits (.declared ⟨none, "timestamp".toList, false, by decide, by decide⟩)
    s.render = .ok visitsText ∧ t.render = .ok visitsText ∧
      s.columns.map Column.shown = t.columns.map Column.shown := by
  intro s t
  have hs : s.render = .ok visitsText := rfl
  have ht : t.render = .ok visitsText := rfl
  have hagree := agree_of_render_eq (isBuilt_visits _) (isBuilt_visits _) rfl rfl hs ht
  exact ⟨hs, ht, hagree.2.2⟩

end CreateTable

end CqlDdl

import CqlDdl.Proofs.NamedEntries
import CqlDdl.Proofs.OptionRequests

/-! The options of a statement, told from the requests that set them: each name has the key and the
value of the last request for it that succeeded, and the names stand in the order of the first such
requests. Requests that fail leave no trace. Main statement: `Draft.options_of_run`. -/

namespace CqlDdl

theorem OptionMap.put_eq_putNamed (options : OptionMap) (entry : OptionEntry) :
    options.put entry.1 entry.2 = Entries.putNamed OptionKey.name options entry := by
  have hsame : entry.1.sameName = fun key => decide (entry.1.name = key.name) := by
    funext key
    rw [Bool.eq_iff_iff]
    simp [OptionKey.sameName]
  rw [put, hsame]
  rfl

namespace Draft

variable {kind : StatementKind}

/-- The requests of a run that succeed, each on the draft that it meets. -/
def succeeding (draft : Draft kind) : List (Edit kind) → List (Edit kind)
  | [] => []
  | edit :: rest =>
    match draft.apply edit with
    | .ok next => edit :: succeeding next rest
    | .error _ => succeeding draft rest

/-- What the requests to set an option put, if they succeed. A map is put as it is at the time. -/
def puts (edits : List (Edit kind)) : List OptionEntry :=
  edits.filterMap fun edit => (requested? edit).bind Except.toOption

theorem succeeding_of_ok {draft next : Draft kind} {edit : Edit kind}
    (h : draft.apply edit = .ok next) (rest : List (Edit kind)) :
    draft.succeeding (edit :: rest) = edit :: next.succeeding rest := by
  simp [succeeding, h]

theorem succeeding_of_error {draft : Draft kind} {edit : Edit kind} {e : Error}
    (h : draft.apply edit = .error e) (rest : List (Edit kind)) :
    draft.succeeding (edit :: rest) = draft.succeeding rest := by
  simp [succeeding, h]

/-- The requests that succeed are a run of their own, in which none fails. -/
theorem foldlM_succeeding (draft : Draft kind) (edits : List (Edit kind)) :
    (draft.succeeding edits).foldlM apply draft = .ok (draft.run edits) := by
  induction edits generalizing draft with
  | nil => rfl
  | cons edit rest ih =>
    rw [run_cons]
    cases happly : draft.apply edit with
    | ok next =>
      rw [attempt_of_ok happly, succeeding_of_ok happly, List.foldlM_cons, happly]
      exact ih next
    | error e =>
      rw [attempt_of_error happly, succeeding_of_error happly]
      exact ih draft

/-- One request that succeeds puts what it asks for, by name. -/
theorem options_of_apply {before after : Draft kind} {edit : Edit kind}
    (h : before.apply edit = .ok after) :
    after.options = (puts [edit]).foldl (Entries.putNamed OptionKey.name) before.options := by
  have hchanged := changed_apply h
  cases hrequested : requested? edit with
  | none =>
    rw [hrequested] at hchanged
    have hputs : puts [edit] = [] := by simp [puts, hrequested]
    rw [hputs]
    exact hchanged
  | some outcome =>
    rw [hrequested] at hchanged
    obtain ⟨entry, rfl, hafter⟩ := hchanged
    have hputs : puts [edit] = [entry] := by simp [puts, hrequested, Except.toOption]
    rw [hputs, hafter, OptionMap.put_eq_putNamed]
    rfl

theorem options_run (draft : Draft kind) (edits : List (Edit kind)) :
    (draft.run edits).options =
      (puts (draft.succeeding edits)).foldl (Entries.putNamed OptionKey.name) draft.options := by
  induction edits generalizing draft with
  | nil => rfl
  | cons edit rest ih =>
    rw [run_cons]
    cases happly : draft.apply edit with
    | ok next =>
      have hputs : puts (edit :: next.succeeding rest) =
          puts [edit] ++ puts (next.succeeding rest) :=
        List.filterMap_append (l := [edit])
      rw [attempt_of_ok happly, succeeding_of_ok happly, hputs, List.foldl_append,
        ← options_of_apply happly]
      exact ih next
    | error e =>
      rw [attempt_of_error happly, succeeding_of_error happly]
      exact ih draft

/-- Where no request fails, a run makes all of them. -/
theorem run_of_foldlM {before after : Draft kind} {edits : List (Edit kind)}
    (h : edits.foldlM apply before = .ok after) :
    before.run edits = after ∧ before.succeeding edits = edits ∧
      ∀ edit ∈ edits, ∃ draft next : Draft kind, draft.apply edit = .ok next := by
  induction edits generalizing before with
  | nil => exact ⟨Except.ok.inj h, rfl, fun _ hedit => nomatch hedit⟩
  | cons edit rest ih =>
    cases happly : before.apply edit with
    | error e => simp [happly, bind, Except.bind] at h
    | ok next =>
      rw [List.foldlM_cons, happly] at h
      obtain ⟨hrun, hsucceeding, hrest⟩ := ih h
      refine ⟨?_, by rw [succeeding_of_ok happly, hsucceeding], ?_⟩
      · rw [run_cons, attempt_of_ok happly, hrun]
      · exact List.forall_mem_cons.mpr ⟨⟨before, next, happly⟩, hrest⟩

theorem complete_eq (first second : Option Name) (edits : List (Edit kind)) :
    complete kind first second edits =
      (start kind first second).bind fun draft => (edits.foldlM apply draft).bind build := rfl

/-- A complete statement is built after a run in which no request fails. -/
theorem exists_run_of_complete {first second : Option Name} {edits : List (Edit kind)}
    {s : Statement} (h : complete kind first second edits = .ok s) :
    ∃ draft : Draft kind, start kind first second = .ok draft ∧ (draft.run edits).build = .ok s ∧
      draft.succeeding edits = edits ∧
      ∀ edit ∈ edits, ∃ before next : Draft kind, before.apply edit = .ok next := by
  rw [complete_eq] at h
  cases hstart : start kind first second with
  | error e => simp [hstart, Except.bind] at h
  | ok draft =>
    cases hedits : List.foldlM apply draft edits with
    | error e => simp [hstart, hedits, Except.bind] at h
    | ok after =>
      rw [hstart, Except.bind, hedits] at h
      obtain ⟨rfl, hsucceeding, hall⟩ := run_of_foldlM hedits
      exact ⟨draft, rfl, h, hsucceeding, hall⟩

theorem isBuilt_of_complete {first second : Option Name} {edits : List (Edit kind)} {s : Statement}
    (h : complete kind first second edits = .ok s) : s.IsBuilt := by
  obtain ⟨draft, hstart, hbuild, -⟩ := exists_run_of_complete h
  exact ⟨kind, first, second, draft, edits, hstart, hbuild⟩

/-- A complete statement has the options that its requests put, none of which failed. -/
theorem options_of_complete {first second : Option Name} {edits : List (Edit kind)} {s : Statement}
    (h : complete kind first second edits = .ok s) :
    s.options = (puts edits).foldl (Entries.putNamed OptionKey.name) [] ∧
      ∀ edit ∈ edits, ∀ outcome, requested? edit = some outcome →
        ∃ entry, outcome = .ok entry := by
  obtain ⟨draft, hstart, hbuild, hsucceeding, hall⟩ := exists_run_of_complete h
  refine ⟨?_, fun edit hedit outcome hrequested => ?_⟩
  · rw [options_of_build hbuild, options_run, hsucceeding, options_of_start hstart]
  · obtain ⟨before, next, happly⟩ := hall edit hedit
    have hchanged := changed_apply happly
    rw [hrequested] at hchanged
    obtain ⟨entry, hentry, -⟩ := hchanged
    exact ⟨entry, hentry⟩

/-- The options of a built statement are those that were put by the requests that succeeded: one for
each name, where the first request for it put it, with the key and the value of the last one, which
suit one another. The requests that succeeded would alone have built the statement. Nothing else
comes of a map that tells keys apart as objects, and is cleared and filled anew to keep a place. -/
theorem options_of_run {first second : Option Name} {draft : Draft kind} {edits : List (Edit kind)}
    {s : Statement} (hstart : start kind first second = .ok draft)
    (hbuild : (draft.run edits).build = .ok s) :
    let requests := draft.succeeding edits
    s.options = Entries.byName OptionKey.name (puts requests) ∧
      s.options.names = ((puts requests).map fun entry => entry.1.name).eraseDups ∧
      s.options.names.Nodup ∧
      (∀ entry ∈ s.options,
        (puts requests).reverse.find? (fun last => last.1.name = entry.1.name) = some entry ∧
          OptionEntry.IsChecked entry) ∧
      complete kind first second requests = .ok s ∧
      ∀ {κ : Type} [DecidableEq κ] (read : κ → OptionKey) (calls : List (κ × OptionValue)),
        calls.map (Prod.map read id) = puts requests →
          (calls.foldl (Entries.replace fun object => (read object).name) []).map
            (Prod.map read id) = s.options := by
  intro requests
  have hoptions : s.options = (puts requests).foldl (Entries.putNamed OptionKey.name) [] := by
    rw [options_of_build hbuild, options_run, options_of_start hstart]
  have hnodup : s.options.names.Nodup := by
    rw [hoptions]
    exact Entries.nodup_names_foldl_putNamed (puts requests)
  refine ⟨?_, ?_, hnodup, ?_, ?_, ?_⟩
  · rw [hoptions, Entries.foldl_putNamed]
  · have hnames : Entries.names OptionKey.name s.options =
        (Entries.names OptionKey.name (puts requests)).eraseDups := by
      rw [hoptions, Entries.names_foldl_putNamed]
    exact hnames
  · intro entry hentry
    have hnamed : Entries.named? OptionKey.name s.options entry.1.name = some entry :=
      Entries.named?_of_mem hnodup hentry
    refine ⟨?_, isChecked_of_run hstart edits entry (options_of_build hbuild ▸ hentry)⟩
    rw [hoptions, Entries.named?_foldl_putNamed] at hnamed
    exact hnamed
  · rw [complete, hstart]
    change (List.foldlM apply draft requests).bind build = .ok s
    rw [foldlM_succeeding]
    exact hbuild
  · intro κ _ read calls hcalls
    rw [Entries.foldl_replace, Entries.map_byName, hcalls, hoptions, Entries.foldl_putNamed]

/-- A diary whose options are going to be altered. -/
def diary : AlterTable where
  name := ⟨none, "diary".toList, false, by decide, by decide⟩

/-- Requests of which the second fails, since no number is given, and the last one is for the same
option as the first, under a key of its own. -/
def commentRequests : List AlterTable.Edit :=
  [.option (.set TableOption.comment (.scalar (.text "old".toList))),
    .option (.set TableOption.gcGraceSeconds (.scalar (.text "soon".toList))),
    .option (.set TableOption.gcGraceSeconds (.scalar (.integer 60))),
    .option (.setNamed "comment".toList (.scalar (.text "new".toList)) { quotesValue := true })]

/-- The comment keeps its place, and has the key and the value of the last request. -/
theorem options_commentRequests :
    start .alterTable (some (.text "diary".toList)) none = .ok diary ∧
      ∃ s, (@run .alterTable diary commentRequests).build = .ok s ∧
        s.options.names = ["comment".toList, "gc_grace_seconds".toList] ∧
        s.options = Entries.byName OptionKey.name
          (puts (@succeeding .alterTable diary commentRequests)) := by
  have hstart : start .alterTable (some (.text "diary".toList)) none = .ok diary := rfl
  have hbuild : (@run .alterTable diary commentRequests).build =
      .ok (.alterTable (@run .alterTable diary commentRequests)) := rfl
  exact ⟨hstart, _, hbuild, rfl, (options_of_run hstart hbuild).1⟩

end Draft

end CqlDdl

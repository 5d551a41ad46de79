import Mathlib.Data.Nat.Find
import CqlDdl.Execution

/-! What a run of specifications executes: the texts of all those before the first one that stops
it, each of them once and in order. Main statement: `Session.executeAll_spec`. -/

namespace CqlDdl

/-- The texts of specifications in order. One that has no text is left out. -/
def Specification.texts (specs : List Specification) : List Text :=
  specs.filterMap fun spec => spec.render.toOption

theorem Specification.texts_cons_of_ok {spec : Specification} {text : Text}
    (h : spec.render = .ok text) (specs : List Specification) :
    texts (spec :: specs) = text :: texts specs := by
  simp [texts, h, Except.toOption]

/-- The executor that never fails. -/
def Executor.willing : Executor := fun _ _ => none

namespace Session

open Specification (texts texts_cons_of_ok)

section

variable (dryRun : Bool) (executor : Executor)

/-- Why a run stops at a specification, if it does: there is no text, or the executor fails at the
text, having got some statements before. A dry run has no executor that could fail. -/
def halt? (before : List Text) (spec : Specification) : Option ExecutionError :=
  match spec.render with
  | .error e => some (.generation e)
  | .ok text => if dryRun then none else (executor before text).map .executor

/-- Why a run stops at the specification at a place, if it has executed those before it. -/
def stop? (before : List Text) (specs : List Specification) (place : Nat) :
    Option ExecutionError :=
  specs[place]?.bind (halt? dryRun executor (before ++ texts (specs.take place)))

/-- What the executor gets of the specification at which a run stops: its text, if the executor is
why it stops. -/
def sentLast (spec : Specification) : ExecutionError → List Text
  | .generation _ => []
  | .executor _ => texts [spec]

end

variable {dryRun : Bool} {executor : Executor} {session : Session}

/-! ### One specification -/

theorem exists_render_of_halt? {before : List Text} {spec : Specification}
    (h : halt? dryRun executor before spec = none) : ∃ text, spec.render = .ok text := by
  cases hrender : spec.render with
  | ok text => exact ⟨text, rfl⟩
  | error e => simp [halt?, hrender] at h

/-- A specification that does not stop a run is executed. -/
theorem exists_execute_eq_ok {spec : Specification} {text : Text} (hrender : spec.render = .ok text)
    (h : halt? dryRun executor session.sent spec = none) :
    ∃ next, execute dryRun executor session spec = (.ok text, next) ∧
      next.sent = session.sent ++ if dryRun then [] else [text] := by
  cases dryRun with
  | true => simp [execute, hrender, logged]
  | false =>
    have haccepts : executor session.sent text = none := by simpa [halt?, hrender] using h
    simp [execute, hrender, logged, sending, haccepts]

/-- A specification that stops a run is sent only if it is the executor that fails. -/
theorem exists_execute_eq_error {spec : Specification} {e : ExecutionError}
    (h : halt? dryRun executor session.sent spec = some e) :
    ∃ next, execute dryRun executor session spec = (.error e, next) ∧
      next.sent = session.sent ++ if dryRun then [] else sentLast spec e := by
  cases hrender : spec.render with
  | error cause =>
    obtain rfl : ExecutionError.generation cause = e := by simpa [halt?, hrender] using h
    simp [execute, hrender, sentLast]
  | ok text =>
    cases dryRun with
    | true => simp [halt?, hrender] at h
    | false =>
      obtain ⟨message, hfails, rfl⟩ : ∃ message, executor session.sent text = some message ∧
          ExecutionError.executor message = e := by simpa [halt?, hrender] using h
      have htexts : texts [spec] = [text] := texts_cons_of_ok hrender []
      simp [execute, hrender, logged, sending, hfails, sentLast, htexts]

/-! ### The first specification of a run -/

theorem executeAll_cons_of_error {spec : Specification} {e : ExecutionError} {next : Session}
    (h : execute dryRun executor session spec = (.error e, next)) (rest : List Specification) :
    executeAll dryRun executor session (spec :: rest) = (.error e, next) := by
  rw [executeAll, h]

theorem executeAll_cons_of_ok {spec : Specification} {text : Text} {next : Session}
    (h : execute dryRun executor session spec = (.ok text, next)) (rest : List Specification) :
    executeAll dryRun executor session (spec :: rest) =
      ((executeAll dryRun executor next rest).1.map (text :: ·),
        (executeAll dryRun executor next rest).2) := by
  rcases hrest : executeAll dryRun executor next rest with ⟨result, last⟩
  cases result <;> simp [executeAll, h, hrest, Except.map]

theorem stop?_zero (before : List Text) (spec : Specification) (rest : List Specification) :
    stop? dryRun executor before (spec :: rest) 0 = halt? dryRun executor before spec := by
  simp [stop?, texts]

/-- After a specification that was executed, a run stops where the rest of it does. -/
theorem stop?_succ {spec : Specification} {text : Text} (h : spec.render = .ok text)
    (before : List Text) (rest : List Specification) (place : Nat) :
    stop? dryRun executor before (spec :: rest) (place + 1) =
      stop? dryRun executor (before ++ if dryRun then [] else [text]) rest place := by
  cases dryRun with
  | true => rfl
  | false => simp [stop?, texts_cons_of_ok h]

/-- The first specification, if a run does not stop at it, is executed and the rest is run. -/
theorem exists_step {spec : Specification} {rest : List Specification}
    (h : stop? dryRun executor session.sent (spec :: rest) 0 = none) :
    ∃ text next, spec.render = .ok text ∧
      next.sent = session.sent ++ (if dryRun then [] else [text]) ∧
      (∀ place, stop? dryRun executor session.sent (spec :: rest) (place + 1) =
        stop? dryRun executor next.sent rest place) ∧
      executeAll dryRun executor session (spec :: rest) =
        ((executeAll dryRun executor next rest).1.map (text :: ·),
          (executeAll dryRun executor next rest).2) := by
  rw [stop?_zero] at h
  obtain ⟨text, hrender⟩ := exists_render_of_halt? h
  obtain ⟨next, hexecute, hsent⟩ := exists_execute_eq_ok hrender h
  refine ⟨text, next, hrender, hsent, fun place => ?_, executeAll_cons_of_ok hexecute rest⟩
  rw [stop?_succ hrender, hsent]

/-! ### Runs -/

/-- A run that nothing stops executes all of its specifications. -/
theorem executeAll_of_forall_stop? {specs : List Specification}
    (h : ∀ place, stop? dryRun executor session.sent specs place = none) :
    ∃ all, specs.map Specification.render = all.map .ok ∧
      (executeAll dryRun executor session specs).1 = .ok all ∧
      (executeAll dryRun executor session specs).2.sent =
        session.sent ++ if dryRun then [] else all := by
  induction specs generalizing session with
  | nil => exact ⟨[], rfl, rfl, by simp [executeAll]⟩
  | cons spec rest ih =>
    obtain ⟨text, next, hrender, hsent, hstop, hrun⟩ := exists_step (h 0)
    obtain ⟨all, hall, hok, hlast⟩ := ih fun place => hstop place ▸ h (place + 1)
    refine ⟨text :: all, by simp [hrender, hall], by simp [hrun, hok, Except.map], ?_⟩
    rw [hrun, hlast, hsent]
    cases dryRun <;> simp

/-- A run that is stopped executes the specifications before the place where it first is. -/
theorem executeAll_of_stop? {specs : List Specification} {place : Nat} {e : ExecutionError}
    (hstop : stop? dryRun executor session.sent specs place = some e)
    (hfirst : ∀ earlier < place, stop? dryRun executor session.sent specs earlier = none) :
    ∃ spec before, specs[place]? = some spec ∧
      (specs.take place).map Specification.render = before.map .ok ∧
      (executeAll dryRun executor session specs).1 = .error e ∧
      (executeAll dryRun executor session specs).2.sent =
        session.sent ++ if dryRun then [] else before ++ sentLast spec e := by
  induction place generalizing session specs with
  | zero =>
    cases specs with
    | nil => simp [stop?] at hstop
    | cons spec rest =>
      rw [stop?_zero] at hstop
      obtain ⟨next, hexecute, hsent⟩ := exists_execute_eq_error hstop
      rw [executeAll_cons_of_error hexecute]
      exact ⟨spec, [], rfl, rfl, rfl, hsent⟩
  | succ place ih =>
    cases specs with
    | nil => simp [stop?] at hstop
    | cons spec rest =>
      obtain ⟨text, next, hrender, hsent, hshift, hrun⟩ := exists_step (hfirst 0 place.succ_pos)
      obtain ⟨last, before, hlast, hbefore, herror, hgot⟩ := ih (hshift place ▸ hstop)
        fun earlier hlt => hshift earlier ▸ hfirst (earlier + 1) (Nat.succ_lt_succ hlt)
      refine ⟨last, text :: before, hlast, by simp [hrender, hbefore],
        by simp [hrun, herror, Except.map], ?_⟩
      rw [hrun, hgot, hsent]
      cases dryRun <;> simp

/-- A dry run has the result that a run has where nothing fails, whatever was sent before. -/
theorem executeAll_dryRun (executor : Executor) (session other : Session)
    (specs : List Specification) :
    (executeAll true executor session specs).1 = (executeAll false .willing other specs).1 := by
  induction specs generalizing session other with
  | nil => rfl
  | cons spec rest ih =>
    cases hrender : spec.render with
    | error e =>
      have hhalt : ∀ (dry : Bool) (executor : Executor) (before : List Text),
          halt? dry executor before spec = some (.generation e) := fun _ _ _ => by
        simp [halt?, hrender]
      obtain ⟨next, hdry, -⟩ := exists_execute_eq_error (hhalt true executor session.sent)
      obtain ⟨last, hreal, -⟩ := exists_execute_eq_error (hhalt false .willing other.sent)
      rw [executeAll_cons_of_error hdry, executeAll_cons_of_error hreal]
    | ok text =>
      have hdry : halt? true executor session.sent spec = none := by simp [halt?, hrender]
      have hreal : halt? false .willing other.sent spec = none := by
        simp [halt?, hrender, Executor.willing]
      obtain ⟨next, hdry, -⟩ := exists_execute_eq_ok hrender hdry
      obtain ⟨last, hreal, -⟩ := exists_execute_eq_ok hrender hreal
      rw [executeAll_cons_of_ok hdry, executeAll_cons_of_ok hreal, ih next last]

/-- A run either executes all of its specifications, or it stops at the first one that has no text
or at whose text the executor fails, and tells why. The executor has then got the texts before it,
and its own only if it failed at it. In a dry run the executor gets nothing, and the result is that
of a run with an executor that never fails. -/
theorem executeAll_spec (dryRun : Bool) (executor : Executor) (session : Session)
    (specs : List Specification) :
    let stops := stop? dryRun executor session.sent specs
    let run := executeAll dryRun executor session specs
    (((∀ place, stops place = none) ∧
        ∃ all, specs.map Specification.render = all.map .ok ∧ run.1 = .ok all ∧
          run.2.sent = session.sent ++ if dryRun then [] else all) ∨
      ∃ place e, stops place = some e ∧ (∀ earlier < place, stops earlier = none) ∧
        ∃ spec before, specs[place]? = some spec ∧
          (specs.take place).map Specification.render = before.map .ok ∧ run.1 = .error e ∧
          run.2.sent = session.sent ++ if dryRun then [] else before ++ sentLast spec e) ∧
      ∀ other, (executeAll true executor session specs).1 =
        (executeAll false .willing other specs).1 := by
  intro stops run
  refine ⟨?_, fun other => executeAll_dryRun executor session other specs⟩
  by_cases h : ∃ place, (stops place).isSome
  · obtain ⟨e, hstop⟩ := Option.isSome_iff_exists.mp (Nat.find_spec h)
    have hfirst : ∀ earlier < Nat.find h, stops earlier = none := fun earlier hlt =>
      Option.not_isSome_iff_eq_none.mp (Nat.find_min h hlt)
    exact .inr ⟨Nat.find h, e, hstop, hfirst, executeAll_of_stop? hstop hfirst⟩
  · have hnone : ∀ place, stops place = none := fun place =>
      Option.not_isSome_iff_eq_none.mp fun hsome => h ⟨place, hsome⟩
    exact .inl ⟨hnone, executeAll_of_forall_stop? hnone⟩

end Session

end CqlDdl

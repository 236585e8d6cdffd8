import Archetype.Desk
import Archetype.Watch.Session

/-!
# Scenes around a watched file

Files come and go, and somebody asks for reloads, tells of changes and has records classified. What
one such step reads depends on the machine and the watched path alone. A session does with it what
its reloader does with what is read, and nothing else.
-/

namespace Archetype.Watch

/-- What happens to the files of a machine, and what is asked of whoever watches one of them. -/
inductive Step where
  | write (path : String) (contents : Bytes)
  | delete (path : String)
  | reload (named : Option String)
  | notice (event : Event)
  | classify (record : Record)

/-- The machine after a step. Only writing and deleting change it. -/
def Step.change (desk : Desk) : Step → Desk
  | .write path contents => { desk with folder := desk.folder.put path contents }
  | .delete path =>
    match desk.folder.delete path with
    | .ok folder => { desk with folder }
    | .error _ => desk
  | .reload _ | .notice _ | .classify _ => desk

/-- What reading the file at a path yields. -/
def contentsAt (desk : Desk) (path : String) : Except FileFault Bytes :=
  ((Host.read (m := StateM Desk) path).run desk).1

/-- What the reload of a step reads, if the step is one. An event that concerns the watched file
makes it read again. -/
def Step.contents? (watched : String) (desk : Desk) : Step → Option (Except FileFault Bytes)
  | .reload named => some (contentsAt desk ((named.filter (!·.isEmpty)).getD watched))
  | .notice event =>
    let place := Path.full desk.here watched
    if event.concerns desk.here place then some (contentsAt desk place) else none
  | .write _ _ | .delete _ | .classify _ => none

/-- The contents that reloads read in the course of steps. -/
def seen (watched : String) (desk : Desk) : List Step → List Bytes
  | [] => []
  | step :: rest =>
    (match step.contents? watched desk with
      | some (.ok bytes) => [bytes]
      | _ => []) ++ seen watched (step.change desk) rest

/-- A session takes part in a step. -/
def Session.perform (session : Session) (step : Step) : StateM Desk (Option Outcome × Session) :=
  match step with
  | .write _ _ | .delete _ => do
    modify fun desk => step.change desk
    return (none, session)
  | .reload named => do
    let (outcome, session) ← session.reload named
    return (some outcome, session)
  | .notice event => session.handle event
  | .classify _ => return (none, session)

theorem fullRoot_ne_empty (path : String) : Path.fullRoot path ≠ "" := by
  unfold Path.fullRoot Path.root
  by_cases habsolute : Path.isAbsolute path = true
  · obtain ⟨rest, hslash⟩ : ∃ rest, path.toList = '/' :: rest := by
      have hhead : path.toList.head? = some '/' := by simpa [Path.isAbsolute] using habsolute
      exact List.head?_eq_some_iff.mp hhead
    rw [if_pos habsolute, hslash]
    simp only [beq_self_eq_true, List.takeWhile_cons_of_pos, List.length_cons]
    split <;> simp_all
  · rw [if_neg habsolute]
    decide

/-- A full path leads somewhere, so it is not replaced by the watched one. -/
theorem filter_full (here : Place) (path : String) :
    (some (Path.full here path)).filter (!·.isEmpty) = some (Path.full here path) := by
  have hne : Path.full here path ≠ "" := by
    unfold Path.full
    intro hempty
    have hparts := String.append_eq_empty_iff.mp hempty
    exact fullRoot_ne_empty path hparts.1
  simp [Option.filter, hne]

/-- **A session hands what a step reads to its reloader.** -/
theorem Session.run_perform (session : Session) (step : Step) (desk : Desk) :
    (session.perform step).run desk =
      match step.contents? session.path desk with
      | none => ((none, session), step.change desk)
      | some contents =>
        ((some (session.reloader.reload contents).1,
          { session with reloader := (session.reloader.reload contents).2 }), step.change desk) := by
  cases step with
  | write path contents => rfl
  | delete path => rfl
  | reload named => rfl
  | classify record => rfl
  | notice event =>
      have hrun : (session.perform (.notice event)).run desk =
          (if event.concerns desk.here (Path.full desk.here session.path) then do
            let (outcome, session) ← session.reload (some (Path.full desk.here session.path))
            return (some outcome, session)
          else return (none, session) : StateM Desk (Option Outcome × Session)) desk := rfl
      rw [hrun]
      by_cases hconcerns : event.concerns desk.here (Path.full desk.here session.path) = true
      · have hcontents : Step.contents? session.path desk (.notice event) =
            some (contentsAt desk (Path.full desk.here session.path)) := if_pos hconcerns
        rw [hcontents, if_pos hconcerns]
        unfold Session.reload
        rw [filter_full]
        rfl
      · have hcontents : Step.contents? session.path desk (.notice event) = none :=
          if_neg hconcerns
        rw [hcontents, if_neg hconcerns]
        rfl

/-- A report, with the contents it is about. -/
abbrev Note := Bytes × Option RuleTree.Fault

/-- The report of a step. Only what could be read is reported on. -/
def note? (contents : Option (Except FileFault Bytes)) (outcome : Option Outcome) : Option Note :=
  match contents, outcome.bind Outcome.report? with
  | some (.ok bytes), some report => some (bytes, report)
  | _, _ => none

/-- A machine, whoever watches a file there, and the reports so far. -/
structure Scene (Keeper : Type) where
  desk : Desk
  keeper : Keeper
  notes : List Note

/-- A scene with a session after one more step. -/
def Scene.perform (scene : Scene Session) (step : Step) : Scene Session :=
  let ((outcome, keeper), desk) := (scene.keeper.perform step).run scene.desk
  let contents := step.contents? scene.keeper.path scene.desk
  { desk, keeper, notes := scene.notes ++ (note? contents outcome).toList }

/-- What comes of a step, if it is a reload. -/
def Scene.outcome (scene : Scene Session) (step : Step) : Option Outcome :=
  ((scene.keeper.perform step).run scene.desk).1.1

/-- What a step reads in a scene with a session. -/
def Scene.contents? (scene : Scene Session) (step : Step) : Option (Except FileFault Bytes) :=
  step.contents? scene.keeper.path scene.desk

section Reading

variable {scene : Scene Session} {step : Step}

theorem Scene.outcome_of_idle (hidle : scene.contents? step = none) :
    scene.outcome step = none := by
  rw [outcome, Session.run_perform, ← contents?, hidle]

theorem Scene.perform_of_idle (hidle : scene.contents? step = none) :
    scene.perform step = { scene with desk := step.change scene.desk } := by
  rw [perform, Session.run_perform, ← contents?, hidle]
  simp [note?]

variable {contents : Except FileFault Bytes} (hcontents : scene.contents? step = some contents)
include hcontents

theorem Scene.outcome_of_reading :
    scene.outcome step = some (scene.keeper.reloader.reload contents).1 := by
  rw [outcome, Session.run_perform, ← contents?, hcontents]

theorem Scene.perform_of_reading :
    scene.perform step =
      { desk := step.change scene.desk
        keeper := ⟨scene.keeper.path, (scene.keeper.reloader.reload contents).2⟩
        notes := scene.notes ++
          (note? (some contents) (some (scene.keeper.reloader.reload contents).1)).toList } := by
  rw [perform, Session.run_perform, ← contents?, hcontents]

end Reading

end Archetype.Watch

import Mathlib.Data.List.Chain
import Archetype.Proofs.Classifier.Faults
import Archetype.Proofs.Classifier.History
import Archetype.Proofs.Watch.Memory

/-!
# What a reload tells

A classifier that can read rules takes new contents over, or refuses them and says which rules are
at fault; then the tree in use stays, and the fault is reported once. Two kinds of contents are not
foreseen and end the reload without a report: bytes that are no text in the encoding, and rules with
a number that is too long. A path that is none ends a reload, too, before any contents are seen.
Nothing else does, whatever happens to the files and in whatever order reloads are asked for.
-/

namespace Archetype

open Archetype.Condition

namespace Classifier

/-- A classifier that can read rules. -/
structure Ready (classifier : Classifier) : Prop where
  format : classifier.format.Usable
  isName : Bytes.isEncodingName classifier.encoding = true
  encoding : ∃ encoding, Bytes.Encoding.ofName? classifier.encoding = some encoding

/-- Contents that are no text in the encoding, or rules one of which has a number that is too
long. -/
inductive Unforeseen (classifier : Classifier) (bytes : Bytes) : Prop
  | noText {encoding : Bytes.Encoding} {fault : Bytes.TextFault}
      (hencoding : Bytes.Encoding.ofName? classifier.encoding = some encoding)
      (hdecode : encoding.decode bytes = .error fault)
  | numberTooLong {text : String} {outline : Outline} {node : Outline.Node} {digits : Nat}
      (htext : Bytes.ruleText classifier.encoding bytes = .ok text)
      (hread : Outline.read classifier.format text = .ok outline) (hnode : node ∈ outline.nodes)
      (hparse : Expr.parse node.expression = .error (.numberTooLong digits))

variable {classifier : Classifier} {bytes : Bytes}

/-- What is foreseen depends on how rules are written and encoded, not on the tree in use. -/
theorem Unforeseen.of_eq {other : Classifier} (hformat : other.format = classifier.format)
    (hencoding : other.encoding = classifier.encoding) (hunforeseen : classifier.Unforeseen bytes) :
    other.Unforeseen bytes := by
  cases hunforeseen with
  | noText hname hdecode => exact .noText (hencoding ▸ hname) hdecode
  | numberTooLong htext hread hnode hparse =>
      exact .numberTooLong (hencoding ▸ htext) (hformat ▸ hread) hnode hparse

/-- Contents that are no text are not taken over, and all others are read as a text. They are
foreseen if no number in the text is too long. -/
theorem Ready.text_cases (hready : classifier.Ready) (bytes : Bytes) :
    (∃ fault, classifier.load (.ok bytes) = .error (.text fault) ∧ classifier.Unforeseen bytes) ∨
    ∃ text, Bytes.ruleText classifier.encoding bytes = .ok text ∧
      ((∀ outline, Outline.read classifier.format text = .ok outline → ∀ node ∈ outline.nodes,
        ∀ digits, Expr.parse node.expression ≠ .error (.numberTooLong digits)) →
          ¬ classifier.Unforeseen bytes) := by
  obtain ⟨encoding, hencoding⟩ := hready.encoding
  have htext : Bytes.ruleText classifier.encoding bytes = (encoding.decode bytes >>= fun text =>
      .ok (String.ofList ((Text.unifyLineEnds text).dropWhile (· == Bytes.byteOrderMark)))) := by
    rw [Bytes.ruleText, hready.isName, hencoding]
    rfl
  cases hdecode : encoding.decode bytes with
  | error fault =>
      rw [hdecode] at htext
      refine .inl ⟨fault, ?_, .noText hencoding hdecode⟩
      rw [load, hready.isName]
      change ((Bytes.ruleText classifier.encoding bytes).mapError LoadFault.text >>= _) = _
      rw [htext]
      rfl
  | ok chars =>
      rw [hdecode, ok_bind] at htext
      refine .inr ⟨_, htext, fun hshort hunforeseen => ?_⟩
      cases hunforeseen with
      | noText hencoding' hdecode' =>
          rw [hencoding, Option.some_inj] at hencoding'
          rw [← hencoding', hdecode] at hdecode'
          cases hdecode'
      | numberTooLong htext' hread hnode hparse =>
          rw [htext, Except.ok.injEq] at htext'
          exact hshort _ (htext' ▸ hread) _ hnode _ hparse

end Classifier

namespace Watch

open Archetype.Classifier

variable {classifier : Classifier} {bytes : Bytes}

/-- How reading contents afresh can end for a classifier that can read rules. -/
inductive Refreshed (classifier : Classifier) (bytes : Bytes) : Outcome × Classifier → Prop
  | published {later : Classifier} (hload : classifier.load (.ok bytes) = .ok later)
      (hforeseen : ¬ classifier.Unforeseen bytes) :
      Refreshed classifier bytes (.published, later)
  | refused {fault : RuleTree.Fault} (hload : classifier.load (.ok bytes) = .error (.tree fault))
      (hforeseen : ¬ classifier.Unforeseen bytes) :
      Refreshed classifier bytes (.refused fault, classifier)
  | escaped {fault : LoadFault} (hload : classifier.load (.ok bytes) = .error fault)
      (hunforeseen : classifier.Unforeseen bytes) :
      Refreshed classifier bytes (.escaped fault, classifier)

/-- **Only what is not foreseen escapes.** -/
theorem refreshed_of_ready (hready : classifier.Ready) (bytes : Bytes) :
    Refreshed classifier bytes (refresh classifier (.ok bytes)) := by
  rcases hready.text_cases bytes with ⟨fault, hload, hunforeseen⟩ | ⟨text, htext, hshort⟩
  · simp only [refresh, hload]
    exact .escaped hload hunforeseen
  · have hload := load_of_ruleText hready.isName htext
    have hadoption := adoption_of_usable hready.format text
    generalize classifier.adopt text = outcome at hload hadoption
    cases hadoption with
    | malformed hread =>
        simp only [refresh, hload, Except.mapError, RuleTree.Fault.isRuleFault, if_true]
        refine .refused hload (hshort fun outline hread' => ?_)
        rw [hread] at hread'
        cases hread'
    | tooLong hread hnode hparse =>
        simp only [refresh, hload, Except.mapError, RuleTree.Fault.isRuleFault]
        exact .escaped hload (.numberTooLong htext hread hnode hparse)
    | refused hread hparse hsome hissues =>
        simp only [refresh, hload, Except.mapError, RuleTree.Fault.isRuleFault, if_true]
        refine .refused hload (hshort fun outline hread' => ?_)
        rw [hread] at hread'
        cases hread'
        exact hparse
    | published hread hparse hnone =>
        simp only [refresh, hload, Except.mapError]
        refine .published hload (hshort fun outline hread' => ?_)
        rw [hread] at hread'
        cases hread'
        exact hparse

/-! ### Steps of a session -/

namespace Scene

/-- Contents other than those that were reported last. -/
def IsNew {Keeper : Type} (scene : Scene Keeper) (bytes : Bytes) : Prop :=
  ∀ note, scene.notes.getLast? = some note → Bytes.digest note.1 ≠ Bytes.digest bytes

/-- What stays true of a session that begins with a classifier. It remembers what it reported last,
and no two reports in a row are about the same contents. -/
structure Follows (watched : String) (start : Classifier) (scene : Scene Session) : Prop where
  path : scene.keeper.path = watched
  format : scene.keeper.reloader.classifier.format = start.format
  encoding : scene.keeper.reloader.classifier.encoding = start.encoding
  digest : scene.keeper.reloader.lastDigest =
    scene.notes.getLast?.map fun note => Bytes.digest note.1
  notes : scene.notes.IsChain fun first second => Bytes.digest first.1 ≠ Bytes.digest second.1

theorem follows_start (watched : String) (desk : Desk) (start : Classifier) :
    Follows watched start ⟨desk, ⟨watched, { classifier := start }⟩, []⟩ :=
  ⟨rfl, rfl, rfl, rfl, .nil⟩

variable {watched : String} {start : Classifier} {scene : Scene Session} {step : Step}

theorem Follows.ready (hfollows : Follows watched start scene) (hready : start.Ready) :
    scene.keeper.reloader.classifier.Ready where
  format := hfollows.format ▸ hready.format
  isName := hfollows.encoding ▸ hready.isName
  encoding := hfollows.encoding ▸ hready.encoding

theorem Follows.unforeseen_iff (hfollows : Follows watched start scene) (bytes : Bytes) :
    scene.keeper.reloader.classifier.Unforeseen bytes ↔ start.Unforeseen bytes :=
  ⟨.of_eq hfollows.format.symm hfollows.encoding.symm, .of_eq hfollows.format hfollows.encoding⟩

/-- A file that cannot be read is passed over, unless its path is none. -/
theorem step_of_error {fault : FileFault} (hcontents : scene.contents? step = some (.error fault)) :
    scene.outcome step = some (if fault.isOfPath then .escaped (.file fault) else .unreadable) ∧
      scene.perform step = { scene with desk := step.change scene.desk } := by
  rw [outcome_of_reading hcontents, perform_of_reading hcontents]
  exact ⟨rfl, by simp [Reloader.reload, note?]⟩

theorem Follows.step_of_known (hfollows : Follows watched start scene)
    (hcontents : scene.contents? step = some (.ok bytes)) (hknown : ¬ scene.IsNew bytes) :
    scene.outcome step = some .unchanged ∧
      scene.perform step = { scene with desk := step.change scene.desk } := by
  have hlast : scene.keeper.reloader.lastDigest = some (Bytes.digest bytes) := by
    simp only [IsNew, not_forall, not_not] at hknown
    obtain ⟨note, hnote, hdigest⟩ := hknown
    rw [hfollows.digest, hnote, Option.map_some, hdigest]
  have hreload : scene.keeper.reloader.reload (.ok bytes) = (.unchanged, scene.keeper.reloader) :=
    if_pos hlast
  rw [outcome_of_reading hcontents, perform_of_reading hcontents, hreload]
  exact ⟨rfl, by simp [note?, Outcome.report?]⟩

theorem Follows.step_of_new (hfollows : Follows watched start scene) (hready : start.Ready)
    (hcontents : scene.contents? step = some (.ok bytes)) (hnew : scene.IsNew bytes) :
    ∃ outcome later, Refreshed scene.keeper.reloader.classifier bytes (outcome, later) ∧
      scene.outcome step = some outcome ∧
      scene.perform step =
        { desk := step.change scene.desk
          keeper := ⟨scene.keeper.path, later, if outcome.report?.isSome then
            some (Bytes.digest bytes) else scene.keeper.reloader.lastDigest⟩
          notes := scene.notes ++ (outcome.report?.map fun report => (bytes, report)).toList } := by
  have hlast : scene.keeper.reloader.lastDigest ≠ some (Bytes.digest bytes) := by
    rw [hfollows.digest]
    intro hsame
    obtain ⟨note, hnote, hdigest⟩ := Option.map_eq_some_iff.mp hsame
    exact hnew note hnote hdigest
  obtain ⟨outcome, later, hrefresh⟩ : ∃ outcome later,
      Watch.refresh scene.keeper.reloader.classifier (.ok bytes) = (outcome, later) := ⟨_, _, rfl⟩
  refine ⟨outcome, later, ?_, ?_, ?_⟩
  · rw [← hrefresh]
    exact refreshed_of_ready (hfollows.ready hready) bytes
  · rw [outcome_of_reading hcontents, reload_of_new hlast hrefresh]
  · rw [perform_of_reading hcontents, reload_of_new hlast hrefresh]
    cases hreport : outcome.report? <;> simp [note?, hreport]

/-- A step without a report changes nothing that is kept. -/
theorem Follows.of_silent (hfollows : Follows watched start scene) (desk : Desk) :
    Follows watched start { scene with desk } :=
  { hfollows with }

/-- A report is remembered together with what it is about. -/
theorem Follows.of_report (hfollows : Follows watched start scene) (hnew : scene.IsNew bytes)
    (desk : Desk) (report : Option RuleTree.Fault) {later : Classifier}
    (hformat : later.format = start.format) (hencoding : later.encoding = start.encoding) :
    Follows watched start ⟨desk, ⟨scene.keeper.path, later, some (Bytes.digest bytes)⟩,
      scene.notes ++ [(bytes, report)]⟩ where
  path := hfollows.path
  format := hformat
  encoding := hencoding
  digest := by simp
  notes := by
    apply hfollows.notes.append (.singleton _)
    intro note hnote last hlast
    rw [List.head?_cons, Option.mem_some_iff] at hlast
    rw [← hlast]
    exact hnew note hnote

/-- **Each step keeps the session in order.** -/
theorem Follows.perform (hfollows : Follows watched start scene) (hready : start.Ready)
    (step : Step) : Follows watched start (scene.perform step) := by
  cases hcontents : scene.contents? step with
  | none =>
      rw [perform_of_idle hcontents]
      exact hfollows.of_silent _
  | some contents =>
      cases contents with
      | error fault =>
          rw [(step_of_error hcontents).2]
          exact hfollows.of_silent _
      | ok bytes =>
          by_cases hnew : scene.IsNew bytes
          · obtain ⟨outcome, later, hrefreshed, -, hperform⟩ :=
              hfollows.step_of_new hready hcontents hnew
            rw [hperform]
            cases hrefreshed with
            | published hload hforeseen =>
                obtain ⟨-, _, _, -, -, hadopt⟩ := load_eq_ok_iff.mp hload
                obtain ⟨hformat, hencoding⟩ := setting_of_adopt hadopt
                exact hfollows.of_report hnew _ none (hformat.trans hfollows.format)
                  (hencoding.trans hfollows.encoding)
            | refused hload hforeseen =>
                exact hfollows.of_report hnew _ (some _) hfollows.format hfollows.encoding
            | escaped hload hunforeseen =>
                simp only [Outcome.report?, Option.map_none, Option.toList_none, List.append_nil]
                exact hfollows.of_silent _
          · rw [(hfollows.step_of_known hcontents hnew).2]
            exact hfollows.of_silent _

theorem Follows.foldl (hready : start.Ready) (steps : List Step) : ∀ {scene : Scene Session},
    Follows watched start scene → Follows watched start (steps.foldl Scene.perform scene) := by
  induction steps with
  | nil => exact fun hfollows => hfollows
  | cons step rest ih => exact fun hfollows => ih (hfollows.perform hready step)

/-- **Nothing but the unforeseen escapes.** -/
theorem Follows.escapes_iff (hfollows : Follows watched start scene) (hready : start.Ready) :
    (∃ fault, scene.outcome step = some (.escaped fault)) ↔
      (∃ fault, scene.contents? step = some (.error fault) ∧ fault.isOfPath = true) ∨
      ∃ bytes, scene.contents? step = some (.ok bytes) ∧ scene.IsNew bytes ∧
        start.Unforeseen bytes := by
  constructor
  · rintro ⟨fault, hescaped⟩
    cases hcontents : scene.contents? step with
    | none =>
        rw [outcome_of_idle hcontents] at hescaped
        cases hescaped
    | some contents =>
        cases contents with
        | error fault =>
            rw [(step_of_error hcontents).1] at hescaped
            refine .inl ⟨fault, rfl, ?_⟩
            by_contra hnot
            rw [if_neg hnot] at hescaped
            cases hescaped
        | ok bytes =>
            by_cases hnew : scene.IsNew bytes
            · obtain ⟨outcome, later, hrefreshed, houtcome, -⟩ :=
                hfollows.step_of_new hready hcontents hnew
              rw [houtcome, Option.some_inj] at hescaped
              subst hescaped
              cases hrefreshed with
              | escaped hload hunforeseen =>
                  exact .inr ⟨bytes, rfl, hnew, (hfollows.unforeseen_iff bytes).mp hunforeseen⟩
            · rw [(hfollows.step_of_known hcontents hnew).1] at hescaped
              cases hescaped
  · rintro (⟨fault, hcontents, hnone⟩ | ⟨bytes, hcontents, hnew, hunforeseen⟩)
    · rw [(step_of_error hcontents).1, if_pos hnone]
      exact ⟨_, rfl⟩
    · obtain ⟨outcome, later, hrefreshed, houtcome, -⟩ :=
        hfollows.step_of_new hready hcontents hnew
      rw [houtcome]
      rw [← hfollows.unforeseen_iff] at hunforeseen
      cases hrefreshed with
      | published hload hforeseen => exact absurd hunforeseen hforeseen
      | refused hload hforeseen => exact absurd hunforeseen hforeseen
      | escaped => exact ⟨_, rfl⟩

/-- New contents that give no tree leave the tree in use, and they are reported if they are
foreseen. -/
theorem Follows.step_of_load_error (hfollows : Follows watched start scene) (hready : start.Ready)
    (hcontents : scene.contents? step = some (.ok bytes)) (hnew : scene.IsNew bytes)
    {fault : LoadFault} (hload : scene.keeper.reloader.classifier.load (.ok bytes) = .error fault) :
    (scene.perform step).keeper.reloader.classifier = scene.keeper.reloader.classifier ∧
      (¬ start.Unforeseen bytes → ∃ cause, fault = .tree cause ∧
        (scene.perform step).notes = scene.notes ++ [(bytes, some cause)]) ∧
      (start.Unforeseen bytes → (scene.perform step).notes = scene.notes ∧
        (scene.perform step).keeper.reloader.lastDigest =
          scene.keeper.reloader.lastDigest) := by
  obtain ⟨outcome, later, hrefreshed, -, hperform⟩ := hfollows.step_of_new hready hcontents hnew
  rw [hperform, ← hfollows.unforeseen_iff]
  cases hrefreshed with
  | published hload' hforeseen =>
      rw [hload] at hload'
      cases hload'
  | refused hload' hforeseen =>
      rw [hload] at hload'
      cases hload'
      exact ⟨rfl, fun _ => ⟨_, rfl, rfl⟩, fun hunforeseen => absurd hunforeseen hforeseen⟩
  | escaped hload' hunforeseen =>
      refine ⟨rfl, fun hforeseen => absurd hunforeseen hforeseen, fun _ => ⟨?_, rfl⟩⟩
      simp [Outcome.report?]

end Scene

theorem ready_default : Classifier.Ready {} where
  format := usable_default
  isName := by decide +kernel
  encoding := ⟨.utf8, by decide +kernel⟩

end Watch

end Archetype

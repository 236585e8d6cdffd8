import Mathlib.Data.List.Destutter
import Mathlib.Data.Set.Function
import Archetype.Proofs.Classifier.Calls
import Archetype.Proofs.Watch.Scene

/-!
# What a reloader may forget

A reloader remembers one digest, that of the contents it reported last. Compared with one that reads
its file at every reload and remembers nothing, it loses nothing: contents that were reported last
are settled, which means that reading them again would change no tree and report the same. They stay
settled while other contents are passed over, and files go away and come back. So both have the same
tree after every step, and the reports of the one are those of the other without repetitions.

Digests must tell the contents apart that were read. Contents that were never read do not matter.
-/

namespace Archetype.Watch

/-- A reload without memory: the file is loaded whenever it can be read, and what gives no tree
leaves the classifier as it was. -/
def refresh (classifier : Classifier) (contents : Except FileFault Bytes) : Outcome × Classifier :=
  match contents with
  | .error fault => (if fault.isOfPath then .escaped (.file fault) else .unreadable, classifier)
  | .ok bytes =>
    match classifier.load (.ok bytes) with
    | .ok later => (.published, later)
    | .error (.tree fault) =>
      (if fault.isRuleFault then .refused fault else .escaped (.tree fault), classifier)
    | .error fault => (.escaped fault, classifier)

/-- A scene with a classifier that is refreshed at every reload, after one more step. -/
def Scene.refresh (watched : String) (scene : Scene Classifier) (step : Step) : Scene Classifier :=
  match step.contents? watched scene.desk with
  | none => { scene with desk := step.change scene.desk }
  | some contents =>
    let (outcome, keeper) := Watch.refresh scene.keeper contents
    { desk := step.change scene.desk
      keeper
      notes := scene.notes ++ (note? (some contents) (some outcome)).toList }

/-- Two reports are about different contents. -/
def Note.Differs (first second : Note) : Prop :=
  first.1 ≠ second.1

instance : DecidableRel Note.Differs :=
  fun first second => inferInstanceAs (Decidable (first.1 ≠ second.1))

/-! ### Reports without repetitions -/

/-- The last of the reports and the last one that is kept are about the same contents, so it is the
last one that decides whether a further report is kept. -/
theorem destutter'_concat (later : Note) : ∀ (notes : List Note) (first : Note),
    (notes ++ [later]).destutter' Note.Differs first =
      notes.destutter' Note.Differs first ++
        if (notes.getLast?.getD first).1 = later.1 then [] else [later] := by
  intro notes
  induction notes with
  | nil =>
      intro first
      by_cases hsame : first.1 = later.1 <;> simp [Note.Differs, hsame]
  | cons next rest ih =>
      intro first
      have hlast : (next :: rest).getLast?.getD first = rest.getLast?.getD next := by
        rw [List.getLast?_cons, Option.getD_some]
      rw [List.cons_append, hlast]
      by_cases hdiffers : first.Differs next
      · rw [List.destutter'_cons_pos _ hdiffers, List.destutter'_cons_pos _ hdiffers, ih,
          List.cons_append]
      · have hsame : first.1 = next.1 := not_not.mp hdiffers
        rw [List.destutter'_cons_neg _ hdiffers, List.destutter'_cons_neg _ hdiffers, ih]
        cases rest with
        | nil => by_cases hnext : next.1 = later.1 <;> simp [hsame, hnext]
        | cons other others => simp [List.getLast?_cons]

theorem destutter_concat {notes : List Note} {last : Note} (hlast : notes.getLast? = some last)
    (later : Note) :
    (notes ++ [later]).destutter Note.Differs =
      notes.destutter Note.Differs ++ if last.1 = later.1 then [] else [later] := by
  cases notes with
  | nil => cases hlast
  | cons first rest =>
      rw [List.getLast?_cons] at hlast
      rw [List.cons_append, List.destutter_cons', List.destutter_cons', destutter'_concat,
        Option.some.inj hlast]

/-! ### Contents that are settled -/

/-- Reading these contents again changes no tree and leads to the same report. -/
def Settled (classifier : Classifier) (note : Note) : Prop :=
  ∃ outcome, refresh classifier (.ok note.1) = (outcome, classifier) ∧
    outcome.report? = some note.2

theorem refresh_error (classifier : Classifier) (fault : FileFault) :
    (refresh classifier (.error fault)).2 = classifier :=
  rfl

/-- A classifier that has taken over a file takes it over again as it is. -/
theorem load_of_load {classifier later : Classifier} {contents : Except FileFault Bytes}
    (hload : classifier.load contents = .ok later) : later.load contents = .ok later := by
  obtain ⟨hname, bytes, text, hbytes, htext, hadopt⟩ := Classifier.load_eq_ok_iff.mp hload
  obtain ⟨tree, hread, rfl⟩ := Classifier.exists_read_of_adopt hadopt
  refine Classifier.load_eq_ok_iff.mpr ⟨hname, bytes, text, hbytes, htext, ?_⟩
  rw [Classifier.adopt, hread]
  rfl

/-- Contents that are reported on are settled from then on. -/
theorem settled_of_refresh {classifier later : Classifier} {bytes : Bytes} {outcome : Outcome}
    {report : Option RuleTree.Fault}
    (hrefresh : refresh classifier (.ok bytes) = (outcome, later))
    (hreport : outcome.report? = some report) : Settled later (bytes, report) := by
  refine ⟨outcome, ?_, hreport⟩
  unfold refresh at hrefresh ⊢
  dsimp only at hrefresh ⊢
  cases hload : classifier.load (.ok bytes) with
  | ok updated =>
      rw [hload] at hrefresh
      cases hrefresh
      rw [load_of_load hload]
  | error fault =>
      rw [hload] at hrefresh
      cases fault with
      | file fault => cases hrefresh; cases hreport
      | text fault => cases hrefresh; cases hreport
      | tree fault =>
          dsimp only at hrefresh
          cases hrefresh
          rw [hload]

/-- Without a report nothing has changed. -/
theorem refresh_of_silent {classifier later : Classifier} {bytes : Bytes} {outcome : Outcome}
    (hrefresh : refresh classifier (.ok bytes) = (outcome, later))
    (hsilent : outcome.report? = none) : later = classifier := by
  unfold refresh at hrefresh
  dsimp only at hrefresh
  split at hrefresh
  · cases hrefresh
    cases hsilent
  · cases hrefresh
    rfl
  · cases hrefresh
    rfl

/-- What a reloader does with contents other than those it remembers. -/
theorem reload_of_new {reloader : Reloader} {bytes : Bytes}
    (hnew : reloader.lastDigest ≠ some (Bytes.digest bytes)) {outcome : Outcome}
    {later : Classifier} (hrefresh : refresh reloader.classifier (.ok bytes) = (outcome, later)) :
    reloader.reload (.ok bytes) = (outcome, ⟨later,
      if outcome.report?.isSome then some (Bytes.digest bytes) else reloader.lastDigest⟩) := by
  unfold refresh at hrefresh
  unfold Reloader.reload
  dsimp only at hrefresh ⊢
  rw [if_neg hnew]
  cases hload : reloader.classifier.load (.ok bytes) with
  | ok found =>
      rw [hload] at hrefresh
      cases hrefresh
      rfl
  | error fault =>
      rw [hload] at hrefresh
      cases fault with
      | tree fault =>
          cases hrefresh
          dsimp only
          by_cases hfault : fault.isRuleFault = true
          · rw [if_pos hfault, if_pos hfault]
            rfl
          · rw [if_neg hfault, if_neg hfault]
            rfl
      | file fault | text fault =>
          cases hrefresh
          rfl

/-! ### Both reloaders side by side -/

/-- A scene with a session and one with a classifier that is always refreshed agree, and the session
remembers what was reported last. -/
structure Agree (watched : String) (known : Set Bytes) (scene : Scene Session)
    (plain : Scene Classifier) : Prop where
  desk : scene.desk = plain.desk
  path : scene.keeper.path = watched
  classifier : scene.keeper.reloader.classifier = plain.keeper
  notes : scene.notes = plain.notes.destutter Note.Differs
  digest : scene.keeper.reloader.lastDigest =
    plain.notes.getLast?.map fun note => Bytes.digest note.1
  last : ∀ note, plain.notes.getLast? = some note →
    note.1 ∈ known ∧ Settled plain.keeper note

section Step

variable {watched : String} {known : Set Bytes} {scene : Scene Session} {plain : Scene Classifier}
  (hagree : Agree watched known scene plain) {step : Step}
include hagree

theorem agree_of_idle (hidle : step.contents? watched plain.desk = none) :
    Agree watched known (scene.perform step) (plain.refresh watched step) := by
  have hnone : scene.contents? step = none := by
    rw [Scene.contents?, hagree.path, hagree.desk, hidle]
  rw [Scene.perform_of_idle hnone, Scene.refresh, hidle]
  exact { hagree with desk := congrArg (fun desk => step.change desk) hagree.desk }

theorem perform_of_reading {contents : Except FileFault Bytes}
    (hcontents : step.contents? watched plain.desk = some contents) :
    scene.perform step =
      { desk := step.change plain.desk
        keeper := ⟨watched, (scene.keeper.reloader.reload contents).2⟩
        notes := plain.notes.destutter Note.Differs ++
          (note? (some contents) (some (scene.keeper.reloader.reload contents).1)).toList } := by
  have hread : scene.contents? step = some contents := by
    rw [Scene.contents?, hagree.path, hagree.desk, hcontents]
  rw [Scene.perform_of_reading hread, hagree.desk, hagree.path, hagree.notes]

/-- A file that cannot be read changes nothing. -/
theorem agree_of_unreadable {fault : FileFault}
    (hcontents : step.contents? watched plain.desk = some (.error fault)) :
    Agree watched known (scene.perform step) (plain.refresh watched step) := by
  have hnone : ∀ outcome, note? (some (.error fault)) (some outcome) = none := fun _ => rfl
  rw [perform_of_reading hagree hcontents, Scene.refresh, hcontents]
  dsimp only
  rw [hnone, hnone, refresh_error]
  simp only [Option.toList_none, List.append_nil]
  exact { hagree with desk := rfl, path := rfl, notes := rfl }

/-- Contents that were reported last are passed over, and reading them again would change nothing
but repeat the report. -/
theorem agree_of_settled {bytes : Bytes} {note : Note}
    (hcontents : step.contents? watched plain.desk = some (.ok bytes))
    (hlast : plain.notes.getLast? = some note) (hsame : note.1 = bytes) :
    Agree watched known (scene.perform step) (plain.refresh watched step) := by
  subst hsame
  obtain ⟨hknown, outcome, hrefresh, hreport⟩ := hagree.last note hlast
  have hdigest : scene.keeper.reloader.lastDigest = some (Bytes.digest note.1) := by
    rw [hagree.digest, hlast]
    rfl
  have hreload : scene.keeper.reloader.reload (.ok note.1) =
      (.unchanged, scene.keeper.reloader) := if_pos hdigest
  have hnote : note? (some (.ok note.1)) (some outcome) = some note := by
    unfold note?
    rw [Option.bind_some, hreport]
  have hunchanged : note? (some (.ok note.1)) (some .unchanged) = none := rfl
  have hagain : (plain.notes ++ [note]).getLast? = some note := List.getLast?_concat
  rw [perform_of_reading hagree hcontents, hreload, Scene.refresh, hcontents]
  dsimp only
  rw [hrefresh]
  dsimp only
  rw [hnote, hunchanged]
  simp only [Option.toList_none, Option.toList_some, List.append_nil]
  refine ⟨rfl, rfl, hagree.classifier, ?_, ?_, ?_⟩
  · rw [destutter_concat hlast, if_pos rfl, List.append_nil]
  · rw [hagain]
    exact hdigest
  · intro later hlater
    rw [hagain] at hlater
    cases hlater
    exact ⟨hknown, outcome, hrefresh, hreport⟩

/-- Other contents are read by both, and what is reported on is remembered. -/
theorem agree_of_new {bytes : Bytes}
    (hcontents : step.contents? watched plain.desk = some (.ok bytes)) (hknown : bytes ∈ known)
    (hnew : ∀ note, plain.notes.getLast? = some note → Bytes.digest note.1 ≠ Bytes.digest bytes) :
    Agree watched known (scene.perform step) (plain.refresh watched step) := by
  have hdigest : scene.keeper.reloader.lastDigest ≠ some (Bytes.digest bytes) := by
    rw [hagree.digest]
    intro hsame
    obtain ⟨note, hnote, hdigest⟩ := Option.map_eq_some_iff.mp hsame
    exact hnew note hnote hdigest
  obtain ⟨outcome, later, hrefresh⟩ :
      ∃ outcome later, refresh plain.keeper (.ok bytes) = (outcome, later) := ⟨_, _, rfl⟩
  have hrefresh' : refresh scene.keeper.reloader.classifier (.ok bytes) = (outcome, later) := by
    rw [hagree.classifier]
    exact hrefresh
  rw [perform_of_reading hagree hcontents, reload_of_new hdigest hrefresh', Scene.refresh,
    hcontents]
  dsimp only
  rw [hrefresh]
  dsimp only
  cases hreport : outcome.report? with
  | none =>
      have hnote : note? (some (.ok bytes)) (some outcome) = none := by
        unfold note?
        rw [Option.bind_some, hreport]
      rw [hnote, refresh_of_silent hrefresh hreport]
      simp only [Option.toList_none, List.append_nil]
      exact { hagree with desk := rfl, path := rfl, classifier := rfl, notes := rfl }
  | some report =>
      have hnote : note? (some (.ok bytes)) (some outcome) = some (bytes, report) := by
        unfold note?
        rw [Option.bind_some, hreport]
      have hagain : (plain.notes ++ [(bytes, report)]).getLast? = some (bytes, report) :=
        List.getLast?_concat
      rw [hnote]
      simp only [Option.toList_some]
      refine ⟨rfl, rfl, rfl, ?_, ?_, ?_⟩
      · cases hlast : plain.notes.getLast? with
        | none =>
            rw [List.getLast?_eq_none_iff.mp hlast]
            rfl
        | some note =>
            have hother : note.1 ≠ bytes := by
              intro hsame
              exact hnew note hlast (congrArg Bytes.digest hsame)
            rw [destutter_concat hlast, if_neg hother]
      · rw [hagain]
        rfl
      · intro note hnote
        rw [hagain] at hnote
        cases hnote
        exact ⟨hknown, settled_of_refresh hrefresh hreport⟩

/-- **Scenes keep agreeing from step to step.** -/
theorem agree_step (hdigest : known.InjOn Bytes.digest)
    (hknown : ∀ bytes, step.contents? watched plain.desk = some (.ok bytes) → bytes ∈ known) :
    Agree watched known (scene.perform step) (plain.refresh watched step) := by
  cases hcontents : step.contents? watched plain.desk with
  | none => exact agree_of_idle hagree hcontents
  | some contents =>
      cases contents with
      | error fault => exact agree_of_unreadable hagree hcontents
      | ok bytes =>
          have hbytes := hknown bytes hcontents
          by_cases hlast : ∃ note, plain.notes.getLast? = some note ∧ note.1 = bytes
          · obtain ⟨note, hnote, hsame⟩ := hlast
            exact agree_of_settled hagree hcontents hnote hsame
          · refine agree_of_new hagree hcontents hbytes ?_
            intro note hnote hsame
            obtain ⟨hmem, -⟩ := hagree.last note hnote
            exact hlast ⟨note, hnote, hdigest hmem hbytes hsame⟩

end Step

theorem desk_refresh (watched : String) (plain : Scene Classifier) (step : Step) :
    (plain.refresh watched step).desk = step.change plain.desk := by
  unfold Scene.refresh
  split <;> rfl

theorem agree_foldl {watched : String} {known : Set Bytes} (hdigest : known.InjOn Bytes.digest) :
    ∀ (steps : List Step) {scene : Scene Session} {plain : Scene Classifier},
      Agree watched known scene plain → (∀ bytes ∈ seen watched plain.desk steps, bytes ∈ known) →
        Agree watched known (steps.foldl Scene.perform scene)
          (steps.foldl (Scene.refresh watched) plain) := by
  intro steps
  induction steps with
  | nil =>
      intro scene plain hagree _
      exact hagree
  | cons step rest ih =>
      intro scene plain hagree hknown
      rw [seen, List.forall_mem_append] at hknown
      refine ih (agree_step hagree hdigest ?_) ?_
      · intro bytes hcontents
        apply hknown.1
        rw [hcontents]
        exact List.mem_singleton_self bytes
      · rw [desk_refresh]
        exact hknown.2

theorem agree_start (watched : String) (known : Set Bytes) (desk : Desk) (classifier : Classifier) :
    Agree watched known ⟨desk, ⟨watched, { classifier }⟩, []⟩ ⟨desk, classifier, []⟩ := by
  refine ⟨rfl, rfl, rfl, rfl, rfl, ?_⟩
  intro note hnote
  cases hnote

theorem seen_subset_of_begins {watched : String} {taken steps : List Step}
    (hbegins : taken <+: steps) :
    ∀ desk, ∀ bytes ∈ seen watched desk taken, bytes ∈ seen watched desk steps := by
  obtain ⟨later, rfl⟩ := hbegins
  induction taken with
  | nil =>
      intro desk bytes hbytes
      cases hbytes
  | cons step rest ih =>
      intro desk bytes hbytes
      rw [List.cons_append, seen, List.mem_append]
      rw [seen, List.mem_append] at hbytes
      exact hbytes.imp_right (ih _ bytes)

/-- **A reloader that remembers a digest does what one without memory does.** Whatever happens to
the files and is asked for, after every step both have the same tree, and the reports are those
about each contents in turn, of which only the first is kept as long as the contents stay the
same. -/
theorem reload_eq_refresh_of_digest_injOn {watched : String} {desk : Desk} {classifier : Classifier}
    {steps : List Step} (hdigest : Set.InjOn Bytes.digest {bytes | bytes ∈ seen watched desk steps})
    {taken : List Step} (htaken : taken <+: steps) :
    (taken.foldl Scene.perform ⟨desk, ⟨watched, { classifier }⟩, []⟩).keeper.reloader.classifier =
      (taken.foldl (Scene.refresh watched) ⟨desk, classifier, []⟩).keeper ∧
    (taken.foldl Scene.perform ⟨desk, ⟨watched, { classifier }⟩, []⟩).notes =
      (taken.foldl (Scene.refresh watched) ⟨desk, classifier, []⟩).notes.destutter
        fun first second => first.1 ≠ second.1 := by
  have hagree := agree_foldl hdigest taken (agree_start watched _ desk classifier)
    (seen_subset_of_begins htaken desk)
  refine ⟨hagree.classifier, ?_⟩
  rw [hagree.notes]
  rfl

/-- An empty outline is replaced by a faulty line, comes back, is deleted and written again. -/
theorem reload_eq_refresh_of_rewritten_rules :
    ∃ steps : List Step, seen "rules" {} steps = [[], [65], [], []] ∧
      Set.InjOn Bytes.digest {bytes | bytes ∈ seen "rules" {} steps} ∧ ∀ taken, taken <+: steps →
        (taken.foldl Scene.perform
            ⟨{}, ⟨"rules", { classifier := {} }⟩, []⟩).keeper.reloader.classifier =
          (taken.foldl (Scene.refresh "rules") ⟨{}, {}, []⟩).keeper ∧
        (taken.foldl Scene.perform ⟨{}, ⟨"rules", { classifier := {} }⟩, []⟩).notes =
          (taken.foldl (Scene.refresh "rules") ⟨{}, {}, []⟩).notes.destutter
            fun first second => first.1 ≠ second.1 := by
  have hseen : seen "rules" {} [.write "rules" [], .reload none, .write "rules" [65],
      .notice ⟨.modified, "rules", "", false⟩, .write "rules" [], .reload (some "rules"),
      .delete "rules", .reload none, .write "rules" [],
      .notice ⟨.moved, "old", "./rules", false⟩] = [[], [65], [], []] := by
    decide +kernel
  have hdiffer : ∀ first ∈ ([[], [65], [], []] : List Bytes),
      ∀ second ∈ ([[], [65], [], []] : List Bytes),
        Bytes.digest first = Bytes.digest second → first = second := by
    decide +kernel
  rw [← hseen] at hdiffer
  have hdigest : Set.InjOn Bytes.digest {bytes | bytes ∈ seen "rules" {} _} :=
    fun first hfirst second hsecond => hdiffer first hfirst second hsecond
  exact ⟨_, hseen, hdigest, fun taken htaken => reload_eq_refresh_of_digest_injOn hdigest htaken⟩

end Archetype.Watch

import Archetype.Command.Sources
import Archetype.Desk
import Archetype.Proofs.Record.Faults

/-!
# How the reading of a record file ends

A file that can be read gives a record, or what is wrong with it is told and the run ends with the
code for failure. Files of which the fault is not foreseen are an exception: they end the run
without a word.
-/

namespace Archetype

namespace Record

/-- Contents of which the fault is not told: a number that is too large to be computed with, or data
of which the first faulty part is an unforeseen description of a bag. -/
def UnforeseenContents (bytes : Bytes) : Prop :=
  (∃ fault, Yaml.read (.ofBytes bytes) = .error fault ∧ fault.isOverflow = true) ∨
    ∃ entries, Yaml.read (.ofBytes bytes) = .ok (.map entries) ∧ UnforeseenData entries

theorem ofEntries_nil : ofEntries [] = .ok ⟨none, .empty, .empty, .empty⟩ :=
  rfl

theorem ofDocument_map (path : String) (entries : List (Datum × Datum)) :
    ofDocument path (.map entries) = (ofEntries entries).mapError .record := by
  cases entries <;> rfl

theorem ofDocument_of_not_map {path : String} {document : Datum} {fault : FileFault}
    (hmap : ∀ entries, document ≠ .map entries) (herror : ofDocument path document = .error fault) :
    fault = .notMapping path := by
  unfold ofDocument at herror
  split at herror
  · rw [ofEntries_nil] at herror
    cases herror
  · split at herror
    · exact absurd rfl (hmap _)
    · exact (Except.error.inj herror).symm

theorem ofFile_of_read {path : String} {bytes : Bytes} {document : Datum}
    (hread : Yaml.read (.ofBytes bytes) = .ok document) :
    ofFile path (.ok bytes) = ofDocument path document := by
  change ((Yaml.read (.ofBytes bytes)).mapError FileFault.document >>= ofDocument path) = _
  rw [hread]
  rfl

theorem ofFile_of_read_error {path : String} {bytes : Bytes} {fault : Yaml.Fault}
    (hread : Yaml.read (.ofBytes bytes) = .error fault) :
    ofFile path (.ok bytes) = .error (.document fault) := by
  change ((Yaml.read (.ofBytes bytes)).mapError FileFault.document >>= ofDocument path) = _
  rw [hread]
  rfl

/-- **What is not told as a fault of a record file.** -/
theorem ofFile_unforeseen_iff (path : String) {bytes : Bytes} :
    (∃ fault, ofFile path (.ok bytes) = .error fault ∧ fault.isForeseen = false) ↔
      UnforeseenContents bytes := by
  unfold UnforeseenContents
  cases hread : Yaml.read (.ofBytes bytes) with
  | error fault =>
      rw [ofFile_of_read_error hread]
      simp [FileFault.isForeseen]
  | ok document =>
      rw [ofFile_of_read hread]
      simp only [reduceCtorEq, false_and, exists_false, false_or, Except.ok.injEq]
      constructor
      · rintro ⟨fault, herror, hunforeseen⟩
        by_cases hmap : ∃ entries, document = .map entries
        · obtain ⟨entries, rfl⟩ := hmap
          rw [ofDocument_map] at herror
          cases hentries : ofEntries entries with
          | ok record => rw [hentries] at herror; cases herror
          | error cause =>
              rw [hentries] at herror
              cases herror
              exact ⟨entries, rfl, ofEntries_unforeseen_iff.mp ⟨cause, hentries, hunforeseen⟩⟩
        · rw [ofDocument_of_not_map (not_exists.mp hmap) herror] at hunforeseen
          cases hunforeseen
      · rintro ⟨entries, rfl, hentries⟩
        obtain ⟨cause, hcause, hunforeseen⟩ := ofEntries_unforeseen_iff.mpr hentries
        refine ⟨.record cause, ?_, hunforeseen⟩
        rw [ofDocument_map, hcause]
        rfl

end Record

namespace Command

/-- The line that tells the fault of a record file. -/
def toldLine (fault : Record.FileFault) : String :=
  (Text.plain s!"❌ {fault.message}").spelled ++ "\n"

theorem run_readRecord {desk : Desk} {path : String} {bytes : Bytes}
    (hread : desk.folder.read (desk.inside path) = .ok bytes) :
    (readRecord path : Run (StateM Desk) Record).run.run desk =
      match Record.ofFile path (.ok bytes) with
      | .ok record => (.ok record, desk)
      | .error fault =>
        if fault.isForeseen then
          (.error (.exit 1), { desk with warned := desk.warned ++ toldLine fault })
        else (.error (.crash (.record fault)), desk) := by
  have hcontents : (Host.read path : StateM Desk (Except FileFault Bytes)).run desk =
      (.ok bytes, desk) := by
    change ((desk.folder.read (desk.inside path)).mapError _, desk) = _
    rw [hread]
    rfl
  rw [readRecord, ExceptT.run_bind, ExceptT.run_lift, StateT.run_bind, StateT.run_map, hcontents]
  change StateT.run (ExceptT.run (match Record.ofFile path (.ok bytes) with
    | .ok record => pure record
    | .error fault =>
      if fault.isForeseen then Run.fail s!"❌ {fault.message}" else Run.crash (.record fault))) desk = _
  cases Record.ofFile path (.ok bytes) with
  | ok record => rfl
  | error fault =>
      dsimp only
      split <;> rfl

theorem exists_crash_of_unforeseen {desk : Desk} {path : String} {bytes : Bytes}
    (hread : desk.folder.read (desk.inside path) = .ok bytes)
    (hunforeseen : Record.UnforeseenContents bytes) :
    ∃ crash, (readRecord path : Run (StateM Desk) Record).run.run desk =
      (.error (.crash crash), desk) := by
  obtain ⟨fault, herror, hforeseen⟩ := (Record.ofFile_unforeseen_iff path).mpr hunforeseen
  rw [run_readRecord hread, herror]
  dsimp only
  rw [hforeseen]
  exact ⟨_, rfl⟩

/-- A desk with one file. -/
def deskWith (path contents : String) : Desk :=
  { folder := ⟨[([path], Bytes.Utf8.encode contents.toList)], []⟩ }

end Command

end Archetype

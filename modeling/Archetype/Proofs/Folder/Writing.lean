import Archetype.Desk
import Archetype.Proofs.Entries
import Archetype.Proofs.Outcome

/-!
# What is read after it was written

A file is written where a path ends in a file or at nothing. Writing it changes what is at this place
and nowhere else, and no path passes through the place. So the same path leads to the file after it
was written, and reading there gives what was written.
-/

namespace Archetype

namespace Folder

/-- Where a file can be written at a spot. -/
def Spot.place? : Spot → Option Place
  | .file place _ | .vacant place => some place
  | .folder _ | .outside => none

/-- A spot after a file was written at a place. -/
def Spot.written (place : Place) (contents : Bytes) (spot : Spot) : Spot :=
  if spot.place? = some place then .file place contents else spot

theorem Spot.written_of_place?_eq_none {spot : Spot} (hnone : spot.place? = none) (place : Place)
    (contents : Bytes) : spot.written place contents = spot := by
  apply if_neg
  simp [hnone]

/-- A spot at which a file can be written is what is seen at its place. -/
def Sees (folder : Folder) (spot : Spot) : Prop :=
  ∀ place, spot.place? = some place → folder.spotAt place = spot

theorem sees_of_place?_eq_none {folder : Folder} {spot : Spot} (hnone : spot.place? = none) :
    folder.Sees spot := by
  intro place hplace
  rw [hnone] at hplace
  cases hplace

theorem eq_of_place?_spotAt {folder : Folder} {place other : Place}
    (hplace : (folder.spotAt place).place? = some other) : place = other := by
  unfold spotAt at hplace
  split at hplace
  · exact Option.some_inj.mp hplace
  · split at hplace
    · cases hplace
    · exact Option.some_inj.mp hplace

/-- A step leads on from where no file can be written, and looks at one place at most. -/
theorem step_cases {folder : Folder} {spot next : Spot} {name : String}
    (hstep : folder.step spot name = .ok next) : spot.place? = none ∧
      ((next.place? = none ∧ ∀ other : Folder, other.step spot name = .ok next) ∨
        ∃ place, next = folder.spotAt place ∧
          ∀ other : Folder, other.step spot name = .ok (other.spotAt place)) := by
  cases spot with
  | file => cases hstep
  | vacant => cases hstep
  | outside =>
      refine ⟨rfl, .inl ⟨?_, fun _ => hstep⟩⟩
      simp only [step] at hstep
      split at hstep
      · cases hstep
      · split at hstep <;> cases hstep
        rfl
  | folder place =>
      refine ⟨rfl, ?_⟩
      simp only [step] at hstep ⊢
      split at hstep
      · cases hstep
      · next hshort =>
        simp only [hshort, if_false]
        split_ifs at hstep ⊢
        all_goals cases hstep
        · exact .inl ⟨rfl, fun _ => rfl⟩
        · exact .inl ⟨rfl, fun _ => rfl⟩
        · exact .inl ⟨rfl, fun _ => rfl⟩
        · exact .inr ⟨_, rfl, fun _ => rfl⟩

theorem sees_of_step {folder : Folder} {spot next : Spot} {name : String}
    (hstep : folder.step spot name = .ok next) : folder.Sees next := by
  obtain ⟨-, ⟨hnone, -⟩ | ⟨place, rfl, -⟩⟩ := step_cases hstep
  · exact sees_of_place?_eq_none hnone
  · intro other hother
    rw [eq_of_place?_spotAt hother]

theorem sees_of_foldlM {folder : Folder} {names : List String} {last : Spot} :
    ∀ {spot}, folder.Sees spot → names.foldlM folder.step spot = .ok last → folder.Sees last := by
  induction names with
  | nil =>
      intro spot hspot hlast
      cases hlast
      exact hspot
  | cons name rest ih =>
      intro spot _ hlast
      rw [List.foldlM_cons] at hlast
      obtain ⟨next, hstep, hrest⟩ := exists_of_bind_eq_ok hlast
      exact ih (sees_of_step hstep) hrest

/-! ### Writing a file -/

/-- A folder after a file was written at a place. -/
def written (folder : Folder) (place : Place) (contents : Bytes) : Folder :=
  { folder with files := putFile place contents folder.files }

theorem putFile_eq_putFirst (place : Place) (contents : Bytes) (files : List (Place × Bytes)) :
    putFile place contents files = putFirst place contents files := by
  induction files with
  | nil => rfl
  | cons file rest ih => rw [putFile, putFirst, ih]

theorem file?_written (folder : Folder) (place other : Place) (contents : Bytes) :
    (folder.written place contents).file? other =
      if other = place then some contents else folder.file? other := by
  rw [file?, written, putFile_eq_putFirst, lookup_putFirst]
  rfl

theorem spotAt_written {folder : Folder} {place : Place}
    (hplace : (folder.spotAt place).place? = some place) (contents : Bytes) (other : Place) :
    (folder.written place contents).spotAt other =
      (folder.spotAt other).written place contents := by
  by_cases hother : other = place
  · subst hother
    rw [Spot.written, if_pos hplace, spotAt, file?_written, if_pos rfl]
  · have hkept : (folder.spotAt other).place? ≠ some place := fun h => hother (eq_of_place?_spotAt h)
    rw [Spot.written, if_neg hkept, spotAt, file?_written,
      if_neg hother]
    rfl

theorem step_written {folder : Folder} {place : Place}
    (hplace : (folder.spotAt place).place? = some place) (contents : Bytes) {spot next : Spot}
    {name : String} (hstep : folder.step spot name = .ok next) :
    (folder.written place contents).step (spot.written place contents) name =
      .ok (next.written place contents) := by
  obtain ⟨hspot, ⟨hnext, hothers⟩ | ⟨other, rfl, hothers⟩⟩ := step_cases hstep
  · rw [Spot.written_of_place?_eq_none hspot, Spot.written_of_place?_eq_none hnext]
    exact hothers _
  · rw [Spot.written_of_place?_eq_none hspot, hothers, spotAt_written hplace]

theorem foldlM_written {folder : Folder} {place : Place}
    (hplace : (folder.spotAt place).place? = some place) (contents : Bytes) {names : List String}
    {last : Spot} : ∀ {spot}, names.foldlM folder.step spot = .ok last →
      names.foldlM (folder.written place contents).step (spot.written place contents) =
        .ok (last.written place contents) := by
  induction names with
  | nil =>
      intro spot hlast
      cases hlast
      rfl
  | cons name rest ih =>
      intro spot hlast
      rw [List.foldlM_cons] at hlast ⊢
      obtain ⟨next, hstep, hrest⟩ := exists_of_bind_eq_ok hlast
      rw [step_written hplace contents hstep]
      exact ih hrest

/-- A path along which something is found is a path, and leads there from its start. -/
theorem find_eq_ok {folder : Folder} {path : String} {spot : Spot}
    (hfind : folder.find path = .ok spot) : ∃ start : Spot, start.place? = none ∧
      ∀ other : Folder, other.find path = (Path.steps path).foldlM other.step start := by
  refine ⟨if Path.isAbsolute path then .outside else .folder [], by split <;> rfl, fun other => ?_⟩
  unfold find at hfind ⊢
  split_ifs at hfind ⊢ <;> rfl

theorem find_written {folder : Folder} {path : String} {spot : Spot} {place : Place}
    (hfind : folder.find path = .ok spot) (hplace : spot.place? = some place) (contents : Bytes) :
    (folder.written place contents).find path = .ok (.file place contents) := by
  obtain ⟨start, hstart, hothers⟩ := find_eq_ok hfind
  rw [hothers] at hfind ⊢
  -- The place is vacant or a file, so no path passes through it.
  have hsees : folder.Sees spot := sees_of_foldlM (sees_of_place?_eq_none hstart) hfind
  have hspot : (folder.spotAt place).place? = some place := by rw [hsees place hplace, hplace]
  have hlast := foldlM_written hspot contents hfind
  rwa [Spot.written_of_place?_eq_none hstart, Spot.written, if_pos hplace] at hlast

theorem exists_of_write_eq_ok {folder later : Folder} {path : String} {contents : Bytes}
    (hwrite : folder.write path contents = .ok later) : ∃ spot place,
      folder.find path = .ok spot ∧ spot.place? = some place ∧
        later = folder.written place contents := by
  unfold write at hwrite
  split at hwrite
  · next hfind =>
    cases hwrite
    exact ⟨_, _, hfind, rfl, rfl⟩
  · next hfind =>
    cases hwrite
    exact ⟨_, _, hfind, rfl, rfl⟩
  · cases hwrite
  · cases hwrite
  · cases hwrite

/-- **What was written is read.** -/
theorem read_of_write {folder later : Folder} {path : String} {contents : Bytes}
    (hwrite : folder.write path contents = .ok later) : later.read path = .ok contents := by
  obtain ⟨spot, place, hfind, hplace, rfl⟩ := exists_of_write_eq_ok hwrite
  rw [read, find_written hfind hplace]

end Folder

namespace Desk

variable {path : String} {contents : Bytes} {desk later : Desk}

theorem run_write (path : String) (contents : Bytes) (desk : Desk) :
    (Host.write path contents : StateM Desk _).run desk =
      match desk.folder.write (desk.inside path) contents with
      | .ok folder => (.ok (), { desk with folder })
      | .error fault => (.error { fault with path }, desk) := by
  simp only [Host.write, StateT.run_bind, StateT.run_get]
  change change path (fun folder => match folder.write (desk.inside path) contents with
    | .ok folder => (.ok (), folder)
    | .error fault => (.error fault, folder)) desk = _
  rw [change]
  dsimp only
  cases desk.folder.write (desk.inside path) contents <;> rfl

/-- At a desk, too, a path gives what was written there. -/
theorem run_read_of_run_write
    (hwrite : (Host.write path contents : StateM Desk _).run desk = (.ok (), later)) :
    (Host.read path : StateM Desk _).run later = (.ok contents, later) := by
  rw [run_write] at hwrite
  split at hwrite <;> cases hwrite
  next folder hfolder =>
  have hread : folder.read (desk.inside path) = .ok contents := Folder.read_of_write hfolder
  change ((folder.read (desk.inside path)).mapError _, _) = _
  rw [hread]
  rfl

end Desk

end Archetype

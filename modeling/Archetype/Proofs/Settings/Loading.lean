import Archetype.Proofs.Outcome
import Archetype.Settings.File

/-!
# How much of a settings file is taken over

A file that cannot be used changes nothing, and a document that is no mapping changes nothing either.
The sections of a mapping are taken over one after the other. If all of them have the right shape,
they are all taken over. Otherwise the loading ends at the first one of a wrong shape, and what was
taken over before it stays. So loading is all or nothing as long as no section that changes something
stands before one of a wrong shape.
-/

namespace Archetype.Settings

/-- A section of a settings file: its name, and what its entries do. -/
structure Part where
  name : String
  change : List (Datum × Datum) → Settings → Settings

/-- The sections in the order in which they are taken over. -/
def parts : List Part :=
  [⟨"rules", fun entries s =>
      { s with rules := rulesShape.updateOthers (rulesShape.update s.rules entries) entries }⟩,
    ⟨"watch", fun entries s => { s with watch := watchShape.update s.watch entries }⟩,
    ⟨"system", fun entries s => { s with system := systemShape.update s.system entries }⟩]

/-- The entries of a section; what is no mapping has none. -/
def entriesOf : Datum → List (Datum × Datum)
  | .map entries => entries
  | _ => []

/-- Content without entries. -/
def isMisshapen : Datum → Bool
  | .map _ => false
  | datum => !datum.isEmpty

namespace Part

/-- What a section holds if it has a wrong shape. -/
def misshapen? (part : Part) (entries : List (Datum × Datum)) : Option Datum :=
  (Datum.get? entries part.name).filter isMisshapen

/-- Settings with the entries of a section, if there is one. -/
def apply (entries : List (Datum × Datum)) (settings : Settings) (part : Part) : Settings :=
  (Datum.get? entries part.name).elim settings fun datum => part.change (entriesOf datum) settings

end Part

/-- Takes over sections one after the other. -/
def takeParts (document : Datum) : List Part → Loading Unit
  | [] => return
  | part :: rest => do
    takePart document part.name part.change
    takeParts document rest

theorem takeDocument_eq (document : Datum) : takeDocument document = takeParts document parts := by
  simp [takeDocument, takeParts, parts]

/-! ### Sections without content -/

theorem update_nil {Section : Type} (shape : Shape Section) (part : Section) :
    shape.update part [] = part := by
  unfold Shape.update
  induction shape.fields with
  | nil => rfl
  | cons field rest ih => exact ih

theorem change_nil {part : Part} (hpart : part ∈ parts) (settings : Settings) :
    part.change [] settings = settings := by
  simp only [parts, List.mem_cons, List.not_mem_nil, or_false] at hpart
  obtain rfl | rfl | rfl := hpart <;> simp [update_nil, Shape.updateOthers, rulesShape]

/-! ### Taking over sections -/

/-- What is left of settings when a section is taken over, and how that ends. -/
theorem run_takePart (document : Datum) (part : Part) (settings : Settings) :
    (takePart document part.name part.change).run.run settings =
      match part? document part.name >>= fun datum => datum.mapM partEntries with
      | .error misuse => (.error misuse, settings)
      | .ok entries => (.ok (), entries.elim settings (part.change · settings)) := by
  unfold takePart
  cases part? document part.name with
  | error misuse => rfl
  | ok datum =>
      cases datum with
      | none => rfl
      | some datum =>
          change (ofExcept (partEntries datum) >>= fun entries =>
            modify (part.change entries) : Loading Unit).run.run settings = _
          simp only [ok_bind, Option.mapM_some]
          cases partEntries datum with
          | error misuse => rfl
          | ok entries => rfl

theorem run_takeParts_cons (document : Datum) (part : Part) (rest : List Part)
    (settings : Settings) :
    (takeParts document (part :: rest)).run.run settings =
      match (takePart document part.name part.change).run.run settings with
      | (.ok (), later) => (takeParts document rest).run.run later
      | (.error misuse, later) => (.error misuse, later) := by
  rw [takeParts]
  generalize hrun : (takePart document part.name part.change).run.run settings = result
  obtain ⟨outcome | outcome, later⟩ := result
  all_goals
    simp only [ExceptT.run_bind, StateT.run_bind, hrun]
    rfl

theorem partEntries_eq (datum : Datum) :
    partEntries datum =
      if isMisshapen datum then .error (.notMapping datum) else .ok (entriesOf datum) := by
  unfold partEntries
  cases hempty : datum.isEmpty with
  | true =>
      cases datum with
      | map entries =>
          rw [List.isEmpty_iff.mp hempty]
          rfl
      | _ => simp [isMisshapen, hempty, entriesOf]
  | false => cases datum <;> simp_all [isMisshapen, entriesOf]

/-- **A section of a mapping is taken over or ends the loading.** -/
theorem run_takePart_map (entries : List (Datum × Datum)) (part : Part) (settings : Settings) :
    (takePart (.map entries) part.name part.change).run.run settings =
      match part.misshapen? entries with
      | some datum => (.error (.notMapping datum), settings)
      | none => (.ok (), part.apply entries settings) := by
  have hsection : part? (.map entries) part.name = .ok (Datum.get? entries part.name) := rfl
  rw [run_takePart, hsection, ok_bind, Part.misshapen?, Part.apply]
  cases Datum.get? entries part.name with
  | none => rfl
  | some datum =>
      rw [Option.mapM_some, partEntries_eq, Option.filter_some]
      cases isMisshapen datum <;> rfl

theorem run_takeParts_append {entries : List (Datum × Datum)} {before : List Part}
    (hbefore : ∀ part ∈ before, part.misshapen? entries = none) (later : List Part) :
    ∀ settings, (takeParts (.map entries) (before ++ later)).run.run settings =
      (takeParts (.map entries) later).run.run (before.foldl (Part.apply entries) settings) := by
  induction before with
  | nil => exact fun _ => rfl
  | cons part rest ih =>
      intro settings
      rw [List.forall_mem_cons] at hbefore
      rw [List.cons_append, run_takeParts_cons, run_takePart_map, hbefore.1]
      exact ih hbefore.2 _

theorem run_takeParts_of_shaped {entries : List (Datum × Datum)} {taken : List Part}
    (hshaped : ∀ part ∈ taken, part.misshapen? entries = none) (settings : Settings) :
    (takeParts (.map entries) taken).run.run settings =
      (.ok (), taken.foldl (Part.apply entries) settings) := by
  rw [← List.append_nil taken, run_takeParts_append hshaped, List.append_nil]
  rfl

theorem run_takeParts_of_misshapen {entries : List (Datum × Datum)} {before after : List Part}
    {part : Part} {datum : Datum} (hbefore : ∀ other ∈ before, other.misshapen? entries = none)
    (hpart : part.misshapen? entries = some datum) (settings : Settings) :
    (takeParts (.map entries) (before ++ part :: after)).run.run settings =
      (.error (.notMapping datum), before.foldl (Part.apply entries) settings) := by
  rw [run_takeParts_append hbefore, run_takeParts_cons, run_takePart_map, hpart]

/-- A document that is no mapping holds no section. -/
theorem part?_of_not_map {document : Datum} (hnot : ∀ entries, document ≠ .map entries)
    (name : String) : part? document name = .ok none ∨
      ∃ misuse, part? document name = .error misuse := by
  have hmentions : ∀ found : Bool, (if found then .error (.notIndexedByName document) else
      .ok none : Except Misuse (Option Datum)) = .ok none ∨
      ∃ misuse, (if found then .error (.notIndexedByName document) else
        .ok none : Except Misuse (Option Datum)) = .error misuse := by
    intro found
    cases found with
    | false => exact .inl rfl
    | true => exact .inr ⟨_, rfl⟩
  cases document with
  | map entries => exact absurd rfl (hnot entries)
  | list items => exact hmentions _
  | text text => exact hmentions _
  | null | bool | int | float => exact .inr ⟨_, rfl⟩

theorem run_takeParts_of_not_map {document : Datum} (hnot : ∀ entries, document ≠ .map entries)
    (taken : List Part) (settings : Settings) :
    ((takeParts document taken).run.run settings).2 = settings := by
  induction taken with
  | nil => rfl
  | cons part rest ih =>
      rw [run_takeParts_cons, run_takePart]
      rcases part?_of_not_map hnot part.name with hnone | ⟨misuse, herror⟩
      · rw [hnone]
        exact ih
      · rw [herror]
        rfl

/-! ### Loading a file -/

/-- What reading a file yields holds a document. -/
def Holds (contents : Except FileFault Bytes) (document : Datum) : Prop :=
  ∃ bytes, contents = .ok bytes ∧ Yaml.read (.ofBytes bytes) = .ok document

/-- A file whose sections all have the right shape. -/
def Applies (contents : Except FileFault Bytes) : Prop :=
  ∃ entries, Holds contents (.map entries) ∧ ∀ part ∈ parts, part.misshapen? entries = none

section Load

variable {contents : Except FileFault Bytes}

theorem load_of_holds {document : Datum} (hholds : Holds contents document) (settings : Settings) :
    settings.load contents = if document.isEmpty then (.ok (), settings) else
      (((takeParts document parts).run.run settings).1.mapError .misuse,
        ((takeParts document parts).run.run settings).2) := by
  obtain ⟨bytes, rfl, hread⟩ := hholds
  have hdocument : document? (.ok bytes) = .ok (some document) := by
    unfold document?
    dsimp only
    rw [hread]
  rw [load, hdocument, ← takeDocument_eq]
  rfl

theorem load_of_not_holds (hnot : ∀ document, ¬ Holds contents document) (settings : Settings) :
    (settings.load contents).2 = settings := by
  have hnone : ∀ document, document? contents ≠ .ok (some document) := by
    intro document hdocument
    unfold document? at hdocument
    split at hdocument
    · split at hdocument <;> cases hdocument
    · split at hdocument
      · next hread => exact hnot _ ⟨_, rfl, hread⟩
      · cases hdocument
      · cases hdocument
  rw [load]
  split
  · rfl
  · rfl
  · next document hdocument => exact absurd hdocument (hnone document)

theorem load_of_not_map (hnot : ∀ entries, ¬ Holds contents (.map entries)) (settings : Settings) :
    (settings.load contents).2 = settings := by
  by_cases hholds : ∃ document, Holds contents document
  · obtain ⟨document, hdocument⟩ := hholds
    have hmap : ∀ entries, document ≠ .map entries := by
      rintro entries rfl
      exact hnot entries hdocument
    rw [load_of_holds hdocument]
    split
    · rfl
    · exact run_takeParts_of_not_map hmap parts settings
  · exact load_of_not_holds (not_exists.mp hholds) settings

variable {entries : List (Datum × Datum)} (hholds : Holds contents (.map entries))
include hholds

theorem load_of_shaped (hshaped : ∀ part ∈ parts, part.misshapen? entries = none)
    (settings : Settings) :
    settings.load contents = (.ok (), parts.foldl (Part.apply entries) settings) := by
  rw [load_of_holds hholds, run_takeParts_of_shaped hshaped]
  cases entries <;> rfl

theorem load_of_misshapen {before after : List Part} {part : Part} {datum : Datum}
    (hparts : parts = before ++ part :: after)
    (hbefore : ∀ other ∈ before, other.misshapen? entries = none)
    (hpart : part.misshapen? entries = some datum) (settings : Settings) :
    settings.load contents =
      (.error (.misuse (.notMapping datum)), before.foldl (Part.apply entries) settings) := by
  rw [load_of_holds hholds, hparts, run_takeParts_of_misshapen hbefore hpart]
  cases entries with
  | nil => cases hpart
  | cons => rfl

end Load

/-- A section that is not there or has no entries. -/
def Part.IsIdle (entries : List (Datum × Datum)) (part : Part) : Prop :=
  ∀ datum, Datum.get? entries part.name = some datum → entriesOf datum = []

theorem foldl_apply_of_isIdle {entries : List (Datum × Datum)} {taken : List Part}
    (htaken : taken ⊆ parts) (hidle : ∀ part ∈ taken, part.IsIdle entries) :
    ∀ settings, taken.foldl (Part.apply entries) settings = settings := by
  induction taken with
  | nil => exact fun _ => rfl
  | cons part rest ih =>
      intro settings
      rw [List.forall_mem_cons] at hidle
      rw [List.cons_subset] at htaken
      have hpart : part.apply entries settings = settings := by
        unfold Part.apply
        cases hget : Datum.get? entries part.name with
        | none => rfl
        | some datum =>
            rw [Option.elim_some, hidle.1 datum hget]
            exact change_nil htaken.1 settings
      rw [List.foldl_cons, hpart]
      exact ih htaken.2 hidle.2 settings

/-- A file of two sections, the second of which is a list. -/
def halfShaped : Except FileFault Bytes :=
  .ok (Bytes.Utf8.encode "rules:\n  separator: '>'\nwatch: [1]\n".toList)

end Archetype.Settings

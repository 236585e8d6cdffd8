import Mathlib.Data.List.Permutation
import Archetype.Proofs.Data.Equality
import Archetype.Proofs.Folder.Writing
import Archetype.Proofs.Settings.Loading
import Archetype.Settings.Stored

/-!
# Settings that are saved and loaded again

The fields of a section are independent of each other, and together with the other settings they are
all that a section holds. So a section that is taken over from entries holds what the entries give
for its fields, and taking the entries over once more changes nothing. Saved settings therefore
arrive as a whole, whatever was there before, provided that the file's document is read as it was
written.
-/

namespace Archetype

namespace Settings

/-- Fields of different names that are independent of each other and tell all of a section but its
other settings. -/
structure Shape.Lawful {Section : Type} (shape : Shape Section) : Prop where
  names_nodup : (shape.fields.map (·.name)).Nodup
  get_set : ∀ field ∈ shape.fields, ∀ part value, field.get (field.set part value) = value
  get_set_of_ne : ∀ field ∈ shape.fields, ∀ other ∈ shape.fields, field.name ≠ other.name →
    ∀ part value, field.get (other.set part value) = field.get part
  others_set : ∀ field ∈ shape.fields, ∀ part value,
    shape.others (field.set part value) = shape.others part
  setOthers_others : ∀ part, shape.setOthers part (shape.others part) = part
  ext : ∀ {part other}, (∀ field ∈ shape.fields, field.get part = field.get other) →
    shape.others part = shape.others other → part = other

theorem rulesShape_lawful : rulesShape.Lawful where
  names_nodup := by decide
  get_set := by simp [rulesShape]
  get_set_of_ne := by simp [rulesShape]
  others_set := by simp [rulesShape]
  setOthers_others _ := rfl
  ext {part other} hfields hothers := by
    cases part
    cases other
    simp_all [rulesShape]

theorem watchShape_lawful : watchShape.Lawful where
  names_nodup := by decide
  get_set := by simp [watchShape]
  get_set_of_ne := by simp [watchShape]
  others_set := by simp [watchShape]
  setOthers_others _ := rfl
  ext {part other} hfields hothers := by
    cases part
    cases other
    simp_all [watchShape]

theorem systemShape_lawful : systemShape.Lawful where
  names_nodup := by decide
  get_set := by simp [systemShape]
  get_set_of_ne := by simp [systemShape]
  others_set := by simp [systemShape]
  setOthers_others _ := rfl
  ext {part other} hfields hothers := by
    cases part
    cases other
    simp_all [systemShape]

/-- One field with the value that entries give for it. -/
def Field.take {Section : Type} (entries : List (Datum × Datum)) (part : Section)
    (field : Field Section) : Section :=
  match Datum.get? entries field.name with
  | some value => field.set part value
  | none => part

namespace Shape

variable {Section : Type} {shape : Shape Section}

theorem updateOthers_of_nil (hshape : shape.Lawful) {part : Section}
    (hnil : shape.others part = []) (entries : List (Datum × Datum)) :
    shape.updateOthers part entries = part := by
  have hothers : shape.updateOthers part entries = shape.setOthers part (shape.others part) := by
    rw [updateOthers, hnil]
    rfl
  rw [hothers, hshape.setOthers_others]

theorem update_eq_foldl (shape : Shape Section) (part : Section)
    (entries : List (Datum × Datum)) :
    shape.update part entries = shape.fields.foldl (Field.take entries) part :=
  rfl

namespace Lawful

variable (hshape : shape.Lawful) (entries : List (Datum × Datum))
include hshape

theorem get_take_self {field : Field Section} (hfield : field ∈ shape.fields) (part : Section) :
    field.get (field.take entries part) =
      (Datum.get? entries field.name).getD (field.get part) := by
  unfold Field.take
  cases Datum.get? entries field.name with
  | none => rfl
  | some value => exact hshape.get_set field hfield part value

theorem get_take_of_ne {field other : Field Section} (hfield : field ∈ shape.fields)
    (hother : other ∈ shape.fields) (hne : field.name ≠ other.name) (part : Section) :
    field.get (other.take entries part) = field.get part := by
  unfold Field.take
  cases Datum.get? entries other.name with
  | none => rfl
  | some value => exact hshape.get_set_of_ne field hfield other hother hne part value

theorem others_take {field : Field Section} (hfield : field ∈ shape.fields) (part : Section) :
    shape.others (field.take entries part) = shape.others part := by
  unfold Field.take
  cases Datum.get? entries field.name with
  | none => rfl
  | some value => exact hshape.others_set field hfield part value

theorem get_foldl_take_of_ne {field : Field Section} (hfield : field ∈ shape.fields)
    {fields : List (Field Section)} (hfields : fields ⊆ shape.fields)
    (hne : ∀ other ∈ fields, field.name ≠ other.name) :
    ∀ part, field.get (fields.foldl (Field.take entries) part) = field.get part := by
  induction fields with
  | nil => exact fun _ => rfl
  | cons first rest ih =>
      intro part
      rw [List.cons_subset] at hfields
      rw [List.forall_mem_cons] at hne
      rw [List.foldl_cons, ih hfields.2 hne.2,
        hshape.get_take_of_ne entries hfield hfields.1 hne.1]

/-- **A field that entries name has their value**, and any other keeps its own. -/
theorem get_update {field : Field Section} (hfield : field ∈ shape.fields) (part : Section) :
    field.get (shape.update part entries) =
      (Datum.get? entries field.name).getD (field.get part) := by
  -- No other field has the name, so only the step of the field itself touches it.
  obtain ⟨before, after, hsplit⟩ := List.append_of_mem hfield
  have hnames := hshape.names_nodup
  rw [hsplit, List.map_append, List.map_cons, List.nodup_middle, List.nodup_cons] at hnames
  have hne : ∀ other ∈ before ++ after, field.name ≠ other.name := by
    intro other hother hname
    apply hnames.1
    rw [hname, ← List.map_append]
    exact List.mem_map_of_mem hother
  rw [List.forall_mem_append] at hne
  have hbefore : before ⊆ shape.fields := by simp [hsplit]
  have hafter : after ⊆ shape.fields := by
    rw [hsplit]
    exact fun other hother => List.mem_append_right _ (List.mem_cons_of_mem _ hother)
  rw [update_eq_foldl, hsplit, List.foldl_append, List.foldl_cons,
    hshape.get_foldl_take_of_ne entries hfield hafter hne.2, hshape.get_take_self entries hfield,
    hshape.get_foldl_take_of_ne entries hfield hbefore hne.1]

theorem others_update (part : Section) :
    shape.others (shape.update part entries) = shape.others part := by
  have hfold : ∀ fields ⊆ shape.fields, ∀ part,
      shape.others (fields.foldl (Field.take entries) part) = shape.others part := by
    intro fields
    induction fields with
    | nil => exact fun _ _ => rfl
    | cons first rest ih =>
        intro hfields part
        rw [List.cons_subset] at hfields
        rw [List.foldl_cons, ih hfields.2, hshape.others_take entries hfields.1]
  exact hfold shape.fields (List.Subset.refl _) part

theorem update_update (part : Section) :
    shape.update (shape.update part entries) entries = shape.update part entries := by
  apply hshape.ext
  · intro field hfield
    rw [hshape.get_update entries hfield, hshape.get_update entries hfield]
    cases Datum.get? entries field.name <;> rfl
  · rw [hshape.others_update]

omit entries in
theorem get?_fields {field : Field Section} (hfield : field ∈ shape.fields) (part : Section) :
    Datum.get? (shape.fields.map fun f => (.text f.name, f.get part)) field.name =
      some (field.get part) := by
  have hkeys : (shape.fields.map fun f => Datum.text f.name).Nodup := by
    have htext : Function.Injective fun name : String => Datum.text name :=
      fun _ _ hsame => Text.ofString_inj.mp (Datum.text.inj hsame)
    simpa [Function.comp_def] using hshape.names_nodup.map htext
  rw [Datum.get?_eq_some_iff]
  · exact List.mem_map_of_mem hfield
  · simpa [Function.comp_def] using hkeys

omit entries in
/-- **A section arrives** in a datum that equals it, whatever was there before. -/
theorem equals_entries_update {part other : Section} (hpart : shape.others part = [])
    (hother : shape.others other = []) {datum : Datum}
    (hequal : (shape.entries part).equals datum = true) :
    (shape.entries part).equals (shape.entries (shape.update other (entriesOf datum))) = true := by
  rw [entries, hpart, List.append_nil, Datum.equals_map_iff] at hequal
  obtain ⟨found, rfl, -, hfound⟩ := hequal
  rw [entries, entries, hpart, hshape.others_update, hother, List.append_nil, List.append_nil,
    Datum.equals_map_iff]
  refine ⟨_, rfl, by simp, ?_⟩
  rw [Datum.entriesEqual_map_iff] at hfound ⊢
  intro field hfield
  obtain ⟨value, hvalue, hsame⟩ := hfound field hfield
  have htaken : field.get (shape.update other (entriesOf (.map found))) = value := by
    rw [hshape.get_update _ hfield, entriesOf, hvalue, Option.getD_some]
  refine ⟨value, ?_, hsame⟩
  rw [hshape.get?_fields hfield, htaken]

end Lawful

/-- Such a datum has the shape of a section. -/
theorem not_isMisshapen_of_equals {part : Section} {datum : Datum}
    (hequal : (shape.entries part).equals datum = true) : isMisshapen datum = false := by
  rw [entries, Datum.equals_map_iff] at hequal
  obtain ⟨found, rfl, -⟩ := hequal
  rfl

end Shape

/-- Settings of the fields that are known, and no others. -/
structure IsDeclared (settings : Settings) : Prop where
  rules : settings.rules.others = []
  watch : settings.watch.others = []
  system : settings.system.others = []

/-- Settings that take over the fields of three sections. -/
def taking (settings : Settings) (rules watch system : Datum) : Settings where
  rules := rulesShape.update settings.rules (entriesOf rules)
  watch := watchShape.update settings.watch (entriesOf watch)
  system := systemShape.update settings.system (entriesOf system)

theorem taking_isDeclared {settings : Settings} (hdeclared : settings.IsDeclared)
    (rules watch system : Datum) : (settings.taking rules watch system).IsDeclared where
  rules := (rulesShape_lawful.others_update _ _).trans hdeclared.rules
  watch := (watchShape_lawful.others_update _ _).trans hdeclared.watch
  system := (systemShape_lawful.others_update _ _).trans hdeclared.system

theorem taking_taking (settings : Settings) (rules watch system : Datum) :
    (settings.taking rules watch system).taking rules watch system =
      settings.taking rules watch system := by
  simp only [taking, rulesShape_lawful.update_update, watchShape_lawful.update_update,
    systemShape_lawful.update_update]

/-- A document that equals settings has an equal section of each name. -/
theorem equals_toDatum_iff {settings : Settings} {document : Datum} :
    settings.toDatum.equals document = true ↔ ∃ entries, document = .map entries ∧
      entries.length = 3 ∧
      (∃ rules, Datum.get? entries "rules" = some rules ∧
        (rulesShape.entries settings.rules).equals rules = true) ∧
      (∃ watch, Datum.get? entries "watch" = some watch ∧
        (watchShape.entries settings.watch).equals watch = true) ∧
      ∃ system, Datum.get? entries "system" = some system ∧
        (systemShape.entries settings.system).equals system = true := by
  simp [toDatum, Datum.equals_map_iff, Datum.entriesEqual_cons_text, Datum.entriesEqual_nil,
    eq_comm (a := 3)]

theorem load_eq_taking {contents : Except FileFault Bytes} {entries : List (Datum × Datum)}
    (hholds : Holds contents (.map entries)) {rules watch system : Datum}
    (hrules : Datum.get? entries "rules" = some rules)
    (hwatch : Datum.get? entries "watch" = some watch)
    (hsystem : Datum.get? entries "system" = some system)
    (hshaped : ∀ part ∈ [rules, watch, system], isMisshapen part = false)
    {settings : Settings} (hdeclared : settings.IsDeclared) :
    settings.load contents = (.ok (), settings.taking rules watch system) := by
  have hparts : ∀ part ∈ parts, part.misshapen? entries = none := by
    simp_all [parts, Part.misshapen?]
  rw [load_of_shaped hholds hparts]
  have hothers : rulesShape.others (rulesShape.update settings.rules (entriesOf rules)) = [] :=
    (rulesShape_lawful.others_update _ _).trans hdeclared.rules
  simp [parts, Part.apply, hrules, hwatch, hsystem, taking,
    Shape.updateOthers_of_nil rulesShape_lawful hothers]

/-- Settings equal what is taken over from a document that equals them. -/
theorem equals_taking {saved held : Settings} (hsaved : saved.IsDeclared) (hheld : held.IsDeclared)
    {rules watch system : Datum} (hrules : (rulesShape.entries saved.rules).equals rules = true)
    (hwatch : (watchShape.entries saved.watch).equals watch = true)
    (hsystem : (systemShape.entries saved.system).equals system = true) :
    saved.toDatum.equals (held.taking rules watch system).toDatum = true := by
  refine equals_toDatum_iff.mpr ⟨_, rfl, rfl, ⟨_, rfl, ?_⟩, ⟨_, rfl, ?_⟩, _, rfl, ?_⟩
  · exact rulesShape_lawful.equals_entries_update hsaved.rules hheld.rules hrules
  · exact watchShape_lawful.equals_entries_update hsaved.watch hheld.watch hwatch
  · exact systemShape_lawful.equals_entries_update hsaved.system hheld.system hsystem

/-- Settings arrive in a file whose document equals them, and arrive only once. -/
theorem load_of_equals {saved held : Settings} (hsaved : saved.IsDeclared)
    (hheld : held.IsDeclared) {contents : Except FileFault Bytes} {document : Datum}
    (hholds : Holds contents document) (hequal : saved.toDatum.equals document = true) :
    ∃ loaded : Settings, saved.toDatum.equals loaded.toDatum = true ∧
      held.load contents = (.ok (), loaded) ∧ loaded.load contents = (.ok (), loaded) := by
  obtain ⟨entries, rfl, -, ⟨rules, hrules, hrules'⟩, ⟨watch, hwatch, hwatch'⟩,
    system, hsystem, hsystem'⟩ := equals_toDatum_iff.mp hequal
  have hshaped : ∀ part ∈ [rules, watch, system], isMisshapen part = false := by
    simp [Shape.not_isMisshapen_of_equals hrules', Shape.not_isMisshapen_of_equals hwatch',
      Shape.not_isMisshapen_of_equals hsystem']
  have hload : ∀ {settings : Settings}, settings.IsDeclared →
      settings.load contents = (.ok (), settings.taking rules watch system) :=
    load_eq_taking hholds hrules hwatch hsystem hshaped
  refine ⟨held.taking rules watch system, ?_, hload hheld, ?_⟩
  · exact equals_taking hsaved hheld hrules' hwatch' hsystem'
  · rw [hload (taking_isDeclared hheld rules watch system), taking_taking]

end Settings

namespace StoredSettings

/-- The folder of the file can be made, and then the file can be written. -/
def Writes (stored : StoredSettings) (desk later : Desk) : Prop :=
  ∃ made, (stored.makeFolder : StateM Desk _).run desk = (.ok (), made) ∧
    (Host.write stored.path stored.settings.fileContents : StateM Desk _).run made = (.ok (), later)

theorem run_save_of_writes {stored : StoredSettings} {desk later : Desk}
    (hwrites : stored.Writes desk later) :
    (stored.save : StateM Desk _).run desk = (.ok (), later) := by
  obtain ⟨made, hmade, hlater⟩ := hwrites
  rw [save, StateT.run_bind, hmade]
  change (told <$> Host.write stored.path stored.settings.fileContents : StateM Desk _).run made = _
  rw [StateT.run_map, hlater]
  rfl

theorem run_reload_of_run_read {stored : StoredSettings} {desk : Desk}
    {contents : Except FileFault Bytes} {loaded : Settings}
    (hread : (Host.read stored.path : StateM Desk _).run desk = (contents, desk))
    (hload : stored.settings.load contents = (.ok (), loaded)) :
    (stored.reload : StateM Desk _).run desk =
      ((.ok (), { stored with settings := loaded }), desk) := by
  simp only [reload, StateT.run_bind, hread]
  change ((_, _), desk) = _
  rw [hload]

/-- Settings with null, false and empty values, and with values of several types. -/
def sparse : Settings where
  rules :=
    { rulesFile := .null
      searchPaths := .list []
      depthMarker := .text ""
      separator := .text ";"
      structuralMarker := .int 0
      rootName := .map [(.text "of", .list [.bool true, .null])]
      ignoreBlankLines := .text "no"
      encoding := .text "42" }
  watch := { interval := .bool false }
  system := { logLevel := .text "a: 'b' #c" }

/-- The document of their file, the keys of which are sorted. -/
def sparseDocument : Datum :=
  .map
    [(.text "rules", .map
      [(.text "depth_marker", .text ""), (.text "encoding", .text "42"),
        (.text "ignore_blank_lines", .text "no"),
        (.text "root_name", .map [(.text "of", .list [.bool true, .null])]),
        (.text "rules_file", .null), (.text "search_paths", .list []),
        (.text "separator", .text ";"), (.text "structural_marker", .int 0)]),
      (.text "system", .map [(.text "log_file", .null), (.text "log_level", .text "a: 'b' #c")]),
      (.text "watch", .map [(.text "interval", .bool false)])]

theorem sortKeys_sparse : Yaml.sortKeys sparse.toDatum = sparseDocument := by
  cbv

theorem exists_read_sparse : ∃ document, Yaml.read (.ofBytes sparse.fileContents) = .ok document ∧
    sparse.toDatum.equals document = true := by
  have hread : (Yaml.read (.ofBytes sparse.fileContents)).toOption.any sparse.toDatum.equals =
      true := by
    -- Sorting does not reduce in the kernel, so the sorted document is put in its place.
    rw [Settings.fileContents, Settings.fileText, Yaml.write, sortKeys_sparse]
    decide +kernel
  obtain ⟨document, hdocument, hequal⟩ := (Option.any_eq_true _ _).mp hread
  exact ⟨document, eq_ok_of_toOption hdocument, hequal⟩

theorem exists_writes_sparse : ∃ later, Writes ⟨"conf/deck.yaml", sparse⟩ {} later := by
  refine ⟨_, _, Prod.ext ?_ rfl, Prod.ext ?_ rfl⟩ <;> exact eq_ok_of_toOption (by decide +kernel)

end StoredSettings

end Archetype

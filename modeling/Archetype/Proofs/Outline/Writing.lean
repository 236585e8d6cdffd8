import Mathlib.Data.List.Basic
import Archetype.Proofs.Outline.Branches
import Archetype.Proofs.Text.Lines

/-!
# Written outlines

A forest is written with one line for each rule, in the order of its listing, and the text reads as
that forest. Every line is read by itself: the marks end where the name starts, the name ends at the
first divider, and a condition may hold marks and dividers. The depths of a listing never skip a
level, which is what the reader asks for, and they tell the forest.
-/

namespace Archetype.Outline

open Archetype.Text

/-- The format with one character as the depth mark and one as the separator. -/
def Format.withSigns (format : Format) (mark divider : Char) : Format :=
  { format with
    depthMarks := some (String.singleton mark)
    separator := .text (String.singleton divider) }

/-- The line of a rule: its depth marks, its name, the divider and its condition. -/
def Entry.line (mark divider : Char) (entry : Entry) : List Char :=
  List.replicate entry.depth mark ++ (entry.name.toList ++ divider :: entry.condition.toList)

/-- What a name and a condition must be like to stand in a line. -/
structure Entry.Writable (mark divider : Char) (entry : Entry) : Prop where
  name_ne : entry.name ≠ ""
  trim_name : trim entry.name.toList = entry.name.toList
  unbroken_name : Unbroken entry.name.toList
  undivided : divider ∉ entry.name.toList
  unmarked : entry.name.toList.head? ≠ some mark
  condition_ne : entry.condition ≠ ""
  trim_condition : trim entry.condition.toList = entry.condition.toList
  unbroken_condition : Unbroken entry.condition.toList

/-- A forest as a text. The last line has a line end too if the text is closed; without rules there
is no line. -/
def write (mark divider : Char) (lineEnd : List Char) (closed : Bool) (forest : List Branch) :
    String :=
  String.ofList (joinLines lineEnd closed ((listing 0 forest).map (Entry.line mark divider)))

/-- No level is skipped: a rule is at most one deeper than the rule before it, and the first is at
most as deep as the limit. -/
def Fits : Nat → List Entry → Prop
  | _, [] => True
  | limit, entry :: rest => entry.depth ≤ limit ∧ Fits (entry.depth + 1) rest

theorem fits_listing_append {forest : List Branch} : ∀ {depth limit : Nat} {rest : List Entry},
    depth ≤ limit → (∀ later, depth ≤ later → Fits later rest) →
      Fits limit (listing depth forest ++ rest) := by
  induction forest using Branch.forest_induction with
  | nil =>
      intro depth limit rest hlimit hrest
      simpa [listing] using hrest limit hlimit
  | rule name condition below others hbelow hothers =>
      intro depth limit rest hlimit hrest
      rw [listing, List.cons_append, List.append_assoc]
      refine ⟨hlimit, hbelow (Nat.le_refl (depth + 1)) ?_⟩
      intro later hlater
      exact hothers (Nat.le_of_succ_le hlater) hrest

theorem fits_listing (forest : List Branch) : Fits 0 (listing 0 forest) := by
  have hfits : Fits 0 (listing 0 forest ++ []) :=
    fits_listing_append (Nat.le_refl 0) (fun _ _ => trivial)
  rwa [List.append_nil] at hfits

/-! ### One line -/

theorem toList_ne_nil {s : String} (hs : s ≠ "") : s.toList ≠ [] := by
  simpa using hs

section Written

variable {format : Format} {mark divider : Char}

theorem Entry.Writable.unbroken_line {entry : Entry} (hentry : entry.Writable mark divider)
    (hmark : mark ≠ '\r' ∧ mark ≠ '\n') (hdivider : divider ≠ '\r' ∧ divider ≠ '\n') :
    Unbroken (entry.line mark divider) := by
  intro c hc
  rw [Entry.line, List.mem_append, List.mem_append, List.mem_cons] at hc
  rcases hc with hc | hc | rfl | hc
  · rw [List.eq_of_mem_replicate hc]
    exact hmark
  · exact hentry.unbroken_name c hc
  · exact hdivider
  · exact hentry.unbroken_condition c hc

/-- A written line is not blank, since the name in it is not. -/
theorem Entry.Writable.isBlankText_line {entry : Entry} (hentry : entry.Writable mark divider) :
    isBlankText (entry.line mark divider) = false := by
  rw [Bool.eq_false_iff]
  intro hblank
  have hname : ∀ c ∈ entry.name.toList, isBlank c = true := by
    intro c hc
    refine List.all_eq_true.mp hblank c ?_
    rw [Entry.line, List.mem_append, List.mem_append]
    exact .inr (.inl hc)
  have htrim : trim entry.name.toList = [] := by
    rw [trim, trimStart, List.dropWhile_eq_nil_iff.mpr hname]
    rfl
  rw [hentry.trim_name] at htrim
  exact toList_ne_nil hentry.name_ne htrim

/-- The marks end where the name starts. -/
theorem Entry.Writable.depthOf_line {entry : Entry} (hentry : entry.Writable mark divider) :
    depthOf [mark] (entry.line mark divider) = entry.depth := by
  have hmarks : ∀ c ∈ List.replicate entry.depth mark, [mark].contains c = true := by
    intro c hc
    simp [List.eq_of_mem_replicate hc]
  have hname : ∀ c, (entry.name.toList ++ divider :: entry.condition.toList).head? = some c →
      [mark].contains c = false := by
    intro c hc
    obtain ⟨first, rest, hsplit⟩ := List.exists_cons_of_ne_nil (toList_ne_nil hentry.name_ne)
    have hunmarked := hentry.unmarked
    rw [hsplit] at hunmarked hc
    cases hc
    simpa using hunmarked
  rw [depthOf, Entry.line, takeWhile_append_of_stop hmarks hname, List.length_replicate]

theorem Entry.Writable.cut_line {entry : Entry} (hentry : entry.Writable mark divider) :
    (format.withSigns mark divider).separator.cut
      ((entry.line mark divider).drop entry.depth) =
        .ok (entry.name.toList, entry.condition.toList, 1) := by
  have hdrop : (entry.line mark divider).drop entry.depth =
      entry.name.toList ++ divider :: entry.condition.toList := by
    rw [Entry.line, List.drop_left' List.length_replicate]
  have hchars : (Text.ofString (String.singleton divider)).chars? = some [divider] := by
    rw [Text.ofString, chars?_ofChars, String.toList_singleton]
  have hlength : (Text.ofString (String.singleton divider)).points = [.char divider] := by
    rw [Text.ofString, String.toList_singleton]
    rfl
  rw [hdrop]
  simp [Format.withSigns, Separator.cut, Text.isEmpty, hchars, hlength,
    cut?_append divider hentry.undivided]

/-- **A written line says what it was written for.** -/
theorem Entry.Writable.read_line (format : Format) {entry : Entry}
    (hentry : entry.Writable mark divider) {limit : Nat} (hlimit : entry.depth ≤ limit) :
    ∃ rule, Line.read (format.withSigns mark divider) limit (entry.line mark divider) = .ok rule ∧
      rule.depth = entry.depth ∧ rule.name = entry.name.toList ∧
      rule.condition = entry.condition.toList := by
  have hmarks : (format.withSigns mark divider).depthMarks = some (String.singleton mark) := rfl
  have hname : (trim entry.name.toList).isEmpty = false := by
    rw [hentry.trim_name, List.isEmpty_eq_false_iff]
    exact toList_ne_nil hentry.name_ne
  have hcondition : (trim entry.condition.toList).isEmpty = false := by
    rw [hentry.trim_condition, List.isEmpty_eq_false_iff]
    exact toList_ne_nil hentry.condition_ne
  unfold Line.read
  rw [hmarks]
  dsimp only
  rw [String.toList_singleton, hentry.depthOf_line, if_neg (Nat.not_lt_of_le hlimit),
    hentry.cut_line, ok_bind]
  dsimp only
  rw [hname, hcondition, Bool.or_false, if_neg Bool.false_ne_true]
  exact ⟨_, rfl, rfl, hentry.trim_name, hentry.trim_condition⟩

/-! ### All lines -/

/-- One more written line gives one more node, which is the rule that it was written for. -/
theorem Draft.Linked.read_line {draft : Draft} (hlinked : draft.Linked)
    (hformat : draft.outline.format = format.withSigns mark divider) {entry : Entry}
    (hentry : entry.Writable mark divider) (hlimit : entry.depth ≤ draft.limit) (number : Nat) :
    ∃ later, draft.read (entry.line mark divider, number) = .ok later ∧ later.Linked ∧
      later.outline.format = format.withSigns mark divider ∧ later.limit = entry.depth + 1 ∧
      later.outline.nodes.map Node.entry = draft.outline.nodes.map Node.entry ++ [entry] := by
  obtain ⟨rule, hrule, hdepth, hname, hcondition⟩ := hentry.read_line format hlimit
  have hdeep : rule.depth ≤ draft.limit := by
    rw [hdepth]
    exact hlimit
  have hlast : (draft.add number rule).last.entry = entry := by
    have hlevel := hlinked.level_add number hdeep
    have hnode : (draft.add number rule).last.name = String.ofList rule.name ∧
        (draft.add number rule).last.expression = String.ofList rule.condition := ⟨rfl, rfl⟩
    rw [Node.entry, hlevel, hnode.1, hnode.2, hname, hcondition, hdepth, Nat.add_sub_cancel,
      String.ofList_toList, String.ofList_toList]
  refine ⟨draft.add number rule, ?_, hlinked.add number hdeep, hformat, by rw [← hdepth]; rfl, ?_⟩
  · rw [Draft.read, hentry.isBlankText_line, Bool.and_false, if_neg Bool.false_ne_true, hformat,
      readLine, hrule]
    rfl
  · rw [← hlast]
    exact List.map_append

/-- Written lines are read one after the other, and none of them skips a level. -/
theorem Draft.Linked.foldlM_read {entries : List Entry} : ∀ {draft : Draft}, draft.Linked →
    draft.outline.format = format.withSigns mark divider → Fits draft.limit entries →
    (∀ entry ∈ entries, entry.Writable mark divider) → ∀ number,
      ∃ later, ((entries.map (Entry.line mark divider)).zipIdx number).foldlM Draft.read draft =
          .ok later ∧ later.Linked ∧
        later.outline.nodes.map Node.entry = draft.outline.nodes.map Node.entry ++ entries := by
  induction entries with
  | nil =>
      intro draft hlinked _ _ _ _
      exact ⟨draft, rfl, hlinked, (List.append_nil _).symm⟩
  | cons entry rest ih =>
      intro draft hlinked hformat hfits hentries number
      obtain ⟨hentry, hrest⟩ := List.forall_mem_cons.mp hentries
      obtain ⟨hlimit, hlater⟩ := hfits
      obtain ⟨next, hnext, hlinked', hformat', hlimit', hnodes⟩ :=
        hlinked.read_line hformat hentry hlimit number
      rw [← hlimit'] at hlater
      obtain ⟨last, hlast, hlinked'', hall⟩ := ih hlinked' hformat' hlater hrest (number + 1)
      refine ⟨last, ?_, hlinked'', ?_⟩
      · rw [List.map_cons, List.zipIdx_cons, List.foldlM_cons, hnext, ok_bind]
        exact hlast
      · rw [hall, hnodes, List.append_assoc, List.singleton_append]

theorem lines_write (hmark : mark ≠ '\r' ∧ mark ≠ '\n') (hdivider : divider ≠ '\r' ∧ divider ≠ '\n')
    {lineEnd : List Char} (hend : lineEnd ∈ lineEnds) (closed : Bool) {forest : List Branch}
    (hforest : ∀ entry ∈ listing 0 forest, entry.Writable mark divider) :
    lines (write mark divider lineEnd closed forest).toList =
      (listing 0 forest).map (Entry.line mark divider) := by
  rw [write, String.toList_ofList]
  refine lines_joinLines hend ?_
  intro part hpart
  obtain ⟨entry, hentry, rfl⟩ := List.mem_map.mp hpart
  refine ⟨(hforest entry hentry).unbroken_line hmark hdivider, ?_⟩
  simp [Entry.line]

end Written

/-- **A written forest is read again.** The text of a forest, with or without a line end behind the
last line, reads as an outline, and this forest and no other is what its root bears. Marks and
dividers may be the same character, or blank. -/
theorem bears_read_write (format : Format) {mark divider : Char}
    (hmark : mark ≠ '\r' ∧ mark ≠ '\n') (hdivider : divider ≠ '\r' ∧ divider ≠ '\n')
    {lineEnd : List Char} (hend : lineEnd ∈ lineEnds) (closed : Bool) {forest : List Branch}
    (hforest : ∀ entry ∈ listing 0 forest, entry.Writable mark divider) :
    ∃ outline, Outline.read (format.withSigns mark divider)
        (write mark divider lineEnd closed forest) = .ok outline ∧
      ∀ other, outline.Bears (outline.children 0) other ↔ other = forest := by
  obtain ⟨draft, hdraft, hlinked, hnodes⟩ := Draft.Linked.foldlM_read
    (Draft.linked_start (format.withSigns mark divider)) rfl (fits_listing forest) hforest 1
  refine ⟨draft.outline, ?_, ?_⟩
  · rw [Outline.read, lines_write hmark hdivider hend closed hforest, hdraft]
    rfl
  · have htail : draft.outline.nodes.tail.map Node.entry = listing 0 forest := by
      rw [List.map_tail, hnodes]
      rfl
    intro other
    rw [hlinked.outline.bears_iff_listing, htail]
    exact ⟨listing_inj, congrArg (listing 0)⟩

theorem bears_read_write_of_divided_condition :
    ∃ outline, Outline.read (Format.withSigns {} '|' '|') "A|true\r\n|B|x || y\r\nC|z\r\n" =
        .ok outline ∧
      outline.Bears (outline.children 0)
        [.rule "A" "true" [.rule "B" "x || y" []], .rule "C" "z" []] := by
  have hlisting : listing 0 [.rule "A" "true" [.rule "B" "x || y" []], .rule "C" "z" []] =
      [⟨0, "A", "true"⟩, ⟨1, "B", "x || y"⟩, ⟨0, "C", "z"⟩] := by
    simp [listing]
  have hwrite : write '|' '|' ['\r', '\n'] true
      [.rule "A" "true" [.rule "B" "x || y" []], .rule "C" "z" []] =
        "A|true\r\n|B|x || y\r\nC|z\r\n" := by
    rw [write, hlisting]
    decide +kernel
  have hentries : ∀ entry ∈ listing 0 [.rule "A" "true" [.rule "B" "x || y" []], .rule "C" "z" []],
      entry.Writable '|' '|' := by
    rw [hlisting]
    simp only [List.forall_mem_cons]
    refine ⟨?_, ?_, ?_, List.forall_mem_nil _⟩ <;> constructor <;> decide +kernel
  obtain ⟨outline, hread, hbears⟩ := bears_read_write {} (by decide) (by decide)
    (show ['\r', '\n'] ∈ lineEnds by decide) true hentries
  rw [hwrite] at hread
  exact ⟨outline, hread, (hbears _).mpr rfl⟩

end Archetype.Outline

import Mathlib.Data.List.Infix
import Archetype.Proofs.Outline.Shape
import Archetype.Proofs.Text.Search

/-!
# Where conditions stand

A node says in which line and at which column its condition starts. The column is put together from
the depth marks, the name with the blanks around it, the separator and the blanks behind it, so the
condition is found again in the line of that number, whatever the layout.
-/

namespace Archetype.Outline

open Archetype.Text

/-! ### One line -/

theorem length_of_mapM {points : List CodePoint} {chars : List Char}
    (hchars : points.mapM CodePoint.char? = some chars) : points.length = chars.length := by
  induction points generalizing chars with
  | nil =>
      cases hchars
      rfl
  | cons point rest ih =>
      rw [List.mapM_cons] at hchars
      obtain ⟨c, -, hrest⟩ := Option.bind_eq_some_iff.mp hchars
      obtain ⟨others, hothers, hpure⟩ := Option.bind_eq_some_iff.mp hrest
      cases hpure
      rw [List.length_cons, List.length_cons, ih hothers]

/-- The rest of a text after the blanks in front of it. -/
theorem drop_trimStart (text : List Char) :
    text.drop (text.length - (trimStart text).length) = trimStart text :=
  (List.suffix_iff_eq_drop.mp (List.dropWhile_suffix isBlank)).symm

theorem take_trimEnd (text : List Char) : text.take (trimEnd text).length = trimEnd text := by
  refine (List.prefix_iff_eq_take.mp ?_).symm
  have hsuffix : text.reverse.dropWhile isBlank <:+ text.reverse := List.dropWhile_suffix isBlank
  rw [trimEnd, ← List.reverse_suffix, List.reverse_reverse]
  exact hsuffix

/-- What cuts a line stands between its parts. -/
theorem exists_between_of_cut {separator : Separator} {line before after : List Char}
    {length : Nat} (hcut : separator.cut line = .ok (before, after, length)) :
    ∃ between, line = before ++ (between ++ after) ∧ between.length = length := by
  cases separator with
  | other typeName => cases hcut
  | blanks =>
      rw [Separator.cut] at hcut
      split at hcut <;> cases hcut
  | text value =>
      rw [Separator.cut] at hcut
      split at hcut
      · cases hcut
      · cases hparts : value.chars?.bind fun value => cut? value line with
        | none =>
            rw [hparts] at hcut
            cases hcut
        | some parts =>
            rw [hparts] at hcut
            cases hcut
            obtain ⟨between, hbetween, hcut⟩ := Option.bind_eq_some_iff.mp hparts
            exact ⟨between, eq_append_of_cut? hcut, (length_of_mapM hbetween).symm⟩

/-- **The condition of a line starts where the line says.** -/
theorem take_condition_of_read {format : Format} {limit : Nat} {line : List Char} {rule : Line}
    (hread : Line.read format limit line = .ok rule) :
    (line.drop rule.start).take rule.condition.length = rule.condition := by
  obtain ⟨-, -, before, after, length, hcut, -, hcondition, hstart⟩ := depthOf_of_read hread
  obtain ⟨between, hline, hlength⟩ := exists_between_of_cut hcut
  have hdrop : line.drop rule.start = trimStart after := by
    calc line.drop rule.start
        = ((line.drop rule.depth).drop (before.length + length)).drop
            (after.length - (trimStart after).length) := by
          rw [List.drop_drop, List.drop_drop, hstart]
          congr 1
          omega
      _ = after.drop (after.length - (trimStart after).length) := by
          rw [hline, ← hlength, ← List.length_append, ← List.append_assoc, List.drop_left]
      _ = trimStart after := drop_trimStart after
  rw [hdrop, hcondition, trim]
  exact take_trimEnd (trimStart after)

/-! ### All lines -/

theorem lines_prefix_splitLines (text : List Char) : lines text <+: splitLines text := by
  unfold lines
  dsimp only
  split
  · exact List.dropLast_prefix _
  · exact List.prefix_rfl

theorem getElem?_of_mem_ruleLines {format : Format} {text : String} {entry : List Char × Nat}
    (hentry : entry ∈ ruleLines format text) :
    1 ≤ entry.2 ∧ (splitLines text.toList)[entry.2 - 1]? = some entry.1 := by
  obtain ⟨hle, hline⟩ :=
    List.mk_mem_zipIdx_iff_le_and_getElem?_sub.mp (List.mem_filter.mp hentry).1
  obtain ⟨hinside, hsame⟩ := List.getElem?_eq_some_iff.mp hline
  refine ⟨hle, ?_⟩
  rw [← hsame, (lines_prefix_splitLines text.toList).getElem hinside]
  exact List.getElem?_eq_getElem _

theorem pairwise_ruleLines (format : Format) (text : String) :
    (ruleLines format text).Pairwise fun first second => first.2 < second.2 := by
  refine List.Pairwise.filter _ ?_
  rw [← List.pairwise_map (f := Prod.snd), List.zipIdx_map_snd]
  exact List.pairwise_lt_range'

/-- A node and its place agree with a numbered line: it has the number of the line, and its
condition is what the line holds from the column of the node on. -/
structure Node.StandsIn (line : List Char) (number : Nat) (node : Node) : Prop where
  number : node.line = number
  column : 1 ≤ node.column
  condition : (line.drop (node.column - 1)).take node.expression.length = node.expression.toList
  notRoot : node.isRoot = false

theorem Node.MadeOf.standsIn {format : Format} {line : List Char} {number : Nat} {node : Node}
    (hmade : node.MadeOf format line number) : node.StandsIn line number := by
  obtain @⟨_, _, rule, _, hline, -⟩ := hmade
  refine ⟨rfl, Nat.le_add_left 1 rule.start, ?_, rfl⟩
  have hcondition := take_condition_of_read hline
  change (line.drop rule.start).take (String.ofList rule.condition).length =
    (String.ofList rule.condition).toList
  rw [String.length_ofList, String.toList_ofList]
  exact hcondition

section Reading

variable {format : Format} {text : String} {outline : Outline}
  (hread : Outline.read format text = .ok outline)
include hread

theorem standsIn_of_read : ∃ nodes, outline.nodes = .root format.rootName :: nodes ∧
    List.Forall₂ (fun entry node => node.StandsIn entry.1 entry.2) (ruleLines format text)
      nodes := by
  obtain ⟨nodes, hnodes, hmade⟩ := madeOf_of_read hread
  exact ⟨nodes, hnodes, hmade.imp fun _ _ => Node.MadeOf.standsIn⟩

/-- **Every condition is found in its line.** -/
theorem exists_line_of_read {node : Node} (hnode : node ∈ outline.nodes)
    (hroot : node.isRoot = false) :
    ∃ line, 1 ≤ node.line ∧ (splitLines text.toList)[node.line - 1]? = some line ∧
      node.StandsIn line node.line := by
  obtain ⟨nodes, hnodes, hstands⟩ := standsIn_of_read hread
  rw [hnodes] at hnode
  rcases List.mem_cons.mp hnode with rfl | hnode
  · cases hroot
  · obtain ⟨index, hindex, rfl⟩ := List.getElem_of_mem hnode
    have hinside : index < (ruleLines format text).length := by
      rw [hstands.length_eq]
      exact hindex
    have hentry := hstands.get hinside hindex
    obtain ⟨hnumber, hline⟩ :=
      getElem?_of_mem_ruleLines (List.get_mem (ruleLines format text) ⟨index, hinside⟩)
    have hsame := hentry.number
    rw [← hsame] at hentry hnumber hline
    exact ⟨_, hnumber, hline, hentry⟩

/-- **Nodes come in the order of their lines.** -/
theorem pairwise_line_of_read :
    outline.nodes.Pairwise fun first second => first.line < second.line := by
  obtain ⟨nodes, hnodes, hstands⟩ := standsIn_of_read hread
  have hnumbers : (ruleLines format text).map (·.2) = nodes.map (·.line) := by
    rw [← List.forall₂_eq_eq_eq, List.forall₂_map_left_iff, List.forall₂_map_right_iff]
    exact hstands.imp fun _ _ hnode => hnode.number.symm
  have hlines : (nodes.map (·.line)).Pairwise (· < ·) := by
    rw [← hnumbers, List.pairwise_map]
    exact pairwise_ruleLines format text
  rw [hnodes, List.pairwise_cons]
  refine ⟨?_, List.pairwise_map.mp hlines⟩
  intro node hnode
  have hline : node.line ∈ (ruleLines format text).map (·.2) := by
    rw [hnumbers]
    exact List.mem_map_of_mem hnode
  obtain ⟨entry, hentry, hnumber⟩ := List.mem_map.mp hline
  have hpos := (getElem?_of_mem_ruleLines hentry).1
  change 0 < node.line
  omega

end Reading

end Archetype.Outline

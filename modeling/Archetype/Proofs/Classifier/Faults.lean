import Archetype.Proofs.Classifier.Calls
import Archetype.Proofs.Outline.Acceptance
import Archetype.Proofs.Outline.Writing
import Archetype.Proofs.RuleTree.Positions

/-!
# Why a text is not taken over

A text goes wrong in one of its lines, or in the conditions of its rules. The fault then names the
line, or every rule that is refused. A format goes wrong by itself if no line can be read in it.
There is one more way, and it is not foreseen: a number with too many digits ends the compilation of
all rules, and no rule is named then.
-/

namespace Archetype

open Archetype.Text Archetype.Condition

/-! ### Faults of lines -/

namespace Outline

/-- A format in which lines can be read and trees be made. -/
structure Format.Usable (format : Format) : Prop where
  marks : format.depthMarks ≠ none
  separator : ∃ value, format.separator = .text value ∧ value.isEmpty = false
  rootName : ∀ typeName, format.rootName ≠ .collection typeName

/-- **In a usable format only lines go wrong.** -/
theorem exists_line_of_read_error {format : Format} (husable : format.Usable) {text : String}
    {fault : ReadFault} (hread : Outline.read format text = .error fault) :
    ∃ found, fault = .line found := by
  obtain ⟨marks, hmarks⟩ := Option.ne_none_iff_exists'.mp husable.marks
  obtain ⟨value, hseparator, hvalue⟩ := husable.separator
  rcases read_cases hmarks hseparator hvalue text with ⟨-, outline, hok⟩ | ⟨found, -, herror⟩
  · rw [hok] at hread
    cases hread
  · rw [herror] at hread
    exact ⟨found, (Except.error.inj hread).symm⟩

end Outline

/-! ### Compilations that are ended -/

namespace RuleTree

open Archetype.Outline

theorem read_of_outline {format : Format} {text : String} {outline : Outline}
    (hroot : checkRoot format.rootName = .ok ())
    (hread : Outline.read format text = .ok outline) :
    RuleTree.read format text = ofOutline outline := by
  rw [RuleTree.read, hread]
  dsimp only
  rw [hroot, ok_bind]

theorem compileNode_of_numberTooLong {earlier : List Earlier} {node : Node} {digits : Nat}
    (hparse : Expr.parse node.expression = .error (.numberTooLong digits)) :
    compileNode earlier node = .error digits := by
  rw [compileNode, hparse]

theorem parse_of_compileNode_error {earlier : List Earlier} {node : Node} {digits : Nat}
    (hnode : compileNode earlier node = .error digits) :
    Expr.parse node.expression = .error (.numberTooLong digits) := by
  by_cases hlong : ∃ other, Expr.parse node.expression = .error (.numberTooLong other)
  · obtain ⟨other, hparse⟩ := hlong
    rw [compileNode_of_numberTooLong hparse] at hnode
    rw [hparse, Except.error.inj hnode]
  · obtain ⟨outcome, houtcome⟩ := exists_compileNode (not_exists.mp hlong) earlier
    rw [houtcome] at hnode
    cases hnode

/-- A compilation that is ended was ended by a number in one of the conditions. -/
theorem exists_parse_of_compileFrom_error {nodes : List Node} : ∀ {earlier : List Earlier}
    {digits : Nat}, compileFrom earlier nodes = .error digits →
      ∃ node ∈ nodes, Expr.parse node.expression = .error (.numberTooLong digits) := by
  induction nodes with
  | nil =>
      intro earlier digits herror
      cases herror
  | cons node rest ih =>
      intro earlier digits herror
      rw [compileFrom] at herror
      rcases eq_error_of_bind herror with hnode | ⟨⟨rule, issue⟩, -, hrest⟩
      · exact ⟨node, List.mem_cons_self, parse_of_compileNode_error hnode⟩
      · rcases eq_error_of_bind hrest with hlater | ⟨⟨predicates, issues⟩, -, hpure⟩
        · obtain ⟨other, hmem, hparse⟩ := ih hlater
          exact ⟨other, List.mem_cons_of_mem _ hmem, hparse⟩
        · cases hpure

theorem Run.parse_ne_numberTooLong {earlier : List Earlier} {nodes : List Node}
    {outcomes : List (Earlier × Option RuleIssue)} (hrun : Run earlier nodes outcomes) :
    ∀ node ∈ nodes, ∀ digits, Expr.parse node.expression ≠ .error (.numberTooLong digits) := by
  induction hrun with
  | nil => simp
  | cons hnode _ ih =>
      refine List.forall_mem_cons.mpr ⟨?_, ih⟩
      intro digits hparse
      rw [compileNode_of_numberTooLong hparse] at hnode
      cases hnode

/-- A number that is too long ends the compilation, wherever it stands. -/
theorem exists_compileFrom_error {nodes : List Outline.Node} {node : Outline.Node} {digits : Nat}
    (hnode : node ∈ nodes) (hparse : Expr.parse node.expression = .error (.numberTooLong digits)) :
    ∃ other ∈ nodes, ∃ digits, Expr.parse other.expression = .error (.numberTooLong digits) ∧
      compileFrom [] nodes = .error digits := by
  cases hcompile : compileFrom [] nodes with
  | error digits =>
      obtain ⟨other, hmem, hother⟩ := exists_parse_of_compileFrom_error hcompile
      exact ⟨other, hmem, digits, hother, rfl⟩
  | ok result =>
      obtain ⟨outcomes, hrun, -⟩ := exists_run_of_compileFrom hcompile
      exact absurd hparse (hrun.parse_ne_numberTooLong node hnode digits)

end RuleTree

/-! ### Taking over a text -/

namespace Classifier

open Archetype.Outline Archetype.RuleTree

/-- How taking over a text can end in a usable format: with a fault in a line, with a number that is
too long, with the issues of the rules that are refused, or with the tree of the text. -/
inductive Adoption (classifier : Classifier) (text : String) :
    Except RuleTree.Fault Classifier → Prop
  | malformed {fault : Outline.Fault}
      (hread : Outline.read classifier.format text = .error (.line fault)) :
      Adoption classifier text (.error (.outline fault))
  | tooLong {outline : Outline} {node : Node} {digits : Nat}
      (hread : Outline.read classifier.format text = .ok outline) (hnode : node ∈ outline.nodes)
      (hparse : Expr.parse node.expression = .error (.numberTooLong digits)) :
      Adoption classifier text (.error (.numberTooLong digits))
  | refused {outline : Outline} {issues : List RuleIssue}
      (hread : Outline.read classifier.format text = .ok outline)
      (hparse : ∀ node ∈ outline.nodes, ∀ digits,
        Expr.parse node.expression ≠ .error (.numberTooLong digits))
      (hsome : refusedNodes outline.nodes ≠ [])
      (hissues : List.Forall₂ (fun node issue => issue.IsOf node) (refusedNodes outline.nodes)
        issues) :
      Adoption classifier text (.error (.conditions issues))
  | published {tree : RuleTree}
      (hread : Outline.read classifier.format text = .ok tree.outline)
      (hparse : ∀ node ∈ tree.outline.nodes, ∀ digits,
        Expr.parse node.expression ≠ .error (.numberTooLong digits))
      (hnone : refusedNodes tree.outline.nodes = []) :
      Adoption classifier text (.ok { classifier with tree := some tree })

/-- **Every text is taken over or named as at fault**, unless one of its numbers is too long. If the
lines are in order, the rules that are refused are all named, and a tree is published exactly if
there are none. -/
theorem adoption_of_usable {classifier : Classifier} (husable : classifier.format.Usable)
    (text : String) : Adoption classifier text (classifier.adopt text) := by
  cases hread : Outline.read classifier.format text with
  | error fault =>
      obtain ⟨found, rfl⟩ := exists_line_of_read_error husable hread
      rw [adopt, RuleTree.read, hread]
      exact .malformed hread
  | ok outline =>
      have hroot : checkRoot classifier.format.rootName = .ok () := by
        cases hname : classifier.format.rootName with
        | collection typeName => exact absurd hname (husable.rootName typeName)
        | text | unmentioned => rfl
      rw [adopt, read_of_outline hroot hread]
      cases hcompile : compileFrom [] outline.nodes with
      | error digits =>
          obtain ⟨node, hnode, hparse⟩ := exists_parse_of_compileFrom_error hcompile
          rw [ofOutline, hcompile]
          exact .tooLong hread hnode hparse
      | ok result =>
          obtain ⟨predicates, issues⟩ := result
          obtain ⟨outcomes, hrun, -⟩ := exists_run_of_compileFrom hcompile
          have hparse := hrun.parse_ne_numberTooLong
          have hissues := hrun.forall₂_isOf
            fun _ _ hnode => (linked_of_read hread).index_of_getElem? hnode
          rw [ofOutline_of_run hrun]
          split
          · next hnone =>
            rw [hnone, List.forall₂_nil_right_iff] at hissues
            exact @Adoption.published classifier text ⟨outline, _⟩ hread hparse hissues
          · next hsome =>
            refine .refused hread hparse ?_ hissues
            intro hnone
            rw [hnone, List.forall₂_nil_left_iff] at hissues
            exact hsome hissues

theorem usable_default : Format.Usable {} where
  marks := Option.some_ne_none _
  separator := ⟨_, rfl, rfl⟩
  rootName typeName hname := by cases hname

/-- One of two rules is refused for its kind, the other one for what it refers to. -/
theorem adoption_of_refused_rules :
    Format.Usable {} ∧ Adoption {} "A|Colors.Count\nB|matches(\"C\")"
      (adopt {} "A|Colors.Count\nB|matches(\"C\")") :=
  ⟨usable_default, adoption_of_usable usable_default _⟩

end Classifier

/-! ### A number that is too long -/

namespace Outline

theorem dropWhile_isBlank_digits {digits : List Char}
    (hdigits : ∀ c ∈ digits, c.isDigit = true) : digits.dropWhile isBlank = digits := by
  cases digits with
  | nil => rfl
  | cons c rest =>
      have hcode := code_of_isDigit (hdigits c List.mem_cons_self)
      rw [List.dropWhile_cons_of_neg]
      simp [isBlank_eq_false (show 0x21 ≤ c.toNat by omega) (by omega)]

theorem trim_digits {digits : List Char} (hdigits : ∀ c ∈ digits, c.isDigit = true) :
    trim digits = digits := by
  have hreverse : ∀ c ∈ digits.reverse, c.isDigit = true :=
    fun c hc => hdigits c (List.mem_reverse.mp hc)
  rw [trim, trimStart, dropWhile_isBlank_digits hdigits, trimEnd,
    dropWhile_isBlank_digits hreverse, List.reverse_reverse]

theorem Entry.writable_digits {digits : List Char} (hdigits : ∀ c ∈ digits, c.isDigit = true)
    (hne : digits ≠ []) : Entry.Writable '|' '|' ⟨0, "A", String.ofList digits⟩ where
  name_ne := show "A" ≠ "" by decide
  trim_name := show trim "A".toList = "A".toList by decide +kernel
  unbroken_name := show Unbroken "A".toList by decide
  undivided := show '|' ∉ "A".toList by decide
  unmarked := show "A".toList.head? ≠ some '|' by decide
  condition_ne hempty := hne (String.toList_ofList.symm.trans (congrArg String.toList hempty))
  trim_condition := by rw [String.toList_ofList, trim_digits hdigits]
  unbroken_condition := by
    rw [String.toList_ofList]
    intro c hc
    have hcode := code_of_isDigit (hdigits c hc)
    constructor <;> rintro rfl <;> exact absurd hcode.1 (by decide)

/-- A rule of which the condition is a number. -/
theorem exists_read_digits {digits : List Char} (hdigits : ∀ c ∈ digits, c.isDigit = true)
    (hne : digits ≠ []) : ∃ outline, Outline.read {} ("A|" ++ String.ofList digits) = .ok outline ∧
      outline.nodes.map (·.expression) = ["true", String.ofList digits] := by
  have hformat : Format.withSigns {} '|' '|' = {} := by decide +kernel
  have hlisting : listing 0 [.rule "A" (String.ofList digits) []] =
      [⟨0, "A", String.ofList digits⟩] := by
    simp [listing]
  have hwrite : write '|' '|' ['\n'] false [.rule "A" (String.ofList digits) []] =
      "A|" ++ String.ofList digits := by
    rw [write, hlisting, ← String.toList_inj]
    simp [joinLines, Entry.line]
  have hwritable : ∀ entry ∈ listing 0 [.rule "A" (String.ofList digits) []],
      entry.Writable '|' '|' := by
    rw [hlisting, List.forall_mem_singleton]
    exact Entry.writable_digits hdigits hne
  obtain ⟨draft, hdraft, -, hnodes⟩ := Draft.Linked.foldlM_read
    (Draft.linked_start (Format.withSigns {} '|' '|')) rfl (fits_listing _) hwritable 1
  refine ⟨draft.outline, ?_, ?_⟩
  · rw [← hwrite, Outline.read,
      lines_write (by decide) (by decide) (show ['\n'] ∈ lineEnds by decide) false hwritable,
      ← hformat, hdraft]
    rfl
  · have hexpressions := congrArg (List.map Entry.condition) hnodes
    rw [hlisting, List.map_append, List.map_map, List.map_map] at hexpressions
    exact hexpressions

end Outline

namespace Classifier

open Archetype.RuleTree

/-- **A long number is told of as no fault of a rule.** -/
theorem adopt_of_long_number {digits : List Char} (hdigits : ∀ c ∈ digits, c.isDigit = true)
    (hlong : maxNumeralDigits < digits.length) :
    adopt {} ("A|" ++ String.ofList digits) = .error (.numberTooLong digits.length) := by
  have hparse := parse_of_long_number hdigits hlong
  have hne : digits ≠ [] := List.ne_nil_of_length_pos (Nat.zero_lt_of_lt hlong)
  obtain ⟨outline, hread, hexpressions⟩ := Outline.exists_read_digits hdigits hne
  have hmem : String.ofList digits ∈ outline.nodes.map (·.expression) := by
    rw [hexpressions]
    simp
  obtain ⟨node, hnode, hexpression⟩ := List.mem_map.mp hmem
  rw [← hexpression] at hparse
  obtain ⟨other, hother, count, hfault, hcompile⟩ := exists_compileFrom_error hnode hparse
  have hcount : count = digits.length := by
    have hall : other.expression ∈ ["true", String.ofList digits] := by
      rw [← hexpressions]
      exact List.mem_map_of_mem hother
    rcases List.mem_pair.mp hall with htrue | hlast
    · rw [htrue, parse_true] at hfault
      cases hfault
    · rw [hlast, ← hexpression, hparse] at hfault
      exact (Failure.numberTooLong.inj (Except.error.inj hfault)).symm
  rw [adopt, RuleTree.read_of_outline rfl hread, ofOutline, hcompile, hcount]
  rfl

/-- The fault of one rule, a number of 4301 digits, is not among the faults that name rules. -/
theorem adopt_of_number_of_4301_digits :
    ∃ fault, adopt {} ("A|" ++ String.ofList (List.replicate 4301 '1')) = .error fault ∧
      fault.isRuleFault = false := by
  refine ⟨_, adopt_of_long_number ?_ ?_, rfl⟩
  · intro c hc
    rw [List.eq_of_mem_replicate hc]
    rfl
  · rw [List.length_replicate]
    decide

end Classifier

end Archetype

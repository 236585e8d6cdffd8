import Archetype.Proofs.Condition.Fitting
import Archetype.Proofs.Condition.Lexing
import Archetype.Proofs.Condition.Mirroring
import Archetype.Proofs.Condition.ParserCompleteness
import Archetype.Proofs.Condition.Printing
import Archetype.Proofs.Condition.Reuse

/-!
# Conditions that are spelled otherwise

Operators can be written as words, keywords in any letter case, names in any letter case and with
any low lines, and there can be any blanks between tokens. None of this changes what a condition
means. A name that is written otherwise could turn into a keyword, and then it would be read as
something else; but all names that a condition can have are names of parts, of answers of a bag or
of the reference to a rule, and no way to write one of them is a keyword.
-/

namespace Archetype.Condition

open Archetype.Text

/-- Another way to spell a lexeme. -/
inductive Lexeme.Respells : Lexeme → Lexeme → Prop
  | same (lexeme : Lexeme) : Respells lexeme lexeme
  | operator {sign : Symbol} {word : String} (hword : (word.toLower, sign) ∈ operatorWords) :
      Respells (.symbol sign) (.word word)
  | letterCase {name other : String} (hsame : other.toLower = name.toLower) :
      Respells (.word name) (.word other)
  | name {name other : String} (hname : name.toLower ∉ keywords)
      (hsame : canonical other = canonical name) : Respells (.word name) (.word other)

/-- A spelling of a lexeme is kept apart from what follows it: by a blank, by the end of the text,
or because the two do not start a longer lexeme. -/
inductive Lexeme.IsApart (lexeme : Lexeme) (span rest : List Char) : Prop
  | blank (hspelled : lexeme.Spelled span) (hrest : ∀ c, rest.head? = some c → isBlank c = true) :
      lexeme.IsApart span rest
  | leads (hleads : lexeme.Leads span rest) : lexeme.IsApart span rest

/-- Two texts are made of lexemes that respell each other, and of any blanks as long as they keep
every lexeme apart from what follows it. -/
inductive Respelled : List Char → List Char → Prop
  | blank {gap other : List Char} (hgap : isBlankText gap = true)
      (hother : isBlankText other = true) : Respelled gap other
  | token {gap span rest other way later : List Char} {first second : Lexeme}
      (hgap : isBlankText gap = true) (hother : isBlankText other = true)
      (hfirst : first.IsApart span rest) (hsecond : second.IsApart way later)
      (hrespells : first.Respells second) (hrest : Respelled rest later) :
      Respelled (gap ++ (span ++ rest)) (other ++ (way ++ later))

/-! ### Layouts of texts that respell each other -/

theorem Lexeme.IsApart.leads_append_nil {lexeme : Lexeme} {span rest : List Char}
    (hapart : lexeme.IsApart span rest) : lexeme.Leads span (rest ++ []) := by
  rw [List.append_nil]
  cases hapart with
  | blank hspelled hrest => exact leads_of_blank hspelled hrest
  | leads hleads => exact hleads

/-- Texts that respell each other have layouts that do. -/
theorem exists_laid_of_respelled {text other : List Char} (hrespelled : Respelled text other) :
    ∀ offset place, ∃ occurrences others, Laid [] offset occurrences text ∧
      Laid [] place others other ∧ List.Forall₂ (fun first second =>
        first.token.lexeme.Respells second.token.lexeme) occurrences others := by
  induction hrespelled with
  | blank hgap hother => exact fun _ _ => ⟨[], [], .blank hgap, .blank hother, .nil⟩
  | token hgap hother hfirst hsecond hrespells _ ih =>
      intro offset place
      obtain ⟨occurrences, others, hlaid, hlater, hall⟩ := ih _ _
      exact ⟨_, _, .token hgap hfirst.leads_append_nil hlaid,
        .token hother hsecond.leads_append_nil hlater, .cons hrespells hall⟩

theorem respelled_of_laid {offset place : Nat} {occurrences others : List Occurrence}
    {text other : List Char} (hlaid : Laid [] offset occurrences text)
    (hother : Laid [] place others other) (hall : List.Forall₂ (fun first second =>
      first.token.lexeme.Respells second.token.lexeme) occurrences others) :
    Respelled text other := by
  induction hlaid generalizing place others other with
  | blank hgap =>
      cases hall
      cases hother with
      | blank hother => exact .blank hgap hother
  | token hgap hleads _ ih =>
      cases hall with
      | cons hrespells hall =>
          cases hother with
          | token hother hsecond hlater =>
              rw [List.append_nil] at hleads hsecond
              exact .token hgap hother (.leads hleads) (.leads hsecond) hrespells (ih hlater hall)

/-- **Texts respell each other exactly if their tokens do.** -/
theorem respelled_iff {text other : List Char} : Respelled text other ↔
    ∃ tokens others, tokenize text = .ok tokens ∧ tokenize other = .ok others ∧
      List.Forall₂ (fun token other => token.lexeme.Respells other.lexeme) tokens others := by
  constructor
  · intro hrespelled
    obtain ⟨occurrences, others, hlaid, hother, hall⟩ := exists_laid_of_respelled hrespelled 0 0
    refine ⟨_, _, hlaid.scan_eq, hother.scan_eq, ?_⟩
    rw [List.forall₂_map_left_iff, List.forall₂_map_right_iff]
    exact hall
  · rintro ⟨tokens, others, htokens, hothers, hall⟩
    obtain ⟨occurrences, hlaid, rfl⟩ := exists_laid_of_tokenize htokens
    obtain ⟨laters, hlater, rfl⟩ := exists_laid_of_tokenize hothers
    rw [List.forall₂_map_left_iff, List.forall₂_map_right_iff] at hall
    exact respelled_of_laid hlaid hlater hall

/-! ### Names -/

theorem toLower_eq_lowLine {c : Char} : c.toLower = '_' ↔ c = '_' := by
  unfold Char.toLower
  split
  · next hupper =>
    simp only [ge_iff_le, UInt32.le_iff_toNat_le] at hupper
    have hfirst : 65 ≤ c.val.toNat := hupper.1
    have hlast : c.val.toNat ≤ 90 := hupper.2
    constructor
    · intro hlow
      have hcode : (c.val + ('a'.val - 'A'.val)).toNat = 95 :=
        congrArg (fun d : Char => d.val.toNat) hlow
      rw [UInt32.toNat_add] at hcode
      have hgap : ('a'.val - 'A'.val).toNat = 32 := rfl
      omega
    · rintro rfl
      exact absurd hlast (by decide)
  · rfl

/-- The canonical form of a name can be told from the name in lower case. -/
theorem canonical_eq (name : String) :
    canonical name = String.ofList (name.toLower.toList.filter (· != '_')) := by
  have hsame : ((· != '_') ∘ Char.toLower : Char → Bool) = (· != '_') := by
    funext c
    rw [Bool.eq_iff_iff]
    simp [toLower_eq_lowLine]
  have hlower : name.toLower.toList = name.toList.map Char.toLower := String.toList_map
  rw [canonical, hlower, List.filter_map, hsame]

/-- The names that a condition can have, in canonical form. -/
def familiarNames : List String :=
  ["category", "gametype", "colors", "cards", "words", "count", "total", "contains", "containsall",
    "containsany", "containskey", "matches"]

/-- A word is a keyword or one of the names that a condition can have. -/
def Token.IsFamiliar (token : Token) : Prop :=
  ∀ name, token.lexeme = .word name → name.toLower ∈ keywords ∨ canonical name ∈ familiarNames

theorem notMem_keywords_of_canonical {name : String} (hname : canonical name ∈ familiarNames) :
    name.toLower ∉ keywords := by
  have hkeywords : ∀ word ∈ keywords,
      String.ofList (word.toList.filter (· != '_')) ∉ familiarNames := by decide
  intro hword
  rw [canonical_eq] at hname
  exact hkeywords _ hword hname

theorem isFamiliar_of_spells {token : Token} {symbol : Symbol} (hspells : token.Spells symbol) :
    token.IsFamiliar := by
  intro name hname
  cases hspells with
  | sign hsign =>
      rw [hsign] at hname
      cases hname
  | word hword hoperator =>
      rw [hword] at hname
      cases hname
      exact .inl (List.mem_append_left _ (List.mem_map_of_mem hoperator))

theorem isFamiliar_of_value {token : Token} {name : String} {literal : Literal}
    (hword : token.lexeme = .word name) (hvalue : (name.toLower, literal) ∈ valueWords) :
    token.IsFamiliar := by
  intro other hother
  rw [hword] at hother
  cases hother
  exact .inl (List.mem_append_right _ (List.mem_map_of_mem hvalue))

theorem isFamiliar_of_canonical {token : Token} {name : String} (hword : token.lexeme = .word name)
    (hname : canonical name ∈ familiarNames) : token.IsFamiliar := by
  intro other hother
  rw [hword] at hother
  cases hother
  exact .inr hname

theorem keyword?_eq_none {name : String} (hname : name.toLower ∉ keywords) :
    keyword? name = none := by
  refine Option.eq_none_iff_forall_ne_some.mpr fun symbol hsymbol => ?_
  exact notMem_operatorWords hname symbol (keyword?_eq_some_iff.mp hsymbol)

/-- **A familiar token is mirrored by every other way to spell it.** -/
theorem mirrors_of_respells {token other : Token} (hfamiliar : token.IsFamiliar)
    (hrespells : token.lexeme.Respells other.lexeme) : token.Mirrors other := by
  obtain ⟨lexeme, offset⟩ := token
  obtain ⟨another, place⟩ := other
  dsimp only at hrespells
  cases hrespells with
  | same => exact ⟨rfl, fun _ h => h, fun _ h => h, fun name h => ⟨name, h, rfl, rfl⟩⟩
  | operator hword =>
      exact ⟨keyword?_eq_some_iff.mpr hword, nofun, nofun, nofun⟩
  | @letterCase name written hsame =>
      refine ⟨?_, nofun, nofun, ?_⟩
      · change keyword? written = keyword? name
        unfold keyword?
        rw [hsame]
      · rintro _ ⟨⟩
        refine ⟨written, rfl, ?_, ?_⟩
        · rw [canonical_eq, canonical_eq, hsame]
        · unfold reserved?
          rw [hsame]
  | @name name written hname hsame =>
      have hcanonical := (hfamiliar name rfl).resolve_left hname
      have hwritten : written.toLower ∉ keywords :=
        notMem_keywords_of_canonical (by rwa [hsame])
      refine ⟨?_, nofun, nofun, ?_⟩
      · change keyword? written = keyword? name
        rw [keyword?_eq_none hname, keyword?_eq_none hwritten]
      · rintro _ ⟨⟩
        refine ⟨written, rfl, hsame, ?_⟩
        rw [reserved?_eq_none_iff.mpr (notMem_valueWords hname),
          reserved?_eq_none_iff.mpr (notMem_valueWords hwritten)]

theorem mirrors_of_forall₂ {tokens others : List Token}
    (hall : List.Forall₂ (fun token other => token.lexeme.Respells other.lexeme) tokens others)
    (hfamiliar : ∀ token ∈ tokens, token.IsFamiliar) :
    List.Forall₂ Token.Mirrors tokens others := by
  induction hall with
  | nil => exact .nil
  | cons hrespells _ ih =>
      obtain ⟨hfirst, hrest⟩ := List.forall_mem_cons.mp hfamiliar
      exact .cons (mirrors_of_respells hfirst hrespells) (ih hrest)

/-! ### Words of conditions that have a kind -/

theorem texts_subset : ["category", "gametype"] ⊆ familiarNames := by decide

theorem bags_subset : ["colors", "cards", "words"] ⊆ familiarNames := by decide

theorem numbers_subset : ["count", "total"] ⊆ familiarNames := by decide

theorem familiar_of_methodKind {name : String} {kinds : List Kind} {kind : Kind}
    (hmethod : MethodKind name kinds kind) : name ∈ familiarNames := by
  cases hmethod with
  | containsAll hname =>
      have hsubset : ["contains", "containsall"] ⊆ familiarNames := by decide
      exact hsubset hname
  | _ => decide

theorem method_of_ofKind {offset : Nat} {target : Expr} {name : String} {args : List Expr}
    {kind : Kind} (hkind : OfKind (.method offset target name args) kind) :
    OfKind target .bag ∧ canonical name ∈ familiarNames ∧
      ∀ arg ∈ args, ∃ kind, OfKind arg kind := by
  cases hkind with
  | number htarget hname =>
      exact ⟨htarget, numbers_subset hname, nofun⟩
  | method htarget hargs hmethod =>
      refine ⟨htarget, familiar_of_methodKind hmethod, ?_⟩
      intro arg harg
      obtain ⟨pair, hpair, rfl⟩ := List.mem_map.mp harg
      exact ⟨pair.2, hargs pair hpair⟩

theorem call_of_ofKind {offset : Nat} {name : String} {args : List Expr} {kind : Kind}
    (hkind : OfKind (.call offset name args) kind) :
    canonical name ∈ familiarNames ∧ ∀ arg ∈ args, ∃ kind, OfKind arg kind := by
  cases hkind with
  | reference hname =>
      refine ⟨by rw [hname]; decide, ?_⟩
      intro arg harg
      rw [List.mem_singleton.mp harg]
      exact ⟨_, .literal⟩

theorem canonical_of_ofKind_attribute {offset : Nat} {name : String} {kind : Kind}
    (hkind : OfKind (.attribute offset name) kind) : canonical name ∈ familiarNames := by
  cases hkind with
  | text hname => exact texts_subset hname
  | bag hname => exact bags_subset hname

/-- The tokens of segments with commas between them are familiar if those of the segments are. -/
theorem isFamiliar_of_separated {segments : List (List Token)} {between : List Token}
    (hbetween : Separated segments between)
    (hsegments : ∀ segment ∈ segments, ∀ token ∈ segment, token.IsFamiliar) :
    ∀ token ∈ between, token.IsFamiliar := by
  induction hbetween with
  | none => simp
  | one => exact hsegments _ List.mem_cons_self
  | more hcomma _ ih =>
      obtain ⟨hfirst, hrest⟩ := List.forall_mem_cons.mp hsegments
      exact List.forall_mem_append.mpr
        ⟨hfirst, List.forall_mem_cons.mpr ⟨isFamiliar_of_spells hcomma, ih hrest⟩⟩

theorem isFamiliar_of_arguments {args : List (List Token × Expr)} {between : List Token}
    (hargs : ∀ arg ∈ args, ∀ kind, OfKind arg.2 kind → ∀ token ∈ arg.1, token.IsFamiliar)
    (hkinds : ∀ expr ∈ args.map (·.2), ∃ kind, OfKind expr kind)
    (hbetween : Separated (args.map (·.1)) between) : ∀ token ∈ between, token.IsFamiliar := by
  refine isFamiliar_of_separated hbetween ?_
  intro segment hsegment
  obtain ⟨arg, harg, rfl⟩ := List.mem_map.mp hsegment
  obtain ⟨kind, hkind⟩ := hkinds arg.2 (List.mem_map_of_mem harg)
  exact hargs arg harg kind hkind

/-- **All words of a condition that has a kind are familiar.** -/
theorem isFamiliar_of_derives {room : Nat} {category : Category} {tokens : List Token} {expr : Expr}
    (hderives : Derives room category tokens expr) :
    ∀ kind, OfKind expr kind → ∀ token ∈ tokens, token.IsFamiliar := by
  induction hderives with
  | conjunction _ ih | negation _ ih | comparison _ _ ih | sum _ ih | operand _ ih
  | primary _ ih => exact ih
  | or _ hsign _ ihleft ihright | and _ hsign _ ihleft ihright
  | compare _ _ hsign _ ihleft ihright | add _ _ hsign _ ihleft ihright =>
      intro kind hkind
      cases hkind with
      | binary hleft hright _ =>
          exact List.forall_mem_append.mpr ⟨ihleft _ hleft,
            List.forall_mem_cons.mpr ⟨isFamiliar_of_spells hsign, ihright _ hright⟩⟩
  | not hsign _ ih =>
      intro kind hkind
      cases hkind with
      | not hoperand =>
          exact List.forall_mem_cons.mpr ⟨isFamiliar_of_spells hsign, ih _ hoperand⟩
  | property _ hdot hword ih =>
      intro kind hkind
      cases hkind with
      | property htarget hname =>
          simp only [List.forall_mem_append, List.forall_mem_cons]
          exact ⟨ih _ htarget, isFamiliar_of_spells hdot,
            isFamiliar_of_canonical hword (numbers_subset hname), nofun⟩
  | method _ hdot hword hopening _ _ hbetween hclosing ih ihargs =>
      intro kind hkind
      obtain ⟨htarget, hname, hkinds⟩ := method_of_ofKind hkind
      simp only [List.forall_mem_append, List.forall_mem_cons]
      exact ⟨ih _ htarget, isFamiliar_of_spells hdot, isFamiliar_of_canonical hword hname,
        isFamiliar_of_spells hopening, isFamiliar_of_arguments ihargs hkinds hbetween,
        isFamiliar_of_spells hclosing, nofun⟩
  | index _ hopening _ hclosing ih ihkey =>
      intro kind hkind
      cases hkind with
      | index htarget hkey =>
          simp only [List.forall_mem_append, List.forall_mem_cons]
          exact ⟨ih _ htarget, isFamiliar_of_spells hopening, ihkey _ hkey,
            isFamiliar_of_spells hclosing, nofun⟩
  | number hnumber =>
      intro kind _
      refine List.forall_mem_singleton.mpr fun name hname => ?_
      rw [hnumber] at hname
      cases hname
  | text htext =>
      intro kind _
      refine List.forall_mem_singleton.mpr fun name hname => ?_
      rw [htext] at hname
      cases hname
  | value hword hvalue =>
      exact fun kind _ => List.forall_mem_singleton.mpr (isFamiliar_of_value hword hvalue)
  | named hword _ =>
      intro kind hkind
      exact List.forall_mem_singleton.mpr
        (isFamiliar_of_canonical hword (canonical_of_ofKind_attribute hkind))
  | call hword _ hopening _ _ hbetween hclosing ihargs =>
      intro kind hkind
      obtain ⟨hname, hkinds⟩ := call_of_ofKind hkind
      simp only [List.forall_mem_append, List.forall_mem_cons]
      exact ⟨isFamiliar_of_canonical hword hname, isFamiliar_of_spells hopening,
        isFamiliar_of_arguments ihargs hkinds hbetween, isFamiliar_of_spells hclosing, nofun⟩
  | paren hopening _ hclosing ih =>
      intro kind hkind
      simp only [List.forall_mem_append, List.forall_mem_cons]
      exact ⟨isFamiliar_of_spells hopening, ih kind hkind, isFamiliar_of_spells hclosing, nofun⟩

/-! ### Texts -/

/-- What any compiler makes of a text it makes of every text that respells it. -/
theorem fst_compile_of_respelled {compiler : Compiler} {references : References}
    {text other : String} {holds : Predicate} (hrespelled : Respelled text.toList other.toList)
    (hcompile : (compiler.compile references text).1 = .ok holds) :
    (compiler.compile references other).1 = .ok holds := by
  rw [Compiler.fst_compile] at hcompile ⊢
  obtain ⟨expr, hparse, hchecked⟩ := exists_of_bind_eq_ok hcompile
  have hcheck : expr.compile references = (.ok holds, (expr.compile references).2) :=
    Prod.ext (eq_ok_of_mapError hchecked) rfl
  obtain ⟨tokens, others, htokens, hothers, hall⟩ := respelled_iff.mp hrespelled
  rw [parse_of_tokenize htokens] at hparse
  have hfamiliar := isFamiliar_of_derives (derives_of_ofTokens hparse) .bool
    (fits_of_compile hcheck).kind
  obtain ⟨another, hread, hlike⟩ := exists_ofTokens_of_mirrors other.toList.length
    (mirrors_of_forall₂ hall hfamiliar) hparse
  rw [parse_of_tokenize hothers, hread, ok_bind, compile_of_plain_eq hlike hcheck]
  rfl

/-- **A condition that is spelled otherwise holds for the same records.** -/
theorem compile_of_respelled {text other : String} {holds : Predicate}
    (hrespelled : Respelled text.toList other.toList) (hcompile : compile text = .ok holds) :
    compile other = .ok holds :=
  fst_compile_of_respelled hrespelled hcompile

/-- Operators are written as words, and names, a keyword, quotes and blanks otherwise. -/
theorem compile_of_respelled_negation : ∃ holds,
    compile "!colors.Contains(\"W\")&&true" = .ok holds ∧
      compile "NOT col_ors . contains_( 'W' ) And TRUE" = .ok holds := by
  have htokens : tokenize "!colors.Contains(\"W\")&&true".toList =
      .ok [⟨.symbol .not, 0⟩, ⟨.word "colors", 1⟩, ⟨.symbol .dot, 7⟩, ⟨.word "Contains", 8⟩,
        ⟨.symbol .openParen, 16⟩, ⟨.text "W", 17⟩, ⟨.symbol .closeParen, 20⟩, ⟨.symbol .and, 21⟩,
        ⟨.word "true", 23⟩] := by decide +kernel
  have hothers : tokenize "NOT col_ors . contains_( 'W' ) And TRUE".toList =
      .ok [⟨.word "NOT", 0⟩, ⟨.word "col_ors", 4⟩, ⟨.symbol .dot, 12⟩, ⟨.word "contains_", 14⟩,
        ⟨.symbol .openParen, 23⟩, ⟨.text "W", 25⟩, ⟨.symbol .closeParen, 29⟩, ⟨.word "And", 31⟩,
        ⟨.word "TRUE", 35⟩] := by decide +kernel
  have hupper : "TRUE".toLower = "true" := by decide +kernel
  have hlower : "true".toLower = "true" := by decide +kernel
  have hrespelled : Respelled "!colors.Contains(\"W\")&&true".toList
      "NOT col_ors . contains_( 'W' ) And TRUE".toList := by
    refine respelled_iff.mpr ⟨_, _, htokens, hothers, ?_⟩
    exact .cons (.operator (by decide +kernel)) <|
      .cons (.name (by decide +kernel) (by decide +kernel)) <| .cons (.same _) <|
      .cons (.name (by decide +kernel) (by decide +kernel)) <| .cons (.same _) <|
      .cons (.same _) <| .cons (.same _) <| .cons (.operator (by decide +kernel)) <|
      .cons (.letterCase (hupper.trans hlower.symm)) .nil
  have haccepted : (compile "!colors.Contains(\"W\")&&true").isOk = true := by decide +kernel
  cases hcompile : compile "!colors.Contains(\"W\")&&true" with
  | error failure =>
      rw [hcompile] at haccepted
      cases haccepted
  | ok holds => exact ⟨holds, rfl, compile_of_respelled hrespelled hcompile⟩

end Archetype.Condition

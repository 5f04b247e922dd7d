import Mathlib
import SqfLayout.Layout
import SqfLayout.Proofs.Returns.Expression

/-! The check of a source that has a carriage return before every line feed. -/
namespace SqfLayout
open TokenReader
open Token (Alike)

def Parameter.withReturns (p : Parameter) : Parameter :=
  { p with name? := p.name?.map Text.withReturns, value? := p.value?.map Expression.withReturns }

/-- The same header where lines end in two characters: its comment does not show it. -/
def Header.withReturns (h : Header) : Header :=
  { h with parameters := h.parameters.map Parameter.withReturns }

private theorem Header.read_withReturns {comment : Text} (h : '\r' ∉ comment) (c : Convention) (number : Nat) :
    Header.read c number comment.withReturns = Header.read c number comment := by
  have hlines : Header.Lines.ofComment number comment.withReturns =
      Header.Lines.ofComment number comment := by
    unfold Header.Lines.ofComment
    rw [Text.splitLines_withReturns h]
  unfold Header.read
  rw [hlines]

namespace Layout

/-- No type is stood for by a string that reaches over a line break. -/
def StringsOnLine (c : Convention) : Prop :=
  ∀ type text, (type, Sentinel.string text) ∈ c.sentinels → '\n' ∉ text

section
variable {c : Convention}

/-- A reader that gives the same value on streams that belong together. -/
abbrev Steady {α : Type} (r : TokenReader α) : Prop := Simulates Violation.Same Eq r r

private theorem steady_pass (kind : Token.Kind) : Steady (pass kind) :=
  (simulates_expect kind none).next (simulates_pure rfl)

private theorem steady_passFor (hint : Hint) (kind : Token.Kind) : Steady (passFor hint kind) :=
  (simulates_expect kind (some hint)).next (simulates_pure rfl)

private theorem steady_preamble : Steady (preamble c) := by
  unfold preamble
  refine (steady_pass _).next ((simulates_expect _ none).bind ?_)
  rintro path path' ⟨hpath, hkind⟩
  have hvalue : path'.value = path.value := hpath.value_eq (by simp [hkind, Token.lineKinds])
  dsimp only
  rw [hvalue, hpath.position_eq]
  refine .behindCheck ⟨rfl, rfl⟩ ((steady_pass _).next ((simulates_expect _ none).bind ?_))
  rintro comment comment' ⟨hcomment, hkind⟩
  rw [hcomment.value_eq_withReturns (by simp [hkind]), hcomment.position_eq,
    Header.read_withReturns hcomment.1.noReturn]
  cases Header.read c comment.position.line comment.value with
  | error violation => exact simulates_throw ⟨rfl, rfl⟩
  | ok header => exact simulates_pure rfl

/-- A literal is the same text in both streams, or in neither. -/
private theorem steady_literal {kind : Token.Kind} {value : Text} (type : Text) (s : Sentinel)
    (h : kind ∈ Token.lineKinds ∨ kind ≠ .newline ∧ '\n' ∉ value) :
    Steady (literal kind value type s) := by
  unfold literal
  refine (simulates_expect _ _).bind ?_
  rintro t t' ⟨ht, rfl⟩
  have hvalue : t'.value = value ↔ t.value = value := by
    rcases h with hline | ⟨hne, hfeed⟩
    · rw [ht.value_eq hline]
    · rw [ht.value_eq_withReturns hne, Text.withReturns_eq_iff hfeed]
  simp only [ne_eq, hvalue, ht.position_eq]
  split
  · exact simulates_throw ⟨rfl, rfl⟩
  · exact simulates_pure rfl

private theorem steady_sentinel (type : Text) {s : Sentinel}
    (h : ∀ text, s = .string text → '\n' ∉ text) : Steady (sentinel type s) := by
  cases s with
  | emptyArray => exact (steady_passFor _ _).next (steady_pass _)
  | emptyCode => exact (steady_passFor _ _).next (steady_pass _)
  | command name => exact steady_literal _ _ (.inl (by simp [Token.lineKinds]))
  | number text => exact steady_literal _ _ (.inl (by simp [Token.lineKinds]))
  | string text => exact steady_literal _ _ (.inr ⟨by simp, h text rfl⟩)

private theorem steady_typeChecks (hc : StringsOnLine c) (types : List Text) :
    Steady (typeChecks c types) := by
  induction types with
  | nil => exact simulates_pure rfl
  | cons type types ih =>
    unfold typeChecks
    have hrest : Steady
        (if types.isEmpty = true then pure () else do
          passFor .moreTypes .comma
          pass .space
          typeChecks c types : TokenReader Unit) := by
      split
      · exact simulates_pure rfl
      · exact (steady_passFor _ _).next ((steady_pass _).next ih)
    dsimp only
    cases hs : c.sentinel? type with
    | none => exact hrest
    | some s =>
      refine (steady_sentinel type ?_).next hrest
      rintro text rfl
      obtain ⟨before, after, hmem, _⟩ := List.lookup_eq_some_iff.1 hs
      exact hc type text (by simp [hmem])

private theorem steady_sizeCheck : Steady sizeCheck := by
  unfold sizeCheck
  refine (steady_passFor _ _).next ((steady_pass _).next (simulates_get.bind ?_))
  intro s s' hs
  rw [(next_alike hs).kind_eq]
  split
  · exact Expression.simulates_readArray.next (simulates_pure rfl)
  · exact steady_pass _

private theorem simulates_entry (hc : StringsOnLine c) (p : Parameter) :
    Simulates Violation.Same (fun b b' => b' = b.withReturns) (entry c p) (entry c p) := by
  unfold entry
  refine (steady_passFor _ _).next ((simulates_expect _ none).bind ?_)
  rintro name name' ⟨hname, hkind⟩
  refine (steady_pass _).next ((steady_pass _).next (Expression.simulates_read.bind ?_))
  rintro value _ rfl
  have hclose : Simulates Violation.Same (fun b b' => b' = b.withReturns) (do
      pass .rightBracket
      return { p with name? := some name.value, value? := some value } : TokenReader Parameter) (do
      pass .rightBracket
      return { p with name? := some name'.value, value? := some value.withReturns }
        : TokenReader Parameter) := by
    refine (steady_pass _).next (simulates_pure ?_)
    rw [hname.value_eq_withReturns (by simp [hkind])]
    rfl
  refine (steady_passFor _ _).next ((steady_pass _).next ((steady_pass _).next
    ((steady_typeChecks hc p.types).next ((steady_pass _).next ?_))))
  dsimp only
  split
  · exact steady_sizeCheck.next hclose
  · exact hclose

/-- Rejections whose violations read the same. What was reported before may name variables. -/
def Rejection.Same (x x' : Rejection) : Prop := x.violation.Same x'.violation

private theorem simulates_logged {α α' : Type} {R : α → α' → Prop} {r : TokenReader α} {r' : TokenReader α'}
    (h : Simulates Violation.Same R r r') (log log' : List Event) :
    Simulates Rejection.Same R (logged log r) (logged log' r') := by
  intro s s' hs
  have hr := h s s' hs
  show Agree Rejection.Same R (EStateM.adaptExcept _ r s) (EStateM.adaptExcept _ r' s')
  unfold EStateM.adaptExcept
  revert hr
  generalize r s = x
  generalize r' s' = x'
  intro hr
  cases hr with
  | ok ha hm => exact .ok ha hm
  | error he => exact .error he

private theorem simulates_entries (hc : StringsOnLine c) (ps : List Parameter) (log log' : List Event) :
    Simulates Rejection.Same (fun bs bs' => bs' = bs.map Parameter.withReturns) (entries c log ps)
      (entries c log' ps) := by
  induction ps generalizing log log' with
  | nil => exact simulates_pure rfl
  | cons p ps ih =>
    unfold entries
    refine (simulates_logged (simulates_entry hc p) _ _).bind ?_
    rintro b _ rfl
    dsimp only
    split
    · refine (ih _ _).bind ?_
      rintro bs _ rfl
      exact simulates_pure rfl
    · have hnext := (steady_passFor .moreParameters .comma).next (steady_pass .newline)
      refine (simulates_logged hnext _ _).next ((ih _ _).bind ?_)
      rintro bs _ rfl
      exact simulates_pure rfl

private theorem simulates_binding (hc : StringsOnLine c) (ps : List Parameter) (log log' : List Event) :
    Simulates Rejection.Same (fun bs bs' => bs' = bs.map Parameter.withReturns) (binding c log ps)
      (binding c log' ps) := by
  unfold binding
  have hopen := simulates_take.next ((steady_pass .space).next
    ((steady_pass .leftBracket).next (steady_passFor .indentParameter .indent)))
  refine (simulates_logged hopen _ _).next ((simulates_entries hc ps _ _).bind ?_)
  rintro bound _ rfl
  exact (simulates_logged (steady_passFor _ _) _ _).next (simulates_pure rfl)

private theorem simulates_layout (hc : StringsOnLine c) :
    Simulates Rejection.Same (fun h h' => h' = h.withReturns) (layout c) (layout c) := by
  unfold layout
  refine (simulates_logged steady_preamble _ _).bind ?_
  rintro header _ rfl
  have hgap := (steady_pass .blank).next (steady_pass .newline)
  refine (simulates_logged hgap _ _).next (simulates_get.bind ?_)
  intro s s' hs
  have ht := next_alike hs
  have hcommand : ((next s').kind = .command ∧ (next s').value = c.parametersCommand) ↔
      ((next s).kind = .command ∧ (next s).value = c.parametersCommand) := by
    rw [ht.kind_eq]
    refine and_congr_right fun hkind => ?_
    rw [ht.value_eq (by simp [hkind, Token.lineKinds])]
  dsimp only
  rw [decide_eq_decide.2 hcommand]
  cases decide ((next s).kind = .command ∧ (next s).value = c.parametersCommand) with
  | true =>
    cases hparameters : header.parameters with
    | nil => exact simulates_logged (simulates_reject _) _ _
    | cons p ps =>
      refine (simulates_binding hc _ _ _).bind ?_
      rintro bound _ rfl
      exact simulates_pure rfl
  | false =>
    cases hparameters : header.parameters with
    | nil =>
      obtain ⟨authors, description, parameters⟩ := header
      subst hparameters
      exact simulates_pure rfl
    | cons p ps => exact simulates_logged (simulates_reject _) _ _

end

private theorem complete_withReturns (s : List Token) :
    complete (s.map Token.withReturns) = (complete s).map Token.withReturns := by
  unfold complete
  rw [List.getLast?_map]
  cases s.getLast? with
  | none => rfl
  | some t =>
    simp only [Option.map_some, Token.kind_withReturns, Token.position_withReturns]
    split
    · rfl
    · rw [List.map_append]
      rfl

private theorem mem_complete {s : List Token} : ∀ t ∈ complete s, t ∈ s ∨ ∃ p, t = Token.eos p := by
  unfold complete
  split
  · simp
  · split
    · exact fun t ht => .inl ht
    · intro t ht
      rcases List.mem_append.1 ht with ht | ht
      · exact .inl ht
      · exact .inr ⟨_, List.mem_singleton.1 ht⟩

private theorem validate_withReturns {c : Convention} (hc : StringsOnLine c) {tokens : List Token}
    (h : ∀ t ∈ tokens, t.IsClean) :
    (∃ header, validate c tokens = .ok header ∧
      validate c (tokens.map Token.withReturns) = .ok header.withReturns) ∨
    ∃ v v', validate c tokens = .error v ∧ validate c (tokens.map Token.withReturns) = .error v' ∧
      v.Same v' := by
  have hclean : ∀ t ∈ complete tokens, t.IsClean := by
    intro t ht
    rcases mem_complete t ht with ht | ⟨p, rfl⟩
    · exact h t ht
    · exact ⟨by simp [Token.eos], by simp [Token.eos, Token.lineKinds]⟩
  have hstreams : Streams (complete tokens) (complete (tokens.map Token.withReturns)) := by
    rw [complete_withReturns]
    exact List.forall₂_map_right_iff.2 (List.forall₂_same.2 fun t ht => ⟨hclean t ht, rfl⟩)
  have hrun := simulates_layout hc _ _ hstreams
  unfold validate check
  revert hrun
  generalize layout c (complete tokens) = x
  generalize layout c (complete (tokens.map Token.withReturns)) = x'
  intro hrun
  cases hrun with
  | ok hheader _ => exact .inl ⟨_, rfl, congrArg Except.ok hheader⟩
  | error hsame => exact .inr ⟨_, _, rfl, rfl, hsame⟩

/-- Where lines end in two characters, a file is accepted or not as before: the same violation is found
at the same place, or the header is the same but for what strings and code blocks show of it. -/
theorem answer_withReturns (c : Convention) (hc : StringsOnLine c) (source : Text)
    (hsource : '\r' ∉ source) :
    (∃ h, answer c source = .ok h ∧ answer c source.withReturns = .ok h.withReturns) ∨
    (∃ v v', answer c source = .error v ∧ answer c source.withReturns = .error v' ∧ v.Same v') := by
  have hstream := Token.stream_withReturns hsource
  unfold answer
  cases htokens : Token.stream source with
  | error fault =>
    rw [htokens] at hstream
    rw [hstream]
    exact .inr ⟨_, _, rfl, rfl, rfl, rfl⟩
  | ok tokens =>
    rw [htokens] at hstream
    rw [hstream]
    exact validate_withReturns hc (Token.isClean_of_stream hsource htokens)

/-- A comment that declares no parameter. -/
def plainComment : Text :=
  "\n    Arma At War\n\n    Author: NetFusion\n\n    Description:\n    Waits for a condition.\n\n" ++
    "    Parameter(s):\n    None\n"

def plainSource : Text := "#include \"macros.hpp\"\n/*" ++ plainComment ++ "*/\n\n"

private theorem cut_of_head {p q : Position} {lineStart : Bool} {c : Char} {text m : Text}
    {x : Lexeme} {xs : List (Position × Lexeme)} (hhead : text = c :: text.tail)
    (hread : Lexeme.read lineStart c text.tail = .ok x) (htext : text = x.text ++ m)
    (hq : p.advance x.text = q) (h : Lexeme.cut q x.isBreaks m = .ok xs) :
    Lexeme.cut p lineStart text = .ok ((p, x) :: xs) := by
  rw [hhead, Token.cut_of_read hread, ← hhead, htext, List.drop_left, hq, h]
  rfl

private theorem cut_plainSource : Lexeme.cut ⟨1, 1⟩ true plainSource =
    .ok [(⟨1, 1⟩, .inclusion " " .quotes "macros.hpp"), (⟨1, 22⟩, .breaks "\n"),
      (⟨2, 1⟩, .blockComment plainComment), (⟨12, 3⟩, .breaks "\n\n")] := by
  have hend : Lexeme.cut ⟨14, 1⟩ true [] = .ok [] := by rw [Lexeme.cut]
  have hgap : Lexeme.cut ⟨12, 3⟩ false "\n\n" = .ok [(⟨12, 3⟩, .breaks "\n\n")] :=
    cut_of_head (c := '\n') (m := []) (by cbv) (by cbv) (by cbv) (by cbv) hend
  have hcomment : Lexeme.cut ⟨2, 1⟩ true ("/*" ++ plainComment ++ "*/\n\n") =
      .ok [(⟨2, 1⟩, .blockComment plainComment), (⟨12, 3⟩, .breaks "\n\n")] :=
    cut_of_head (c := '/') (m := "\n\n") (by cbv) (by cbv) (by cbv) (by cbv) hgap
  have hline : Lexeme.cut ⟨1, 22⟩ false ("\n/*" ++ plainComment ++ "*/\n\n") =
      .ok [(⟨1, 22⟩, .breaks "\n"), (⟨2, 1⟩, .blockComment plainComment),
        (⟨12, 3⟩, .breaks "\n\n")] :=
    cut_of_head (c := '\n') (m := "/*" ++ plainComment ++ "*/\n\n") (by cbv) (by cbv) (by cbv)
      (by cbv) hcomment
  exact cut_of_head (c := '#') (m := "\n/*" ++ plainComment ++ "*/\n\n") (by cbv) (by cbv) (by cbv)
    (by cbv) hline

private theorem answer_plainSource :
    answer .standard plainSource = .ok ⟨["NetFusion"], ["Waits for a condition."], []⟩ := by
  have hstream : Token.stream plainSource = .ok [⟨.preprocessorStart, "#", ⟨1, 1⟩⟩,
      ⟨.preprocessorInclude, "macros.hpp", ⟨1, 2⟩⟩, Indentation.token ⟨1, 22⟩ .newline,
      ⟨.blockComment, plainComment, ⟨2, 1⟩⟩, Indentation.token ⟨12, 3⟩ .blank,
      Indentation.token ⟨12, 3⟩ .newline, Token.eos ⟨14, 1⟩] := by
    have hmargin : (Text.dropMark plainSource).takeWhile Text.isBlank = [] := by cbv
    have hbody : (Text.dropMark plainSource).dropWhile Text.isBlank = plainSource := by cbv
    have hend : Position.start.advance plainSource = ⟨14, 1⟩ := by cbv
    unfold Token.stream
    simp only [hmargin, hbody, Position.advance_nil, hend]
    rw [show Position.start = ⟨1, 1⟩ from rfl, cut_plainSource]
    cbv
  unfold answer
  rw [hstream]
  cbv

/-- The file is accepted with two characters at the end of each line because it is accepted with
one. -/
theorem answer_withReturns_plain :
    StringsOnLine .standard ∧ '\r' ∉ plainSource ∧ answer .standard plainSource.withReturns =
      .ok ⟨["NetFusion"], ["Waits for a condition."], []⟩ := by
  have hstrings : StringsOnLine .standard := by
    intro type text h
    simp only [Convention.standard, List.mem_cons, List.not_mem_nil, or_false, Prod.mk.injEq] at h
    simp at h
    simp [h.2]
  have hsource : '\r' ∉ plainSource := by simp [plainSource, plainComment]
  refine ⟨hstrings, hsource, ?_⟩
  obtain ⟨h, hanswer, hreturns⟩ | ⟨v, v', hanswer, _⟩ :=
    answer_withReturns .standard hstrings plainSource hsource
  · rw [answer_plainSource] at hanswer
    cases hanswer
    exact hreturns
  · rw [answer_plainSource] at hanswer
    cases hanswer

end Layout
end SqfLayout

import SqfLayout.Proofs.Expression.Moved
import SqfLayout.Proofs.Header.Written
import SqfLayout.Proofs.Layout.Acceptance

/-! The entry of a parameter written as text, and the tokens that it gives. -/
namespace SqfLayout.Layout
open Lexeme (IsOne stops)
open Token (Emits emits_mark emits_nil)
open Expression (Derives)

def literalText : Sentinel → Text
  | .emptyArray => ['[', ']']
  | .emptyCode => ['{', '}']
  | .command name => name
  | .number text => text
  | .string text => '"' :: (text ++ ['"'])

/-- A literal whose text is read as that literal. -/
def IsLiteral : Sentinel → Prop
  | .emptyArray | .emptyCode => True
  | .command name => IsOne .command name
  | .number text => IsOne .number text
  | .string text => '"' ∉ text

def checkText (c : Convention) (type : Text) : Text := ((c.sentinel? type).map literalText).getD []

/-- The texts that check types, with a comma and a blank between any two. -/
def checksText (c : Convention) (types : List Text) : Text :=
  Text.joinItems (types.map (checkText c))

/-- A parameter as a file is to bind it: what the header says of it, the name of its variable, the
source of its value and the value, and the source of a size, should it need one. -/
structure Draft where
  parameter : Parameter
  name : Text
  source : Text
  value : Expression
  size : Text

namespace Draft

def sizeText (c : Convention) (d : Draft) : Text :=
  if c.needsSizeCheck d.parameter.types then ", " ++ d.size else []

def opening (d : Draft) : Text := "[\"" ++ d.name ++ "\", "

def text (c : Convention) (d : Draft) : Text :=
  d.opening ++ d.source ++ ", [" ++ checksText c d.parameter.types ++ "]" ++ d.sizeText c ++ "]"

def boundAt (p : Position) (d : Draft) : Parameter :=
  { d.parameter with
    name? := some d.name
    value? := some (d.value.within (p.advance d.opening)) }

end Draft

/-- A line of source that can stand anywhere in a file. -/
def IsLine (text : Text) : Prop :=
  (∀ c ∈ text, Text.isBreak c = false) ∧ text.head? ≠ some '\uFEFF'

/-- A convention whose command and literals can be written. -/
structure WritableConvention (c : Convention) : Prop where
  header : ∀ d ∈ c.header, d ≠ '"' ∧ Text.isBreak d = false
  command : IsOne .command c.parametersCommand
  literals : ∀ type sen, c.sentinel? type = some sen → IsLiteral sen

theorem writable_standard : WritableConvention .standard where
  header := by simp [Convention.standard, Text.isBreak]
  command := ⟨'p', _, by cbv, by cbv⟩
  literals := by
    intro type sen h
    obtain ⟨before, after, hmem, _⟩ := List.lookup_eq_some_iff.1 h
    have hsen : (type, sen) ∈ Convention.standard.sentinels := by simp [hmem]
    simp only [Convention.standard, List.mem_cons, List.not_mem_nil, or_false, Prod.mk.injEq] at hsen
    rcases hsen with ⟨_, rfl⟩ | ⟨_, rfl⟩ | ⟨_, rfl⟩ | ⟨_, rfl⟩ | ⟨_, rfl⟩ | ⟨_, rfl⟩ | ⟨_, rfl⟩ |
      ⟨_, rfl⟩ | ⟨_, rfl⟩ | ⟨_, rfl⟩
    · trivial
    · exact ⟨'t', _, by cbv, by cbv⟩
    · trivial
    · exact ⟨'c', _, by cbv, by cbv⟩
    · exact ⟨'d', _, by cbv, by cbv⟩
    · exact ⟨'g', _, by cbv, by cbv⟩
    · exact ⟨'0', _, by cbv, by cbv⟩
    · exact ⟨'o', _, by cbv, by cbv⟩
    · exact ⟨'s', _, by cbv, by cbv⟩
    · simp [IsLiteral]

/-- A draft that can be written. Its sources are read on their own. -/
structure WritableDraft (c : Convention) (d : Draft) : Prop where
  name : '"' ∉ d.name
  source_line : IsLine d.source
  source : ∃ tokens q, Token.stream d.source = .ok tokens ∧
    Expression.read tokens = .ok d.value [Token.eos q]
  size_line : NeedsSize c d.parameter.types → IsLine d.size
  size : NeedsSize c d.parameter.types → ∃ tokens q, Token.stream d.size = .ok tokens ∧
    ((∃ t : Token, t.kind = .number ∧ tokens = [t, Token.eos q]) ∨
      ∃ e, Expression.readArray tokens = .ok e [Token.eos q])

section
variable {c : Convention} {p : Position} {k : Char} {more : Text}

private theorem emits_literal {sen : Sentinel} (h : IsLiteral sen) (hk : k ∈ stops) :
    ∃ x, Spells sen x ∧ Emits p (literalText sen) (k :: more) x := by
  have hquote : (k :: more).head? ≠ some '"' := by
    simpa using Lexeme.ne_stop hk (by decide)
  cases sen with
  | emptyArray =>
    exact ⟨_, .emptyArray rfl rfl, (emits_mark rfl p _).append (emits_mark (k := ']') rfl _ _)⟩
  | emptyCode =>
    exact ⟨_, .emptyCode rfl rfl, (emits_mark rfl p _).append (emits_mark (k := '}') rfl _ _)⟩
  | command name => exact ⟨_, .command (t := ⟨.command, name, p⟩) rfl, Token.emits_one h (.inl rfl) hk⟩
  | number text => exact ⟨_, .number (t := ⟨.number, text, p⟩) rfl, Token.emits_one h (.inr rfl) hk⟩
  | string text => exact ⟨_, .string (t := ⟨.string, text, p⟩) rfl, Token.emits_string h hquote⟩

private theorem emits_check (hc : WritableConvention c) (type : Text) (hk : k ∈ stops) (p : Position)
    (more : Text) : ∃ x, ChecksType c type x ∧ Emits p (checkText c type) (k :: more) x := by
  unfold ChecksType checkText
  cases hsen : c.sentinel? type with
  | none => exact ⟨[], rfl, emits_nil⟩
  | some sen => exact emits_literal (hc.literals type sen hsen) hk

private theorem head_literalText {sen : Sentinel} (h : IsLiteral sen) :
    ∃ d rest, literalText sen = d :: rest ∧ Text.isBlank d = false := by
  cases sen with
  | emptyArray => exact ⟨_, _, rfl, rfl⟩
  | emptyCode => exact ⟨_, _, rfl, rfl⟩
  | command name =>
    obtain ⟨d, rest, hd, hblank, _⟩ := h.exists_cons (.inl rfl)
    exact ⟨d, rest, hd, hblank⟩
  | number text =>
    obtain ⟨d, rest, hd, hblank, _⟩ := h.exists_cons (.inr rfl)
    exact ⟨d, rest, hd, hblank⟩
  | string text => exact ⟨_, _, rfl, rfl⟩

/-- No blank starts the text of checks, so the one before it is a token of its own. -/
private theorem head_checksText (hc : WritableConvention c) (types : List Text) :
    ∀ d ∈ (checksText c types ++ ']' :: more).head?, Text.isBlank d = false := by
  have hcheck (type : Text) {d : Char} (hd : Text.isBlank d = false) (rest : Text) :
      ∀ e ∈ (checkText c type ++ d :: rest).head?, Text.isBlank e = false := by
    unfold checkText
    cases hsen : c.sentinel? type with
    | none => simpa using hd
    | some sen =>
      obtain ⟨e, text, he, hblank⟩ := head_literalText (hc.literals type sen hsen)
      simpa [he] using hblank
  match types with
  | [] => simp [checksText, Text.joinItems, Text.isBlank]
  | [type] => simpa [checksText] using hcheck type (by rfl) more
  | type :: type' :: types =>
    have := hcheck type (d := ',') (by rfl) (' ' :: (checksText c (type' :: types) ++ ']' :: more))
    simpa [checksText, Text.joinItems_cons_cons] using this

private theorem emits_checks (hc : WritableConvention c) (types : List Text) (p : Position)
    (more : Text) : ∃ x, ChecksTypes c types x ∧ Emits p (checksText c types) (']' :: more) x := by
  induction types generalizing p with
  | nil => exact ⟨[], .nil, emits_nil⟩
  | cons type types ih =>
    cases types with
    | nil =>
      obtain ⟨x, hx, hemits⟩ := emits_check hc type (k := ']') (by decide) p more
      exact ⟨x, .single hx, by simpa [checksText] using hemits⟩
    | cons type' types =>
      let others := checksText c (type' :: types)
      obtain ⟨x, hx, hfirst⟩ := emits_check hc type (k := ',') (by decide) p
        (' ' :: (others ++ ']' :: more))
      let p' := p.advance (checkText c type)
      let comma : Token := ⟨.comma, [','], p'⟩
      let gap : Token := ⟨.space, [' '], p'.advance [',']⟩
      have hcomma : Emits p' [','] (' ' :: (others ++ ']' :: more)) [comma] := emits_mark rfl _ _
      have hgap : Emits (p'.advance [',']) [' '] (others ++ ']' :: more) [gap] :=
        Token.emits_space (by simp) (by simp [Text.isBlank]) (head_checksText hc (type' :: types))
      obtain ⟨y, hy, hothers⟩ := ih ((p'.advance [',']).advance [' '])
      have hsep : comma.kind = .comma := rfl
      have hspace : gap.kind = .space := rfl
      refine ⟨_, .cons hx hsep hspace (by simp) hy, ?_⟩
      have htext : checksText c (type :: type' :: types) =
          checkText c type ++ ([','] ++ ([' '] ++ others)) := by
        simp [checksText, others, Text.joinItems_cons_cons]
      rw [htext]
      exact hfirst.append (hcomma.append (hgap.append hothers))

private theorem emits_source {form : Expression.Form} {text : Text} {x : List Token} {q : Position}
    (hline : IsLine text) (hstream : Token.stream text = .ok (x ++ [Token.eos q]))
    (hx : Derives form x) (hform : ∀ items, form ≠ .items items) (hk : k ∈ stops)
    (hspace : k ≠ ' ') (p : Position) (more : Text) : ∃ gap : Token, gap.kind = .space ∧
      Derives (form.within (p.step ' ')) (x.map (Token.within (p.step ' '))) ∧
      Emits p (' ' :: text) (k :: more) (gap :: x.map (Token.within (p.step ' '))) := by
  obtain ⟨t, others, hcons, ht⟩ := hx.exists_cons
  obtain ⟨init, u, hconcat, hu⟩ := hx.exists_concat.resolve_left fun ⟨items, h⟩ => hform items h
  have hfirst : ∀ t ∈ x.head?, t.kind ≠ .preprocessorStart := by
    rw [hcons]
    rintro _ ⟨⟩ h
    simp [Expression.openings, Expression.starts, h] at ht
  have hlast : ∀ t ∈ x.getLast?, t.kind ≠ .lineComment := by
    rw [hconcat, List.getLast?_concat]
    rintro _ ⟨⟩ h
    simp [Expression.endings, h] at hu
  obtain ⟨gap, hgap, hemits⟩ := Token.emits_line hstream hline.1 hline.2 hfirst
    hlast hk hspace p more
  exact ⟨gap, hgap, hx.within, hemits⟩

private theorem emits_size {d : Draft} (hd : WritableDraft c d) (p : Position) (more : Text) :
    ∃ z, ChecksSizeOf c d.parameter.types z ∧ Emits p (d.sizeText c) (']' :: more) z := by
  unfold Draft.sizeText ChecksSizeOf
  by_cases hneeds : NeedsSize c d.parameter.types
  · rw [if_pos (needsSizeCheck_iff.2 hneeds)]
    let comma : Token := ⟨.comma, [','], p⟩
    have hsep : comma.kind = .comma := rfl
    have hcomma : Emits p [','] (' ' :: (d.size ++ ']' :: more)) [comma] := emits_mark rfl _ _
    have htext : (", " ++ d.size : Text) = [','] ++ ' ' :: d.size := by simp
    rw [htext]
    obtain ⟨tokens, q, hstream, ⟨t, ht, rfl⟩ | ⟨e, hread⟩⟩ := hd.size hneeds
    · obtain ⟨gap, hgap, _, hemits⟩ := emits_source (x := [t]) (hd.size_line hneeds) hstream
        (.number ht) (by simp) (k := ']') (by decide) (by decide) (p.advance [',']) more
      have ht' : (t.within ((p.advance [',']).step ' ')).kind = .number := ht
      exact ⟨_, .inl ⟨hneeds, .number hsep hgap ht'⟩, hcomma.append hemits⟩
    · obtain ⟨items, x, _, hx, rfl⟩ := Expression.readArray_eq_ok_iff.1 hread
      obtain ⟨gap, hgap, hx', hemits⟩ := emits_source (hd.size_line hneeds) hstream hx (by simp)
        (k := ']') (by decide) (by decide) (p.advance [',']) more
      exact ⟨_, .inl ⟨hneeds, .array hsep hgap hx'⟩, hcomma.append hemits⟩
  · rw [if_neg fun h => hneeds (needsSizeCheck_iff.1 h)]
    exact ⟨[], .inr ⟨hneeds, rfl⟩, emits_nil⟩

theorem emits_entry {d : Draft} (hc : WritableConvention c) (hd : WritableDraft c d)
    (p : Position) (more : Text) : ∃ x, Binds c d.parameter x (d.boundAt p) ∧
      Emits p (d.text c) more x := by
  obtain ⟨tokens, q, hstream, hread⟩ := hd.source
  obtain ⟨x, hx, _, rfl⟩ := Expression.read_eq_ok_iff.1 hread
  let checks := checksText c d.parameter.types
  have htext : d.text c = '[' :: ('"' :: (d.name ++ ['"']) ++ ',' :: (' ' :: d.source ++
      ',' :: ' ' :: '[' :: (checks ++ ']' :: (d.sizeText c ++ [']'])))) := by
    simp [Draft.text, Draft.opening, checks]
  -- The places of the comma before the source, of the comma behind it, of the checks, and of the
  -- bracket behind these.
  let p₁ := (p.step '[').advance ('"' :: (d.name ++ ['"']))
  let p₂ := (p₁.step ',').advance (' ' :: d.source)
  let p₃ := ((p₂.step ',').step ' ').step '['
  let p₄ := p₃.advance checks
  have hplace : (p₁.step ',').step ' ' = p.advance d.opening := by
    simp [p₁, Draft.opening, Position.advance_append]
  obtain ⟨gap, hspace, hvalue, hsource⟩ := emits_source hd.source_line hstream hx (by simp)
    (k := ',') (by decide) (by decide) (p₁.step ',')
    (' ' :: '[' :: (checks ++ ']' :: (d.sizeText c ++ [']'])) ++ more)
  rw [hplace] at hvalue hsource
  obtain ⟨y, hy, hchecks⟩ := emits_checks hc d.parameter.types p₃
    (d.sizeText c ++ [']'] ++ more)
  obtain ⟨z, hz, hsize⟩ := emits_size hd (p₄.step ']') more
  let token (kind : Token.Kind) (text : Text) (p : Position) : Token := ⟨kind, text, p⟩
  have hbinds : Binds c d.parameter
      (token .leftBracket ['['] p :: token .string d.name (p.step '[') :: token .comma [','] p₁ ::
        gap :: x.map (Token.within (p.advance d.opening)) ++ token .comma [','] p₂ ::
        token .space [' '] (p₂.step ',') :: token .leftBracket ['['] ((p₂.step ',').step ' ') :: y ++
        token .rightBracket [']'] p₄ :: z ++
        [token .rightBracket [']'] ((p₄.step ']').advance (d.sizeText c))]) (d.boundAt p) :=
    .entry rfl rfl rfl hspace hvalue rfl rfl rfl hy rfl hz rfl
  refine ⟨_, hbinds, ?_⟩
  have hend : Emits p₄ (']' :: (d.sizeText c ++ [']'])) more _ :=
    .mark rfl (hsize.append (emits_mark rfl _ _))
  have htypes : Emits p₂ (',' :: ' ' :: '[' :: (checks ++ ']' :: (d.sizeText c ++ [']']))) more _ :=
    .mark rfl (.blank (by simp [Text.isBlank]) (.mark rfl (hchecks.append hend)))
  have hname (rest : Text) : Emits (p.step '[') ('"' :: (d.name ++ ['"'])) (',' :: rest) _ :=
    Token.emits_string hd.name (by simp)
  have hentry := Emits.mark (k := '[') rfl ((hname _).append (.mark rfl (hsource.append htypes)))
  rw [htext]
  simpa [token, p₁] using hentry

end

end SqfLayout.Layout

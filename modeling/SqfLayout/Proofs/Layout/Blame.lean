import SqfLayout.Layout
import SqfLayout.Proofs.Expression.Blame

/-! Where a failed check is located. -/
namespace SqfLayout.Layout
open TokenReader

/-- Where a violation is located: at a token, or in a comment that is no header. -/
inductive Located (c : Convention) (tokens : List Token) (v : Violation) : Prop
  | token (h : AtToken tokens v)
  | header {t : Token} (ht : t ∈ tokens) (hkind : t.kind = .blockComment)
      (hread : Header.read c t.position.line t.value = .error v)

section
variable {c : Convention} {whole : List Token}

abbrev Exact {α : Type} (whole : List Token) (r : TokenReader α) : Prop :=
  Careful whole (AtToken whole) (fun _ => True) r

private theorem exact_pass (kind : Token.Kind) : Exact whole (pass kind) :=
  (careful_expect kind none).next (careful_pure trivial)

private theorem exact_passFor (hint : Hint) (kind : Token.Kind) : Exact whole (passFor hint kind) :=
  (careful_expect kind (some hint)).next (careful_pure trivial)

private theorem careful_preamble : Careful whole (Located c whole) (fun _ => True) (preamble c) := by
  have htoken {α : Type} {R : α → Prop} {r : TokenReader α} (h : Careful whole (AtToken whole) R r) :
      Careful whole (Located c whole) R r := h.mono fun _ => .token
  unfold preamble
  refine (htoken (exact_pass _)).next ((htoken (careful_expect _ none)).bind ?_)
  rintro path ⟨hpath, -⟩
  refine .behindCheck (.token ⟨path, hpath, rfl⟩) ?_
  refine (htoken (exact_pass _)).next ((htoken (careful_expect _ none)).bind ?_)
  rintro comment ⟨hcomment, hkind⟩
  cases hread : Header.read c comment.position.line comment.value with
  | error violation => exact careful_throw (.header hcomment hkind hread)
  | ok header => exact careful_pure trivial

private theorem exact_literal {kind : Token.Kind} {value : Text} (type : Text) (s : Sentinel) :
    Exact whole (literal kind value type s) := by
  unfold literal
  refine (careful_expect _ _).bind ?_
  rintro t ⟨ht, -⟩
  split
  · exact careful_throw ⟨t, ht, rfl⟩
  · exact careful_pure trivial

private theorem exact_sentinel (type : Text) (s : Sentinel) : Exact whole (sentinel type s) := by
  cases s with
  | emptyArray => exact (exact_passFor _ _).next (exact_pass _)
  | emptyCode => exact (exact_passFor _ _).next (exact_pass _)
  | command | number | string => exact exact_literal _ _

private theorem exact_typeChecks (types : List Text) : Exact whole (typeChecks c types) := by
  induction types with
  | nil => exact careful_pure trivial
  | cons type types ih =>
    unfold typeChecks
    have hrest : Exact whole
        (if types.isEmpty = true then pure () else do
          passFor .moreTypes .comma
          pass .space
          typeChecks c types : TokenReader Unit) := by
      split
      · exact careful_pure trivial
      · exact (exact_passFor _ _).next ((exact_pass _).next ih)
    dsimp only
    cases c.sentinel? type with
    | none => exact hrest
    | some s => exact (exact_sentinel type s).next hrest

private theorem exact_sizeCheck : Exact whole sizeCheck := by
  unfold sizeCheck
  refine (exact_passFor _ _).next ((exact_pass _).next (careful_get.bind fun s _ => ?_))
  split
  · exact (Expression.careful_readArray whole).next (careful_pure trivial)
  · exact exact_pass _

private theorem exact_entry (p : Parameter) : Exact whole (entry c p) := by
  unfold entry
  refine (exact_passFor _ _).next ((careful_expect _ none).bind fun name _ => ?_)
  refine (exact_pass _).next ((exact_pass _).next ((Expression.careful_read whole).bind fun value _ => ?_))
  have hclose : Exact whole (do
      pass .rightBracket
      return { p with name? := some name.value, value? := some value } : TokenReader Parameter) :=
    (exact_pass _).next (careful_pure trivial)
  refine (exact_passFor _ _).next ((exact_pass _).next ((exact_pass _).next
    ((exact_typeChecks p.types).next ((exact_pass _).next ?_))))
  dsimp only
  split
  · exact exact_sizeCheck.next hclose
  · exact hclose

private theorem careful_logged {α : Type} {E : Violation → Prop} {R : α → Prop} {r : TokenReader α}
    (h : Careful whole E R r) (log : List Event) :
    Careful whole (fun x : Rejection => E x.violation) R (logged log r) := by
  intro s hs
  have hr := h s hs
  show Keeps whole _ R (EStateM.adaptExcept _ r s)
  unfold EStateM.adaptExcept
  revert hr
  generalize r s = x
  intro hr
  cases hr with
  | ok ha hm => exact .ok ha hm
  | error he hm => exact .error he hm

abbrev ExactCheck {α : Type} (whole : List Token) (r : Checker α) : Prop :=
  Careful whole (fun x : Rejection => AtToken whole x.violation) (fun _ => True) r

private theorem exact_entries (ps : List Parameter) (log : List Event) : ExactCheck whole (entries c log ps) := by
  induction ps generalizing log with
  | nil => exact careful_pure trivial
  | cons p ps ih =>
    unfold entries
    refine (careful_logged (exact_entry p) log).bind fun bound _ => ?_
    dsimp only
    split
    · exact (ih _).bind fun _ _ => careful_pure trivial
    · have hnext : Exact whole (do passFor .moreParameters .comma; pass .newline) :=
        (exact_passFor _ _).next (exact_pass _)
      exact (careful_logged hnext _).next ((ih _).bind fun _ _ => careful_pure trivial)

private theorem exact_binding (ps : List Parameter) (log : List Event) : ExactCheck whole (binding c log ps) := by
  unfold binding
  have hopen : Exact whole (do
      let _ ← take
      pass .space
      pass .leftBracket
      passFor .indentParameter .indent : TokenReader Unit) :=
    careful_take.next ((exact_pass _).next ((exact_pass _).next (exact_passFor _ _)))
  refine (careful_logged hopen _).next ((exact_entries ps _).bind fun bound _ => ?_)
  exact (careful_logged (exact_passFor _ _) _).next (careful_pure trivial)

private theorem careful_layout : Careful whole (fun x : Rejection => Located c whole x.violation) (fun _ => True)
    (layout c) := by
  have htoken {α : Type} {r : Checker α} (h : ExactCheck whole r) :
      Careful whole (fun x : Rejection => Located c whole x.violation) (fun _ => True) r :=
    h.mono fun _ => .token
  unfold layout
  refine (careful_logged careful_preamble _).bind fun header _ => ?_
  have hgap : Exact whole (do
      pass .blank
      pass .newline : TokenReader Unit) := (exact_pass _).next (exact_pass _)
  refine (htoken (careful_logged hgap _)).next (careful_get.bind fun s _ => ?_)
  dsimp only
  split
  · exact htoken (careful_logged (careful_reject _) _)
  · exact htoken (careful_logged (careful_reject _) _)
  · exact (htoken (exact_binding _ _)).bind fun _ _ => careful_pure trivial
  · exact careful_pure trivial

theorem located_of_validate {tokens : List Token} {v : Violation}
    (hends : ∃ t ∈ tokens.getLast?, t.kind = .eos) (h : validate c tokens = .error v) :
    Located c tokens v := by
  have hkeeps := careful_layout (c := c) tokens (.all hends)
  unfold validate check at h
  rw [complete_of_ends hends] at h
  cases hlayout : layout c tokens with
  | ok header rest =>
    rw [hlayout] at h
    cases h
  | error rejection rest =>
    rw [hlayout] at h hkeeps
    cases h
    cases hkeeps with
    | error he _ => exact he

end
end SqfLayout.Layout

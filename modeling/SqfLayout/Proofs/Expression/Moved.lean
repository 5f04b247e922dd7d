import SqfLayout.Proofs.Expression.Grammar
import SqfLayout.Proofs.Token.Scanning

/-! Expressions of a line that is put elsewhere. The places of tokens show only in code blocks, and
the grammar does not look at them. -/
namespace SqfLayout.Expression

mutual

/-- The expression of a line, where the line is put at `p`. -/
def within (p : Position) : Expression → Expression
  | .number text => .number text
  | .string text => .string text
  | .command name => .command name
  | .array items => .array (itemsWithin p items)
  | .code body => .code (body.map (Token.within p))
  | .unary operator operand => .unary operator (operand.within p)
  | .binary left operator right => .binary (left.within p) operator (right.within p)

def itemsWithin (p : Position) : List Expression → List Expression
  | [] => []
  | e :: rest => e.within p :: itemsWithin p rest

end

def Form.within (p : Position) : Form → Form
  | .expression e => .expression (e.within p)
  | .operand e => .operand (e.within p)
  | .array es => .array (itemsWithin p es)
  | .items es => .items (itemsWithin p es)

section
variable {p : Position} {x : List Token}

theorem Balanced.within (h : Balanced x) : Balanced (x.map (Token.within p)) := by
  induction h with
  | nil => exact .nil
  | plain heos hopen hclose _ ih => exact .plain heos hopen hclose ih
  | block hl _ hr _ ihx ihy =>
    rw [List.map_append, List.map_cons, List.map_cons]
    exact .block hl ihx hr ihy

private theorem forall_within {q : Token → Prop} (hq : ∀ t, q t → q (t.within p))
    (h : ∀ t ∈ x, q t) : ∀ t ∈ x.map (Token.within p), q t := by
  intro t ht
  obtain ⟨u, hu, rfl⟩ := List.mem_map.1 ht
  exact hq u (h u hu)

/-- Tokens put elsewhere stand for the same, but for the places in it. -/
theorem Derives.within {form : Form} (h : Derives form x) :
    Derives (form.within p) (x.map (Token.within p)) := by
  have hspaces {y : List Token} (hy : Spaces y) : Spaces (y.map (Token.within p)) :=
    forall_within (fun _ h => h) hy
  have hfiller {y : List Token} (hy : Filler y) : Filler (y.map (Token.within p)) :=
    forall_within (fun _ h => h) hy
  induction h with
  | single _ ih => exact .single ih
  | @chain _ _ op _ _ _ _ _ hgap hone hop hspace _ ihx ihy =>
    have hop' : (op.within p).kind = .operator := hop
    simp only [List.map_append, List.map_cons]
    exact .chain ihx (hspaces hgap) (by simpa using hone) hop' (hspaces hspace) ihy
  | @sign t _ _ ht hsign _ ih => exact .sign (t := t.within p) ht hsign ih
  | @number t ht => exact .number (t := t.within p) ht
  | @string t ht => exact .string (t := t.within p) ht
  | @command t ht => exact .command (t := t.within p) ht
  | array _ ih => exact .array ih
  | code hl hbody hr =>
    simp only [List.map_append, List.map_cons, List.map_nil]
    exact .code hl hbody.within hr
  | parens hl hbefore _ hafter hr ih =>
    simp only [List.map_append, List.map_cons, List.map_nil]
    exact .parens hl (hspaces hbefore) ih (hspaces hafter) hr
  | empty hl hfill hr =>
    simp only [List.map_append, List.map_cons, List.map_nil]
    exact .empty hl (hfiller hfill) hr
  | bracketed hl hfill _ hr ih =>
    simp only [List.map_append, List.map_cons, List.map_nil]
    exact .bracketed hl (hfiller hfill) ih hr
  | last _ hfill ih =>
    simp only [List.map_append]
    exact .last ih (hfiller hfill)
  | more _ hfill hsep hfill' _ ihx ihy =>
    simp only [List.map_append, List.map_cons]
    exact .more ihx (hfiller hfill) hsep (hfiller hfill') ihy

/-- The last token of an expression. Filler may stand behind items, so they are left out. -/
theorem Derives.exists_concat {form : Form} (h : Derives form x) :
    (∃ items, form = .items items) ∨ ∃ init t, x = init ++ [t] ∧ t.kind ∈ endings := by
  induction h with
  | single _ ih => simpa using ih
  | chain _ _ _ _ _ _ _ ih =>
    obtain ⟨_, h⟩ | ⟨init, t, rfl, ht⟩ := ih
    · cases h
    · exact .inr ⟨_, t, (List.append_assoc _ _ _).symm, ht⟩
  | sign _ _ _ ih =>
    obtain ⟨_, h⟩ | ⟨init, t, rfl, ht⟩ := ih
    · cases h
    · exact .inr ⟨_ :: init, t, rfl, ht⟩
  | number ht => exact .inr ⟨[], _, rfl, by simp [endings, ht]⟩
  | string ht => exact .inr ⟨[], _, rfl, by simp [endings, ht]⟩
  | command ht => exact .inr ⟨[], _, rfl, by simp [endings, ht]⟩
  | array _ ih => simpa using ih
  | code _ _ hr => exact .inr ⟨_, _, rfl, by simp [endings, hr]⟩
  | parens _ _ _ _ hr => exact .inr ⟨_, _, rfl, by simp [endings, hr]⟩
  | empty _ _ hr => exact .inr ⟨_, _, rfl, by simp [endings, hr]⟩
  | bracketed _ _ _ hr => exact .inr ⟨_, _, rfl, by simp [endings, hr]⟩
  | last => exact .inl ⟨_, rfl⟩
  | more => exact .inl ⟨_, rfl⟩

end

end SqfLayout.Expression

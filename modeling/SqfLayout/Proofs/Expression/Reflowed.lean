import SqfLayout.Proofs.Expression.Grammar

/-! Expressions of a source whose lines are broken elsewhere. The layout of lines shows only in code
blocks, and the grammar looks at it nowhere else. -/
namespace SqfLayout

namespace Token

/-- Tokens without the layout of lines and without their places. -/
def words (x : List Token) : List Token :=
  (x.filter fun t => !t.kind.isLayout).map fun t => { t with position := Position.start }

/-- The same words on other lines: a layout token may become any other ones, or none. -/
inductive Reflows : List Token → List Token → Prop
  | nil : Reflows [] []
  | word {t t' : Token} {x x' : List Token} (ht : t.kind.isLayout = false) (hkind : t'.kind = t.kind)
      (hvalue : t'.value = t.value) (hx : Reflows x x') : Reflows (t :: x) (t' :: x')
  | layout {t : Token} {group x x' : List Token} (ht : t.kind.isLayout = true)
      (hgroup : ∀ u ∈ group, u.kind.isLayout = true) (hx : Reflows x x') : Reflows (t :: x) (group ++ x')

section
variable {t : Token} {x x' y z : List Token}

theorem exists_split {v w : List Token} (h : x ++ y = v ++ t :: w) :
    (∃ z, x = v ++ t :: z ∧ w = z ++ y) ∨ ∃ z, v = x ++ z ∧ y = z ++ t :: w := by
  obtain ⟨z, rfl, hy⟩ | ⟨z, rfl, hw⟩ := List.append_eq_append_iff.1 h
  · exact .inr ⟨z, rfl, hy⟩
  · cases z with
    | nil => exact .inr ⟨[], by simp, by simpa using hw.symm⟩
    | cons u z =>
      obtain ⟨rfl, hbehind⟩ := List.cons.inj hw
      exact .inl ⟨z, rfl, hbehind⟩

private theorem Reflows.words_eq (h : Reflows x x') : words x' = words x := by
  induction h with
  | nil => rfl
  | @word t t' x x' ht hkind hvalue _ ih =>
    obtain ⟨_, _, _⟩ := t
    obtain ⟨_, _, _⟩ := t'
    cases hkind
    cases hvalue
    simpa [words, ht] using ih
  | @layout t group x x' ht hgroup _ ih =>
    have hnone : group.filter (fun t => !t.kind.isLayout) = [] := by simpa using hgroup
    rw [words, List.filter_append, hnone, List.nil_append]
    simpa [words, ht] using ih

theorem Reflows.append_left (x : List Token) (h : Reflows y z) : Reflows (x ++ y) (x ++ z) := by
  induction x with
  | nil => exact h
  | cons t x ih =>
    cases ht : t.kind.isLayout with
    | false => exact .word ht rfl rfl ih
    | true => exact @Reflows.layout t [t] _ _ ht (List.forall_mem_singleton.2 ht) ih

theorem Reflows.exists_cons (h : Reflows (t :: x) z) (ht : t.kind.isLayout = false) :
    ∃ t' x', z = t' :: x' ∧ t'.kind = t.kind ∧ t'.value = t.value ∧ Reflows x x' := by
  cases h with
  | word _ hkind hvalue hx => exact ⟨_, _, rfl, hkind, hvalue, hx⟩
  | layout hlayout => simp [ht] at hlayout

theorem Reflows.exists_append (h : Reflows (x ++ y) z) :
    ∃ x' y', z = x' ++ y' ∧ Reflows x x' ∧ Reflows y y' := by
  induction x generalizing z with
  | nil => exact ⟨[], z, rfl, .nil, h⟩
  | cons t x ih =>
    cases h with
    | word ht hkind hvalue hx =>
      obtain ⟨x', y', rfl, hx', hy'⟩ := ih hx
      exact ⟨_ :: x', y', rfl, .word ht hkind hvalue hx', hy'⟩
    | layout ht hgroup hx =>
      obtain ⟨x', y', rfl, hx', hy'⟩ := ih hx
      exact ⟨_ ++ x', y', (List.append_assoc _ _ _).symm, .layout ht hgroup hx', hy'⟩

theorem Reflows.exists_concat (h : Reflows (x ++ [t]) z) (ht : t.kind.isLayout = false) :
    ∃ x' t', z = x' ++ [t'] ∧ Reflows x x' ∧ t'.kind = t.kind := by
  obtain ⟨x', _, rfl, hx, hlast⟩ := h.exists_append
  obtain ⟨t', _, rfl, hkind, -, hnil⟩ := hlast.exists_cons ht
  cases hnil
  exact ⟨x', t', rfl, hx, hkind⟩

end

end Token

namespace Expression
open Token (Reflows words)

mutual

/-- An expression without the layout and the places in its code blocks. -/
def worded : Expression → Expression
  | .number text => .number text
  | .string text => .string text
  | .command name => .command name
  | .array items => .array (itemsWorded items)
  | .code body => .code (words body)
  | .unary operator operand => .unary operator operand.worded
  | .binary left operator right => .binary left.worded operator right.worded

def itemsWorded : List Expression → List Expression
  | [] => []
  | e :: rest => e.worded :: itemsWorded rest

end

section
variable {t : Token} {x x' : List Token}

theorem Spaces.reflows (hx : Spaces x) (h : Reflows x x') : Spaces x' ∧ x'.length = x.length := by
  induction h with
  | nil => exact ⟨hx, rfl⟩
  | word _ hkind _ _ ih =>
    obtain ⟨ht, hx⟩ := List.forall_mem_cons.1 hx
    obtain ⟨hspaces, hlength⟩ := ih hx
    exact ⟨List.forall_mem_cons.2 ⟨hkind.trans ht, hspaces⟩, congrArg (· + 1) hlength⟩
  | @layout t _ _ _ ht =>
    have hspace := hx t List.mem_cons_self
    simp [hspace, Token.Kind.isLayout] at ht

theorem filler_of_layout (hx : ∀ t ∈ x, t.kind.isLayout = true) : Filler x := fun t ht => by simp [hx t ht]

theorem Filler.reflows (hx : Filler x) (h : Reflows x x') : Filler x' := by
  induction h with
  | nil => exact hx
  | word _ hkind _ _ ih =>
    obtain ⟨ht, hx⟩ := List.forall_mem_cons.1 hx
    exact List.forall_mem_cons.2 ⟨by rwa [hkind], ih hx⟩
  | layout _ hgroup _ ih =>
    exact List.forall_mem_append.2 ⟨filler_of_layout hgroup, ih (List.forall_mem_cons.1 hx).2⟩

theorem Balanced.behind_layout {group : List Token} (hx : Balanced x)
    (hgroup : ∀ t ∈ group, t.kind.isLayout = true) : Balanced (group ++ x) := by
  induction group with
  | nil => exact hx
  | cons t group ih =>
    obtain ⟨ht, hgroup⟩ := List.forall_mem_cons.1 hgroup
    refine .plain ?_ ?_ ?_ (ih hgroup) <;> rintro hkind <;> simp [hkind, Token.Kind.isLayout] at ht

theorem Balanced.reflows (hx : Balanced x) (h : Reflows x x') : Balanced x' := by
  induction hx generalizing x' with
  | nil =>
    cases h
    exact .nil
  | plain heos hopen hclose _ ih =>
    cases h with
    | word _ hkind _ h => exact .plain (by rwa [hkind]) (by rwa [hkind]) (by rwa [hkind]) (ih h)
    | layout _ hgroup h => exact (ih h).behind_layout hgroup
  | block hl _ hr _ ihx ihy =>
    obtain ⟨u, v, rfl, hu, hv⟩ := h.exists_append
    obtain ⟨l', u, rfl, hl', -, hu⟩ := hu.exists_cons (by rw [hl]; rfl)
    obtain ⟨r', v, rfl, hr', -, hv⟩ := hv.exists_cons (by rw [hr]; rfl)
    exact .block (hl'.trans hl) (ihx hu) (hr'.trans hr) (ihy hv)

/-- What tokens stand for but for the layout and the places in code blocks. -/
def Reflowed : Form → List Token → Prop
  | .expression e, x => ∃ e', Derives (.expression e') x ∧ e'.worded = e.worded
  | .operand e, x => ∃ e', Derives (.operand e') x ∧ e'.worded = e.worded
  | .array items, x => ∃ items', Derives (.array items') x ∧ itemsWorded items' = itemsWorded items
  | .items items, x => ∃ items', Derives (.items items') x ∧ itemsWorded items' = itemsWorded items

theorem Derives.reflows {form : Form} (hx : Derives form x) (h : Reflows x x') : Reflowed form x' := by
  induction hx generalizing x' with
  | single _ ih =>
    obtain ⟨e', he', heq⟩ := ih h
    exact ⟨e', .single he', heq⟩
  | @chain left right op x gap spaces y _ hgap hone hop hspaces _ ihx ihy =>
    obtain ⟨w, y', rfl, hw, hy⟩ := h.exists_append
    obtain ⟨w, opened, rfl, hw, hopened⟩ := hw.exists_append
    obtain ⟨x', gap', rfl, hx, hgap'⟩ := hw.exists_append
    obtain ⟨op', spaces', rfl, hkind, hvalue, hspaces'⟩ := hopened.exists_cons (by rw [hop]; rfl)
    obtain ⟨left', hleft, heq⟩ := ihx hx
    obtain ⟨right', hright, heq'⟩ := ihy hy
    obtain ⟨hgap, hlength⟩ := hgap.reflows hgap'
    refine ⟨_, .chain hleft hgap (by rwa [hlength]) (hkind.trans hop) (hspaces.reflows hspaces').1 hright, ?_⟩
    simp [worded, heq, heq', hvalue]
  | sign ht hsign _ ih =>
    obtain ⟨t', x', rfl, hkind, hvalue, hx⟩ := h.exists_cons (by rw [ht]; rfl)
    obtain ⟨e', he', heq⟩ := ih hx
    refine ⟨_, .sign (hkind.trans ht) (by rwa [hvalue]) he', ?_⟩
    simp [worded, heq, hvalue]
  | number ht =>
    obtain ⟨t', x', rfl, hkind, hvalue, hx⟩ := h.exists_cons (by rw [ht]; rfl)
    cases hx
    exact ⟨_, .number (hkind.trans ht), by simp [worded, hvalue]⟩
  | string ht =>
    obtain ⟨t', x', rfl, hkind, hvalue, hx⟩ := h.exists_cons (by rw [ht]; rfl)
    cases hx
    exact ⟨_, .string (hkind.trans ht), by simp [worded, hvalue]⟩
  | command ht =>
    obtain ⟨t', x', rfl, hkind, hvalue, hx⟩ := h.exists_cons (by rw [ht]; rfl)
    cases hx
    exact ⟨_, .command (hkind.trans ht), by simp [worded, hvalue]⟩
  | array _ ih =>
    obtain ⟨items', hitems, heq⟩ := ih h
    exact ⟨_, .array hitems, by simp [worded, heq]⟩
  | code hl hbody hr =>
    obtain ⟨w, r', rfl, hw, hr'⟩ := h.exists_concat (by rw [hr]; rfl)
    obtain ⟨l', body', rfl, hl', -, hbody'⟩ := hw.exists_cons (by rw [hl]; rfl)
    exact ⟨_, .code (hl'.trans hl) (hbody.reflows hbody') (hr'.trans hr), by simp [worded, hbody'.words_eq]⟩
  | parens hl hbefore _ hafter hr ih =>
    obtain ⟨w, r', rfl, hw, hr'⟩ := h.exists_concat (by rw [hr]; rfl)
    obtain ⟨w, after', rfl, hw, hafter'⟩ := hw.exists_append
    obtain ⟨w, x', rfl, hw, hx⟩ := hw.exists_append
    obtain ⟨l', before', rfl, hl', -, hbefore'⟩ := hw.exists_cons (by rw [hl]; rfl)
    obtain ⟨e', he', heq⟩ := ih hx
    exact ⟨e', .parens (hl'.trans hl) (hbefore.reflows hbefore').1 he' (hafter.reflows hafter').1
      (hr'.trans hr), heq⟩
  | empty hl hfiller hr =>
    obtain ⟨w, r', rfl, hw, hr'⟩ := h.exists_concat (by rw [hr]; rfl)
    obtain ⟨l', filler', rfl, hl', -, hfiller'⟩ := hw.exists_cons (by rw [hl]; rfl)
    exact ⟨[], .empty (hl'.trans hl) (hfiller.reflows hfiller') (hr'.trans hr), rfl⟩
  | bracketed hl hfiller _ hr ih =>
    obtain ⟨w, r', rfl, hw, hr'⟩ := h.exists_concat (by rw [hr]; rfl)
    obtain ⟨w, x', rfl, hw, hx⟩ := hw.exists_append
    obtain ⟨l', filler', rfl, hl', -, hfiller'⟩ := hw.exists_cons (by rw [hl]; rfl)
    obtain ⟨items', hitems, heq⟩ := ih hx
    exact ⟨items', .bracketed (hl'.trans hl) (hfiller.reflows hfiller') hitems (hr'.trans hr), heq⟩
  | last _ hfiller ih =>
    obtain ⟨x', filler', rfl, hx, hfiller'⟩ := h.exists_append
    obtain ⟨e', he', heq⟩ := ih hx
    exact ⟨[e'], .last he' (hfiller.reflows hfiller'), by simp [itemsWorded, heq]⟩
  | more _ hfiller hsep hfiller' _ ihx ihy =>
    obtain ⟨w, y', rfl, hw, hy⟩ := h.exists_append
    obtain ⟨w, separated, rfl, hw, hseparated⟩ := hw.exists_append
    obtain ⟨x', gap, rfl, hx, hgap⟩ := hw.exists_append
    obtain ⟨sep', gap', rfl, hsep', -, hgap'⟩ := hseparated.exists_cons (by rw [hsep]; rfl)
    obtain ⟨e', he', heq⟩ := ihx hx
    obtain ⟨es', hes', heqs⟩ := ihy hy
    exact ⟨e' :: es', .more he' (hfiller.reflows hgap) (hsep'.trans hsep) (hfiller'.reflows hgap') hes',
      by simp [itemsWorded, heq, heqs]⟩

end

end Expression
end SqfLayout

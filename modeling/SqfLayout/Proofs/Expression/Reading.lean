import SqfLayout.Proofs.Expression.Programs
import SqfLayout.Proofs.Text.Joined

/-! The reader of expressions reads exactly what the grammar derives, and as much of it as there
is. -/
namespace SqfLayout

namespace Expression
open TokenReader

theorem spaces_nil : Spaces [] := by simp [Spaces]

theorem filler_nil : Filler [] := by simp [Filler]

private theorem skipSpaces_append {x rest : List Token} (hx : Spaces x)
    (hrest : ∀ t ∈ rest.head?, t.kind ≠ .space) : skipSpaces (x ++ rest) = rest :=
  Text.dropWhile_append_of_head? (by simpa [Spaces] using hx) (by simpa using hrest)

theorem skipLayout_append {x rest : List Token} (hx : Filler x)
    (hrest : ∀ t ∈ rest.head?, (t.kind = .space || t.kind.isLayout) = false) :
    skipLayout (x ++ rest) = rest :=
  Text.dropWhile_append_of_head? hx hrest

theorem not_layout_of_mem_openings {kind : Token.Kind} (h : kind ∈ openings) :
    (kind = .space || kind.isLayout) = false := by
  revert h
  cases kind <;> simp [openings, starts, Token.Kind.isLayout]

theorem skipLayout_derives {form : Form} {filler x : List Token} (hfiller : Filler filler)
    (hx : Derives form x) (rest : List Token) : skipLayout (filler ++ (x ++ rest)) = x ++ rest := by
  obtain ⟨t, more, rfl, ht⟩ := hx.exists_cons
  refine skipLayout_append hfiller ?_
  rintro _ ⟨⟩
  exact not_layout_of_mem_openings ht

private theorem exists_spaces (s : List Token) : ∃ x, Spaces x ∧ s = x ++ skipSpaces s :=
  ⟨s.takeWhile (·.kind = .space), fun t ht => by simpa using List.all_eq_true.1 List.all_takeWhile t ht,
    (List.takeWhile_append_dropWhile).symm⟩

private theorem exists_filler (s : List Token) : ∃ x, Filler x ∧ s = x ++ skipLayout s :=
  ⟨s.takeWhile (fun t => t.kind = .space || t.kind.isLayout), List.all_eq_true.1 List.all_takeWhile,
    (List.takeWhile_append_dropWhile).symm⟩

private theorem read_of_operand {s m : List Token} {left : Expression}
    (h : readOperand s = .ok left m) : read s = readChain left m := by
  rw [read_eq, bind_apply, h]

theorem readOperand_of_read {s rest : List Token} {e : Expression} (h : read s = .ok e rest) :
    ∃ left m, readOperand s = .ok left m := by
  rw [read_eq] at h
  obtain ⟨left, m, hleft, _⟩ := bind_ok_iff.1 h
  exact ⟨left, m, hleft⟩

private theorem readChain_of_operand {left right : Expression} {t : Token} {s m m' : List Token}
    (hs : operator? s = some (t, m)) (hm : readOperand m = .ok right m') :
    readChain left s = readChain (.binary left t.value right) m' := by
  rw [readChain_of_some hs, bind_apply, hm]

private theorem readOperand_of_readChain {left e : Expression} {t : Token} {s m rest : List Token}
    (hs : operator? s = some (t, m)) (h : readChain left s = .ok e rest) :
    ∃ right m', readOperand m = .ok right m' := by
  rw [readChain_of_some hs] at h
  obtain ⟨right, m', hright, _⟩ := bind_ok_iff.1 h
  exact ⟨right, m', hright⟩

theorem readOperand_sign_ok_iff {t : Token} {m rest : List Token} {e : Expression}
    (ht : isSign t = true) :
    readOperand (t :: m) = .ok e rest ↔ ∃ a, readOperand m = .ok a rest ∧ .unary t.value a = e := by
  rw [readOperand_sign ht, bind_ok_iff]
  simp only [pure_ok_iff]
  constructor
  · rintro ⟨a, _, ha, rfl, rfl⟩
    exact ⟨a, ha, rfl⟩
  · rintro ⟨a, ha, rfl⟩
    exact ⟨a, rest, ha, rfl, rfl⟩

theorem readOperand_brace_ok_iff {t : Token} {m rest : List Token} {e : Expression}
    (ht : t.kind = .leftBrace) :
    readOperand (t :: m) = .ok e rest ↔ ∃ body, codeBody 0 m = some (body, rest) ∧ .code body = e := by
  rw [readOperand_brace ht]
  cases codeBody 0 m with
  | none => simp
  | some p =>
    constructor
    · intro h
      cases h
      exact ⟨p.1, rfl, rfl⟩
    · rintro ⟨body, hp, rfl⟩
      cases hp
      rfl

theorem readOperand_paren_ok_iff {t : Token} {m rest : List Token} {e : Expression}
    (ht : t.kind = .leftParen) :
    readOperand (t :: m) = .ok e rest ↔ ∃ m' u, read (skipSpaces m) = .ok e m' ∧
      skipSpaces m' = u :: rest ∧ u.kind = .rightParen := by
  have hclosed {inner : Expression} {m' : List Token} : closed inner m' = .ok e rest ↔
      ∃ u, (skipSpaces m' = u :: rest ∧ u.kind = .rightParen) ∧ inner = e := by
    unfold closed
    rw [bind_ok_iff]
    simp only [pure_ok_iff, need_ok_iff (k := .rightParen) (by decide)]
    constructor
    · rintro ⟨u, _, hu, rfl, rfl⟩
      exact ⟨u, hu, rfl⟩
    · rintro ⟨u, hu, rfl⟩
      exact ⟨u, rest, hu, rfl, rfl⟩
  rw [readOperand_paren ht, bind_ok_iff]
  simp only [hclosed]
  constructor
  · rintro ⟨_, m', hread, u, hu, rfl⟩
    exact ⟨m', u, hread, hu⟩
  · rintro ⟨m', u, hread, hu⟩
    exact ⟨e, m', hread, u, hu, rfl⟩

private theorem kind_mem_starts_of_readOperand {t : Token} {m rest : List Token} {e : Expression}
    (ht : isSign t = false) (h : readOperand (t :: m) = .ok e rest) : t.kind ∈ starts := by
  refine Decidable.byContradiction fun hstart => ?_
  rw [readOperand_other ht hstart] at h
  cases h

private theorem readOperand_nil_ne_ok {rest : List Token} {e : Expression} :
    readOperand [] ≠ .ok e rest := by
  rw [readOperand_nil]
  simp

theorem readItems_of_close {s rest : List Token} {r : Token} (hs : skipLayout s = r :: rest)
    (hr : r.kind = .rightBracket) : readItems s = .ok (.array []) rest := by
  rw [readItems_eq, hs, next_cons, if_pos hr, after_cons (by simp [hr])]

theorem readItems_ok_iff_of_open {s m rest : List Token} {t : Token} {e : Expression}
    (hs : skipLayout s = t :: m) (ht : t.kind ≠ .rightBracket) :
    readItems s = .ok e rest ↔ ∃ items, readItemList (t :: m) = .ok items rest ∧ .array items = e := by
  rw [readItems_eq, hs, next_cons, if_neg ht, bind_ok_iff]
  simp only [pure_ok_iff]
  constructor
  · rintro ⟨items, _, hitems, rfl, rfl⟩
    exact ⟨items, hitems, rfl⟩
  · rintro ⟨items, hitems, rfl⟩
    exact ⟨items, rest, hitems, rfl, rfl⟩

private theorem skipLayout_ne_nil_of_readItems {s rest : List Token} {e : Expression}
    (h : readItems s = .ok e rest) : ∃ t m, skipLayout s = t :: m := by
  cases hs : skipLayout s with
  | cons t m => exact ⟨t, m, rfl⟩
  | nil =>
    rw [readItems_eq, hs, if_neg (by decide), bind_apply, readItemList_nil] at h
    cases h

private theorem readItemList_of_read {s m : List Token} {item : Expression} (h : read s = .ok item m) :
    readItemList s = behindItem item m := by
  rw [readItemList_eq, bind_apply, h]

theorem readItemList_ok_iff_of_comma {s m m' rest : List Token} {u : Token} {item : Expression}
    {items : List Expression} (hread : read s = .ok item m) (hm : skipLayout m = u :: m')
    (hu : u.kind = .comma) : readItemList s = .ok items rest ↔
      ∃ more, readItemList (skipLayout m') = .ok more rest ∧ item :: more = items := by
  rw [readItemList_of_read hread, behindItem_of_comma hm hu, bind_ok_iff]
  simp only [pure_ok_iff]
  constructor
  · rintro ⟨more, _, hmore, rfl, rfl⟩
    exact ⟨more, hmore, rfl⟩
  · rintro ⟨more, hmore, rfl⟩
    exact ⟨more, rest, hmore, rfl, rfl⟩

private theorem readItemList_of_close {s m m' : List Token} {u : Token} {item : Expression}
    (hread : read s = .ok item m) (hm : skipLayout m = u :: m') (hu : u.kind = .rightBracket) :
    readItemList s = .ok [item] m' := by
  rw [readItemList_of_read hread, behindItem_of_close hm hu]

theorem readItemList_cases {s rest : List Token} {items : List Expression}
    (h : readItemList s = .ok items rest) : ∃ item m u m', read s = .ok item m ∧
      skipLayout m = u :: m' ∧ (u.kind = .comma ∨ u.kind = .rightBracket) := by
  rw [readItemList_eq] at h
  obtain ⟨item, m, hread, hbehind⟩ := bind_ok_iff.1 h
  refine Classical.byContradiction fun hno => ?_
  have hcomma : (next (skipLayout m)).kind ≠ .comma := by
    intro hkind
    obtain ⟨u, m', hm, hu⟩ := exists_cons_of_next hkind (by decide)
    exact hno ⟨item, m, u, m', hread, hm, .inl hu⟩
  have hclose : (next (skipLayout m)).kind ≠ .rightBracket := by
    intro hkind
    obtain ⟨u, m', hm, hu⟩ := exists_cons_of_next hkind (by decide)
    exact hno ⟨item, m, u, m', hread, hm, .inr hu⟩
  unfold behindItem at hbehind
  rw [if_neg hcomma, if_neg hclose] at hbehind
  cases hbehind

theorem operator?_eq_none_iff {s : List Token} : operator? s = none ↔ ¬ Continues s := by
  unfold operator? Continues
  split
  · simp
  · rename_i t more
    split
    · rename_i ht
      simp [ht]
    · rename_i ht
      split
      · rename_i hs
        split
        · simp [ht]
        · rename_i u m
          split <;> simp_all
      · rename_i hs
        simp only [true_iff, not_or, not_exists, not_and]
        constructor
        · rintro _ _ h
          cases h
          exact ht
        · rintro _ _ _ h h'
          cases h
          exact absurd h' hs

/-- An operator is found behind one blank at most, and all blanks behind it are skipped. -/
theorem exists_more_of_operator? {s m : List Token} {t : Token} (h : operator? s = some (t, m)) :
    ∃ gap more, Spaces gap ∧ gap.length ≤ 1 ∧ t.kind = .operator ∧ s = gap ++ t :: more ∧
      m = skipSpaces more := by
  unfold operator? at h
  split at h
  · cases h
  · rename_i u more
    split at h
    · rename_i hu
      cases h
      exact ⟨[], more, spaces_nil, Nat.zero_le _, hu, rfl, rfl⟩
    · split at h
      · rename_i hs
        split at h
        · cases h
        · rename_i v more
          split at h
          · rename_i hv
            cases h
            exact ⟨[u], more, by simpa [Spaces] using hs, Nat.le_refl _, hv, rfl, rfl⟩
          · cases h
      · cases h

private theorem exists_gap_of_operator? {s m : List Token} {t : Token} (h : operator? s = some (t, m)) :
    ∃ gap spaces, Spaces gap ∧ gap.length ≤ 1 ∧ t.kind = .operator ∧ Spaces spaces ∧
      s = gap ++ t :: spaces ++ m := by
  obtain ⟨gap, more, hgap, hone, ht, rfl, rfl⟩ := exists_more_of_operator? h
  obtain ⟨spaces, hspaces, hmore⟩ := exists_spaces more
  refine ⟨gap, spaces, hgap, hone, ht, hspaces, ?_⟩
  rw [List.append_assoc, List.cons_append, ← hmore]

private theorem operator?_append {gap spaces rest : List Token} {op : Token} (hgap : Spaces gap)
    (hone : gap.length ≤ 1) (hop : op.kind = .operator) (hspaces : Spaces spaces)
    (hrest : ∀ t ∈ rest.head?, t.kind ≠ .space) :
    operator? (gap ++ op :: spaces ++ rest) = some (op, rest) := by
  have hskip := skipSpaces_append hspaces hrest
  match gap, hone with
  | [], _ => simp [operator?, hop, hskip]
  | [s], _ =>
    have hs : s.kind = .space := hgap s List.mem_cons_self
    simp [operator?, hop, hs, hskip]

/-- The braces that are open before a stretch of code are closed one after the other, each behind
a balanced part. -/
private def Closing : Nat → List Token → Prop
  | 0, x => Balanced x
  | depth + 1, x => ∃ u r v, Balanced u ∧ r.kind = .rightBrace ∧ Closing depth v ∧ x = u ++ r :: v

private theorem closing_plain {depth : Nat} {t : Token} {x : List Token} (heos : t.kind ≠ .eos)
    (hopen : t.kind ≠ .leftBrace) (hclose : t.kind ≠ .rightBrace) (hx : Closing depth x) :
    Closing depth (t :: x) := by
  cases depth with
  | zero => exact .plain heos hopen hclose hx
  | succ depth =>
    obtain ⟨u, r, v, hu, hr, hv, rfl⟩ := hx
    exact ⟨t :: u, r, v, .plain heos hopen hclose hu, hr, hv, rfl⟩

private theorem closing_block {depth : Nat} {l r : Token} {u v : List Token}
    (hl : l.kind = .leftBrace) (hu : Balanced u) (hr : r.kind = .rightBrace)
    (hv : Closing depth v) : Closing depth (l :: u ++ r :: v) := by
  cases depth with
  | zero => exact .block hl hu hr hv
  | succ depth =>
    obtain ⟨u', r', v', hu', hr', hv', rfl⟩ := hv
    exact ⟨l :: u ++ r :: u', r', v', .block hl hu hr hu', hr', hv', by simp⟩

private theorem closing_of_codeBody {depth : Nat} {s body rest : List Token}
    (h : codeBody depth s = some (body, rest)) :
    Closing depth body ∧ ∃ r, r.kind = .rightBrace ∧ s = body ++ r :: rest := by
  fun_induction codeBody depth s generalizing body rest with
  | case1 => cases h
  | case2 => cases h
  | case3 depth t more heos hopen ih =>
    obtain ⟨⟨body', rest'⟩, hr, he⟩ := Option.map_eq_some_iff.1 h
    cases he
    obtain ⟨⟨u, r', v, hu, hr', hv, rfl⟩, r, hclose, rfl⟩ := ih hr
    exact ⟨closing_block hopen hu hr' hv, r, hclose, rfl⟩
  | case4 t more _ _ hclose =>
    cases h
    exact ⟨.nil, t, hclose, rfl⟩
  | case5 t more _ _ hclose depth ih =>
    obtain ⟨⟨body', rest'⟩, hr, he⟩ := Option.map_eq_some_iff.1 h
    cases he
    obtain ⟨hbody, r, hr', rfl⟩ := ih hr
    exact ⟨⟨[], t, _, .nil, hclose, hbody, rfl⟩, r, hr', rfl⟩
  | case6 depth t more heos hopen hclose ih =>
    obtain ⟨⟨body', rest'⟩, hr, he⟩ := Option.map_eq_some_iff.1 h
    cases he
    obtain ⟨hbody, r, hr', rfl⟩ := ih hr
    exact ⟨closing_plain heos hopen hclose hbody, r, hr', rfl⟩

private theorem codeBody_plain {depth : Nat} {t : Token} (s : List Token) (heos : t.kind ≠ .eos)
    (hopen : t.kind ≠ .leftBrace) (hclose : t.kind ≠ .rightBrace) :
    codeBody depth (t :: s) = (codeBody depth s).map fun r => (t :: r.1, r.2) := by
  cases depth <;> simp [codeBody, heos, hopen, hclose]

private theorem codeBody_open {depth : Nat} {l : Token} (s : List Token) (hl : l.kind = .leftBrace) :
    codeBody depth (l :: s) = (codeBody (depth + 1) s).map fun r => (l :: r.1, r.2) := by
  cases depth <;> simp [codeBody, hl]

private theorem codeBody_close {depth : Nat} {r : Token} (s : List Token)
    (hr : r.kind = .rightBrace) :
    codeBody (depth + 1) (r :: s) = (codeBody depth s).map fun p => (r :: p.1, p.2) := by
  simp [codeBody, hr]

private theorem codeBody_append {x : List Token} (hx : Balanced x) (depth : Nat) (s : List Token) :
    codeBody depth (x ++ s) = (codeBody depth s).map fun r => (x ++ r.1, r.2) := by
  induction hx generalizing depth s with
  | nil => simp
  | plain heos hopen hclose _ ih =>
    rw [List.cons_append, codeBody_plain _ heos hopen hclose, ih]
    simp [Function.comp_def]
  | @block l r x y hl _ hr _ ihx ihy =>
    rw [List.append_assoc, List.cons_append, List.cons_append, codeBody_open _ hl, ihx,
      codeBody_close _ hr, ihy]
    simp [Function.comp_def]

/-- A code block ends at the brace that closes it. -/
theorem codeBody_eq_some_iff {s body rest : List Token} : codeBody 0 s = some (body, rest) ↔
    Balanced body ∧ ∃ r, r.kind = .rightBrace ∧ s = body ++ r :: rest := by
  constructor
  · exact closing_of_codeBody
  · rintro ⟨hbody, r, hr, rfl⟩
    rw [codeBody_append hbody]
    simp [codeBody, hr]

theorem Spaces.filler {x : List Token} (h : Spaces x) : Filler x := fun t ht => by simp [h t ht]

/-- Filler does not hide an operator: of two tokens of it, or one and what follows, the second is
none. -/
theorem not_continues_append {x rest : List Token} {r : Token} (hx : Filler x)
    (hop : r.kind ≠ .operator) (hspace : r.kind ≠ .space) : ¬ Continues (x ++ r :: rest) := by
  have hno : ∀ t ∈ x, t.kind ≠ .operator := by
    intro t ht h
    have := hx t ht
    simp [h, Token.Kind.isLayout] at this
  match x, hno with
  | [], _ =>
    rintro (⟨t, m, h, ht⟩ | ⟨s, t, m, h, hs, ht⟩)
    · cases h; exact hop ht
    · cases h; exact hspace hs
  | [a], hno =>
    rintro (⟨t, m, h, ht⟩ | ⟨s, t, m, h, hs, ht⟩)
    · cases h; exact hno _ List.mem_cons_self ht
    · cases h; exact hop ht
  | a :: b :: x, hno =>
    rintro (⟨t, m, h, ht⟩ | ⟨s, t, m, h, hs, ht⟩)
    · cases h; exact hno _ List.mem_cons_self ht
    · cases h; exact hno _ (List.mem_cons_of_mem _ List.mem_cons_self) ht

private theorem readChain_of_not_continues {e : Expression} {rest : List Token} (h : ¬ Continues rest) :
    readChain e rest = .ok e rest := readChain_of_none (operator?_eq_none_iff.2 h)

/-- What the readers make of derived tokens, whatever follows. The expression is left open: its
reader goes on with the operators behind it. -/
private def Reads : Form → List Token → Prop
  | .expression e, x => ∀ rest, read (x ++ rest) = readChain e rest
  | .operand e, x => ∀ rest, readOperand (x ++ rest) = .ok e rest
  | .array items, x => ∃ l m, x = l :: m ∧ l.kind = .leftBracket ∧
      ∀ rest, readItems (m ++ rest) = .ok (.array items) rest
  | .items items, x => ∀ r rest, r.kind = .rightBracket →
      readItemList (x ++ r :: rest) = .ok items rest

private theorem reads_of_derives {form : Form} {x : List Token} (h : Derives form x) :
    Reads form x := by
  induction h with
  | single _ ih => exact fun rest => read_of_operand (ih rest)
  | @chain left right op x gap spaces y hx hgap hone hop hspaces hy ihx ihy =>
    intro rest
    have hhead : ∀ t ∈ (y ++ rest).head?, t.kind ≠ .space := by
      obtain ⟨t, more, rfl, ht⟩ := hy.exists_cons
      rintro _ ⟨⟩ h
      simp [openings, starts, h] at ht
    have hs : x ++ gap ++ op :: spaces ++ y ++ rest = x ++ (gap ++ op :: spaces ++ (y ++ rest)) := by
      simp
    rw [hs, ihx, readChain_of_operand (operator?_append hgap hone hop hspaces hhead) (ihy rest)]
  | sign ht hsign _ ih =>
    exact fun rest => (readOperand_sign_ok_iff (isSign_iff.2 ⟨ht, hsign⟩)).2 ⟨_, ih rest, rfl⟩
  | number ht => exact fun rest => readOperand_number ht
  | string ht => exact fun rest => readOperand_string ht
  | command ht => exact fun rest => readOperand_command ht
  | array _ ih =>
    intro rest
    obtain ⟨l, m, rfl, hl, hm⟩ := ih
    rw [List.cons_append, readOperand_bracket hl, hm]
  | code hl hbody hr =>
    intro rest
    rw [List.cons_append, List.cons_append]
    refine (readOperand_brace_ok_iff hl).2 ⟨_, codeBody_eq_some_iff.2 ⟨hbody, _, hr, ?_⟩, rfl⟩
    simp
  | @parens l r e before x after hl hbefore hx hafter hr ih =>
    intro rest
    have hbegin : skipSpaces (before ++ (x ++ (after ++ r :: rest))) = x ++ (after ++ r :: rest) := by
      obtain ⟨t, more, rfl, ht⟩ := hx.exists_cons
      refine skipSpaces_append hbefore ?_
      rintro _ ⟨⟩ h
      simp [openings, starts, h] at ht
    have hend : skipSpaces (after ++ r :: rest) = r :: rest :=
      skipSpaces_append hafter (by rintro _ ⟨⟩; simp [hr])
    have hs : l :: before ++ x ++ after ++ [r] ++ rest =
        l :: (before ++ (x ++ (after ++ r :: rest))) := by simp
    rw [hs, readOperand_paren_ok_iff hl, hbegin, ih]
    exact ⟨_, r, readChain_of_not_continues
      (not_continues_append hafter.filler (by simp [hr]) (by simp [hr])), hend, hr⟩
  | @empty l r filler hl hfiller hr =>
    refine ⟨l, filler ++ [r], rfl, hl, fun rest => readItems_of_close ?_ hr⟩
    rw [List.append_assoc]
    exact skipLayout_append hfiller (by rintro _ ⟨⟩; simp [hr, Token.Kind.isLayout])
  | @bracketed l r items filler x hl hfiller hx hr ih =>
    refine ⟨l, filler ++ x ++ [r], by simp, hl, fun rest => ?_⟩
    have hskip := skipLayout_derives hfiller hx (r :: rest)
    obtain ⟨t, more, rfl, ht⟩ := hx.exists_cons
    have hopen : t.kind ≠ .rightBracket := by
      intro h
      simp [openings, starts, h] at ht
    have hs : filler ++ (t :: more) ++ [r] ++ rest = filler ++ (t :: more ++ r :: rest) := by simp
    rw [hs, readItems_ok_iff_of_open hskip hopen]
    exact ⟨items, ih r rest hr, rfl⟩
  | @last e x filler hx hfiller ih =>
    intro r rest hr
    have hskip : skipLayout (filler ++ r :: rest) = r :: rest :=
      skipLayout_append hfiller (by rintro _ ⟨⟩; simp [hr, Token.Kind.isLayout])
    rw [List.append_assoc]
    refine readItemList_of_close ?_ hskip hr
    rw [ih]
    exact readChain_of_not_continues (not_continues_append hfiller (by simp [hr]) (by simp [hr]))
  | @more e es sep x filler filler' y hx hfiller hsep hfiller' hy ihx ihy =>
    intro r rest hr
    have hskip : skipLayout (filler ++ sep :: (filler' ++ (y ++ r :: rest))) =
        sep :: (filler' ++ (y ++ r :: rest)) :=
      skipLayout_append hfiller (by rintro _ ⟨⟩; simp [hsep, Token.Kind.isLayout])
    have hskip' := skipLayout_derives hfiller' hy (r :: rest)
    have hread : read (x ++ (filler ++ sep :: (filler' ++ (y ++ r :: rest)))) =
        .ok e (filler ++ sep :: (filler' ++ (y ++ r :: rest))) := by
      rw [ihx]
      exact readChain_of_not_continues
        (not_continues_append hfiller (by simp [hsep]) (by simp [hsep]))
    have hs : x ++ filler ++ sep :: filler' ++ y ++ r :: rest =
        x ++ (filler ++ sep :: (filler' ++ (y ++ r :: rest))) := by simp
    rw [hs, readItemList_ok_iff_of_comma hread hskip hsep, hskip']
    exact ⟨es, ihy r rest hr, rfl⟩

/-- Shorter streams are read as the grammar has it. Readers call each other only on less. -/
private def SoundBelow (n : Nat) : Prop :=
  ∀ s e rest, s.length < n → read s = .ok e rest →
    ∃ x, Derives (.expression e) x ∧ ¬ Continues rest ∧ s = x ++ rest

private theorem derives_of_readItemList {n : Nat} (hread : SoundBelow n) {s rest : List Token}
    {items : List Expression} (hn : s.length < n) (h : readItemList s = .ok items rest) :
    ∃ x r, Derives (.items items) x ∧ r.kind = .rightBracket ∧ s = x ++ r :: rest := by
  induction hk : s.length using Nat.strongRecOn generalizing s items with
  | _ k ih =>
    obtain ⟨item, m, u, m', hitem, hm, hu⟩ := readItemList_cases h
    obtain ⟨x, hx, _, rfl⟩ := hread s item m hn hitem
    obtain ⟨filler, hfiller, hm'⟩ := exists_filler m
    rw [hm] at hm'
    rcases hu with hu | hu
    · obtain ⟨more, hmore, rfl⟩ := (readItemList_ok_iff_of_comma hitem hm hu).1 h
      obtain ⟨filler', hfiller', hskip⟩ := exists_filler m'
      have hlt : (skipLayout m').length < (x ++ m).length := by
        have := length_skipLayout_le m'
        rw [List.length_append, hm']
        simp only [List.length_append, List.length_cons]
        omega
      obtain ⟨y, r, hy, hr, hs⟩ := ih _ (hk ▸ hlt) (Nat.lt_trans hlt hn) hmore rfl
      refine ⟨_, r, .more hx hfiller hu hfiller' hy, hr, ?_⟩
      rw [hm', hskip, hs]
      simp
    · rw [readItemList_of_close hitem hm hu] at h
      cases h
      refine ⟨_, u, .last hx hfiller, hu, ?_⟩
      rw [hm']
      simp

private theorem derives_of_readItems {n : Nat} (hread : SoundBelow n) {l : Token}
    {s rest : List Token} {e : Expression} (hl : l.kind = .leftBracket) (hn : s.length < n)
    (h : readItems s = .ok e rest) :
    ∃ items x, e = .array items ∧ Derives (.array items) x ∧ l :: s = x ++ rest := by
  obtain ⟨t, m, hs⟩ := skipLayout_ne_nil_of_readItems h
  obtain ⟨filler, hfiller, hskip⟩ := exists_filler s
  rw [hs] at hskip
  by_cases ht : t.kind = .rightBracket
  · rw [readItems_of_close hs ht] at h
    cases h
    refine ⟨[], _, rfl, .empty hl hfiller ht, ?_⟩
    rw [hskip]
    simp
  · obtain ⟨items, hitems, rfl⟩ := (readItems_ok_iff_of_open hs ht).1 h
    have hlt : (t :: m).length < n := by
      have := congrArg List.length hskip
      simp only [List.length_append] at this
      omega
    obtain ⟨x, r, hx, hr, htm⟩ := derives_of_readItemList hread hlt hitems
    refine ⟨items, _, rfl, .bracketed hl hfiller hx hr, ?_⟩
    rw [hskip, htm]
    simp

private theorem derives_of_readOperand {n : Nat} (hread : SoundBelow n) {s rest : List Token}
    {e : Expression} (hn : s.length ≤ n) (h : readOperand s = .ok e rest) :
    ∃ x, Derives (.operand e) x ∧ s = x ++ rest := by
  induction s generalizing e with
  | nil => exact absurd h readOperand_nil_ne_ok
  | cons t m ih =>
    have hm : m.length < n := hn
    by_cases hsign : isSign t = true
    · obtain ⟨a, ha, rfl⟩ := (readOperand_sign_ok_iff hsign).1 h
      obtain ⟨x, hx, rfl⟩ := ih (Nat.le_of_lt hm) ha
      exact ⟨t :: x, .sign (isSign_iff.1 hsign).1 (isSign_iff.1 hsign).2 hx, rfl⟩
    have hstart := kind_mem_starts_of_readOperand (by simpa using hsign) h
    simp only [starts, List.mem_cons, List.not_mem_nil, or_false] at hstart
    rcases hstart with ht | ht | ht | ht | ht | ht
    · rw [readOperand_number ht] at h
      cases h
      exact ⟨[t], .number ht, rfl⟩
    · rw [readOperand_string ht] at h
      cases h
      exact ⟨[t], .string ht, rfl⟩
    · rw [readOperand_command ht] at h
      cases h
      exact ⟨[t], .command ht, rfl⟩
    · rw [readOperand_bracket ht] at h
      obtain ⟨items, x, rfl, hx, hs⟩ := derives_of_readItems hread ht hm h
      exact ⟨x, .array hx, hs⟩
    · obtain ⟨body, hbody, rfl⟩ := (readOperand_brace_ok_iff ht).1 h
      obtain ⟨hbal, r, hr, rfl⟩ := codeBody_eq_some_iff.1 hbody
      exact ⟨_, .code ht hbal hr, by simp⟩
    · obtain ⟨m', u, hinner, hskip', hu⟩ := (readOperand_paren_ok_iff ht).1 h
      obtain ⟨before, hbefore, hskip⟩ := exists_spaces m
      have hlt : (skipSpaces m).length < n := Nat.lt_of_le_of_lt (length_skipSpaces_le m) hm
      obtain ⟨x, hx, _, hs⟩ := hread _ _ _ hlt hinner
      obtain ⟨after, hafter, hm'⟩ := exists_spaces m'
      refine ⟨_, .parens ht hbefore hx hafter hu, ?_⟩
      rw [hskip, hs, hm', hskip']
      simp

private theorem derives_of_readChain {n : Nat} (hread : SoundBelow n) {left e : Expression}
    {s rest w : List Token} (hn : s.length ≤ n) (hw : Derives (.expression left) w)
    (h : readChain left s = .ok e rest) :
    ∃ x, Derives (.expression e) (w ++ x) ∧ ¬ Continues rest ∧ s = x ++ rest := by
  induction hk : s.length using Nat.strongRecOn generalizing s left w with
  | _ k ih =>
    cases hs : operator? s with
    | none =>
      rw [readChain_of_none hs] at h
      cases h
      exact ⟨[], by simpa using hw, operator?_eq_none_iff.1 hs, rfl⟩
    | some p =>
      obtain ⟨t, m⟩ := p
      obtain ⟨right, m', hright⟩ := readOperand_of_readChain hs h
      rw [readChain_of_operand hs hright] at h
      have hlt := length_of_operator? hs
      obtain ⟨gap, spaces, hgap, hone, ht, hspaces, hs'⟩ := exists_gap_of_operator? hs
      obtain ⟨y, hy, rfl⟩ := derives_of_readOperand hread (by omega) hright
      have hlt' : m'.length < k := by
        have := congrArg List.length hs'
        simp only [List.length_append, List.length_cons] at this
        omega
      obtain ⟨x, hx, hrest, rfl⟩ :=
        ih _ hlt' (by omega) (.chain hw hgap hone ht hspaces hy) h rfl
      refine ⟨gap ++ t :: spaces ++ y ++ x, ?_, hrest, ?_⟩
      · simpa using hx
      · rw [hs']
        simp

private theorem soundBelow (n : Nat) : SoundBelow n := by
  induction n with
  | zero => exact fun s e rest hn => absurd hn (Nat.not_lt_zero _)
  | succ n ih =>
    intro s e rest hn h
    obtain ⟨left, m, hleft⟩ := readOperand_of_read h
    rw [read_of_operand hleft] at h
    obtain ⟨w, hw, rfl⟩ := derives_of_readOperand ih (Nat.le_of_lt_succ hn) hleft
    have hm : m.length ≤ n := by
      simp only [List.length_append] at hn
      omega
    obtain ⟨x, hx, hrest, rfl⟩ := derives_of_readChain ih hm (.single hw) h
    exact ⟨w ++ x, hx, hrest, by simp⟩

/-- An expression is read as far as it goes. -/
theorem read_eq_ok_iff {s rest : List Token} {e : Expression} : read s = .ok e rest ↔
    ∃ x, Derives (.expression e) x ∧ ¬ Continues rest ∧ s = x ++ rest := by
  constructor
  · exact soundBelow (s.length + 1) s e rest (Nat.lt_succ_self _)
  · rintro ⟨x, hx, hrest, rfl⟩
    have hread : read (x ++ rest) = readChain e rest := reads_of_derives hx rest
    rw [hread, readChain_of_not_continues hrest]

theorem readArray_eq_ok_iff {s rest : List Token} {e : Expression} : readArray s = .ok e rest ↔
    ∃ items x, e = .array items ∧ Derives (.array items) x ∧ s = x ++ rest := by
  unfold readArray
  rw [bind_ok_iff]
  constructor
  · rintro ⟨l, m, hl, h⟩
    obtain ⟨rfl, hkind⟩ := (need_ok_iff (by decide)).1 hl
    exact derives_of_readItems (soundBelow (m.length + 1)) hkind (Nat.lt_succ_self _) h
  · rintro ⟨items, x, rfl, hx, rfl⟩
    obtain ⟨l, m, rfl, hl, hm⟩ := reads_of_derives hx
    exact ⟨l, m ++ rest, (need_ok_iff (by decide)).2 ⟨rfl, hl⟩, hm rest⟩

end Expression
end SqfLayout

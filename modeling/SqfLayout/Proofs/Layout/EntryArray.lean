import Mathlib
import SqfLayout.Proofs.Layout.Entries

/-! The entry of a parameter, read as the array literal that it should be. A type without a literal
keeps its comma, and an array has no place for a comma without an item. -/
namespace SqfLayout.Layout
open TokenReader
open Expression

def literalOf : Sentinel → Expression
  | .emptyArray => .array []
  | .emptyCode => .code []
  | .command name => .command name
  | .number text => .number text
  | .string text => .string text

def literals (c : Convention) (types : List Text) : List Expression :=
  (types.filterMap c.sentinel?).map literalOf

/-- Every comma between types stands between two literals. -/
def Separated (c : Convention) (types : List Text) : Prop :=
  types.length ≤ 1 ∨ ∀ type ∈ types, c.sentinel? type ≠ none

instance (c : Convention) (types : List Text) : Decidable (Separated c types) :=
  inferInstanceAs (Decidable (_ ∨ _))

/-- The array that an entry stands for; its size comes last. -/
def EntryArray (c : Convention) (p : Parameter) (e : Expression) : Prop :=
  ∃ name value size, p.name? = some name ∧ p.value? = some value ∧
    e = .array (.string name :: value :: .array (literals c p.types) :: size)

private theorem derives_literal {sen : Sentinel} {x : List Token} (h : Spells sen x) :
    Derives (.operand (literalOf sen)) x := by
  cases h with
  | emptyArray hl hr => exact .array (.empty hl filler_nil hr)
  | emptyCode hl hr => exact .code hl .nil hr
  | command ht => exact .command ht
  | number ht => exact .number ht
  | string ht => exact .string ht

private theorem filler_space {gap : Token} (h : gap.kind = .space) : Filler [gap] := by
  simp [Filler, h]

private theorem derives_literals {c : Convention} {types : List Text} {y : List Token}
    (hy : ChecksTypes c types y) (htypes : types ≠ [])
    (hall : ∀ type ∈ types, c.sentinel? type ≠ none) :
    Derives (.items (literals c types)) y := by
  induction hy with
  | nil => exact absurd rfl htypes
  | @single type x hx =>
    obtain ⟨sen, hsen⟩ := Option.ne_none_iff_exists'.1 (hall type (by simp))
    have hspells : Spells sen x := by simpa [ChecksType, hsen] using hx
    have := Derives.last (.single (derives_literal hspells)) filler_nil
    simpa [literals, hsen] using this
  | @cons type types sep gap x y hx hsep hgap hne _ ih =>
    obtain ⟨sen, hsen⟩ := Option.ne_none_iff_exists'.1 (hall type (by simp))
    have hspells : Spells sen x := by simpa [ChecksType, hsen] using hx
    have hrest := ih hne fun t ht => hall t (by simp [ht])
    have := Derives.more (.single (derives_literal hspells)) filler_nil hsep (filler_space hgap)
      hrest
    simpa [literals, hsen] using this

private theorem derives_typeChecks {c : Convention} {types : List Text} {l r : Token} {y : List Token}
    (hsep : Separated c types) (hl : l.kind = .leftBracket) (hy : ChecksTypes c types y)
    (hr : r.kind = .rightBracket) : Derives (.array (literals c types)) (l :: y ++ [r]) := by
  by_cases hall : types ≠ [] ∧ ∀ type ∈ types, c.sentinel? type ≠ none
  · simpa using Derives.bracketed hl filler_nil (derives_literals hy hall.1 hall.2) hr
  · -- What is left is a list without a comma and without a literal.
    have hnone : y = [] ∧ literals c types = [] := by
      cases hy with
      | nil => exact ⟨rfl, rfl⟩
      | @single type x hx =>
        have hmissing : c.sentinel? type = none := by simpa using hall
        exact ⟨by simpa [ChecksType, hmissing] using hx, by simp [literals, hmissing]⟩
      | cons _ _ _ hne hy =>
        obtain hshort | hfull := hsep
        · exact absurd (List.length_eq_zero_iff.1 (by simpa using hshort)) hne
        · exact absurd ⟨by simp, hfull⟩ hall
    rw [hnone.1, hnone.2]
    exact .empty hl filler_nil hr

private theorem derives_entry {c : Convention} {p bound : Parameter} {w : List Token}
    (hw : Binds c p w bound) (hsep : Separated c p.types) :
    ∃ items, EntryArray c bound (.array items) ∧ Derives (.array items) w := by
  cases hw with
  | @entry l name comma gap comma' gap' l' r' r e x y z hl hname hcomma hgap hx hcomma' hgap' hl'
      hy hr' hz hr =>
    have htypes := derives_typeChecks hsep hl' hy hr'
    have hsize : ∃ size, Derives (.items (.array (literals c p.types) :: size))
        (l' :: y ++ r' :: z) := by
      obtain ⟨_, hz⟩ | ⟨_, rfl⟩ := hz
      · cases hz with
        | number hs hg ht =>
          have := Derives.more (.single (.array htypes)) filler_nil hs (filler_space hg)
            (.last (.single (.number ht)) filler_nil)
          exact ⟨_, by simpa using this⟩
        | array hs hg hv =>
          have := Derives.more (.single (.array htypes)) filler_nil hs (filler_space hg)
            (.last (.single (.array hv)) filler_nil)
          exact ⟨_, by simpa using this⟩
      · exact ⟨[], by simpa using Derives.last (.single (.array htypes)) filler_nil⟩
    obtain ⟨size, hsize⟩ := hsize
    have hitems := Derives.more (.single (.string hname)) filler_nil hcomma (filler_space hgap)
      (.more hx filler_nil hcomma' (filler_space hgap') hsize)
    refine ⟨_, ⟨_, _, size, rfl, rfl, rfl⟩, ?_⟩
    simpa using Derives.bracketed hl filler_nil hitems hr

private theorem read_ne_ok {t : Token} {m rest : List Token} {e : Expression}
    (ht : t.kind ∉ openings) : read (t :: m) ≠ .ok e rest := by
  intro h
  obtain ⟨x, hx, _, hs⟩ := read_eq_ok_iff.1 h
  obtain ⟨u, more, rfl, hu⟩ := hx.exists_cons
  cases hs
  exact ht hu

private theorem skipLayout_typeChecks {c : Convention} {types : List Text} {x y : List Token}
    {r : Token} (hx : Filler x) (hy : ChecksTypes c types y) (hr : r.kind = .rightBracket)
    (more : List Token) : skipLayout (x ++ (y ++ r :: more)) = y ++ r :: more := by
  have hcheck {type : Text} {z : List Token} {u : Token} (hz : ChecksType c type z)
      (hu : (u.kind = .space || u.kind.isLayout) = false) (rest : List Token) :
      ∀ t ∈ (z ++ u :: rest).head?, (t.kind = .space || t.kind.isLayout) = false := by
    unfold ChecksType at hz
    cases hsen : c.sentinel? type with
    | none =>
      rw [hsen] at hz
      subst hz
      simpa using hu
    | some sen =>
      rw [hsen] at hz
      obtain ⟨t, _, rfl, ht⟩ := (derives_literal hz).exists_cons
      rintro _ ⟨⟩
      exact not_layout_of_mem_openings ht
  refine skipLayout_append hx ?_
  cases hy with
  | nil => simp [hr, Token.Kind.isLayout]
  | single hz => exact hcheck hz (by simp [hr, Token.Kind.isLayout]) more
  | @cons _ _ comma gap _ z hz hcomma =>
    have hhead : (comma.kind = .space || comma.kind.isLayout) = false := by
      simp [hcomma, Token.Kind.isLayout]
    simpa using hcheck hz hhead (gap :: z ++ r :: more)

private theorem readItemList_of_item {comma : Token} {e : Expression} {items : List Expression}
    {x m rest : List Token} (hx : Derives (.expression e) x) (hcomma : comma.kind = .comma)
    (h : readItemList (x ++ comma :: m) = .ok items rest) :
    ∃ others, readItemList (skipLayout m) = .ok others rest := by
  have hread : read (x ++ comma :: m) = .ok e (comma :: m) :=
    read_eq_ok_iff.2 ⟨x, hx, not_continues_append filler_nil (by simp [hcomma])
      (by simp [hcomma]), rfl⟩
  have hstop : skipLayout (comma :: m) = comma :: m :=
    skipLayout_append filler_nil (by simp [hcomma, Token.Kind.isLayout])
  obtain ⟨others, hothers, _⟩ := (readItemList_ok_iff_of_comma hread hstop hcomma).1 h
  exact ⟨others, hothers⟩

private theorem readItemList_ne_ok {c : Convention} {types : List Text} {y more rest : List Token}
    {r : Token} {items : List Expression} (hy : ChecksTypes c types y) (hr : r.kind = .rightBracket)
    (hmissing : ∃ type ∈ types, c.sentinel? type = none) :
    readItemList (y ++ r :: more) ≠ .ok items rest := by
  -- A type without a literal shows its comma, or the bracket, in the place of an item.
  have hbare {u : Token} {z rest : List Token} {items : List Expression} (hu : u.kind ∉ openings) :
      readItemList (u :: z) ≠ .ok items rest := by
    intro h
    obtain ⟨_, _, _, _, hread, _⟩ := readItemList_cases h
    exact read_ne_ok hu hread
  induction hy generalizing items with
  | nil => simp at hmissing
  | @single type x hx =>
    have hnone : c.sentinel? type = none := by simpa using hmissing
    have hx : x = [] := by simpa [ChecksType, hnone] using hx
    subst hx
    exact hbare (by simp [openings, starts, hr])
  | @cons type types comma gap x y hx hcomma hgap _ hy ih =>
    intro h
    cases hsen : c.sentinel? type with
    | none =>
      have hx : x = [] := by simpa [ChecksType, hsen] using hx
      subst hx
      exact hbare (by simp [openings, starts, hcomma]) h
    | some sen =>
      have hspells : Spells sen x := by simpa [ChecksType, hsen] using hx
      have hitem : Derives (.expression (literalOf sen)) x := .single (derives_literal hspells)
      obtain ⟨others, hothers⟩ := readItemList_of_item (m := gap :: (y ++ r :: more)) hitem hcomma
        (by simpa using h)
      have hnext : skipLayout (gap :: (y ++ r :: more)) = y ++ r :: more :=
        skipLayout_typeChecks (filler_space hgap) hy hr _
      rw [hnext] at hothers
      have hlater : ∃ type ∈ types, c.sentinel? type = none := by simpa [hsen] using hmissing
      exact ih hlater hothers

private theorem exists_cons_of_typeChecks {c : Convention} {types : List Text} {y : List Token}
    (hy : ChecksTypes c types y) (hlong : 1 < types.length) :
    ∃ t more, y = t :: more ∧ t.kind ≠ .rightBracket := by
  cases hy with
  | nil => simp at hlong
  | single => simp at hlong
  | @cons type _ comma _ _ _ hx hcomma =>
    unfold ChecksType at hx
    cases hsen : c.sentinel? type with
    | none =>
      rw [hsen] at hx
      subst hx
      exact ⟨comma, _, rfl, by simp [hcomma]⟩
    | some sen =>
      rw [hsen] at hx
      obtain ⟨t, _, rfl, ht⟩ := (derives_literal hx).exists_cons
      refine ⟨t, _, rfl, fun hr => ?_⟩
      simp [openings, starts, hr] at ht

private theorem read_typeChecks_ne_ok {c : Convention} {types : List Text} {y more rest : List Token}
    {l r : Token} {e : Expression} (hsep : ¬ Separated c types) (hl : l.kind = .leftBracket)
    (hy : ChecksTypes c types y) (hr : r.kind = .rightBracket) :
    read (l :: (y ++ r :: more)) ≠ .ok e rest := by
  obtain ⟨hlong, hfull⟩ := not_or.1 hsep
  have hmissing : ∃ type ∈ types, c.sentinel? type = none := by simpa using hfull
  intro h
  obtain ⟨left, m, hread⟩ := readOperand_of_read h
  rw [readOperand_bracket hl] at hread
  have hstop := skipLayout_typeChecks filler_nil hy hr more
  obtain ⟨t, z, rfl, ht⟩ := exists_cons_of_typeChecks hy (Nat.lt_of_not_le hlong)
  obtain ⟨items, hitems, _⟩ := (readItems_ok_iff_of_open hstop ht).1 hread
  exact readItemList_ne_ok hy hr hmissing hitems

/-- The entry of types that are not separated is no array, and nor is any beginning of it. -/
private theorem readArray_entry_ne_ok {c : Convention} {p bound : Parameter} {w rest rest' : List Token}
    {e : Expression} (hw : Binds c p w bound) (hsep : ¬ Separated c p.types) :
    readArray (w ++ rest) ≠ .ok e rest' := by
  intro h
  obtain ⟨_, m, hbracket, hitems⟩ := bind_ok_iff.1 h
  cases hw with
  | @entry l name comma gap comma' gap' l' r' r value x y z hl hname hcomma hgap hx hcomma' hgap'
      hl' hy hr' hz hr =>
    obtain ⟨hm, _⟩ := (need_ok_iff (by decide)).1 hbracket
    -- The reader gets past the name and the value, and the types stop it.
    let types := l' :: (y ++ r' :: (z ++ r :: rest))
    obtain rfl : m = name :: comma :: gap :: (x ++ comma' :: gap' :: types) := by
      simpa [types] using (List.cons.inj hm).2.symm
    have hopen : skipLayout (name :: comma :: gap :: (x ++ comma' :: gap' :: types)) =
        name :: comma :: gap :: (x ++ comma' :: gap' :: types) :=
      skipLayout_append filler_nil (by simp [hname, Token.Kind.isLayout])
    obtain ⟨items, hlist, _⟩ := (readItems_ok_iff_of_open hopen (by simp [hname])).1 hitems
    obtain ⟨items, hvalue⟩ :=
      readItemList_of_item (x := [name]) (.single (.string hname)) hcomma hlist
    have hgapped : skipLayout (gap :: (x ++ comma' :: gap' :: types)) = x ++ comma' :: gap' :: types :=
      skipLayout_derives (filler_space hgap) hx _
    rw [hgapped] at hvalue
    obtain ⟨items, htypes⟩ := readItemList_of_item hx hcomma' hvalue
    have hgapped' : skipLayout (gap' :: types) = types :=
      skipLayout_append (filler_space hgap') (by simp [hl', Token.Kind.isLayout])
    rw [hgapped'] at htypes
    obtain ⟨_, _, _, _, hread, _⟩ := readItemList_cases htypes
    exact read_typeChecks_ne_ok hsep hl' hy hr' hread

def passEntries (c : Convention) : List Parameter → TokenReader Unit
  | [] => pure ()
  | p :: rest => do
    let _ ← entry c p
    passFor .moreParameters .comma
    pass .newline
    passEntries c rest

/-- Reads a file as its check does, up to the bracket of an entry. Its parameter is given as the
header declares it. -/
def seekEntry (c : Convention) (i : Nat) : TokenReader (Option Parameter) := do
  let header ← preamble c
  pass .blank
  pass .newline
  let _ ← take
  pass .space
  pass .leftBracket
  passFor .indentParameter .indent
  passEntries c (header.parameters.take i)
  return header.parameters[i]?

private theorem passEntries_append (c : Convention) (ps qs : List Parameter) :
    passEntries c (ps ++ qs) = passEntries c ps >>= fun _ => passEntries c qs := by
  induction ps with
  | nil => rfl
  | cons p ps ih => simp [passEntries, ih]

private theorem passEntries_single {c : Convention} {p bound : Parameter} {x s : List Token} {comma line : Token}
    (hx : Binds c p x bound) (hcomma : comma.kind = .comma) (hline : line.kind = .newline) :
    passEntries c [p] (x ++ comma :: line :: s) = .ok () s := by
  unfold passEntries
  rw [bind_of_ok (entry_ok_iff.2 ⟨x, hx, rfl⟩), bind_of_ok (passFor_cons hcomma (by decide)),
    bind_of_ok (pass_cons hline (by decide))]
  rfl

private theorem Entered.exists_passed {c : Convention} {h : Header} {done later : List Parameter} {p : Parameter}
    {front : List Token} (hfront : Entered c h done p later front) :
    h.parameters.drop done.length = p :: later ∧ ∃ x command gap l indent y, Declares c x h ∧
      command.kind = .command ∧ gap.kind = .space ∧ l.kind = .leftBracket ∧ indent.kind = .indent ∧
      front = x ++ command :: gap :: l :: indent :: y ∧
      ∀ s, passEntries c (h.parameters.take done.length) (y ++ s) = .ok () s := by
  induction hfront with
  | @first p later command gap l indent x hx hparameters hcommand _ hgap hl hindent =>
    exact ⟨hparameters, x, command, gap, l, indent, [], hx, hcommand, hgap, hl, hindent, rfl, fun _ => rfl⟩
  | @next done later p p' bound comma line front z _ hz hcomma hline ih =>
    obtain ⟨hlater, x, command, gap, l, indent, y, hx, hcommand, hgap, hl, hindent, rfl, hpassed⟩ := ih
    have htake : h.parameters.take (done.length + 1) = h.parameters.take done.length ++ [p] := by
      rw [List.take_add, hlater]
      rfl
    refine ⟨?_, x, command, gap, l, indent, y ++ (z ++ [comma, line]), hx, hcommand, hgap, hl, hindent,
      by simp, fun s => ?_⟩
    · rw [List.length_append, ← List.drop_drop, hlater]
      rfl
    · rw [List.length_append, List.length_singleton, htake, passEntries_append, List.append_assoc,
        bind_of_ok (hpassed _), List.append_assoc]
      exact passEntries_single hz hcomma hline

theorem Entered.seekEntry_eq {c : Convention} {h : Header} {done later : List Parameter} {p : Parameter}
    {front : List Token} (hfront : Entered c h done p later front) (s : List Token) :
    seekEntry c done.length (front ++ s) = .ok (some p) s := by
  obtain ⟨hlater, x, command, gap, l, indent, y, hx, hcommand, hgap, hl, hindent, rfl, hpassed⟩ :=
    hfront.exists_passed
  have hp : h.parameters[done.length]? = some p := by
    rw [← List.head?_drop, hlater]
    rfl
  cases hx with
  | @opening hash path line comment blank line' _ hhash hpath hheader hline hcomment hread hblank hline' =>
    have hpreamble (more : List Token) : preamble c (hash :: path :: line :: comment :: more) = .ok h more :=
      preamble_ok_iff.2 ⟨hash, path, line, comment, rfl, hhash, hpath, hheader, hline, hcomment, hread⟩
    unfold seekEntry
    simp only [List.cons_append, List.nil_append]
    rw [bind_of_ok (hpreamble _), bind_of_ok (pass_cons hblank (by decide)),
      bind_of_ok (pass_cons hline' (by decide)), bind_of_ok (take_cons (by simp [hcommand])),
      bind_of_ok (pass_cons hgap (by decide)), bind_of_ok (pass_cons hl (by decide)),
      bind_of_ok (passFor_cons hindent (by decide)), bind_of_ok (hpassed s), hp]
    rfl

private theorem seekEntry_ok {c : Convention} {s : List Token} {h : Header} (hs : Conforms c s h) {i : Nat}
    (hi : i < h.parameters.length) : ∃ p w rest, Binds c p w h.parameters[i] ∧
      seekEntry c i s = .ok (some p) (w ++ rest) := by
  obtain ⟨_, done, p, _, front, w, bound, rest, bounds, hfront, hw, _, rfl, hparameters, rfl⟩ :=
    hs.exists_entered hi
  have hbound : h.parameters[done.length] = bound := by simp [hparameters]
  exact ⟨p, w, rest, by rwa [hbound], hfront.seekEntry_eq _⟩

/-- The array reader takes an entry for what the check took it for, if and only if its types are
separated; it takes neither more tokens nor fewer. Otherwise it finds no array there. -/
theorem readArray_agrees_iff {c : Convention} {tokens : List Token} {h : Header} {i : Nat}
    (hok : validate c tokens = .ok h) (hi : i < h.parameters.length) :
    ∃ p s rest, seekEntry c i (complete tokens) = .ok (some p) s ∧
      entry c p s = .ok h.parameters[i] rest ∧
      ((∃ e, EntryArray c h.parameters[i] e ∧ readArray s = .ok e rest) ↔
        Separated c h.parameters[i].types) ∧
      (¬ Separated c h.parameters[i].types →
        ∃ violation s', readArray s = .error violation s') := by
  obtain ⟨p, w, rest, hw, hseek⟩ := seekEntry_ok (conforms_of_validate hok) hi
  have htypes : h.parameters[i].types = p.types := hw.types_eq
  rw [htypes]
  refine ⟨p, w ++ rest, rest, hseek, entry_ok_iff.2 ⟨w, hw, rfl⟩, ⟨?_, ?_⟩, ?_⟩
  · rintro ⟨e, _, hread⟩
    exact Decidable.byContradiction fun hsep => readArray_entry_ne_ok hw hsep hread
  · intro hsep
    obtain ⟨items, hitems, hderives⟩ := derives_entry hw hsep
    exact ⟨.array items, hitems, readArray_eq_ok_iff.2 ⟨items, w, rfl, hderives, rfl⟩⟩
  · intro hsep
    cases hread : readArray (w ++ rest) with
    | ok e rest' => exact absurd hread (readArray_entry_ne_ok hw hsep)
    | error violation s' => exact ⟨violation, s', rfl⟩

def fileOf (types : Text) (checks : List Token) : List Token :=
  let token (kind : Token.Kind) (value : Text) : Token := ⟨kind, value, Position.start⟩
  [token .preprocessorStart "#", token .preprocessorInclude "macros.hpp", token .newline "\n",
    token .blockComment ("\n    Arma At War\n\n    Author: NetFusion\n\n    Description:\n    Waits\n\n" ++
      "    Parameter(s):\n    0: Value <" ++ types ++ "> (Default: nil)\n\n"),
    token .blank "", token .newline "\n", token .command "params", token .space " ",
    token .leftBracket "[", token .indent "", token .leftBracket "[", token .string "_value",
    token .comma ",", token .space " ", token .command "nil", token .comma ",", token .space " ",
    token .leftBracket "["] ++ checks ++
  [token .rightBracket "]", token .rightBracket "]", token .outdent ""]

def headerOfFile (types : List Text) : Header :=
  ⟨["NetFusion"], ["Waits"], [⟨"Value", types, "nil", some "_value", some (.command "nil")⟩]⟩

/-- The check of one type is an array, as the check of every single type is. -/
theorem readArray_agrees_number :
    let tokens := fileOf "Number" [⟨.number, "0", Position.start⟩]
    validate .standard tokens = .ok (headerOfFile ["Number"]) ∧
      ∃ p s rest e, seekEntry .standard 0 (complete tokens) = .ok (some p) s ∧
        entry .standard p s = .ok (headerOfFile ["Number"]).parameters[0] rest ∧
        EntryArray .standard (headerOfFile ["Number"]).parameters[0] e ∧ readArray s = .ok e rest := by
  have hok : validate .standard (fileOf "Number" [⟨.number, "0", Position.start⟩]) =
      .ok (headerOfFile ["Number"]) := by cbv
  refine ⟨hok, ?_⟩
  obtain ⟨p, s, rest, hseek, hentry, hagree, _⟩ := readArray_agrees_iff hok (i := 0) (by decide)
  obtain ⟨e, he, hread⟩ := hagree.2 (.inl (by decide))
  exact ⟨p, s, rest, e, hseek, hentry, he, hread⟩

/-- A file whose parameter has a type without a literal before one with a literal. -/
def mixedFile : List Token :=
  fileOf "Anything, Number" [⟨.comma, ",", Position.start⟩, ⟨.space, " ", Position.start⟩,
    ⟨.number, "0", Position.start⟩]

/-- The comma that the check of such a file insists on is none that an array may have. -/
theorem readArray_disagrees_mixed :
    validate .standard mixedFile = .ok (headerOfFile ["Anything", "Number"]) ∧
      ∃ p s s', seekEntry .standard 0 (complete mixedFile) = .ok (some p) s ∧
        readArray s = .error ⟨.noExpression .comma, Position.start⟩ s' :=
  ⟨by cbv, ⟨"Value", ["Anything", "Number"], "nil", none, none⟩, (complete mixedFile).drop 10,
    (complete mixedFile).drop 18, by cbv, by cbv⟩

end SqfLayout.Layout

import SqfLayout.Proofs.Expression.Reading
import SqfLayout.Proofs.Layout.Grammar
import SqfLayout.Proofs.Token.Pieces

/-! A check accepts exactly the conformant files. -/
namespace SqfLayout.Layout
open TokenReader
open Expression (Derives)

theorem logged_ok_iff {α : Type} {log : List Event} {reader : TokenReader α} {s s' : List Token}
    {a : α} : logged log reader s = .ok a s' ↔ reader s = .ok a s' := by
  unfold logged EStateM.adaptExcept
  cases reader s <;> simp

theorem passFor_ok_iff {hint : Hint} {k : Token.Kind} {s s' : List Token} {u : Unit}
    (hk : k ≠ .eos) : passFor hint k s = .ok u s' ↔ ∃ t, t.kind = k ∧ s = t :: s' := by
  unfold passFor
  rw [bind_ok_iff]
  constructor
  · rintro ⟨t, m, hread, h⟩
    obtain ⟨rfl, ht⟩ := (expect_ok_iff hk).1 hread
    obtain ⟨_, rfl⟩ := pure_ok_iff.1 h
    exact ⟨t, ht, rfl⟩
  · rintro ⟨t, ht, rfl⟩
    exact ⟨t, s', (expect_ok_iff hk).2 ⟨rfl, ht⟩, rfl⟩

theorem pass_ok_iff {k : Token.Kind} {s s' : List Token} {u : Unit} (hk : k ≠ .eos) :
    pass k s = .ok u s' ↔ ∃ t, t.kind = k ∧ s = t :: s' := by
  unfold pass
  rw [bind_ok_iff]
  constructor
  · rintro ⟨t, m, hread, h⟩
    obtain ⟨rfl, ht⟩ := (need_ok_iff hk).1 hread
    obtain ⟨_, rfl⟩ := pure_ok_iff.1 h
    exact ⟨t, ht, rfl⟩
  · rintro ⟨t, ht, rfl⟩
    exact ⟨t, s', (need_ok_iff hk).2 ⟨rfl, ht⟩, rfl⟩

theorem pass_cons {k : Token.Kind} {t : Token} {s : List Token} (ht : t.kind = k) (hk : k ≠ .eos) :
    pass k (t :: s) = .ok () s := (pass_ok_iff hk).2 ⟨t, ht, rfl⟩

theorem passFor_cons {hint : Hint} {k : Token.Kind} {t : Token} {s : List Token} (ht : t.kind = k)
    (hk : k ≠ .eos) : passFor hint k (t :: s) = .ok () s := (passFor_ok_iff hk).2 ⟨t, ht, rfl⟩

theorem unless_throw_ok_iff {ε σ : Type} {p : Prop} [Decidable p] {e : ε} {s s' : σ} {u : PUnit} :
    (if p then throw e else pure PUnit.unit : EStateM ε σ PUnit) s = .ok u s' ↔ ¬ p ∧ s = s' := by
  by_cases hp : p
  · rw [if_pos hp]
    exact ⟨fun h => absurd h throw_ne_ok, fun h => absurd hp h.1⟩
  · rw [if_neg hp, pure_ok_iff]
    exact ⟨fun h => ⟨hp, h.2⟩, fun h => ⟨rfl, h.2⟩⟩

theorem literal_ok_iff {kind : Token.Kind} {value type : Text} {sen : Sentinel}
    {s s' : List Token} {u : Unit} (hkind : kind ≠ .eos) : literal kind value type sen s = .ok u s' ↔
      ∃ t, t.kind = kind ∧ t.value = value ∧ s = t :: s' := by
  unfold literal
  rw [bind_ok_iff]
  constructor
  · rintro ⟨t, m, ht, h⟩
    obtain ⟨rfl, hk⟩ := (expect_ok_iff hkind).1 ht
    obtain ⟨hv, rfl⟩ := unless_throw_ok_iff.1 h
    exact ⟨t, hk, Decidable.not_not.1 hv, rfl⟩
  · rintro ⟨t, hk, hv, rfl⟩
    exact ⟨t, s', (expect_ok_iff hkind).2 ⟨rfl, hk⟩,
      unless_throw_ok_iff.2 ⟨Decidable.not_not.2 hv, rfl⟩⟩

theorem sentinel_ok_iff {type : Text} {sen : Sentinel} {s s' : List Token} {u : Unit} :
    sentinel type sen s = .ok u s' ↔ ∃ x, Spells sen x ∧ s = x ++ s' := by
  cases sen with
  | emptyArray =>
    simp only [sentinel, bind_ok_iff, passFor_ok_iff (k := .leftBracket) (by decide),
      pass_ok_iff (k := .rightBracket) (by decide)]
    constructor
    · rintro ⟨_, _, ⟨l, hl, rfl⟩, r, hr, rfl⟩
      exact ⟨_, .emptyArray hl hr, rfl⟩
    · rintro ⟨x, hx, rfl⟩
      cases hx with
      | emptyArray hl hr => exact ⟨(), _, ⟨_, hl, rfl⟩, _, hr, rfl⟩
  | emptyCode =>
    simp only [sentinel, bind_ok_iff, passFor_ok_iff (k := .leftBrace) (by decide),
      pass_ok_iff (k := .rightBrace) (by decide)]
    constructor
    · rintro ⟨_, _, ⟨l, hl, rfl⟩, r, hr, rfl⟩
      exact ⟨_, .emptyCode hl hr, rfl⟩
    · rintro ⟨x, hx, rfl⟩
      cases hx with
      | emptyCode hl hr => exact ⟨(), _, ⟨_, hl, rfl⟩, _, hr, rfl⟩
  | command name =>
    rw [sentinel, literal_ok_iff (by decide)]
    constructor
    · rintro ⟨t, ht, rfl, rfl⟩
      exact ⟨[t], .command ht, rfl⟩
    · rintro ⟨x, hx, rfl⟩
      cases hx with
      | command ht => exact ⟨_, ht, rfl, rfl⟩
  | number text =>
    rw [sentinel, literal_ok_iff (by decide)]
    constructor
    · rintro ⟨t, ht, rfl, rfl⟩
      exact ⟨[t], .number ht, rfl⟩
    · rintro ⟨x, hx, rfl⟩
      cases hx with
      | number ht => exact ⟨_, ht, rfl, rfl⟩
  | string text =>
    rw [sentinel, literal_ok_iff (by decide)]
    constructor
    · rintro ⟨t, ht, rfl, rfl⟩
      exact ⟨[t], .string ht, rfl⟩
    · rintro ⟨x, hx, rfl⟩
      cases hx with
      | string ht => exact ⟨_, ht, rfl, rfl⟩

def checkType (c : Convention) (type : Text) : TokenReader Unit :=
  match c.sentinel? type with
  | some s => sentinel type s
  | none => pure ()

theorem checkType_ok_iff {c : Convention} {type : Text} {s s' : List Token} {u : Unit} :
    checkType c type s = .ok u s' ↔ ∃ x, ChecksType c type x ∧ s = x ++ s' := by
  unfold checkType ChecksType
  cases c.sentinel? type with
  | none => simp [pure_ok_iff]
  | some sen => exact sentinel_ok_iff

theorem typeChecks_single (c : Convention) (type : Text) :
    typeChecks c [type] = checkType c type := by
  unfold typeChecks checkType
  cases c.sentinel? type with
  | none => rfl
  | some sen => exact bind_pure _

theorem typeChecks_cons (c : Convention) (type : Text) {types : List Text}
    (htypes : types ≠ []) : typeChecks c (type :: types) = (do
      checkType c type
      passFor .moreTypes .comma
      pass .space
      typeChecks c types) := by
  obtain ⟨type', types, rfl⟩ := List.exists_cons_of_ne_nil htypes
  rw [typeChecks, checkType]
  cases c.sentinel? type <;> rfl

theorem typeChecks_ok_iff {c : Convention} {types : List Text} {s s' : List Token} {u : Unit} :
    typeChecks c types s = .ok u s' ↔ ∃ x, ChecksTypes c types x ∧ s = x ++ s' := by
  induction types generalizing s with
  | nil =>
    rw [typeChecks, pure_ok_iff]
    constructor
    · rintro ⟨_, rfl⟩
      exact ⟨[], .nil, rfl⟩
    · rintro ⟨x, hx, rfl⟩
      cases hx
      exact ⟨rfl, rfl⟩
  | cons type types ih =>
    by_cases htypes : types = []
    · subst htypes
      rw [typeChecks_single, checkType_ok_iff]
      constructor
      · rintro ⟨x, hx, rfl⟩
        exact ⟨x, .single hx, rfl⟩
      · rintro ⟨x, hx, rfl⟩
        cases hx with
        | single hx => exact ⟨x, hx, rfl⟩
        | cons _ _ _ h => exact absurd rfl h
    · rw [typeChecks_cons c type htypes]
      simp only [bind_ok_iff, checkType_ok_iff, passFor_ok_iff (k := .comma) (by decide),
        pass_ok_iff (k := .space) (by decide), ih]
      constructor
      · rintro ⟨_, _, ⟨x, hx, rfl⟩, _, _, ⟨sep, hsep, rfl⟩, _, _, ⟨gap, hgap, rfl⟩, y, hy, rfl⟩
        exact ⟨_, .cons hx hsep hgap htypes hy, by simp⟩
      · rintro ⟨x, hx, rfl⟩
        cases hx with
        | single => exact absurd rfl htypes
        | @cons _ _ sep gap x y hx hsep hgap _ hy =>
          exact ⟨(), _, ⟨x, hx, by simp⟩, (), _, ⟨sep, hsep, rfl⟩, (), _, ⟨gap, hgap, rfl⟩,
            y, hy, rfl⟩

theorem needsSizeCheck_iff {c : Convention} {types : List Text} :
    c.needsSizeCheck types = true ↔ NeedsSize c types := by
  simp [Convention.needsSizeCheck, NeedsSize]

private theorem arrayRead_ok_iff {s s' : List Token} {u : Unit} :
    (do let _ ← Expression.readArray : TokenReader Unit) s = .ok u s' ↔
      ∃ items x, Derives (.array items) x ∧ s = x ++ s' := by
  rw [bind_ok_iff]
  constructor
  · rintro ⟨e, m, harr, hpure⟩
    obtain ⟨_, rfl⟩ := pure_ok_iff.1 hpure
    obtain ⟨items, x, _, hx, hs⟩ := Expression.readArray_eq_ok_iff.1 harr
    exact ⟨items, x, hx, hs⟩
  · rintro ⟨items, x, hx, hs⟩
    exact ⟨.array items, s', Expression.readArray_eq_ok_iff.2 ⟨items, x, rfl, hx, hs⟩, rfl⟩

theorem sizeCheck_ok_iff {s s' : List Token} {u : Unit} :
    sizeCheck s = .ok u s' ↔ ∃ x, ChecksSize x ∧ s = x ++ s' := by
  unfold sizeCheck
  rw [bind_ok_iff]
  constructor
  · rintro ⟨_, _, hcomma, hgaps⟩
    obtain ⟨sep, hsep, rfl⟩ := (passFor_ok_iff (by decide)).1 hcomma
    obtain ⟨_, _, hspace, hrest⟩ := bind_ok_iff.1 hgaps
    obtain ⟨gap, hgap, rfl⟩ := (pass_ok_iff (by decide)).1 hspace
    obtain ⟨_, rest, hget, h⟩ := bind_ok_iff.1 hrest
    obtain ⟨hread, rfl⟩ := get_ok_iff.1 hget
    rw [hread] at h
    by_cases hl : (next rest).kind = .leftBracket
    · rw [if_pos hl] at h
      obtain ⟨items, x, hx, rfl⟩ := arrayRead_ok_iff.1 h
      exact ⟨_, .array hsep hgap hx, rfl⟩
    · rw [if_neg hl] at h
      obtain ⟨t, ht, rfl⟩ := (pass_ok_iff (by decide)).1 h
      exact ⟨_, .number hsep hgap ht, rfl⟩
  · rintro ⟨w, hw, rfl⟩
    cases hw with
    | @number sep gap t hsep hgap ht =>
      refine ⟨(), _, (passFor_ok_iff (by decide)).2 ⟨sep, hsep, rfl⟩, bind_ok_iff.2
        ⟨(), _, (pass_ok_iff (by decide)).2 ⟨gap, hgap, rfl⟩, bind_ok_iff.2
        ⟨_, _, get_ok_iff.2 ⟨rfl, rfl⟩, ?_⟩⟩⟩
      have hl : (next (t :: s')).kind ≠ .leftBracket := by simp [next, ht]
      exact (congrFun (if_neg hl) _).trans ((pass_ok_iff (by decide)).2 ⟨t, ht, rfl⟩)
    | @array sep gap items x hsep hgap hx =>
      refine ⟨(), _, (passFor_ok_iff (by decide)).2 ⟨sep, hsep, rfl⟩, bind_ok_iff.2
        ⟨(), _, (pass_ok_iff (by decide)).2 ⟨gap, hgap, rfl⟩, bind_ok_iff.2
        ⟨_, _, get_ok_iff.2 ⟨rfl, rfl⟩, ?_⟩⟩⟩
      have hl : (next (x ++ s')).kind = .leftBracket := by
        cases hx with
        | empty hl => exact hl
        | bracketed hl => exact hl
      exact (congrFun (if_pos hl) _).trans (arrayRead_ok_iff.2 ⟨items, x, hx, rfl⟩)

def sizeCheckOf (c : Convention) (types : List Text) : TokenReader Unit :=
  if c.needsSizeCheck types then sizeCheck else pure ()

theorem sizeCheckOf_ok_iff {c : Convention} {types : List Text} {s s' : List Token} {u : Unit} :
    sizeCheckOf c types s = .ok u s' ↔ ∃ x, ChecksSizeOf c types x ∧ s = x ++ s' := by
  unfold sizeCheckOf ChecksSizeOf
  by_cases h : NeedsSize c types
  · rw [if_pos (needsSizeCheck_iff.2 h), sizeCheck_ok_iff]
    simp [h]
  · rw [if_neg (fun hc => h (needsSizeCheck_iff.1 hc)), pure_ok_iff]
    simp [h]

theorem entry_eq (c : Convention) (p : Parameter) : entry c p = (do
    passFor .missingTypeCheck .leftBracket
    let name ← need .string
    pass .comma
    pass .space
    let value ← Expression.read
    passFor .missingTypeCheck .comma
    pass .space
    pass .leftBracket
    typeChecks c p.types
    pass .rightBracket
    sizeCheckOf c p.types
    pass .rightBracket
    return { p with name? := some name.value, value? := some value }) := by
  unfold entry sizeCheckOf
  split <;> rfl

theorem entry_ok_iff {c : Convention} {p bound : Parameter} {s s' : List Token} :
    entry c p s = .ok bound s' ↔ ∃ x, Binds c p x bound ∧ s = x ++ s' := by
  rw [entry_eq]
  simp only [bind_ok_iff, pure_ok_iff, need_ok_iff (k := .string) (by decide),
    passFor_ok_iff (k := .leftBracket) (by decide), passFor_ok_iff (k := .comma) (by decide),
    pass_ok_iff (k := .comma) (by decide), pass_ok_iff (k := .space) (by decide),
    pass_ok_iff (k := .leftBracket) (by decide),
    pass_ok_iff (k := .rightBracket) (by decide), Expression.read_eq_ok_iff,
    typeChecks_ok_iff, sizeCheckOf_ok_iff]
  constructor
  · rintro ⟨_, _, ⟨l, hl, rfl⟩, name, _, ⟨rfl, hname⟩, _, _, ⟨sep, hsep, rfl⟩, _, _,
      ⟨gap, hgap, rfl⟩, e, _, ⟨x, hx, _, rfl⟩, _, _, ⟨sep', hsep', rfl⟩, _, _, ⟨gap', hgap', rfl⟩,
      _, _, ⟨l', hl', rfl⟩, _, _, ⟨y, hy, rfl⟩, _, _, ⟨r', hr', rfl⟩, _, _, ⟨z, hz, rfl⟩, _, _,
      ⟨r, hr, rfl⟩, rfl, rfl⟩
    exact ⟨_, .entry hl hname hsep hgap hx hsep' hgap' hl' hy hr' hz hr, by simp⟩
  · rintro ⟨w, hw, rfl⟩
    cases hw with
    | @entry l name sep gap sep' gap' l' r' r e x y z hl hname hsep hgap hx hsep' hgap' hl' hy hr'
        hz hr =>
      have hrest : ¬ Expression.Continues (sep' :: (gap' :: l' :: (y ++ r' :: (z ++ r :: s')))) :=
        Expression.not_continues_append Expression.filler_nil (by simp [hsep']) (by simp [hsep'])
      exact ⟨(), _, ⟨l, hl, rfl⟩, name, _, ⟨rfl, hname⟩, (), _, ⟨sep, hsep, rfl⟩, (), _,
        ⟨gap, hgap, rfl⟩, e, _, ⟨x, hx, hrest, by simp⟩, (), _, ⟨sep', hsep', rfl⟩, (), _,
        ⟨gap', hgap', rfl⟩, (), _, ⟨l', hl', rfl⟩, (), _, ⟨y, hy, rfl⟩, (), _, ⟨r', hr', rfl⟩,
        (), _, ⟨z, hz, rfl⟩, (), _, ⟨r, hr, rfl⟩, rfl, rfl⟩

theorem entries_cons (c : Convention) (log : List Event) (p : Parameter)
    {ps : List Parameter} (hps : ps ≠ []) : entries c log (p :: ps) = (do
      let bound ← logged log (entry c p)
      logged (log ++ [boundEvent bound]) do
        passFor .moreParameters .comma
        pass .newline
      return bound :: (← entries c (log ++ [boundEvent bound]) ps)) := by
  obtain ⟨p', ps, rfl⟩ := List.exists_cons_of_ne_nil hps
  rfl

theorem entries_single (c : Convention) (log : List Event) (p : Parameter) :
    entries c log [p] = (do
      let bound ← logged log (entry c p)
      return [bound]) := rfl

/-- Entries are accepted one by one, whatever was logged before them. -/
theorem entries_ok_iff {c : Convention} {p : Parameter} {ps bound : List Parameter}
    {log : List Event} {s s' : List Token} : entries c log (p :: ps) s = .ok bound s' ↔
      ∃ x, BindsAll c (p :: ps) x bound ∧ s = x ++ s' := by
  induction ps generalizing p log s s' bound with
  | nil =>
    rw [entries_single, bind_ok_iff]
    constructor
    · rintro ⟨q, m, hentry, hpure⟩
      obtain ⟨rfl, rfl⟩ := pure_ok_iff.1 hpure
      obtain ⟨x, hx, rfl⟩ := entry_ok_iff.1 (logged_ok_iff.1 hentry)
      exact ⟨x, .single hx, rfl⟩
    · rintro ⟨x, hx, rfl⟩
      cases hx with
      | single hx => exact ⟨_, _, logged_ok_iff.2 (entry_ok_iff.2 ⟨x, hx, rfl⟩), rfl⟩
      | cons _ _ _ hy => nomatch hy
  | cons p' ps ih =>
    rw [entries_cons c log p (by simp)]
    simp only [bind_ok_iff, pure_ok_iff, logged_ok_iff, entry_ok_iff, ih,
      passFor_ok_iff (k := .comma) (by decide), pass_ok_iff (k := .newline) (by decide)]
    constructor
    · rintro ⟨q, _, ⟨x, hx, rfl⟩, _, _, ⟨_, _, ⟨sep, hsep, rfl⟩, line, hline, rfl⟩, qs, _,
        ⟨y, hy, rfl⟩, rfl, rfl⟩
      exact ⟨_, .cons hx hsep hline hy, by simp⟩
    · rintro ⟨w, hw, rfl⟩
      cases hw with
      | @cons _ q _ qs sep line x y hx hsep hline hy =>
        exact ⟨q, _, ⟨x, hx, by simp⟩, (), _, ⟨(), _, ⟨sep, hsep, rfl⟩, line, hline, rfl⟩, qs, _,
          ⟨y, hy, rfl⟩, rfl, rfl⟩

theorem binding_ok_iff {c : Convention} {log : List Event} {p : Parameter}
    {ps bound : List Parameter} {s s' : List Token} :
    binding c log (p :: ps) s = .ok bound s' ↔ ∃ gap l indent y outdent,
      after s = gap :: l :: indent :: (y ++ outdent :: s') ∧ gap.kind = .space ∧
        l.kind = .leftBracket ∧ indent.kind = .indent ∧ BindsAll c (p :: ps) y bound ∧
        outdent.kind = .outdent := by
  unfold binding
  simp only [bind_ok_iff, pure_ok_iff, logged_ok_iff, entries_ok_iff, take_ok_iff,
    pass_ok_iff (k := .space) (by decide), pass_ok_iff (k := .leftBracket) (by decide),
    passFor_ok_iff (k := .indent) (by decide), passFor_ok_iff (k := .outdent) (by decide)]
  constructor
  · rintro ⟨_, _, ⟨_, _, ⟨rfl, rfl⟩, _, _, ⟨gap, hgap, hs⟩, _, _, ⟨l, hl, rfl⟩, indent, hindent,
      rfl⟩, _, _, ⟨y, hy, rfl⟩, _, _, ⟨outdent, houtdent, rfl⟩, rfl, rfl⟩
    exact ⟨gap, l, indent, y, outdent, hs, hgap, hl, hindent, hy, houtdent⟩
  · rintro ⟨gap, l, indent, y, outdent, hs, hgap, hl, hindent, hy, houtdent⟩
    exact ⟨(), _, ⟨_, _, ⟨rfl, rfl⟩, (), _, ⟨gap, hgap, hs⟩, (), _, ⟨l, hl, rfl⟩, indent, hindent,
      rfl⟩, bound, _, ⟨y, hy, rfl⟩, (), _, ⟨outdent, houtdent, rfl⟩, rfl, rfl⟩

private def headerOf (c : Convention) (comment : Token) : TokenReader Header :=
  match Header.read c comment.position.line comment.value with
  | .error violation => throw violation
  | .ok header => pure header

private theorem headerOf_ok_iff {c : Convention} {comment : Token} {h : Header}
    {s s' : List Token} : headerOf c comment s = .ok h s' ↔
      Header.read c comment.position.line comment.value = .ok h ∧ s = s' := by
  unfold headerOf
  cases Header.read c comment.position.line comment.value with
  | error violation => simp [throw_ne_ok]
  | ok header => simp [pure_ok_iff]

/-- The file of the include line must be the one that the convention knows. -/
private def knownInclude (c : Convention) (path : Token) : TokenReader Unit :=
  if path.value ≠ c.header then throw ⟨.unknownInclude path.value, path.position⟩ else pure ()

private theorem preamble_eq (c : Convention) : preamble c = (do
    pass .preprocessorStart
    let path ← need .preprocessorInclude
    knownInclude c path
    pass .newline
    let comment ← need .blockComment
    headerOf c comment) := by
  have hguard (path : Token) (rest : TokenReader Header) :
      (knownInclude c path >>= fun _ => rest) = if path.value ≠ c.header
        then (throw ⟨.unknownInclude path.value, path.position⟩ >>= fun _ : Unit => rest)
        else rest := by
    unfold knownInclude
    split <;> rfl
  simp only [hguard]
  rfl

theorem preamble_ok_iff {c : Convention} {h : Header} {s s' : List Token} :
    preamble c s = .ok h s' ↔ ∃ hash path line comment, s = hash :: path :: line :: comment :: s' ∧
      hash.kind = .preprocessorStart ∧ path.kind = .preprocessorInclude ∧ path.value = c.header ∧
      line.kind = .newline ∧ comment.kind = .blockComment ∧
      Header.read c comment.position.line comment.value = .ok h := by
  rw [preamble_eq]
  simp only [bind_ok_iff, pass_ok_iff (k := .preprocessorStart) (by decide),
    need_ok_iff (k := .preprocessorInclude) (by decide), knownInclude, unless_throw_ok_iff,
    pass_ok_iff (k := .newline) (by decide), need_ok_iff (k := .blockComment) (by decide),
    headerOf_ok_iff]
  constructor
  · rintro ⟨_, _, ⟨hash, hhash, rfl⟩, path, _, ⟨rfl, hpath⟩, _, _, ⟨hheader, rfl⟩, _, _,
      ⟨line, hline, rfl⟩, comment, _, ⟨rfl, hcomment⟩, hread, rfl⟩
    exact ⟨hash, path, line, comment, rfl, hhash, hpath, Decidable.not_not.1 hheader, hline,
      hcomment, hread⟩
  · rintro ⟨hash, path, line, comment, rfl, hhash, hpath, hheader, hline, hcomment, hread⟩
    exact ⟨(), _, ⟨hash, hhash, rfl⟩, path, _, ⟨rfl, hpath⟩, (), _,
      ⟨Decidable.not_not.2 hheader, rfl⟩, (), _, ⟨line, hline, rfl⟩, comment, _, ⟨rfl, hcomment⟩,
      hread, rfl⟩

private def statement (c : Convention) (header : Header) (s : List Token) : Checker Header :=
  let log := [Event.headerRead header.authors header.parameters.length]
  match decide ((next s).kind = .command ∧ (next s).value = c.parametersCommand),
      header.parameters with
  | true, [] => logged log (reject .undeclaredParameters)
  | false, _ :: _ => logged log (reject .unusedParameters)
  | true, parameters => return { header with parameters := ← binding c log parameters }
  | false, [] => return header

private theorem startsBinding_iff {c : Convention} {s : List Token} : StartsBinding c s ↔
    ((next s).kind = .command ∧ (next s).value = c.parametersCommand) := by
  cases s with
  | nil => simp [StartsBinding, next, Token.eos]
  | cons t more => simp [StartsBinding, next]

private theorem statement_ok_iff {c : Convention} {header h : Header} {s s' : List Token} :
    statement c header s s = .ok h s' ↔
      (header.parameters = [] ∧ ¬ StartsBinding c s ∧ h = header ∧ s' = s) ∨
      ∃ command gap l indent y outdent bound,
        s = command :: gap :: l :: indent :: (y ++ outdent :: s') ∧ command.kind = .command ∧
        command.value = c.parametersCommand ∧ gap.kind = .space ∧ l.kind = .leftBracket ∧
        indent.kind = .indent ∧ BindsAll c header.parameters y bound ∧ outdent.kind = .outdent ∧
        h = { header with parameters := bound } := by
  unfold statement
  by_cases hstart : StartsBinding c s
  · have hnext := decide_eq_true (startsBinding_iff.1 hstart)
    cases hp : header.parameters with
    | nil =>
      simp only [hnext, logged_ok_iff]
      constructor
      · intro h; cases h
      · rintro (⟨_, hno, _⟩ | ⟨_, _, _, _, _, _, _, _, _, _, _, _, _, hy, _⟩)
        · exact absurd hstart hno
        · nomatch hy
    | cons p ps =>
      simp only [hnext, bind_ok_iff, binding_ok_iff, pure_ok_iff]
      constructor
      · rintro ⟨bound, _, ⟨gap, l, indent, y, outdent, hs, hgap, hl, hindent, hy, houtdent⟩, rfl,
          rfl⟩
        obtain ⟨t, more, rfl, ht, hv⟩ := hstart
        have hafter : after (t :: more) = more := by simp [after, ht]
        rw [hafter] at hs
        subst hs
        exact .inr ⟨t, gap, l, indent, y, outdent, bound, rfl, ht, hv, hgap, hl, hindent, hy,
          houtdent, rfl⟩
      · rintro (⟨hnone, _⟩ | ⟨t, gap, l, indent, y, outdent, bound, rfl, ht, hv, hgap, hl, hindent,
          hy, houtdent, rfl⟩)
        · simp at hnone
        · exact ⟨bound, _, ⟨gap, l, indent, y, outdent, by simp [after, ht], hgap, hl, hindent, hy,
            houtdent⟩, rfl, rfl⟩
  · have hnext := decide_eq_false fun h => hstart (startsBinding_iff.2 h)
    have hno : ∀ t more, s = t :: more → t.kind = .command → t.value ≠ c.parametersCommand :=
      fun t more hs ht hv => hstart ⟨t, more, hs, ht, hv⟩
    cases hp : header.parameters with
    | nil =>
      simp only [hnext, pure_ok_iff]
      constructor
      · rintro ⟨rfl, rfl⟩
        exact .inl ⟨trivial, hstart, rfl, rfl⟩
      · rintro (⟨_, _, rfl, rfl⟩ | ⟨_, _, _, _, _, _, _, _, _, _, _, _, _, hy, _⟩)
        · simp
        · nomatch hy
    | cons p ps =>
      simp only [hnext, logged_ok_iff]
      constructor
      · intro h; cases h
      · rintro (⟨hnone, _⟩ | ⟨t, _, _, _, _, _, _, hs, ht, hv, _⟩)
        · simp at hnone
        · exact absurd hv (hno t _ hs ht)

private def opening (c : Convention) : Checker Header := do
  let header ← logged [] (preamble c)
  logged [Event.headerRead header.authors header.parameters.length] do
    pass .blank
    pass .newline
  return header

private theorem opening_ok_iff {c : Convention} {h : Header} {s s' : List Token} :
    opening c s = .ok h s' ↔ ∃ x, Declares c x h ∧ s = x ++ s' := by
  unfold opening
  simp only [bind_ok_iff, pure_ok_iff, logged_ok_iff, preamble_ok_iff,
    pass_ok_iff (k := .blank) (by decide), pass_ok_iff (k := .newline) (by decide)]
  constructor
  · rintro ⟨_, _, ⟨hash, path, line, comment, rfl, hhash, hpath, hheader, hline, hcomment, hread⟩,
      _, _, ⟨_, _, ⟨blank, hblank, rfl⟩, line', hline', rfl⟩, rfl, rfl⟩
    exact ⟨_, .opening hhash hpath hheader hline hcomment hread hblank hline', rfl⟩
  · rintro ⟨x, hx, rfl⟩
    cases hx with
    | @opening hash path line comment blank line' _ hhash hpath hheader hline hcomment hread
        hblank hline' =>
      exact ⟨h, _, ⟨hash, path, line, comment, rfl, hhash, hpath, hheader, hline, hcomment, hread⟩,
        (), _, ⟨(), _, ⟨blank, hblank, rfl⟩, line', hline', rfl⟩, rfl, rfl⟩

private theorem layout_eq (c : Convention) : layout c = (do
    let header ← opening c
    let s ← get
    statement c header s) := by
  unfold opening
  simp only [bind_assoc, pure_bind]
  rfl

theorem layout_of_declares {c : Convention} {h : Header} {x s : List Token} (hx : Declares c x h)
    (hparameters : h.parameters ≠ []) (hstart : StartsBinding c s) : layout c (x ++ s) =
      (binding c [.headerRead h.authors h.parameters.length] h.parameters >>= fun bound =>
        pure { h with parameters := bound }) s := by
  have hget : (get : Checker (List Token)) s = .ok s s := rfl
  rw [layout_eq, bind_of_ok (opening_ok_iff.2 ⟨x, hx, rfl⟩), bind_of_ok hget]
  unfold statement
  rw [decide_eq_true (startsBinding_iff.1 hstart)]
  cases hp : h.parameters with
  | nil => exact absurd hp hparameters
  | cons p ps => rfl

/-- The layout of a file is accepted, with the header of a conformant beginning of it. -/
theorem layout_ok_iff {c : Convention} {h : Header} {s : List Token} :
    (∃ s', layout c s = .ok h s') ↔ Conforms c s h := by
  rw [layout_eq]
  simp only [bind_ok_iff, get_ok_iff, opening_ok_iff]
  constructor
  · rintro ⟨s', header, _, ⟨x, hx, rfl⟩, s, _, ⟨rfl, rfl⟩, hend⟩
    obtain ⟨hnone, hno, rfl, rfl⟩ | ⟨t, gap, l, indent, y, outdent, bound, rfl, ht, hv, hgap, hl,
      hindent, hy, houtdent, rfl⟩ := statement_ok_iff.1 hend
    · exact .plain hx hnone hno
    · have hconforms : Conforms c (x ++ t :: gap :: l :: indent :: y ++ outdent :: s') _ :=
        .binding hx ht hv hgap hl hindent hy houtdent
      simpa using hconforms
  · intro h
    cases h with
    | plain hx hnone hrest =>
      exact ⟨_, _, _, ⟨_, hx, rfl⟩, _, _, ⟨rfl, rfl⟩,
        statement_ok_iff.2 (.inl ⟨hnone, hrest, rfl, rfl⟩)⟩
    | @binding command gap l indent outdent x y rest header bound hx ht hv hgap hl hindent hy
        houtdent =>
      exact ⟨rest, _, _, ⟨x, hx, by simp⟩, _, _, ⟨rfl, rfl⟩, statement_ok_iff.2 (.inr
        ⟨command, gap, l, indent, y, outdent, bound, rfl, ht, hv, hgap, hl, hindent, hy, houtdent,
          rfl⟩)⟩

theorem layout_ok_iff_closes {c : Convention} {h : Header} {s s' : List Token} (hbinds : h.parameters ≠ []) :
    layout c s = .ok h s' ↔ ∃ x, Closes c x h ∧ s = x ++ s' := by
  rw [layout_eq]
  simp only [bind_ok_iff, get_ok_iff, opening_ok_iff]
  constructor
  · rintro ⟨header, _, ⟨x, hx, rfl⟩, s, _, ⟨rfl, rfl⟩, hend⟩
    obtain ⟨hnone, -, rfl, -⟩ | ⟨t, gap, l, indent, y, outdent, bound, rfl, ht, hv, hgap, hl,
      hindent, hy, houtdent, rfl⟩ := statement_ok_iff.1 hend
    · exact absurd hnone hbinds
    · exact ⟨_, .binding hx ht hv hgap hl hindent hy houtdent, by simp⟩
  · rintro ⟨_, hx, rfl⟩
    cases hx with
    | @binding command gap l indent outdent x y header bound hx ht hv hgap hl hindent hy houtdent =>
      exact ⟨_, _, ⟨x, hx, by simp⟩, _, _, ⟨rfl, rfl⟩, statement_ok_iff.2 (.inr
        ⟨command, gap, l, indent, y, outdent, bound, rfl, ht, hv, hgap, hl, hindent, hy, houtdent, rfl⟩)⟩

theorem conforms_of_validate {c : Convention} {tokens : List Token} {h : Header}
    (hok : validate c tokens = .ok h) : Conforms c (complete tokens) h := by
  apply layout_ok_iff.1
  unfold validate check at hok
  cases hlayout : layout c (complete tokens) with
  | ok header s' =>
    rw [hlayout] at hok
    cases hok
    exact ⟨s', rfl⟩
  | error rejection s' =>
    rw [hlayout] at hok
    cases hok

theorem validate_of_conforms {c : Convention} {tokens : List Token} {h : Header}
    (hconforms : Conforms c (complete tokens) h) : validate c tokens = .ok h := by
  obtain ⟨s', hlayout⟩ := layout_ok_iff.2 hconforms
  unfold validate check
  rw [hlayout]
  rfl

/-- A stream of tokens is accepted if and only if it is one of a conformant file, whose header is
the answer. -/
theorem validate_eq_ok_iff (c : Convention) (tokens : List Token) (h : Header) :
    validate c tokens = .ok h ↔ Conforms c (complete tokens) h :=
  ⟨conforms_of_validate, validate_of_conforms⟩

theorem answer_of_stream {c : Convention} {source : Text} {tokens : List Token} (h : Token.stream source = .ok tokens) :
    answer c source = validate c tokens := by
  unfold answer
  rw [h]
  rfl

/-- A source is accepted if and only if it lexes as the tokens of a conformant file. -/
theorem answer_eq_ok_iff {c : Convention} {source : Text} {h : Header} : answer c source = .ok h ↔
    ∃ tokens, Token.stream source = .ok tokens ∧ Conforms c tokens h := by
  unfold answer
  cases hstream : Token.stream source with
  | error fault => simp [Except.mapError, bind, Except.bind]
  | ok tokens =>
    have hcomplete := TokenReader.complete_of_ends (Token.ends_of_stream hstream)
    constructor
    · intro hvalid
      exact ⟨tokens, rfl, hcomplete ▸ conforms_of_validate hvalid⟩
    · rintro ⟨_, heq, hconforms⟩
      cases heq
      exact validate_of_conforms (hcomplete.symm ▸ hconforms)

end SqfLayout.Layout
